import RouteLoom.Lib.Machine
import RouteLoom.Authority.Ledger

/-!
# Recovery of a quarantined authority ledger

A recovery writes the same first record of a new generation to both slots, one write at a time. The power
may be lost between any two of the four writes, and the next boot judges what it finds.

* `recoveryMachine` : recoveries, power cuts inside them, reboots and repeated initializations
* `recovered_generation_exceeds_iff` : the generation that leaves the quarantine exceeds every generation
  that the slots showed exactly if slot 1 alone, once slot 0 is overwritten, still shows enough of it
* `recovery_reuses_generation` : a cut after the first write brings an old generation back
-/

namespace RouteLoom.Authority

open Lib SingleAuthority Function

abbrev Slots := Fin 2 → List UInt8

/-- A running authority and its slots. -/
structure Ledger where
  authority : SingleAuthority
  slots : Slots

def readsOf (unreadable : Fin 2 → Option Status) (slots : Slots) : Fin 2 → Except Status (List UInt8) :=
  fun slot =>
    match unreadable slot with
    | some e => .error e
    | none => .ok (slots slot)

variable (network : NetworkId) (authority : NodeId) (slots : Slots) (slot : Fin 2)
  (record : ParsedRecord)

/-- A new authority initializes from the slots. -/
def boot (unreadable : Fin 2 → Option Status) (slots : Slots) : Ledger :=
  ⟨(initializeFrom (readsOf unreadable slots) { network := network, authority := authority }).2, slots⟩

inductive RecoveryEvent
  | recover (newGeneration : UInt32)
  | cut (newGeneration : UInt32) (writes : Nat) (unreadable : Fin 2 → Option Status)
  | reboot (unreadable : Fin 2 → Option Status)
  | again (unreadable : Fin 2 → Option Status)

def RecoveryEvent.next (l : Ledger) : RecoveryEvent → Ledger
  | .recover newGeneration =>
    match l.authority.recover newGeneration ⟨l.slots, none⟩ with
    | (.ok a, s) => ⟨a, s.slots⟩
    | (.error _, s) => ⟨l.authority, s.slots⟩
  | .cut newGeneration writes unreadable =>
    boot l.authority.network l.authority.authority unreadable
      (l.authority.recover newGeneration ⟨l.slots, some writes⟩).2.slots
  | .reboot unreadable => boot l.authority.network l.authority.authority unreadable l.slots
  | .again unreadable => ⟨(l.authority.initializeFrom (readsOf unreadable l.slots)).2, l.slots⟩

/-- From the slots as the first boot finds them. -/
def recoveryMachine :
    Machine Ledger RecoveryEvent Unit where
  Init l := l = boot network authority (fun _ => none) slots
  Enabled _ _ := True
  next := RecoveryEvent.next
  out _ _ := []

/-! ## What slots show -/

/-- The generation that a committed record shows, also if its checksum is wrong. -/
def shown (d : Decoded) : Nat := if d.committedFields then d.parsed.state.generation.toNat else 0

def slotAt : Decoded :=
  decodeRecord network authority (slots slot)

/-- The largest generation shown by either slot. -/
def maxShown : Nat :=
  max (shown (slotAt network authority slots first))
    (shown (slotAt network authority slots second))

/-- What the slots show is not lost with slot 0. -/
def sheltered : Bool :=
  let d := slotAt network authority slots second
  match d.content with
  | .valid => false
  | .empty | .pending => maxShown network authority slots == 0
  | .corrupt | .unsupported | .foreign => maxShown network authority slots ≤ max 1 (shown d)

theorem decodeRecord_fields (raw : List UInt8) :
    ((decodeRecord network authority raw).content = .empty ∨
      (decodeRecord network authority raw).content = .pending →
      (decodeRecord network authority raw).committedFields = false) ∧
    ((decodeRecord network authority raw).content = .valid ∨
      (decodeRecord network authority raw).content = .unsupported →
      (decodeRecord network authority raw).committedFields = true) := by
  unfold decodeRecord
  repeat' split
  all_goals simp

/-! ## Scans and verdicts -/

/-- Only floors and reservations differ, and the generation floor is not lower. -/
structure Scanned (a a' : SingleAuthority) : Prop where
  network : a'.network = a.network
  authority : a'.authority = a.authority
  state : a'.state = a.state
  initialized : a'.initialized = a.initialized
  quarantined : a'.quarantined = a.quarantined
  floor : a.maxGenerationSeen.toNat ≤ a'.maxGenerationSeen.toNat

theorem Scanned.refl (a : SingleAuthority) : Scanned a a := ⟨rfl, rfl, rfl, rfl, rfl, Nat.le_refl _⟩

variable {a : SingleAuthority}

theorem Scanned.trans {b c : SingleAuthority} (h : Scanned a b) (h' : Scanned b c) : Scanned a c :=
  ⟨h'.network.trans h.network, h'.authority.trans h.authority, h'.state.trans h.state,
    h'.initialized.trans h.initialized, h'.quarantined.trans h.quarantined, Nat.le_trans h.floor h'.floor⟩

theorem scanned_scanSlot (d : Option Decoded) (a : SingleAuthority) : Scanned a (a.scanSlot slot d) := by
  have hreserve : ∀ code, Scanned a (a.reserve slot code) := fun _ => ⟨rfl, rfl, rfl, rfl, rfl, Nat.le_refl _⟩
  have hraise : ∀ code p, Scanned a ((a.reserve slot code).raiseFloors p) := by
    intro code p
    refine (hreserve code).trans ⟨rfl, rfl, rfl, rfl, rfl, ?_⟩
    simp only [raiseFloors]
    split
    · next h => exact Nat.le_of_lt (UInt32.lt_iff_toNat_lt.mp h)
    · exact Nat.le_refl _
  unfold scanSlot
  split
  · exact hreserve _
  · split
    · exact hraise _ _
    · exact hreserve _
    · exact hraise _ _
    · split
      · exact hraise _ _
      · exact hreserve _
    · exact hreserve _
    · exact hreserve _

/-- A readable slot of this network counts with what it shows. -/
theorem scanSlot_maxGenerationSeen {d : Decoded} (a : SingleAuthority) (hforeign : d.content ≠ .foreign)
    (hblank : d.content = .empty ∨ d.content = .pending → d.committedFields = false)
    (hfields : d.content = .valid ∨ d.content = .unsupported → d.committedFields = true) :
    (a.scanSlot slot (some d)).maxGenerationSeen.toNat = max a.maxGenerationSeen.toNat (shown d) := by
  have hraise : ∀ (a : SingleAuthority), d.committedFields = true →
      (a.raiseFloors d.parsed).maxGenerationSeen.toNat = max a.maxGenerationSeen.toNat (shown d) := by
    intro a hcommitted
    simp only [raiseFloors, shown, hcommitted, if_true]
    split
    · next h =>
      have := UInt32.lt_iff_toNat_lt.mp h
      omega
    · next h =>
      rw [UInt32.lt_iff_toNat_lt] at h
      omega
  have hzero : d.committedFields = false → shown d = 0 := fun h => by simp [shown, h]
  cases hcontent : d.content with
  | valid =>
    simp only [scanSlot, hcontent]
    exact hraise (a.reserve ..) (hfields (.inl hcontent))
  | unsupported =>
    simp only [scanSlot, hcontent]
    exact hraise (a.reserve ..) (hfields (.inr hcontent))
  | foreign => exact absurd hcontent hforeign
  | corrupt =>
    simp only [scanSlot, hcontent]
    cases hcommitted : d.committedFields with
    | true => exact hraise (a.reserve ..) hcommitted
    | false => rw [hzero hcommitted, Nat.max_eq_left (Nat.zero_le _)]; rfl
  | empty =>
    rw [hzero (hblank (.inl hcontent)), Nat.max_eq_left (Nat.zero_le _)]
    simp only [scanSlot, hcontent]
    rfl
  | pending =>
    rw [hzero (hblank (.inr hcontent)), Nat.max_eq_left (Nat.zero_le _)]
    simp only [scanSlot, hcontent]
    rfl

/-- The verdict on slots that can be read. -/
def verdictOf : Verdict :=
  judge (some (slotAt network authority slots first))
    (some (slotAt network authority slots second)) ⟨.storageFailure, "authority ledger unreadable"⟩

/-- Both slots are scanned. -/
def scanBoth (a : SingleAuthority) : SingleAuthority :=
  (a.scanSlot first (some (slotAt network authority slots first))).scanSlot second
    (some (slotAt network authority slots second))

theorem scanned_scanBoth (a : SingleAuthority) : Scanned a (scanBoth network authority slots a) :=
  (scanned_scanSlot ..).trans (scanned_scanSlot ..)

def validIdentity : Bool :=
  !(network == 0 || authority == kInvalidNodeId || authority == kBroadcastNodeId)

theorem initializeFrom_readable (hid : validIdentity a.network a.authority = true)
    {unreadable : Fin 2 → Option Status} (h₀ : unreadable first = none)
    (h₁ : unreadable second = none) (slots : Slots) :
    a.initializeFrom (readsOf unreadable slots) = settle (verdictOf a.network a.authority slots)
      (scanBoth a.network a.authority slots a) := by
  have hid' : (a.network == 0 || a.authority == kInvalidNodeId || a.authority == kBroadcastNodeId) =
      false := by
    simpa [validIdentity] using hid
  unfold initializeFrom
  rw [hid', if_neg Bool.false_ne_true]
  dsimp only [readsOf]
  rw [h₀, h₁]
  rfl

theorem judge_unreadable {d₀ d₁ : Option Decoded} (h : d₀ = none ∨ d₁ = none) (e : Status) :
    judge d₀ d₁ e = .refused e := by
  rcases h with rfl | rfl
  · rfl
  · cases d₀ with
    | none => rfl
    | some d => rfl

theorem initializeFrom_unreadable (a : SingleAuthority) {unreadable : Fin 2 → Option Status}
    (h : ¬ (unreadable first = none ∧ unreadable second = none)) (slots : Slots) :
    Scanned a (a.initializeFrom (readsOf unreadable slots)).2 := by
  have hnone : ∀ slot, unreadable slot ≠ none →
      (readsOf unreadable slots slot).toOption.map (decodeRecord a.network a.authority) = none := by
    intro slot hslot
    obtain ⟨e, he⟩ := Option.ne_none_iff_exists'.mp hslot
    simp [readsOf, he, Except.toOption]
  unfold initializeFrom
  split
  · exact .refl a
  · dsimp only
    rw [judge_unreadable]
    · exact (scanned_scanSlot ..).trans (scanned_scanSlot ..)
    · by_cases h₀ : unreadable first = none
      · exact .inr (hnone _ fun h₁ => h ⟨h₀, h₁⟩)
      · exact .inl (hnone _ h₀)

/-! ## The writes of a recovery -/

/-- The slots after so many writes. -/
def recoverySlots (slots : Slots) : Nat → Slots
  | 0 => slots
  | 1 => update slots first (encodeRecord kSealPending record)
  | 2 => update slots first (encodeRecord kSealCommitted record)
  | 3 => update (update slots first (encodeRecord kSealCommitted record))
      second (encodeRecord kSealPending record)
  | _ => update (update slots first (encodeRecord kSealCommitted record))
      second (encodeRecord kSealCommitted record)

theorem storeRecord_unlimited (slots : Slots) :
    storeRecord slot record ⟨slots, none⟩ =
      (.ok (), ⟨update slots slot (encodeRecord kSealCommitted record), none⟩) := by
  simp [storeRecord, bind, writeSlot, readSlot, Op.check, refuse]

theorem storeRecord_limited (slots : Slots) (k : Nat) :
    storeRecord slot record ⟨slots, some (k + 2)⟩ =
      (.ok (), ⟨update slots slot (encodeRecord kSealCommitted record), some k⟩) := by
  simp [storeRecord, bind, writeSlot, readSlot, Op.check, refuse]

/-- A recovery that is allowed. -/
structure Allowed (newGeneration : UInt32) (a : SingleAuthority) : Prop where
  initialized : a.initialized = true
  quarantined : a.quarantined = true
  above : a.maxGenerationSeen < newGeneration

theorem recover_refused {g : UInt32} (h : ¬ Allowed g a) (s : LedgerStorage) :
    ∃ e, a.recover g s = (.error e, s) := by
  simp only [recover, bind, Op.check, refuse]
  cases hinit : a.initialized with
  | false => exact ⟨_, rfl⟩
  | true =>
    cases hq : a.quarantined with
    | false => exact ⟨_, rfl⟩
    | true =>
      have hle : g ≤ a.maxGenerationSeen := by
        by_contra hlt
        exact h ⟨hinit, hq, UInt32.not_le.mp hlt⟩
      simp [hle]

theorem recover_allowed {g : UInt32} (h : Allowed g a) (slots : Slots) :
    a.recover g ⟨slots, none⟩ = (.ok { a with
      slotReserved := fun _ => none, state := a.genesis g, lastOperationHash := zeroDigest
      revision := a.recoveryFloor + 1, activeSlot := first, hasActive := true
      quarantined := false }, ⟨recoverySlots (a.recoveryRecord g) slots 4, none⟩) := by
  have hle : ¬ g ≤ a.maxGenerationSeen := UInt32.not_le.mpr h.above
  simp [recover, bind, Op.check, refuse, h.initialized, h.quarantined, hle, storeRecord_unlimited,
    pure, recoverySlots]

theorem recover_cut {g : UInt32} (h : Allowed g a) (slots : Slots) (k : Nat) :
    (a.recover g ⟨slots, some k⟩).2.slots = recoverySlots (a.recoveryRecord g) slots k := by
  have hle : ¬ g ≤ a.maxGenerationSeen := UInt32.not_le.mpr h.above
  have hstart : ∀ s, a.recover g s = (do
      storeRecord first (a.recoveryRecord g)
      storeRecord second (a.recoveryRecord g)
      pure { a with
        slotReserved := fun _ => none, state := a.genesis g, lastOperationHash := zeroDigest
        revision := a.recoveryFloor + 1, activeSlot := first, hasActive := true
        quarantined := false } : LedgerOp SingleAuthority) s := by
    intro s
    simp [recover, bind, Op.check, refuse, h.initialized, h.quarantined, hle]
  rw [hstart]
  rcases k with _ | _ | _ | _ | k
  · rfl
  · rfl
  · simp only [bind]
    rw [storeRecord_limited _ _ _ 0]
    rfl
  · simp only [bind]
    rw [storeRecord_limited _ _ _ 1]
    rfl
  · simp only [bind]
    rw [storeRecord_limited _ _ _ (k + 2)]
    dsimp only
    rw [storeRecord_limited _ _ _ k]
    rfl

/-! ## The invariant -/

section Invariant

variable {network : NetworkId} {authority : NodeId} {slots slots' : Slots}

/-- As the first boot found them, but for a recovery that was cut after its first write. -/
def Held (network : NetworkId) (authority : NodeId) (slots slots' : Slots) : Prop :=
  slots' second = slots second ∧ (slots' first = slots first ∨
    slotAt network authority slots' first = { content := .pending })

/-- A boot from these slots stays in quarantine or exceeds what was shown. -/
def Good (network : NetworkId) (authority : NodeId) (slots slots' : Slots) : Prop :=
  match verdictOf network authority slots' with
  | .active _ record => maxShown network authority slots < record.state.generation.toNat
  | .unwritten => maxShown network authority slots < 1
  | .quarantine _ _ => Held network authority slots slots'
  | .refused _ => True

/-- What the invariant says of a running authority. -/
structure Proven (network : NetworkId) (authority : NodeId) (slots slots' : Slots) (a : SingleAuthority) :
    Prop where
  ofNetwork : a.network = network
  ofAuthority : a.authority = authority
  floor : 1 ≤ a.maxGenerationSeen.toNat
  held : a.quarantined = true → Held network authority slots slots' ∧
    maxShown network authority slots ≤ a.maxGenerationSeen.toNat
  out : a.initialized = true → a.quarantined = false →
    maxShown network authority slots < a.state.generation.toNat

theorem Proven.scanned {a' : SingleAuthority} (h : Proven network authority slots slots' a)
    (hscan : Scanned a a') : Proven network authority slots slots' a' where
  ofNetwork := hscan.network.trans h.ofNetwork
  ofAuthority := hscan.authority.trans h.ofAuthority
  floor := Nat.le_trans h.floor hscan.floor
  held hq := by
    obtain ⟨hheld, hle⟩ := h.held (hscan.quarantined ▸ hq)
    exact ⟨hheld, Nat.le_trans hle hscan.floor⟩
  out hinit hq := by
    rw [hscan.state]
    exact h.out (hscan.initialized ▸ hinit) (hscan.quarantined ▸ hq)

variable {code : StatusCode} {detail : String}

theorem judge_quarantine {d₀ d₁ : Decoded} {e : Status}
    (h : judge (some d₀) (some d₁) e = .quarantine code detail) :
    d₀.content ≠ .foreign ∧ d₁.content ≠ .foreign ∧ (d₁.content ≠ .valid → d₀.content ≠ .valid) := by
  unfold judge at h
  cases h₀ : d₀.content <;> cases h₁ : d₁.content <;> simp_all

theorem scanBoth_maxGenerationSeen (hverdict : verdictOf network authority slots = .quarantine code detail)
    (a : SingleAuthority) : (scanBoth network authority slots a).maxGenerationSeen.toNat =
      max a.maxGenerationSeen.toNat (maxShown network authority slots) := by
  obtain ⟨hforeign₀, hforeign₁, -⟩ := judge_quarantine hverdict
  have hfields := fun slot => decodeRecord_fields network authority (slots slot)
  unfold scanBoth maxShown
  rw [scanSlot_maxGenerationSeen _ _ hforeign₁ (hfields _).1 (hfields _).2,
    scanSlot_maxGenerationSeen _ _ hforeign₀ (hfields _).1 (hfields _).2, Nat.max_assoc]

theorem slotAt_second (h : Held network authority slots slots') :
    slotAt network authority slots' second = slotAt network authority slots second :=
  congrArg (decodeRecord network authority) h.1

/-- Slots that stay in quarantine still show what the first boot found. -/
theorem maxShown_le_of_held (hheld : Held network authority slots slots')
    (hverdict : verdictOf network authority slots' = .quarantine code detail)
    (hsafe : sheltered network authority slots = true ∨ slots' = slots) :
    maxShown network authority slots ≤ max 1 (maxShown network authority slots') := by
  obtain hsheltered | rfl := hsafe
  · have hslot₁ := slotAt_second hheld
    obtain hsame₀ | hpending := hheld.2
    · have hslot₀ : slotAt network authority slots' first = slotAt network authority slots first :=
        congrArg (decodeRecord network authority) hsame₀
      unfold maxShown
      rw [hslot₀, hslot₁]
      exact Nat.le_max_right ..
    · -- slot 0 is gone, and slot 1 alone keeps the ledger in quarantine
      rw [verdictOf, hpending, hslot₁] at hverdict
      unfold sheltered at hsheltered
      dsimp only at hsheltered
      cases hcontent : (slotAt network authority slots second).content with
      | valid => simp [hcontent] at hsheltered
      | empty | pending | foreign => simp [judge, hcontent] at hverdict
      | corrupt | unsupported =>
        rw [hcontent] at hsheltered
        have hle := of_decide_eq_true hsheltered
        have hright : shown (slotAt network authority slots second) ≤ maxShown network authority slots' :=
          hslot₁ ▸ Nat.le_max_right ..
        omega
  · exact Nat.le_max_right ..

theorem Proven.initializeFrom (h : Proven network authority slots slots' a)
    (hid : validIdentity network authority = true)
    (hsafe : sheltered network authority slots = true ∨ slots' = slots)
    (hgood : Good network authority slots slots') (unreadable : Fin 2 → Option Status) :
    Proven network authority slots slots' (a.initializeFrom (readsOf unreadable slots')).2 := by
  by_cases hread : unreadable first = none ∧ unreadable second = none
  · rw [initializeFrom_readable (by rw [h.ofNetwork, h.ofAuthority]; exact hid) hread.1 hread.2, h.ofNetwork,
      h.ofAuthority]
    have hscan := h.scanned (scanned_scanBoth network authority slots' a)
    unfold Good at hgood
    cases hverdict : verdictOf network authority slots' with
    | active slot record | unwritten =>
      rw [hverdict] at hgood
      exact ⟨hscan.ofNetwork, hscan.ofAuthority, hscan.floor, hscan.held, fun _ _ => hgood⟩
    | quarantine code detail =>
      rw [hverdict] at hgood
      refine ⟨hscan.ofNetwork, hscan.ofAuthority, hscan.floor, fun _ => ⟨hgood, ?_⟩, fun _ hq => ?_⟩
      · dsimp only [settle]
        rw [scanBoth_maxGenerationSeen hverdict]
        have hshown := maxShown_le_of_held hgood hverdict hsafe
        have hfloor := h.floor
        omega
      · cases hq
    | refused status => exact hscan
  · exact h.scanned (initializeFrom_unreadable a hread slots')

/-- After the first write slot 0 is pending, and slot 1 is as it was. -/
theorem slotAt_cut (record : ParsedRecord) :
    slotAt network authority (recoverySlots record slots 1) first = { content := .pending } ∧
      slotAt network authority (recoverySlots record slots 1) second =
        slotAt network authority slots second := by
  have hne : second ≠ first := by decide
  simp only [slotAt, recoverySlots, update_self, update_of_ne hne, decodeRecord_pending, and_self]

theorem verdictOf_cut (record : ParsedRecord) :
    verdictOf network authority (recoverySlots record slots 1) =
      judge (some { content := .pending }) (some (slotAt network authority slots second))
        ⟨.storageFailure, "authority ledger unreadable"⟩ := by
  rw [verdictOf, (slotAt_cut record).1, (slotAt_cut record).2]

/-- The slots after any number of the writes of an allowed recovery. -/
theorem good_recoverySlots (hheld : Held network authority slots slots')
    (hgood : Good network authority slots slots') (hsheltered : sheltered network authority slots = true)
    {record : ParsedRecord} (hnetwork : record.state.network = network)
    (hauthority : record.state.authority = authority)
    (hnew : maxShown network authority slots < record.state.generation.toNat) (j : Nat) :
    Good network authority slots (recoverySlots record slots' j) := by
  have hcommitted := decodeRecord_committed hnetwork hauthority
  have hslot₁ := slotAt_second hheld
  have hne : second ≠ first := by decide
  unfold sheltered at hsheltered
  dsimp only at hsheltered
  match j with
  | 0 => exact hgood
  | 1 =>
    have hrest : recoverySlots record slots' 1 second = slots' second :=
      update_of_ne hne ..
    unfold Good
    rw [verdictOf_cut, hslot₁]
    cases hcontent : (slotAt network authority slots second).content with
    | valid => simp [hcontent] at hsheltered
    | empty | pending =>
      simp only [hcontent, beq_iff_eq] at hsheltered
      simp [judge, hcontent, hsheltered]
    | foreign => simp [judge, hcontent]
    | corrupt | unsupported =>
      simp only [judge, hcontent]
      exact ⟨hrest.trans hheld.1, .inr (slotAt_cut record).1⟩
  | 2 =>
    have hvalid : slotAt network authority (recoverySlots record slots' 2) first =
        { content := .valid, parsed := record, committedFields := true } := by
      simp only [slotAt, recoverySlots, update_self, hcommitted]
    have hsame : slotAt network authority (recoverySlots record slots' 2) second =
        slotAt network authority slots second := by
      rw [← hslot₁]
      simp only [slotAt, recoverySlots, update_of_ne hne]
    have hnot : (slotAt network authority slots second).content ≠ .valid := by
      intro hcontent
      simp [hcontent] at hsheltered
    unfold Good verdictOf
    rw [hvalid, hsame]
    simpa [judge, hnot] using hnew
  | 3 =>
    unfold Good verdictOf
    simp only [slotAt, recoverySlots, update_self, update_of_ne hne.symm, decodeRecord_pending, hcommitted]
    simpa [judge] using hnew
  | j + 4 =>
    unfold Good verdictOf
    simp only [slotAt, recoverySlots, update_self, update_of_ne hne.symm, hcommitted]
    simpa [judge, consistentPair] using hnew

theorem boot_readable (hid : validIdentity network authority = true) :
    boot network authority (fun _ => none) slots = ⟨(settle (verdictOf network authority slots)
      (scanBoth network authority slots { network := network, authority := authority })).2, slots⟩ := by
  unfold boot
  rw [initializeFrom_readable hid rfl rfl]

theorem validIdentity_of_quarantined
    (h : (boot network authority (fun _ => none) slots).authority.quarantined = true) :
    validIdentity network authority = true := by
  by_contra hid
  rw [validIdentity, Bool.not_eq_true, Bool.not_eq_false'] at hid
  unfold boot initializeFrom at h
  rw [if_pos hid] at h
  cases h

theorem quarantine_of_boot (h : (boot network authority (fun _ => none) slots).authority.quarantined = true) :
    ∃ code detail, verdictOf network authority slots = .quarantine code detail := by
  rw [boot_readable (validIdentity_of_quarantined h)] at h
  have hscan := scanned_scanBoth network authority slots { network := network, authority := authority }
  cases hverdict : verdictOf network authority slots with
  | active slot record | unwritten | refused status =>
    rw [hverdict] at h
    cases hscan.quarantined.symm.trans h
  | quarantine code detail => exact ⟨code, detail, rfl⟩

theorem boot_of_quarantine (hid : validIdentity network authority = true)
    (hverdict : verdictOf network authority slots = .quarantine code detail) :
    (boot network authority (fun _ => none) slots).authority.initialized = true ∧
      (boot network authority (fun _ => none) slots).authority.quarantined = true ∧
      (boot network authority (fun _ => none) slots).authority.network = network ∧
      (boot network authority (fun _ => none) slots).authority.authority = authority ∧
      (boot network authority (fun _ => none) slots).authority.maxGenerationSeen.toNat =
        max 1 (maxShown network authority slots) := by
  have hscan := scanned_scanBoth network authority slots { network := network, authority := authority }
  rw [boot_readable hid, hverdict]
  exact ⟨rfl, rfl, hscan.network, hscan.authority, scanBoth_maxGenerationSeen hverdict _⟩

theorem maxShown_le : maxShown network authority slots ≤ 2 ^ 32 - 1 := by
  have hshown : ∀ d, shown d ≤ 2 ^ 32 - 1 := by
    intro d
    unfold shown
    split
    · have := d.parsed.state.generation.toNat_lt
      omega
    · exact Nat.zero_le _
  exact Nat.max_le.mpr ⟨hshown _, hshown _⟩

/-! ## Runs of sheltered slots, and at the last generation -/

structure LedgerInv (network : NetworkId) (authority : NodeId) (slots : Slots) (l : Ledger) : Prop where
  good : Good network authority slots l.slots
  proven : Proven network authority slots l.slots l.authority

theorem LedgerInv.boot (hid : validIdentity network authority = true)
    (hsafe : sheltered network authority slots = true ∨ slots' = slots)
    (hgood : Good network authority slots slots') (unreadable : Fin 2 → Option Status) :
    LedgerInv network authority slots (boot network authority unreadable slots') := by
  have hfresh : Proven network authority slots slots' { network := network, authority := authority } :=
    ⟨rfl, rfl, Nat.le_refl _, fun h => absurd h Bool.false_ne_true, fun h => absurd h Bool.false_ne_true⟩
  exact ⟨hgood, hfresh.initializeFrom hid hsafe hgood unreadable⟩

/-- Slots that are not sheltered are not written: no generation is left for a recovery. -/
theorem LedgerInv.step {l : Ledger} (h : LedgerInv network authority slots l)
    (hid : validIdentity network authority = true)
    (hsafe : sheltered network authority slots = true ∨ l.slots = slots)
    (hcase : sheltered network authority slots = true ∨ maxShown network authority slots = 2 ^ 32 - 1)
    (e : RecoveryEvent) : LedgerInv network authority slots (e.next l) ∧
      (sheltered network authority slots = true ∨ (e.next l).slots = slots) := by
  have hwrites : ∀ {g}, Allowed g l.authority → sheltered network authority slots = true ∧
      maxShown network authority slots < g.toNat ∧
      ∀ k, Good network authority slots (recoverySlots (l.authority.recoveryRecord g) l.slots k) := by
    intro g hallowed
    obtain ⟨hheld, hfloor⟩ := h.proven.held hallowed.quarantined
    have hnew := Nat.lt_of_le_of_lt hfloor (UInt32.lt_iff_toNat_lt.mp hallowed.above)
    have hlt := g.toNat_lt
    have hsheltered := hcase.resolve_right (by omega)
    exact ⟨hsheltered, hnew,
      good_recoverySlots hheld h.good hsheltered h.proven.ofNetwork h.proven.ofAuthority hnew⟩
  cases e with
  | recover g =>
    by_cases hallowed : Allowed g l.authority
    · simp only [RecoveryEvent.next, recover_allowed hallowed]
      obtain ⟨hsheltered, hnew, hgood⟩ := hwrites hallowed
      exact ⟨⟨hgood 4, h.proven.ofNetwork, h.proven.ofAuthority, h.proven.floor, fun hq => (by cases hq),
        fun _ _ => hnew⟩, .inl hsheltered⟩
    · obtain ⟨e, hrefused⟩ := recover_refused hallowed ⟨l.slots, none⟩
      simp only [RecoveryEvent.next, hrefused]
      exact ⟨h, hsafe⟩
  | cut g k unreadable =>
    simp only [RecoveryEvent.next, h.proven.ofNetwork, h.proven.ofAuthority]
    by_cases hallowed : Allowed g l.authority
    · rw [recover_cut hallowed]
      obtain ⟨hsheltered, -, hgood⟩ := hwrites hallowed
      exact ⟨.boot hid (.inl hsheltered) (hgood k) unreadable, .inl hsheltered⟩
    · obtain ⟨e, hrefused⟩ := recover_refused hallowed ⟨l.slots, some k⟩
      rw [hrefused]
      exact ⟨.boot hid hsafe h.good unreadable, hsafe⟩
  | reboot unreadable =>
    simp only [RecoveryEvent.next, h.proven.ofNetwork, h.proven.ofAuthority]
    exact ⟨.boot hid hsafe h.good unreadable, hsafe⟩
  | again unreadable =>
    exact ⟨⟨h.good, h.proven.initializeFrom hid hsafe h.good unreadable⟩, hsafe⟩

/-! ## Runs of slots that are not sheltered -/

/-- The ledger is out of quarantine, with a generation that is not new. -/
def Reuses (network : NetworkId) (authority : NodeId) (slots : Slots) (l : Ledger) : Prop :=
  l.authority.initialized = true ∧ l.authority.quarantined = false ∧
    l.authority.state.generation.toNat ≤ maxShown network authority slots

theorem allowed_succ (hinit : a.initialized = true) (hq : a.quarantined = true)
    (hlast : a.maxGenerationSeen.toNat < 2 ^ 32 - 1) :
    Allowed (a.maxGenerationSeen + 1) a ∧
      (a.maxGenerationSeen + 1).toNat = a.maxGenerationSeen.toNat + 1 := by
  have hsucc : (a.maxGenerationSeen + 1).toNat = a.maxGenerationSeen.toNat + 1 := by
    refine toNat_succ fun heq => ?_
    rw [heq] at hlast
    exact absurd hlast (by decide)
  refine ⟨⟨hinit, hq, ?_⟩, hsucc⟩
  rw [UInt32.lt_iff_toNat_lt, hsucc]
  exact Nat.lt_succ_self _

/-- After the first write, only slot 1 is left to judge by. -/
theorem reuses_of_not_sheltered
    (h : (boot network authority (fun _ => none) slots).authority.quarantined = true)
    (hlast : maxShown network authority slots ≠ 2 ^ 32 - 1)
    (hsheltered : sheltered network authority slots = false) :
    ∃ l, (recoveryMachine network authority slots).Run l [] ∧ Reuses network authority slots l := by
  have hid := validIdentity_of_quarantined h
  obtain ⟨code, detail, hverdict⟩ := quarantine_of_boot h
  obtain ⟨hinit, -, hnetwork, hauthority, hmax⟩ := boot_of_quarantine hid hverdict
  have hle : maxShown network authority slots ≤ 2 ^ 32 - 1 := maxShown_le
  obtain ⟨hallowed, -⟩ := allowed_succ hinit h (by omega)
  generalize hg : (boot network authority (fun _ => none) slots).authority.maxGenerationSeen + 1 = g at hallowed
  -- cut after the first write, and reboot
  have hrun : (recoveryMachine network authority slots).Run (boot network authority (fun _ => none)
      (recoverySlots ((boot network authority (fun _ => none) slots).authority.recoveryRecord g) slots 1))
      [] := by
    have hstep := (Machine.Run.init (M := recoveryMachine network authority slots) rfl).step
      (e := .cut g 1 fun _ => none) trivial
    have hcut := recover_cut hallowed slots 1
    simp only [recoveryMachine, RecoveryEvent.next, hnetwork, hauthority] at hstep
    rw [show (boot network authority (fun _ => none) slots).slots = slots from rfl, hcut] at hstep
    exact hstep
  generalize (boot network authority (fun _ => none) slots).authority.recoveryRecord g = record at hrun
  obtain ⟨-, hforeign, -⟩ := judge_quarantine hverdict
  have hfields := decodeRecord_fields network authority (slots second)
  unfold sheltered at hsheltered
  dsimp only at hsheltered
  have hscan := scanned_scanBoth network authority (recoverySlots record slots 1)
    { network := network, authority := authority }
  have hstuck : ∀ code detail, verdictOf network authority (recoverySlots record slots 1) =
      .quarantine code detail → max 1 (shown (slotAt network authority slots second)) <
        maxShown network authority slots →
      ∃ l, (recoveryMachine network authority slots).Run l [] ∧ Reuses network authority slots l := by
    intro code detail hquarantine hlt
    obtain ⟨hinit', hq', -, -, hmax'⟩ := boot_of_quarantine hid hquarantine
    have hshown : maxShown network authority (recoverySlots record slots 1) =
        shown (slotAt network authority slots second) := by
      rw [maxShown, (slotAt_cut record).1, (slotAt_cut record).2]
      exact Nat.max_eq_right (Nat.zero_le _)
    rw [hshown] at hmax'
    obtain ⟨hallowed', hsucc⟩ := allowed_succ hinit' hq' (by omega)
    refine ⟨_, hrun.step (e := .recover ((boot network authority (fun _ => none)
      (recoverySlots record slots 1)).authority.maxGenerationSeen + 1)) trivial, ?_⟩
    simp only [recoveryMachine, RecoveryEvent.next, recover_allowed hallowed']
    refine ⟨hinit', rfl, ?_⟩
    dsimp only [genesis]
    omega
  cases hcontent : (slotAt network authority slots second).content with
  | valid =>
    have hactive : verdictOf network authority (recoverySlots record slots 1) =
        .active second (slotAt network authority slots second).parsed := by
      rw [verdictOf_cut]
      simp [judge, hcontent]
    refine ⟨_, hrun, ?_⟩
    rw [boot_readable hid, hactive]
    refine ⟨rfl, hscan.quarantined, ?_⟩
    have hcommitted := hfields.2 (.inl hcontent)
    have hshown : shown (slotAt network authority slots second) =
        (slotAt network authority slots second).parsed.state.generation.toNat := if_pos hcommitted
    dsimp only [settle]
    rw [← hshown]
    exact Nat.le_max_right ..
  | empty | pending =>
    have hunwritten : verdictOf network authority (recoverySlots record slots 1) = .unwritten := by
      rw [verdictOf_cut]
      simp [judge, hcontent]
    refine ⟨_, hrun, ?_⟩
    rw [boot_readable hid, hunwritten]
    refine ⟨rfl, hscan.quarantined, ?_⟩
    simp only [hcontent, beq_eq_false_iff_ne] at hsheltered
    exact Nat.one_le_iff_ne_zero.mpr hsheltered
  | foreign => exact absurd hcontent hforeign
  | corrupt =>
    simp only [hcontent, decide_eq_false_iff_not, Nat.not_le] at hsheltered
    refine hstuck .integrityError "authority ledger corrupt" ?_ hsheltered
    rw [verdictOf_cut]
    simp [judge, hcontent]
  | unsupported =>
    simp only [hcontent, decide_eq_false_iff_not, Nat.not_le] at hsheltered
    refine hstuck .unsupported "authority ledger schema unsupported" ?_ hsheltered
    rw [verdictOf_cut]
    simp [judge, hcontent]

end Invariant

/-- Only operations of the current generation are valid, and none while in quarantine. -/
theorem generation_of_validate {operation : AuthorityOperation} {verified : Bool}
    (h : a.validate operation verified = .ok ()) :
    a.initialized = true ∧ a.quarantined = false ∧ operation.generation = a.state.generation := by
  unfold validate at h
  split at h
  · cases h
  next hinit =>
  split at h
  · cases h
  next hq =>
  split at h
  · cases h
  split at h
  · cases h
  next hscope =>
  simp only [Bool.or_eq_true, bne_iff_ne, ne_eq, not_or, Decidable.not_not] at hscope
  exact ⟨by simpa using hinit, by simpa using hq, hscope.2⟩

/-- **Out of quarantine, the generation exceeds all that the slots showed, and no operation of an earlier
one is valid, in every run exactly if the slots are sheltered or no generation is left.** -/
theorem recovered_generation_exceeds_iff (network : NetworkId) (authority : NodeId) (slots : Slots)
    (hquarantined : (boot network authority (fun _ => none) slots).authority.quarantined = true) :
    (∀ l h, (recoveryMachine network authority slots).Run l h →
      (l.authority.initialized = true → l.authority.quarantined = false →
        maxShown network authority slots < l.authority.state.generation.toNat) ∧
      ∀ operation verified, l.authority.validate operation verified = .ok () →
        maxShown network authority slots < operation.generation.toNat) ↔
    sheltered network authority slots = true ∨ maxShown network authority slots = 2 ^ 32 - 1 := by
  have hid := validIdentity_of_quarantined hquarantined
  obtain ⟨code, detail, hverdict⟩ := quarantine_of_boot hquarantined
  constructor
  · intro hall
    by_contra hnot
    rw [not_or, Bool.not_eq_true] at hnot
    obtain ⟨l, hrun, hinit, hq, hle⟩ := reuses_of_not_sheltered hquarantined hnot.2 hnot.1
    exact Nat.not_lt.mpr hle ((hall l [] hrun).1 hinit hq)
  · intro hcase l h hrun
    have hgood : Good network authority slots slots := by
      unfold Good
      rw [hverdict]
      exact ⟨rfl, .inl rfl⟩
    have hinv : LedgerInv network authority slots l ∧
        (sheltered network authority slots = true ∨ l.slots = slots) := by
      refine hrun.invariant (I := fun l _ => LedgerInv network authority slots l ∧
        (sheltered network authority slots = true ∨ l.slots = slots)) ?_ ?_
      · rintro _ rfl
        exact ⟨.boot hid (.inr rfl) hgood _, .inr rfl⟩
      · exact fun l h e hinv _ => hinv.1.step hid hinv.2 hcase e
    have hout := hinv.1.proven.out
    refine ⟨hout, fun operation verified hvalid => ?_⟩
    obtain ⟨hinit, hq, hgeneration⟩ := generation_of_validate hvalid
    rw [hgeneration]
    exact hout hinit hq

/-! ## Concrete slots -/

/-- A committed record of network 1 and authority 1. -/
def sampleRecord (revision : UInt64) (generation : UInt32) : List UInt8 :=
  encodeRecord kSealCommitted { revision := revision, state := ⟨1, 1, generation, 3, zeroDigest⟩ }

/-- The record of generation 9 lost its checksum, and slot 0 never held more. -/
def shelteredSlots : Slots := fun slot =>
  if slot = first then List.replicate 156 0xFF else (sampleRecord 4 9).set 155 0

theorem recovered_generation_exceeds_sample :
    sheltered 1 1 shelteredSlots = true ∧ maxShown 1 1 shelteredSlots = 9 ∧
      ∀ l h, (recoveryMachine 1 1 shelteredSlots).Run l h → l.authority.initialized = true →
        l.authority.quarantined = false → 9 < l.authority.state.generation.toNat := by
  have hsheltered : sheltered 1 1 shelteredSlots = true := by decide +kernel
  have hshown : maxShown 1 1 shelteredSlots = 9 := by decide +kernel
  refine ⟨hsheltered, hshown, fun l h hrun hinit hq => ?_⟩
  have hall := (recovered_generation_exceeds_iff 1 1 shelteredSlots (by decide +kernel)).mpr (.inl hsheltered)
  exact hshown ▸ (hall l h hrun).1 hinit hq

/-- Two records that do not follow one another: the newer one, of generation 9, is in slot 0. -/
def forkedSlots : Slots := fun slot => if slot = first then sampleRecord 8 9 else sampleRecord 4 5

/-- The first boot quarantines the ledger. A recovery with generation 10 is cut after its first write;
the next boot runs at generation 5, and an operation that was signed for it is valid again. -/
theorem recovery_reuses_generation :
    (boot 1 1 (fun _ => none) forkedSlots).authority.quarantined = true ∧ maxShown 1 1 forkedSlots = 9 ∧
      ∃ l, (recoveryMachine 1 1 forkedSlots).Run l [] ∧ l.authority.quarantined = false ∧
        l.authority.state.generation = 5 ∧
        l.authority.validate ⟨1, 1, 5, 4, zeroDigest, zeroDigest⟩ true = .ok () := by
  have hrun : (recoveryMachine 1 1 forkedSlots).Run
      (RecoveryEvent.next (boot 1 1 (fun _ => none) forkedSlots) (.cut 10 1 fun _ => none)) [] :=
    (Machine.Run.init (M := recoveryMachine 1 1 forkedSlots) rfl).step
      (e := RecoveryEvent.cut 10 1 fun _ => none) trivial
  exact ⟨by decide +kernel, by decide +kernel, _, hrun, by decide +kernel, by decide +kernel,
    by decide +kernel⟩

end RouteLoom.Authority
