import RouteLoom.Security.SessionBank

/-!
# What a call can do to the sessions

Every method of the bank moves the sessions in one of a few ways, whatever else it changes.

* `Quiet` : sessions may disappear, nothing else happens to them; `Rests` : and the clock stands still
* `Blank` : all sessions are gone and the serials start over
* `Places` : a new context takes a slot, and the one it replaces may go to the overlap table
* `Draws` : a context hands out its next counter
* `Spends` : a context gives up its reservation
* `Accepts` : a receive window records a counter that was fresh in it
-/

namespace RouteLoom.SessionBank

open Lib

variable {L E : Nat} {bank bank' bank'' : SessionBank L E}

/-! ## Lookup -/

theorem mem_allSlots (slot : Slot L E) : slot ∈ allSlots L E := by
  cases slot with
  | link i => exact List.mem_append_left _ (List.mem_map.mpr ⟨i, List.mem_finRange i, rfl⟩)
  | endToEnd i => exact List.mem_append_right _ (List.mem_map.mpr ⟨i, List.mem_finRange i, rfl⟩)

variable {scope : SecurityScope} {slot : Slot L E} {entry : SessionBankEntry} {peer : NodeId}

theorem mem_slotsFrom {start : Nat} (hscope : unicastScope scope = true) :
    slot ∈ slotsFrom L E scope start ↔ slot.scope = scope := by
  unfold slotsFrom
  cases slot with
  | link i =>
    cases scope with
    | link => simpa [Slot.scope] using mem_around start i
    | endToEnd => simp [Slot.scope]
    | group => cases hscope
    | groupLink => cases hscope
  | endToEnd i =>
    cases scope with
    | link => simp [Slot.scope]
    | endToEnd => simpa [Slot.scope] using mem_around start i
    | group => cases hscope
    | groupLink => cases hscope

theorem findCurrent_some (h : bank.findCurrent scope peer = some (slot, entry)) :
    slot.scope = scope ∧ bank.current slot = some entry ∧ entry.peer = peer := by
  unfold findCurrent at h
  split at h
  · rename_i hscope
    obtain ⟨s, hs, hfound⟩ := List.exists_of_findSome?_eq_some h
    obtain ⟨e, he, hpeer⟩ := Option.bind_eq_some_iff.mp hfound
    split at hpeer
    · rename_i hp
      cases hpeer
      exact ⟨(mem_slotsFrom hscope).mp hs, he, beq_iff_eq.mp hp⟩
    · cases hpeer
  · cases h

theorem findCurrent_none (hscope : unicastScope scope = true) (h : bank.findCurrent scope peer = none)
    (hslot : slot.scope = scope) (hentry : bank.current slot = some entry) : entry.peer ≠ peer := by
  rw [findCurrent, if_pos hscope, List.findSome?_eq_none_iff] at h
  have := h slot ((mem_slotsFrom hscope).mpr hslot)
  rw [hentry, Option.bind_some] at this
  rintro rfl
  simp at this

theorem freeSlot_some (hscope : unicastScope scope = true) (h : bank.freeSlot scope peer = some slot) :
    slot.scope = scope ∧ bank.current slot = none := by
  refine ⟨(mem_slotsFrom hscope).mp (List.mem_of_find?_eq_some h), ?_⟩
  simpa using List.find?_some h

/-! ## Flags -/

theorem or_and_of_disjoint {f a b : UInt32} (h : a &&& b = 0) : (f ||| a) &&& b = f &&& b := by
  apply UInt32.toBitVec_inj.mp
  rw [UInt32.toBitVec_and, UInt32.toBitVec_or, UInt32.toBitVec_and]
  refine BitVec.eq_of_getLsbD_eq fun i _ => ?_
  have hab := congrArg (fun x : UInt32 => x.toBitVec.getLsbD i) h
  simp only [UInt32.toBitVec_and, BitVec.getLsbD_and, UInt32.toBitVec_zero, BitVec.getLsbD_zero] at hab
  simp only [BitVec.getLsbD_and, BitVec.getLsbD_or]
  revert hab
  cases f.toBitVec.getLsbD i <;> cases a.toBitVec.getLsbD i <;> simp

theorem and_not_and_of_disjoint {f a b : UInt32} (h : ~~~a &&& b = b) : (f &&& ~~~a) &&& b = f &&& b := by
  rw [UInt32.and_assoc, h]

theorem and_not_and_self (f a : UInt32) : (f &&& ~~~a) &&& a = 0 := by
  rw [UInt32.and_assoc, UInt32.not_and_self, UInt32.and_zero]

/-! ## Quiet moves -/

/-- The same session: only flags other than the reservation may differ. -/
structure Same (entry entry' : SessionBankEntry) : Prop where
  eq : entry' = { entry with flags := entry'.flags }
  reserved : entry'.flags &&& kFlagSealReserved = entry.flags &&& kFlagSealReserved

theorem Same.refl (entry : SessionBankEntry) : Same entry entry := ⟨rfl, rfl⟩

theorem Same.trans {a b c : SessionBankEntry} (h₁ : Same a b) (h₂ : Same b c) : Same a c := by
  refine ⟨?_, h₂.reserved.trans h₁.reserved⟩
  have heq := h₂.eq
  rw [h₁.eq] at heq
  exact heq

structure Quiet (bank bank' : SessionBank L E) : Prop where
  current : ∀ slot entry', bank'.current slot = some entry' →
    ∃ entry, bank.current slot = some entry ∧ Same entry entry'
  overlap : ∀ i entry, bank'.overlap.slots i = some entry → bank.overlap.slots i = some entry
  serial : bank'.installSerial = bank.installSerial

theorem Quiet.refl (bank : SessionBank L E) : Quiet bank bank :=
  ⟨fun _ entry h => ⟨entry, h, Same.refl entry⟩, fun _ _ h => h, rfl⟩

theorem Quiet.trans (h₁ : Quiet bank bank') (h₂ : Quiet bank' bank'') : Quiet bank bank'' := by
  refine ⟨fun slot entry'' h => ?_, fun i entry h => h₁.overlap i entry (h₂.overlap i entry h),
    h₂.serial.trans h₁.serial⟩
  obtain ⟨entry', h', hsame'⟩ := h₂.current slot entry'' h
  obtain ⟨entry, h, hsame⟩ := h₁.current slot entry' h'
  exact ⟨entry, h, hsame.trans hsame'⟩

theorem Quiet.of_eq (hc : bank'.current = bank.current) (ho : bank'.overlap = bank.overlap)
    (hs : bank'.installSerial = bank.installSerial) : Quiet bank bank' :=
  ⟨fun slot entry h => ⟨entry, by rwa [hc] at h, Same.refl entry⟩, fun i entry h => by rwa [ho] at h,
    hs⟩

instance : Std.Refl (Quiet (L := L) (E := E)) := ⟨Quiet.refl⟩

/-- The clock and the epoch stand still, and the next look at the deadlines is not put off. -/
structure Calm (bank bank' : SessionBank L E) : Prop where
  configured : bank'.configured = bank.configured
  lastTick : bank'.lastTick = bank.lastTick
  view : bank'.view = bank.view
  nextExpiry : bank'.nextExpiry ≤ bank.nextExpiry

theorem Calm.refl (bank : SessionBank L E) : Calm bank bank :=
  ⟨rfl, rfl, rfl, UInt64.le_refl _⟩

theorem Calm.trans (h₁ : Calm bank bank') (h₂ : Calm bank' bank'') : Calm bank bank'' :=
  ⟨h₂.configured.trans h₁.configured, h₂.lastTick.trans h₁.lastTick, h₂.view.trans h₁.view,
    UInt64.le_trans h₂.nextExpiry h₁.nextExpiry⟩

instance : Std.Refl (Calm (L := L) (E := E)) := ⟨Calm.refl⟩

/-- A quiet move during which the clock stands still. -/
structure Rests (bank bank' : SessionBank L E) : Prop where
  quiet : Quiet bank bank'
  calm : Calm bank bank'

theorem Rests.refl (bank : SessionBank L E) : Rests bank bank := ⟨Quiet.refl bank, Calm.refl bank⟩

theorem Rests.trans (h₁ : Rests bank bank') (h₂ : Rests bank' bank'') : Rests bank bank'' :=
  ⟨h₁.quiet.trans h₂.quiet, h₁.calm.trans h₂.calm⟩

instance : Std.Refl (Rests (L := L) (E := E)) := ⟨Rests.refl⟩

instance : Trans (Rests (L := L) (E := E)) Rests Rests := ⟨Rests.trans⟩

theorem min_le_left' (a b : UInt64) : min a b ≤ a := by
  change (if a ≤ b then a else b) ≤ a
  split
  · exact UInt64.le_refl a
  · rename_i h
    exact UInt64.le_of_lt (UInt64.not_le.mp h)

section

variable (bank : SessionBank L E)

theorem rests_recordDemand (scope : SecurityScope) (peer : NodeId) :
    Rests bank (bank.recordDemand scope peer) := by
  have hwrite : ∀ i, Rests bank { (bank.expiresAfter bank.view.demandHoldMs).2 with
      demand := bank.demand.set i
        { peer, holdMs := (bank.expiresAfter bank.view.demandHoldMs).1, scope } } := fun _ =>
    ⟨Quiet.of_eq rfl rfl rfl, rfl, rfl, rfl, min_le_left' _ _⟩
  unfold recordDemand
  dsimp only
  split
  · exact hwrite _
  · split
    · exact hwrite _
    · exact Rests.refl bank

theorem rests_wipeCurrentIf (p : Slot L E → SessionBankEntry → Bool) : Rests bank (bank.wipeCurrentIf p) :=
  ⟨⟨fun _ entry h => ⟨entry, (Option.filter_eq_some_iff.mp h).1, Same.refl entry⟩, fun _ _ h => h,
    rfl⟩, rfl, rfl, rfl, UInt64.le_refl _⟩

theorem rests_wipeOverlapIf (p : SessionOverlapEntry → Bool) : Rests bank (bank.wipeOverlapIf p) :=
  ⟨⟨fun _ entry h => ⟨entry, h, Same.refl entry⟩, fun _ _ h => (Option.filter_eq_some_iff.mp h).1,
    rfl⟩, rfl, rfl, rfl, UInt64.le_refl _⟩

theorem quiet_expire (now : MonotonicMs) : Quiet bank (bank.expire now) :=
  (rests_wipeCurrentIf bank _).quiet.trans
    ((rests_wipeOverlapIf _ _).quiet.trans (Quiet.of_eq rfl rfl rfl))

theorem quiet_advanceGk (gkEpoch : UInt32) : Quiet bank (bank.advanceGk gkEpoch) := by
  unfold advanceGk
  refine (rests_wipeOverlapIf bank fun _ => true).quiet.trans (Quiet.trans ?_ (rests_wipeCurrentIf _ _).quiet)
  exact Quiet.of_eq rfl rfl rfl

theorem rests_retired (scope : SecurityScope) (peer : NodeId) : Rests bank (bank.retired scope peer) :=
  (rests_wipeCurrentIf bank _).trans ((rests_wipeOverlapIf _ _).trans
    ⟨Quiet.of_eq rfl rfl rfl, rfl, rfl, rfl, UInt64.le_refl _⟩)

theorem touch_current (slot : Slot L E) : (bank.touch slot).current = bank.current := by
  cases slot with
  | link i => rfl
  | endToEnd i => rfl

theorem touch_overlap (slot : Slot L E) : (bank.touch slot).overlap = bank.overlap := by
  cases slot with
  | link i => rfl
  | endToEnd i => rfl

theorem touch_installSerial (slot : Slot L E) : (bank.touch slot).installSerial = bank.installSerial := by
  cases slot with
  | link i => rfl
  | endToEnd i => rfl

end

/-! ## The other moves -/

/-- No session is left. -/
structure Blank (bank : SessionBank L E) : Prop where
  current : ∀ slot, bank.current slot = none
  overlap : ∀ i, bank.overlap.slots i = none

/-- `entry` lost its transmit side to the overlap entry `demoted`. -/
structure Demoted (scope : SecurityScope) (entry : SessionBankEntry) (demoted : SessionOverlapEntry) :
    Prop where
  scope : demoted.scope = scope
  peer : demoted.peer = entry.peer
  rxCid : demoted.rxCid = entry.rxCid
  serial : demoted.installSerial = entry.installSerial
  rx : overlapRx demoted = entryRx entry

/-- The replaced context of a slot is dropped, or goes to a free overlap entry. -/
def Replaces (bank bank' : SessionBank L E) (slot : Slot L E) : Prop :=
  bank'.overlap = bank.overlap ∨
    ∃ i entry demoted, bank.current slot = some entry ∧ bank.overlap.slots i = none ∧
      bank'.overlap = bank.overlap.set i demoted ∧ Demoted slot.scope entry demoted

/-- The slot belongs to the peer, or it is free and the peer has no other one in its scope. -/
def Claims (bank : SessionBank L E) (slot : Slot L E) (peer : NodeId) : Prop :=
  (∃ old, bank.current slot = some old ∧ old.peer = peer) ∨
    bank.current slot = none ∧
      ∀ s e, s.scope = slot.scope → bank.current s = some e → e.peer ≠ peer

/-- `entry` becomes the current context at `slot`, with a new serial. -/
structure Places (bank bank' : SessionBank L E) (slot : Slot L E) (entry : SessionBankEntry) :
    Prop where
  current : bank'.current = Function.update bank.current slot (some entry)
  overlap : Replaces bank bank' slot
  serial : bank'.installSerial = bank.installSerial + 1
  exhausted : bank.installSerial ≠ 0xFFFFFFFF
  entrySerial : entry.installSerial = bank.installSerial + 1
  peer : Claims bank slot entry.peer
  rxCid : entry.rxCid ≠ 0
  freshCurrent : ∀ s e, s ≠ slot → bank.current s = some e → e.rxCid ≠ entry.rxCid
  freshOverlap : ∀ i e, bank.overlap.slots i = some e → e.rxCid ≠ entry.rxCid

/-- The context at `slot` hands out its next counter. -/
structure Draws (bank bank' : SessionBank L E) (slot : Slot L E) (entry : SessionBankEntry) : Prop where
  found : bank.current slot = some entry
  current : bank'.current = Function.update bank.current slot (some (drawn entry))
  overlap : bank'.overlap = bank.overlap
  serial : bank'.installSerial = bank.installSerial
  budget : entry.txNext < kMaxUseCounter

/-- The context at `slot` gives up its reservation of the last counter. -/
structure Spends (bank bank' : SessionBank L E) (slot : Slot L E) (entry : SessionBankEntry) :
    Prop where
  found : bank.current slot = some entry
  reserved : entry.flags &&& kFlagSealReserved ≠ 0
  current : bank'.current = Function.update bank.current slot
    (some { entry with flags := entry.flags &&& ~~~kFlagSealReserved })
  overlap : bank'.overlap = bank.overlap
  serial : bank'.installSerial = bank.installSerial

/-- Where a receive key is held, and its window. -/
def rxAt (bank : SessionBank L E) : RxHolder L E → Option RxContext
  | .current slot => (bank.current slot).map entryRx
  | .overlap i => (bank.overlap.slots i).map overlapRx

/-- The bank with another window at `holder`. -/
def setRx (bank : SessionBank L E) (holder : RxHolder L E) (window : UInt64 × UInt64) :
    SessionBank L E :=
  match holder with
  | .current slot =>
    { bank with
      current := Function.update bank.current slot
        ((bank.current slot).map ({ · with rxMax := window.1, rxBitmap := window.2 })) }
  | .overlap i =>
    { bank with
      overlap := bank.overlap.modify i ({ · with rxMax := window.1, rxBitmap := window.2 }) }

/-- The window does not know the counter yet. -/
def FreshIn (rx : RxContext) (counter : UInt64) : Prop :=
  counter ≤ rx.rxMax → rx.rxMax - counter < 64 ∧ (rx.rxBitmap >>> (rx.rxMax - counter)) &&& 1 = 0

/-- The window at `holder` records a fresh counter. -/
structure Accepts (bank bank' : SessionBank L E) (holder : RxHolder L E) (rx : RxContext)
    (counter : UInt64) : Prop where
  found : bank.rxAt holder = some rx
  fresh : FreshIn rx counter
  eq : bank' = bank.setRx holder (slideRx rx counter)

/-! ## Methods that make quiet moves -/

/-- Whether the method succeeds or fails, it makes a quiet move. -/
def QuietOp {α : Type} (m : BankOp L E α) : Prop :=
  ∀ bank, Op.wp m (fun _ b => Quiet bank b) (fun _ b => Quiet bank b) bank

theorem quietOp_tick (now : MonotonicMs) : QuietOp (tick now : BankOp L E Unit) := by
  refine Op.along_get fun bank => Op.along_check fun _ => Op.along_check fun _ => ?_
  split
  · exact Quiet.of_eq rfl rfl rfl
  · exact quiet_expire bank now

theorem quietOp_setGkEpoch (gkEpoch : UInt32) : QuietOp (setGkEpoch gkEpoch : BankOp L E Unit) := by
  refine Op.along_get fun bank => Op.along_check fun _ => Op.along_check fun _ => ?_
  split
  · exact Quiet.refl bank
  · exact quiet_advanceGk bank gkEpoch

/-! ## Methods that rest -/

theorem rests_allocateContextId (draws : List (Option UInt32)) :
    Op.Along Rests (allocateContextId draws : BankOp L E UInt32) :=
  Op.along_get fun bank => Op.along_check fun _ =>
    (Op.wp_check _).mpr ⟨fun _ _ => Rests.refl bank, fun _ _ => Rests.refl bank⟩

section

variable (scope : SecurityScope) (peer : NodeId)

theorem rests_retire : Op.Along Rests (retire scope peer : BankOp L E Unit) :=
  Op.along_get fun bank => Op.along_check fun _ => Op.along_check fun _ => rests_retired bank scope peer

theorem rests_retireAll : Op.Along Rests (retireAll peer : BankOp L E Unit) :=
  Op.along_get fun bank => Op.along_check fun _ =>
    (rests_retire .link peer).bind (fun _ => rests_retire .endToEnd peer) bank

theorem rests_retireBelow (minGeneration : UInt32) :
    Op.Along Rests (retireBelow scope peer minGeneration : BankOp L E Bool) := by
  refine Op.along_get fun bank => ?_
  split
  · exact (rests_retire scope peer).bind (fun _ => Op.along_pure true) bank
  · exact Rests.refl bank

theorem rests_retireBelowGeneration (minGeneration : UInt32) :
    Op.Along Rests (retireBelowGeneration peer minGeneration : BankOp L E (Bool × Bool)) := by
  refine Op.along_get fun bank => Op.along_check fun _ => Op.along_check fun _ => ?_
  refine (rests_retireBelow .link peer minGeneration).bind (fun _ => ?_) bank
  refine (rests_retireBelow .endToEnd peer minGeneration).bind fun _ => ?_
  exact Op.along_get fun bank => rests_wipeOverlapIf bank _

theorem rests_evictIdleEnd : Op.Along Rests (evictIdleEnd : BankOp L E NodeId) := by
  refine Op.along_get fun bank => Op.along_check fun _ => ?_
  split
  · exact Rests.refl bank
  · rename_i victim _
    exact (rests_retire .endToEnd victim.peer).bind (fun _ => Op.along_pure _) bank

theorem rests_takeDemand : Op.Along Rests (takeDemand : BankOp L E (Option SessionDemand)) := by
  refine Op.along_get fun bank => ?_
  split
  · exact Rests.refl bank
  · exact ⟨Quiet.of_eq rfl rfl rfl, rfl, rfl, rfl, UInt64.le_refl _⟩

theorem rests_noteDemand : Op.Along Rests (noteDemand scope peer : BankOp L E Unit) := by
  refine Op.along_get fun bank => ?_
  split
  · exact rests_recordDemand bank scope peer
  · exact Rests.refl bank

theorem rests_noteRxUnknown : Op.Along Rests (noteRxUnknown scope peer : BankOp L E Unit) := by
  refine Op.along_get fun bank => ?_
  split
  · exact Rests.refl bank
  · show Rests bank (if _ then _ else _)
    split
    · exact (rests_recordDemand bank scope peer).trans ⟨Quiet.of_eq rfl rfl rfl, rfl, rfl, rfl,
        UInt64.le_refl _⟩
    · exact rests_recordDemand bank scope peer

theorem rests_txEpoch : Op.Along Rests (txEpoch scope peer : BankOp L E UInt32) := by
  refine Op.along_get fun bank => Op.along_check fun _ => Op.along_check fun _ =>
    Op.along_check fun _ => ?_
  split
  · exact Rests.refl bank
  · exact rests_recordDemand bank scope peer

theorem update_current (bank : SessionBank L E) (slot : Slot L E) (entry : SessionBankEntry) :
    (bank.update slot entry).current = Function.update bank.current slot (some entry) := rfl

theorem Quiet.update {entry' : SessionBankEntry} (hfound : bank.current slot = some entry)
    (hsame : Same entry entry') : Quiet bank (bank.update slot entry') := by
  refine ⟨fun s e he => ?_, fun _ _ h => h, rfl⟩
  rw [update_current] at he
  rcases update_eq_some he with ⟨rfl, rfl⟩ | ⟨-, he⟩
  · exact ⟨entry, hfound, hsame⟩
  · exact ⟨e, he, Same.refl e⟩

theorem rests_setPinned (pinned : Bool) : Op.Along Rests (setPinned scope peer pinned : BankOp L E Unit) := by
  refine Op.along_get fun bank => Op.along_check fun _ => ?_
  split
  · exact Rests.refl bank
  · rename_i slot entry hfound
    refine ⟨Quiet.update (findCurrent_some hfound).2.1 ⟨rfl, ?_⟩, rfl, rfl, rfl, UInt64.le_refl _⟩
    dsimp only
    split
    · exact or_and_of_disjoint (by decide)
    · exact and_not_and_of_disjoint (by decide)

section

variable (bank : SessionBank L E) (scope : SecurityScope)

/-- An image of the context of a scope and peer: only lifetime and housekeeping flags differ. -/
def ImageOf (peer : NodeId) (image : SessionBankEntry) : Prop :=
  ∃ slot entry, bank.findCurrent scope peer = some (slot, entry) ∧
    image = { entry with remainingMs := image.remainingMs, flags := image.flags } ∧
    image.flags &&& kFlagSealReserved = entry.flags &&& kFlagSealReserved

theorem wp_exportEntry (peer : NodeId) :
    Op.wp (exportEntry scope peer) (fun image b => b = bank ∧ ImageOf bank scope peer image)
      (fun _ b => b = bank) bank := by
  unfold exportEntry
  rw [Op.wp_bind, Op.wp_get]
  refine Op.wp_check_bind (fun _ _ => rfl) fun _ _ => Op.wp_check_bind (fun _ _ => rfl) fun _ _ => ?_
  split
  · exact rfl
  · rename_i slot entry hfound
    exact ⟨rfl, slot, entry, (Option.filter_eq_some_iff.mp hfound).1, rfl, rfl⟩

theorem wp_exportSleepEntry (peer : NodeId) :
    Op.wp (exportSleepEntry scope peer) (fun image b => b = bank ∧ ImageOf bank scope peer image)
      (fun _ b => b = bank) bank := by
  unfold exportSleepEntry
  rw [Op.wp_bind]
  refine (wp_exportEntry bank scope peer).mono (fun image b hb => ?_) fun _ _ hb => hb
  obtain ⟨rfl, slot, entry, hfound, heq, hflags⟩ := hb
  refine Op.wp_check_bind (fun _ _ => rfl) fun _ _ => Op.wp_check_bind (fun _ _ => rfl) fun _ _ => ?_
  refine ⟨rfl, slot, entry, hfound, ?_, ?_⟩
  · rw [heq]
  · exact (and_not_and_of_disjoint (by decide)).trans hflags

/-! ## Methods that place a context -/

theorem blank_wipeAll : Blank bank.wipeAll :=
  ⟨fun _ => rfl, fun _ => rfl⟩

theorem wp_configure (view : LocalView) (bound : Bool) (salt : Option (Vector UInt8 32)) (now : MonotonicMs) :
    Op.wp (configure view bound salt now) (fun _ b => Blank b) (fun _ b => b = bank) bank := by
  unfold configure
  refine Op.wp_check_bind (fun _ _ => rfl) fun _ _ => ?_
  cases salt with
  | none => exact rfl
  | some salt =>
    rw [Op.wp_bind, Op.wp_get, Op.wp_set]
    exact ⟨fun _ => rfl, fun _ => rfl⟩

theorem wp_resetMembership (view : LocalView) (salt : Option (Vector UInt8 32)) (now : MonotonicMs) :
    Op.wp (resetMembership view salt now) (fun _ b => Blank b) (fun _ b => b = bank) bank := by
  unfold resetMembership
  rw [Op.wp_bind, Op.wp_get]
  exact Op.wp_check_bind (fun _ _ => rfl) fun _ _ => wp_configure bank view true salt now

end

theorem checkUnused_ok {except : Option (Slot L E)} {txKey : SessionKey} {txIv : SessionIv}
    {rxCid : UInt32} {u : Unit} (h : bank.checkUnused except txKey txIv rxCid = .ok u) :
    (∀ s e, except ≠ some s → bank.current s = some e → e.rxCid ≠ rxCid) ∧
      ∀ i e, bank.overlap.slots i = some e → e.rxCid ≠ rxCid := by
  unfold checkUnused at h
  obtain ⟨_, hall, h⟩ := bind_eq_ok.mp h
  rw [refuse_eq_ok, List.any_eq_false] at h
  rw [checkAll_eq_ok] at hall
  constructor
  · intro s e hs he
    obtain ⟨_, hid⟩ := refuse_bind_eq_ok.mp (hall s (mem_allSlots s))
    have hne : ¬ (except == some s) = true := by simpa using hs
    rw [refuse_eq_ok, if_neg hne, he] at hid
    simpa using hid
  · intro i e he
    simpa using h e (Pool.mem_toList.mpr ⟨i, he⟩)

/-- Writing a context that was checked to be unused is a placement. -/
theorem places_place (slot : Slot L E) (entry : SessionBankEntry) (lifetimeMs : UInt32)
    (hexhausted : bank.installSerial ≠ 0xFFFFFFFF) (hid : entry.rxCid ≠ 0)
    (hpeer : Claims bank slot entry.peer)
    (hcurrent : ∀ s e, s ≠ slot → bank.current s = some e → e.rxCid ≠ entry.rxCid)
    (hoverlap : ∀ i e, bank.overlap.slots i = some e → e.rxCid ≠ entry.rxCid)
    (hc : bank'.current = bank.current) (hs : bank'.installSerial = bank.installSerial)
    (ho : Replaces bank bank' slot) :
    ∃ remainingMs, Places bank (bank'.place slot entry lifetimeMs) slot
      { entry with remainingMs, installSerial := bank.installSerial + 1 } := by
  refine ⟨(bank'.expiresAfter lifetimeMs).1, ?_, ?_, ?_, hexhausted, rfl, hpeer, hid, hcurrent, hoverlap⟩
  · show (touch _ slot).current = _
    rw [touch_current]
    show Function.update bank'.current slot (some _) = _
    rw [hc, ← hs]
    rfl
  · have heq : (bank'.place slot entry lifetimeMs).overlap = bank'.overlap := by
      show (touch _ slot).overlap = _
      rw [touch_overlap]
    unfold Replaces
    rw [heq]
    exact ho
  · show (touch _ slot).installSerial = _
    rw [touch_installSerial, ← hs]

theorem demote_current (bank : SessionBank L E) (scope : SecurityScope) (entry : SessionBankEntry) :
    (bank.demote scope entry).current = bank.current := by
  unfold demote
  split
  · rfl
  · rfl

theorem demote_installSerial (bank : SessionBank L E) (scope : SecurityScope)
    (entry : SessionBankEntry) : (bank.demote scope entry).installSerial = bank.installSerial := by
  unfold demote
  split
  · rfl
  · rfl

end

theorem replaces_demote (hfound : bank.current slot = some entry) :
    Replaces bank (bank.demote slot.scope entry) slot := by
  unfold demote
  split
  · exact Or.inl rfl
  · rename_i i hfree
    have hnone : bank.overlap.slots i = none := by simpa using firstSlot_some hfree
    exact Or.inr ⟨i, entry, _, hfound, hnone, rfl, rfl, rfl, rfl, rfl, rfl⟩

theorem checkInstall_ok {keys : ContextKeys} {att : InstallAttestation} {u : Unit}
    (h : bank.checkInstall keys att = .ok u) :
    unicastScope keys.scope = true ∧ keys.rxContextId ≠ 0 ∧ bank.installSerial ≠ 0xFFFFFFFF ∧
      (∀ s e, (bank.findCurrent keys.scope keys.peer).map (·.1) ≠ some s → bank.current s = some e →
        e.rxCid ≠ keys.rxContextId) ∧ ∀ i e, bank.overlap.slots i = some e → e.rxCid ≠ keys.rxContextId := by
  unfold checkInstall at h
  obtain ⟨_, _, h⟩ := bind_eq_ok.mp h
  obtain ⟨_, hkeys, h⟩ := bind_eq_ok.mp h
  obtain ⟨_, h⟩ := refuse_bind_eq_ok.mp h
  obtain ⟨_, h⟩ := refuse_bind_eq_ok.mp h
  obtain ⟨_, h⟩ := refuse_bind_eq_ok.mp h
  obtain ⟨hserial, h⟩ := refuse_bind_eq_ok.mp h
  obtain ⟨_, h⟩ := refuse_bind_eq_ok.mp h
  obtain ⟨_, h⟩ := refuse_bind_eq_ok.mp h
  obtain ⟨_, h⟩ := refuse_bind_eq_ok.mp h
  obtain ⟨hcurrent, hoverlap⟩ := checkUnused_ok h
  unfold checkContextKeys at hkeys
  obtain ⟨hscope, hkeys⟩ := refuse_bind_eq_ok.mp hkeys
  obtain ⟨_, hkeys⟩ := refuse_bind_eq_ok.mp hkeys
  rw [refuse_eq_ok, Bool.or_eq_false_iff] at hkeys
  refine ⟨by simpa using hscope, by simpa using hkeys.2, by simpa using hserial, hcurrent, hoverlap⟩

/-- A successful installation places a fresh context; a failed one changes nothing. -/
theorem wp_installVerified (bank : SessionBank L E) (keys : ContextKeys) (att : InstallAttestation) :
    Op.wp (installVerified keys att)
      (fun _ b => ∃ slot remainingMs,
        (∀ old, bank.current slot = some old →
          bank.findCurrent keys.scope keys.peer = some (slot, old)) ∧
        Places bank b slot
          { freshEntry keys att with remainingMs, installSerial := bank.installSerial + 1 })
      (fun _ b => b = bank) bank := by
  unfold installVerified
  rw [Op.wp_bind, Op.wp_get]
  refine Op.wp_check_bind (fun _ _ => rfl) fun _ hcheck => ?_
  obtain ⟨hscope, hid, hserial, hcurrent, hoverlap⟩ := checkInstall_ok hcheck
  cases hfind : bank.findCurrent keys.scope keys.peer with
  | some found =>
    obtain ⟨slot, existing⟩ := found
    obtain ⟨hslot, hfound, hpeer⟩ := findCurrent_some hfind
    rw [hfind] at hcurrent
    obtain ⟨remainingMs, hplaces⟩ := places_place slot (freshEntry keys att) kContextLifetimeMs
      hserial hid (Or.inl ⟨existing, hfound, hpeer⟩)
      (fun s e hs he => hcurrent s e (fun h => hs (Option.some.inj h).symm) he) hoverlap
      (demote_current bank slot.scope existing) (demote_installSerial bank slot.scope existing)
      (replaces_demote hfound)
    rw [hslot] at hplaces
    refine ⟨slot, remainingMs, fun old hold => ?_, hplaces⟩
    rw [hfound] at hold
    cases hold
    rfl
  | none =>
    rw [hfind] at hcurrent
    cases hfree : bank.freeSlot keys.scope keys.peer with
    | none => exact rfl
    | some slot =>
      obtain ⟨hslot, hnone⟩ := freeSlot_some hscope hfree
      obtain ⟨remainingMs, hplaces⟩ := places_place slot (freshEntry keys att) kContextLifetimeMs hserial hid
        (Or.inr ⟨hnone, fun s e hs he => findCurrent_none hscope hfind (hs.trans hslot) he⟩)
        (fun s e _ he => hcurrent s e (by simp) he) hoverlap rfl rfl (Or.inl rfl)
      refine ⟨slot, remainingMs, fun old hold => ?_, hplaces⟩
      rw [hnone] at hold
      cases hold

theorem wp_install (bank : SessionBank L E) (keys : ContextKeys) :
    Op.wp (install keys)
      (fun _ b => ∃ slot remainingMs,
        (∀ old, bank.current slot = some old →
          bank.findCurrent keys.scope keys.peer = some (slot, old)) ∧
        Places bank b slot
          { freshEntry keys { createdGkEpoch := bank.view.gkEpoch } with
            remainingMs, installSerial := bank.installSerial + 1 })
      (fun _ b => b = bank) bank :=
  wp_installVerified bank keys { createdGkEpoch := bank.view.gkEpoch }

theorem checkRestore_ok {u : Unit} (h : bank.checkRestore scope peer entry = .ok u) :
    unicastScope scope = true ∧ entry.peer = peer ∧ entry.rxCid ≠ 0 ∧ entry.flags = 0 ∧
      bank.installSerial ≠ 0xFFFFFFFF ∧ bank.findCurrent scope peer = none ∧ entry.txNext < kMaxUseCounter ∧
      (∀ s e, bank.current s = some e → e.rxCid ≠ entry.rxCid) ∧
      ∀ i e, bank.overlap.slots i = some e → e.rxCid ≠ entry.rxCid := by
  unfold checkRestore at h
  obtain ⟨_, _, h⟩ := bind_eq_ok.mp h
  obtain ⟨hshape, h⟩ := refuse_bind_eq_ok.mp h
  obtain ⟨hcounter, h⟩ := refuse_bind_eq_ok.mp h
  obtain ⟨_, h⟩ := refuse_bind_eq_ok.mp h
  obtain ⟨_, h⟩ := refuse_bind_eq_ok.mp h
  obtain ⟨_, h⟩ := refuse_bind_eq_ok.mp h
  obtain ⟨hserial, h⟩ := refuse_bind_eq_ok.mp h
  obtain ⟨_, h⟩ := refuse_bind_eq_ok.mp h
  obtain ⟨hoccupied, h⟩ := refuse_bind_eq_ok.mp h
  obtain ⟨hcurrent, hoverlap⟩ := checkUnused_ok h
  simp only [Bool.or_eq_false_iff, Bool.not_eq_false', bne_eq_false_iff_eq, beq_eq_false_iff_ne] at hshape
  obtain ⟨⟨⟨⟨⟨⟨hscope, _⟩, hpeer⟩, _⟩, _⟩, hid⟩, hflags⟩ := hshape
  have hbudget : entry.txNext < kMaxUseCounter := by
    unfold checkTxCounter at hcounter
    split at hcounter
    · rename_i hsoft
      exact UInt64.lt_trans hsoft (by decide)
    · split at hcounter
      · assumption
      · simp at hcounter
  exact ⟨hscope, hpeer, hid, hflags, by simpa using hserial, by simpa using hoccupied, hbudget,
    fun s e he => hcurrent s e (by simp) he, hoverlap⟩

/-- A successful restoration places the image as it is; a failed one changes nothing. -/
theorem wp_restoreEntry (bank : SessionBank L E) (scope : SecurityScope) (peer : NodeId)
    (entry : SessionBankEntry) :
    Op.wp (restoreEntry scope peer entry)
      (fun _ b => ∃ slot remainingMs, entry.flags = 0 ∧ entry.txNext < kMaxUseCounter ∧
        (∀ s e, bank.current s = some e → e.rxCid ≠ entry.rxCid) ∧
        Places bank b slot { entry with remainingMs, installSerial := bank.installSerial + 1 })
      (fun _ b => b = bank) bank := by
  unfold restoreEntry
  rw [Op.wp_bind, Op.wp_get]
  refine Op.wp_check_bind (fun _ _ => rfl) fun _ hcheck => ?_
  obtain ⟨hscope, hpeer, hid, hflags, hserial, hfind, hbudget, hcurrent, hoverlap⟩ :=
    checkRestore_ok hcheck
  cases hfree : bank.freeSlot scope peer with
  | none => exact rfl
  | some slot =>
    obtain ⟨hslot, hnone⟩ := freeSlot_some hscope hfree
    obtain ⟨remainingMs, hplaces⟩ := places_place slot entry entry.remainingMs hserial hid
      (Or.inr ⟨hnone, fun s e hs he => by
        rw [hpeer]
        exact findCurrent_none hscope hfind (hs.trans hslot) he⟩)
      (fun s e _ he => hcurrent s e he) hoverlap rfl rfl (Or.inl rfl)
    exact ⟨slot, remainingMs, hflags, hbudget, hcurrent, hplaces⟩

/-! ## Methods that use a context -/

theorem lt_of_canSend (h : bank.canSend entry = true) : entry.txNext < kMaxUseCounter := by
  simp only [canSend, Bool.and_eq_true, bne_iff_ne] at h
  have hcounter := h.2
  unfold checkTxCounter at hcounter
  split at hcounter
  · rename_i hsoft
    exact UInt64.lt_trans hsoft (by decide)
  · split at hcounter
    · assumption
    · exact absurd rfl hcounter

/-- A counter is handed out by the current context, whatever a refusal notes. -/
theorem wp_nextCounter (bank : SessionBank L E) (context : SecurityContext) :
    Op.wp (nextCounter context) (fun counter b => ∃ slot entry,
        bank.findCurrent context.scope context.receiver = some (slot, entry) ∧
          counter = entry.txNext ∧ bank.canSend entry = true ∧ Draws bank b slot entry)
      (fun _ b => Quiet bank b) bank := by
  unfold nextCounter
  rw [Op.wp_bind, Op.wp_get]
  refine Op.wp_check_bind (fun _ _ => Quiet.refl bank) fun _ _ => ?_
  refine Op.wp_check_bind (fun _ _ => Quiet.refl bank) fun _ _ => ?_
  refine Op.wp_check_bind (fun _ _ => Quiet.refl bank) fun _ _ => ?_
  refine Op.wp_check_bind (fun _ _ => Quiet.refl bank) fun _ _ => ?_
  split
  · exact (rests_recordDemand bank context.scope context.receiver).quiet
  · rename_i slot entry hfilter
    obtain ⟨hfind, hsend⟩ := Option.filter_eq_some_iff.mp hfilter
    refine Op.wp_check_bind (fun _ _ => Quiet.refl bank) fun _ _ => ?_
    refine ⟨slot, entry, hfind, rfl, hsend, (findCurrent_some hfind).2.1, ?_, ?_, ?_, lt_of_canSend hsend⟩
    · rw [touch_current, update_current]
    · rw [touch_overlap]
      rfl
    · rw [touch_installSerial]
      rfl

theorem checkSeal_ok {context : SecurityContext} {counter : UInt64} {plaintext : Option (List UInt8)}
    {ciphertextSize : Option Nat} {nonce : AeadNonce} {plain : List UInt8}
    (h : bank.checkSeal context counter plaintext ciphertextSize = .ok ((slot, entry), nonce, plain)) :
    bank.findCurrent context.scope context.receiver = some (slot, entry) ∧
      counter = entry.txNext - 1 ∧ entry.flags &&& kFlagSealReserved ≠ 0 := by
  unfold checkSeal at h
  obtain ⟨_, _, h⟩ := bind_eq_ok.mp h
  obtain ⟨_, h⟩ := refuse_bind_eq_ok.mp h
  obtain ⟨_, h⟩ := refuse_bind_eq_ok.mp h
  obtain ⟨_, h⟩ := refuse_bind_eq_ok.mp h
  split at h
  · cases h
  · rename_i slot' entry' hfilter
    obtain ⟨hreserved, h⟩ := refuse_bind_eq_ok.mp h
    obtain ⟨_, h⟩ := refuse_bind_eq_ok.mp h
    obtain ⟨nonce', _, h⟩ := bind_eq_ok.mp h
    cases h
    simp only [Bool.or_eq_false_iff, bne_eq_false_iff_eq, beq_eq_false_iff_ne] at hreserved
    exact ⟨(Option.filter_eq_some_iff.mp hfilter).1, hreserved.1.2, hreserved.2⟩

/-- `seal` spends the reservation as soon as its checks pass, and does nothing before. -/
theorem wp_sealFrame (bank : SessionBank L E) (aead : AeadGcm) (context : SecurityContext)
    (counter : UInt64) (aad : List UInt8) (plaintext : Option (List UInt8))
    (ciphertextSize : Option Nat) {Q : SessionBank L E → Prop}
    (hfail : ∀ e, bank.checkSeal context counter plaintext ciphertextSize = .error e → Q bank)
    (hspend : ∀ slot entry nonce plain b,
      bank.checkSeal context counter plaintext ciphertextSize = .ok ((slot, entry), nonce, plain) →
      Spends bank b slot entry → Q b) :
    Op.wp (sealFrame aead context counter aad plaintext ciphertextSize) (fun _ b => Q b)
      (fun _ b => Q b) bank := by
  unfold sealFrame
  rw [Op.wp_bind, Op.wp_get]
  refine Op.wp_check_bind hfail fun found hcheck => ?_
  obtain ⟨⟨slot, entry⟩, nonce, plain⟩ := found
  obtain ⟨hfind, _, hreserved⟩ := checkSeal_ok hcheck
  have hQ := hspend slot entry nonce plain _ hcheck
    ⟨(findCurrent_some hfind).2.1, hreserved, update_current bank slot _, rfl, rfl⟩
  dsimp only
  rw [Op.wp_bind, Op.wp_set]
  split
  · exact hQ
  · exact hQ

theorem selectRx_current {sender : NodeId} {epoch : UInt32} {rx : RxContext}
    (h : bank.selectRx scope sender epoch = some (.current slot, rx)) :
    ∃ entry, bank.findCurrent scope sender = some (slot, entry) ∧ entryRx entry = rx := by
  unfold selectRx at h
  split at h
  · rename_i slot' entry hfilter
    cases h
    exact ⟨entry, (Option.filter_eq_some_iff.mp hfilter).1, rfl⟩
  · obtain ⟨i, _, h⟩ := List.exists_of_findSome?_eq_some h
    obtain ⟨_, _, h⟩ := Option.map_eq_some_iff.mp h
    cases h

theorem selectRx_overlap {sender : NodeId} {epoch : UInt32} {i : Fin kOverlapCapacity}
    {rx : RxContext} (h : bank.selectRx scope sender epoch = some (.overlap i, rx)) :
    ∃ entry, bank.overlap.slots i = some entry ∧ overlapRx entry = rx := by
  unfold selectRx at h
  split at h
  · cases h
  · obtain ⟨j, _, h⟩ := List.exists_of_findSome?_eq_some h
    obtain ⟨entry, hfilter, h⟩ := Option.map_eq_some_iff.mp h
    cases h
    exact ⟨entry, (Option.filter_eq_some_iff.mp hfilter).1, rfl⟩

theorem checkOpen_ok {context : SecurityContext} {counter : UInt64}
    {ciphertext : Option (List UInt8)} {plaintextSize : Option Nat} {holder : RxHolder L E}
    {rx : RxContext} {nonce : AeadNonce} {cipher : List UInt8}
    (h : bank.checkOpen context counter ciphertext plaintextSize = .ok ((holder, rx), nonce, cipher)) :
    bank.selectRx context.scope context.sender context.epoch = some (holder, rx) ∧ FreshIn rx counter := by
  unfold checkOpen at h
  obtain ⟨_, _, h⟩ := bind_eq_ok.mp h
  obtain ⟨_, h⟩ := refuse_bind_eq_ok.mp h
  obtain ⟨_, h⟩ := refuse_bind_eq_ok.mp h
  obtain ⟨_, h⟩ := refuse_bind_eq_ok.mp h
  split at h
  · cases h
  · rename_i holder' rx' hselect
    obtain ⟨_, h⟩ := refuse_bind_eq_ok.mp h
    obtain ⟨_, h⟩ := refuse_bind_eq_ok.mp h
    obtain ⟨_, h⟩ := refuse_bind_eq_ok.mp h
    obtain ⟨hreplay, h⟩ := refuse_bind_eq_ok.mp h
    obtain ⟨nonce', _, h⟩ := bind_eq_ok.mp h
    cases h
    refine ⟨hselect, fun hle => ?_⟩
    simpa [hle] using hreplay

/-- `open` records the counter in the window it checked, and a failed one changes nothing. -/
theorem wp_openFrame (bank : SessionBank L E) (aead : AeadGcm) (context : SecurityContext) (counter : UInt64)
    (aad : List UInt8) (ciphertext : Option (List UInt8)) (tag : AeadTag) (plaintextSize : Option Nat) :
    Op.wp (openFrame aead context counter aad ciphertext tag plaintextSize) (fun _ b => ∃ holder rx,
        bank.selectRx context.scope context.sender context.epoch = some (holder, rx) ∧
          Accepts bank b holder rx counter) (fun _ b => b = bank) bank := by
  unfold openFrame
  rw [Op.wp_bind, Op.wp_get]
  refine Op.wp_check_bind (fun _ _ => rfl) fun found hcheck => ?_
  obtain ⟨⟨holder, rx⟩, nonce, cipher⟩ := found
  obtain ⟨hselect, hfresh⟩ := checkOpen_ok hcheck
  dsimp only
  split
  · exact rfl
  · cases holder with
    | overlap i =>
      obtain ⟨entry, hentry, hrx⟩ := selectRx_overlap hselect
      refine ⟨.overlap i, rx, hselect, ?_, hfresh, rfl⟩
      rw [rxAt, hentry, ← hrx]
      rfl
    | current slot =>
      obtain ⟨entry, hfind, hrx⟩ := selectRx_current hselect
      have hentry := (findCurrent_some hfind).2.1
      dsimp only
      rw [hfind]
      dsimp only
      split
      · exact rfl
      · refine ⟨.current slot, rx, hselect, ?_, hfresh, ?_⟩
        · rw [rxAt, hentry, ← hrx]
          rfl
        · rw [setRx, hentry]
          rfl

end RouteLoom.SessionBank
