import RouteLoom.Basic
import RouteLoom.Lib.Durable
import RouteLoom.Lib.Fallible
import RouteLoom.Lib.Machine

/-!
# Boot sessions

A boot advances a durable counter and uses the new value as its session. A boot of a site member
then checks it against the session the site last saw, and a boot of a development group member
checks it against a second durable record, the group's high-water mark.

* `BootSessionStore.advance`, `reconcileSite`, `advanceDevGroup` : the three calls of a boot
* `BootStore.Grows` : what a boot may do to the two records, however it ends
* `bootMachine` : boots one after another, with failing commits, crashes at any port operation and,
  if allowed, a system counter that is erased or rolled back between boots
* `boot_sessions_increase` : **no completed boot gets a session that an earlier one had**
-/

namespace RouteLoom

open Lib List

/-! ## The two records -/

/-- What the boot session port and the high-water port keep; `none` if nothing is stored. -/
structure BootStore where
  system : Option UInt32 := none
  highWater : Option UInt32 := none
  deriving DecidableEq, Repr

namespace BootSessionStore

abbrev Booting (α : Type) : Type := Method BootStore Unit Status α

/-- How far a repaired counter is put ahead of the witness. -/
def witnessMargin : Nat := 2 ^ 20

def uint32Max : Nat := 0xffffffff

def readSystem : Booting (Option UInt32) := do
  let s ← Method.load
  pure s.system

def commitSystem (value : UInt32) : Booting Unit :=
  Method.commit fun s => { s with system := some value }

def readHighWater : Booting (Option UInt32) := do
  let s ← Method.load
  pure s.highWater

def commitHighWater (value : UInt32) : Booting Unit :=
  Method.commit fun s => { s with highWater := some value }

def refuse (bad : Bool) (code : StatusCode) (detail : String) : Booting Unit :=
  Method.ofExcept (Lib.refuse bad ⟨code, detail⟩)

/-- The value that `advance` commits, before it is checked for overflow. -/
def proposed (hasSite : Bool) (witness : UInt32) (stored : Option UInt32) : Nat :=
  let next := (stored.getD 0).toNat + 1
  if hasSite && (stored.isNone || stored.getD 0 < witness) then
    max next (witness.toNat + witnessMargin)
  else next

def advance (hasSite : Bool) (witness : UInt32) : Booting UInt32 := do
  let stored ← readSystem
  refuse (stored == some 0) .recoveryRequired "invalid boot session"
  refuse (hasSite && witness == 0) .recoveryRequired "missing site boot witness"
  let proposed := proposed hasSite witness stored
  refuse (uint32Max < proposed) .counterExhausted "boot session exhausted"
  let value := UInt32.ofNat proposed
  commitSystem value
  let durable ← readSystem
  refuse (durable != some value) .storageFailure "boot session readback failed"
  pure value

/-- The repair of `reconcileSite`, when the counter does not exceed the witness. -/
def repairWitness (witness : UInt32) : Booting UInt32 := do
  let repaired := witness.toNat + witnessMargin
  refuse (uint32Max < repaired) .counterExhausted "boot witness repair exhausted"
  let value := UInt32.ofNat repaired
  commitSystem value
  let durable ← readSystem
  refuse (durable != some value) .storageFailure "boot witness readback failed"
  pure value

def reconcileSite (witness session : UInt32) : Booting UInt32 := do
  refuse (witness == 0) .recoveryRequired "missing site boot witness"
  let stored ← readSystem
  refuse (stored != some session || session == 0) .storageFailure
    "boot session changed after advance"
  if witness < session then pure session else repairWitness witness

/-- The session that the high-water mark leaves to the candidate, before it is checked for
overflow. -/
def aboveHighWater (high : Option UInt32) (candidate : UInt32) : Nat :=
  match high with
  | some high => if candidate ≤ high then high.toNat + 1 else candidate.toNat
  | none => candidate.toNat

def advanceDevGroup (candidate : UInt32) : Booting UInt32 := do
  let system ← readSystem
  let high ← readHighWater
  refuse (system != some candidate || candidate == 0) .storageFailure "dev boot candidate changed"
  refuse (high == some 0) .recoveryRequired "invalid boot high water"
  let next := aboveHighWater high candidate
  refuse (uint32Max < next) .counterExhausted "dev boot high water exhausted"
  let value := UInt32.ofNat next
  -- the mark goes first, so an interrupted boot skips a session and does not reuse one
  commitHighWater value
  let checked ← readHighWater
  refuse (checked != some value) .storageFailure "dev boot high water readback failed"
  if value != candidate then commitSystem value else pure ()
  let checked ← readSystem
  refuse (checked != some value) .storageFailure "dev boot session readback failed"
  pure value

end BootSessionStore

/-! ## What one boot can do -/

/-- The call that follows `advance`. -/
inductive BootPath
  | site (witness : UInt32)
  | devGroup
  deriving DecidableEq, Repr

namespace BootSessionStore

def boot (hasSite : Bool) (witness : UInt32) (path : BootPath) : Booting UInt32 := do
  let session ← advance hasSite witness
  match path with
  | .site witness => reconcileSite witness session
  | .devGroup => advanceDevGroup session

end BootSessionStore

/-- `value` is above what is stored. -/
def Above (stored : Option UInt32) (value : UInt32) : Prop :=
  ∀ u, stored = some u → u < value

/-- The record was kept or moved up. -/
def Raised (before after : Option UInt32) : Prop :=
  ∀ u, before = some u → ∃ v, after = some v ∧ u ≤ v

theorem Raised.refl (stored : Option UInt32) : Raised stored stored :=
  fun u hu => ⟨u, hu, UInt32.le_refl u⟩

theorem Raised.trans {a b c : Option UInt32} (hab : Raised a b) (hbc : Raised b c) : Raised a c := by
  intro u hu
  obtain ⟨v, hv, huv⟩ := hab u hu
  obtain ⟨w, hw, hvw⟩ := hbc v hv
  exact ⟨w, hw, UInt32.le_trans huv hvw⟩

variable {stored : Option UInt32} {value : UInt32} {s' : BootStore}

theorem Above.raised (h : Above stored value) : Raised stored (some value) :=
  fun u hu => ⟨value, rfl, UInt32.le_of_lt (h u hu)⟩

namespace BootStore

/-- However a boot ends, neither record has moved down. -/
structure Grows (s s' : BootStore) : Prop where
  system : Raised s.system s'.system
  highWater : Raised s.highWater s'.highWater

theorem Grows.refl (s : BootStore) : Grows s s :=
  ⟨Raised.refl _, Raised.refl _⟩

theorem Grows.trans {s₁ s₂ s₃ : BootStore} (h : Grows s₁ s₂) (h' : Grows s₂ s₃) : Grows s₁ s₃ :=
  ⟨h.system.trans h'.system, h.highWater.trans h'.highWater⟩

theorem Grows.commitSystem {s : BootStore} (h : Above s.system value) :
    Grows s { s with system := some value } :=
  ⟨h.raised, Raised.refl _⟩

theorem Grows.commitHighWater {s : BootStore} (h : Above s.highWater value) :
    Grows s { s with highWater := some value } :=
  ⟨Raised.refl _, h.raised⟩

end BootStore

namespace BootSessionStore

open BootStore (Grows)

section Rules

variable {E : Status → Unit → BootStore → Prop} {R : BootStore → Prop} {w : Unit} {s : BootStore}

variable {Q : Unit → Unit → BootStore → Prop}

@[simp] theorem wp_refuse (bad : Bool) (code : StatusCode) (detail : String) :
    Method.wp (refuse bad code detail) Q E R w s ↔
      (bad = false → Q () w s) ∧ (bad = true → E ⟨code, detail⟩ w s) := by
  cases bad with
  | false => exact ⟨fun h => ⟨fun _ => h, nofun⟩, fun h => h.1 rfl⟩
  | true => exact ⟨fun h => ⟨nofun, fun _ => h⟩, fun h => h.2 rfl⟩

@[simp] theorem wp_readSystem {Q : Option UInt32 → Unit → BootStore → Prop} :
    Method.wp readSystem Q E R w s ↔ R s ∧ Q s.system w s ∧ ∀ e, E e w s := by
  simp [readSystem]

@[simp] theorem wp_readHighWater {Q : Option UInt32 → Unit → BootStore → Prop} :
    Method.wp readHighWater Q E R w s ↔ R s ∧ Q s.highWater w s ∧ ∀ e, E e w s := by
  simp [readHighWater]

@[simp] theorem wp_commitSystem (value : UInt32) :
    Method.wp (commitSystem value) Q E R w s ↔
      R s ∧ R { s with system := some value } ∧ Q () w { s with system := some value } ∧
        ∀ e, E e w s ∧ E e w { s with system := some value } := Iff.rfl

@[simp] theorem wp_commitHighWater (value : UInt32) :
    Method.wp (commitHighWater value) Q E R w s ↔
      R s ∧ R { s with highWater := some value } ∧ Q () w { s with highWater := some value } ∧
        ∀ e, E e w s ∧ E e w { s with highWater := some value } := Iff.rfl

end Rules

theorem toNat_ofNat_of_le {n : Nat} (h : ¬ uint32Max < n) : (UInt32.ofNat n).toNat = n :=
  UInt32.toNat_ofNat_of_lt' (by unfold uint32Max at h; simp only [UInt32.size]; omega)

theorem above_proposed {hasSite : Bool} {witness : UInt32} (h : ¬ uint32Max < proposed hasSite witness stored) :
    Above stored (UInt32.ofNat (proposed hasSite witness stored)) := by
  rintro u rfl
  rw [UInt32.lt_iff_toNat_lt, toNat_ofNat_of_le h]
  unfold proposed
  simp only [Option.getD_some]
  split
  · exact Nat.lt_of_lt_of_le (Nat.lt_succ_self _) (Nat.le_max_left _ _)
  · exact Nat.lt_succ_self _

/-- **`advance` commits a value above the stored one and returns it.** -/
theorem wp_advance (hasSite : Bool) (witness : UInt32) (s : BootStore) :
    Method.wp (advance hasSite witness)
      (fun v _ s' => s' = { s with system := some v } ∧ Above s.system v)
      (fun _ _ s' => Grows s s') (Grows s) () s := by
  have hkeep := Grows.refl s
  simp only [advance, Method.wp_bind, wp_readSystem, wp_refuse, wp_commitSystem, Method.wp_pure]
  refine ⟨hkeep, ⟨fun _ => ⟨fun _ => ⟨fun hfits => ?_, fun _ => hkeep⟩, fun _ => hkeep⟩,
    fun _ => hkeep⟩, fun _ => hkeep⟩
  have habove := above_proposed (of_decide_eq_false hfits)
  have hraise := Grows.commitSystem habove
  exact ⟨hkeep, hraise, ⟨hraise, ⟨fun _ => ⟨trivial, habove⟩, fun _ => hraise⟩, fun _ => hraise⟩,
    fun _ => ⟨hkeep, hraise⟩⟩

theorem repaired_above {witness : UInt32} (h : ¬ uint32Max < witness.toNat + witnessMargin) :
    witness < UInt32.ofNat (witness.toNat + witnessMargin) := by
  rw [UInt32.lt_iff_toNat_lt, toNat_ofNat_of_le h]
  unfold witnessMargin
  omega

/-- What `reconcileSite` returns stands in the system counter and is above the witness; nothing of
the candidate is given back. -/
theorem wp_reconcileSite (witness session : UInt32) (s : BootStore) :
    Method.wp (reconcileSite witness session)
      (fun v _ s' => s' = { s with system := some v } ∧ witness < v ∧ session ≤ v)
      (fun _ _ s' => Grows s s') (Grows s) () s := by
  have hkeep := Grows.refl s
  simp only [reconcileSite, Method.wp_bind, wp_readSystem, wp_refuse]
  refine ⟨fun _ => ⟨hkeep, ⟨fun hstored => ?_, fun _ => hkeep⟩, fun _ => hkeep⟩, fun _ => hkeep⟩
  have hsystem : s.system = some session := by simpa using (Bool.or_eq_false_iff.mp hstored).1
  split
  · next hlt =>
    refine ⟨?_, hlt, UInt32.le_refl session⟩
    rw [← hsystem]
  · next hle =>
    simp only [repairWitness, Method.wp_bind, wp_readSystem, wp_refuse, wp_commitSystem, Method.wp_pure]
    refine ⟨fun hfits => ?_, fun _ => hkeep⟩
    have hwitness := repaired_above (of_decide_eq_false hfits)
    have hsession := UInt32.lt_of_le_of_lt (UInt32.not_lt.mp hle) hwitness
    have hraise : Grows s { s with system := some (UInt32.ofNat (witness.toNat + witnessMargin)) } := by
      refine Grows.commitSystem fun u hu => ?_
      rw [hsystem] at hu
      cases hu
      exact hsession
    exact ⟨hkeep, hraise, ⟨hraise, ⟨fun _ => ⟨trivial, hwitness, UInt32.le_of_lt hsession⟩,
      fun _ => hraise⟩, fun _ => hraise⟩, fun _ => ⟨hkeep, hraise⟩⟩

theorem aboveHighWater_spec {high : Option UInt32} {candidate : UInt32}
    (h : ¬ uint32Max < aboveHighWater high candidate) :
    Above high (UInt32.ofNat (aboveHighWater high candidate)) ∧
      candidate ≤ UInt32.ofNat (aboveHighWater high candidate) := by
  have hvalue := toNat_ofNat_of_le h
  cases high with
  | none =>
    refine ⟨fun u hu => by simp at hu, ?_⟩
    rw [UInt32.le_iff_toNat_le, hvalue]
    exact Nat.le_refl _
  | some high =>
    unfold aboveHighWater at hvalue h ⊢
    dsimp only at hvalue h ⊢
    split at hvalue
    · next hle =>
      rw [if_pos hle]
      rw [UInt32.le_iff_toNat_le] at hle
      refine ⟨?_, ?_⟩
      · rintro u ⟨rfl⟩
        rw [UInt32.lt_iff_toNat_lt, hvalue]
        exact Nat.lt_succ_self _
      · rw [UInt32.le_iff_toNat_le, hvalue]
        exact Nat.le_succ_of_le hle
    · next hlt =>
      rw [if_neg hlt]
      rw [UInt32.not_le, UInt32.lt_iff_toNat_lt] at hlt
      refine ⟨?_, ?_⟩
      · rintro u ⟨rfl⟩
        rw [UInt32.lt_iff_toNat_lt, hvalue]
        exact hlt
      · exact UInt32.le_iff_toNat_le.mpr (Nat.le_of_eq hvalue.symm)

/-- What `advanceDevGroup` returns stands in both records, is above the former high-water mark and
not below the candidate. -/
theorem wp_advanceDevGroup (candidate : UInt32) (s : BootStore) :
    Method.wp (advanceDevGroup candidate)
      (fun v _ s' => s' = ⟨some v, some v⟩ ∧ Above s.highWater v ∧ candidate ≤ v)
      (fun _ _ s' => Grows s s') (Grows s) () s := by
  have hkeep := Grows.refl s
  simp only [advanceDevGroup, Method.wp_bind, wp_readSystem, wp_readHighWater, wp_refuse]
  refine ⟨hkeep, ⟨hkeep, ⟨fun hsame => ⟨fun _ => ⟨fun hfits => ?_, fun _ => hkeep⟩,
    fun _ => hkeep⟩, fun _ => hkeep⟩, fun _ => hkeep⟩, fun _ => hkeep⟩
  have hsystem : s.system = some candidate := by simpa using (Bool.or_eq_false_iff.mp hsame).1
  obtain ⟨hhigh, hcandidate⟩ := aboveHighWater_spec (of_decide_eq_false hfits)
  generalize UInt32.ofNat (aboveHighWater s.highWater candidate) = value at hhigh hcandidate ⊢
  have hmark := Grows.commitHighWater hhigh
  simp only [wp_commitHighWater]
  refine ⟨hkeep, hmark, ⟨hmark, ⟨fun _ => ?_, fun _ => hmark⟩, fun _ => hmark⟩, fun _ => ⟨hkeep, hmark⟩⟩
  have hboth : Grows s ⟨some value, some value⟩ := by
    refine ⟨?_, hhigh.raised⟩
    rw [hsystem]
    rintro u ⟨rfl⟩
    exact ⟨value, rfl, hcandidate⟩
  split
  · simp only [Method.wp_bind, wp_commitSystem, wp_readSystem, wp_refuse, Method.wp_pure]
    exact ⟨hmark, hboth, ⟨hboth, ⟨fun _ => ⟨trivial, hhigh, hcandidate⟩, fun _ => hboth⟩,
      fun _ => hboth⟩, fun _ => ⟨hmark, hboth⟩⟩
  · next hsame =>
    have hvalue : value = candidate := by simpa using hsame
    simp only [Method.wp_bind, wp_readSystem, wp_refuse, Method.wp_pure]
    refine ⟨hmark, ⟨fun _ => ⟨?_, hhigh, hcandidate⟩, fun _ => hmark⟩, fun _ => hmark⟩
    rw [hsystem, hvalue]

/-- What a completed boot got, by the path it took. -/
structure Completed (s : BootStore) (path : BootPath) (session : UInt32) (s' : BootStore) : Prop where
  grows : Grows s s'
  stored : s'.system = some session
  fresh : Above s.system session
  site : ∀ witness, path = .site witness → witness < session
  devGroup : path = .devGroup → s'.highWater = some session ∧ Above s.highWater session

/-- What a boot leaves behind, completed or not. -/
def Booted (s : BootStore) (path : BootPath) (r : Option (Except Status UInt32 × Unit))
    (s' : BootStore) : Prop :=
  match r with
  | some (.ok session, _) => Completed s path session s'
  | _ => Grows s s'

theorem Completed.of_site {s : BootStore} {witness session : UInt32}
    (habove : Above s.system session)
    (h : s' = { s with system := some value } ∧ witness < value ∧ session ≤ value) :
    Completed s (.site witness) value s' := by
  obtain ⟨rfl, hwitness, hle⟩ := h
  have hfresh : Above s.system value := fun u hu => UInt32.lt_of_lt_of_le (habove u hu) hle
  refine ⟨Grows.commitSystem hfresh, rfl, hfresh, ?_, nofun⟩
  rintro w ⟨rfl⟩
  exact hwitness

theorem Completed.of_devGroup {s : BootStore} {session : UInt32} (habove : Above s.system session)
    (h : s' = ⟨some value, some value⟩ ∧ Above s.highWater value ∧ session ≤ value) :
    Completed s .devGroup value s' := by
  obtain ⟨rfl, hhigh, hle⟩ := h
  have hfresh : Above s.system value := fun u hu => UInt32.lt_of_lt_of_le (habove u hu) hle
  exact ⟨⟨hfresh.raised, hhigh.raised⟩, rfl, hfresh, nofun, fun _ => ⟨rfl, hhigh⟩⟩

theorem wp_boot (hasSite : Bool) (witness : UInt32) (path : BootPath) (s : BootStore) :
    Method.wp (boot hasSite witness path) (fun v _ s' => Completed s path v s')
      (fun _ _ s' => Grows s s') (Grows s) () s := by
  simp only [boot, Method.wp_bind]
  refine (wp_advance hasSite witness s).mono ?_ (fun _ _ _ h => h) (fun _ h => h)
  rintro session ⟨⟩ s₁ ⟨rfl, habove⟩
  have hgrows := Grows.commitSystem habove
  cases path with
  | site witness =>
    refine (wp_reconcileSite witness session _).mono ?_ (fun _ _ _ h => hgrows.trans h)
      (fun _ h => hgrows.trans h)
    exact fun v _ s' h => .of_site habove h
  | devGroup =>
    refine (wp_advanceDevGroup session _).mono ?_ (fun _ _ _ h => hgrows.trans h) (fun _ h => hgrows.trans h)
    exact fun v _ s' h => .of_devGroup habove h

/-- Every boot, whatever its port operations report and wherever it crashes. -/
theorem booted (hasSite : Bool) (witness : UInt32) (path : BootPath)
    (outcomes : List (Outcome Status)) (s : BootStore) :
    Booted s path ((boot hasSite witness path).call () outcomes s).1
      ((boot hasSite witness path).call () outcomes s).2 :=
  Method.wp.after (P := Booted s path) (wp_boot hasSite witness path s) outcomes

end BootSessionStore

/-! ## Boots one after another -/

/-- A boot, or something outside the program that changes the system counter between two boots. -/
inductive BootEvent
  | boot (hasSite : Bool) (witness : UInt32) (path : BootPath) (outcomes : List (Outcome Status))
  | disturb (system : Option UInt32)

/-- A boot all of whose calls succeeded. -/
structure BootRecord where
  path : BootPath
  session : UInt32
  deriving DecidableEq, Repr

open BootSessionStore (boot booted Completed Booted)

/-- The boots of one device. Only a `disturbed` device loses or rolls back its system counter; the
high-water mark keeps every completed write. -/
def bootMachine (disturbed : Bool) : Machine BootStore BootEvent BootRecord where
  Init _ := True
  Enabled _
    | .boot .. => True
    | .disturb _ => disturbed = true
  next s
    | .boot hasSite witness path outcomes => ((boot hasSite witness path).call () outcomes s).2
    | .disturb system => { s with system := system }
  out s
    | .boot hasSite witness path outcomes =>
      match ((boot hasSite witness path).call () outcomes s).1 with
      | some (.ok session, _) => [⟨path, session⟩]
      | _ => []
    | .disturb _ => []

instance (disturbed : Bool) (s : BootStore) (e : BootEvent) :
    Decidable ((bootMachine disturbed).Enabled s e) :=
  match e with
  | .boot .. => inferInstanceAs (Decidable True)
  | .disturb _ => inferInstanceAs (Decidable (disturbed = true))

/-- Each recorded session is above the ones before it and not above what is stored. -/
structure Covered (stored : Option UInt32) (h : List BootRecord) : Prop where
  increasing : h.Pairwise (fun a b => a.session < b.session)
  bounded : ∀ b ∈ h, ∃ v, stored = some v ∧ b.session ≤ v

theorem Covered.nil (stored : Option UInt32) : Covered stored [] :=
  ⟨List.Pairwise.nil, fun b hb => by simp at hb⟩

variable {h : List BootRecord}

theorem Covered.raise {stored' : Option UInt32} (H : Covered stored h) (hr : Raised stored stored') :
    Covered stored' h := by
  refine ⟨H.increasing, fun b hb => ?_⟩
  obtain ⟨v, hv, hle⟩ := H.bounded b hb
  obtain ⟨v', hv', hle'⟩ := hr v hv
  exact ⟨v', hv', UInt32.le_trans hle hle'⟩

/-- A session above the stored one may be recorded once it is stored itself. -/
theorem Covered.record (H : Covered stored h) {b : BootRecord} (hb : Above stored b.session) :
    Covered (some b.session) (h ++ [b]) := by
  have hlt : ∀ a ∈ h, a.session < b.session := by
    intro a ha
    obtain ⟨v, hv, hle⟩ := H.bounded a ha
    exact UInt32.lt_of_le_of_lt hle (hb v hv)
  refine ⟨pairwise_append.mpr ⟨H.increasing, pairwise_singleton _ _, ?_⟩, ?_⟩
  · intro a ha c hc
    rw [mem_singleton.mp hc]
    exact hlt a ha
  · intro a ha
    refine ⟨b.session, rfl, ?_⟩
    rcases mem_append.mp ha with ha | ha
    · exact UInt32.le_of_lt (hlt a ha)
    · rw [mem_singleton.mp ha]
      exact UInt32.le_refl _

/-- The boots of a history that took the path of a development group member. -/
def devBoots (h : List BootRecord) : List BootRecord :=
  h.filter fun b => b.path = .devGroup

/-- The invariant of all boots: the high-water mark covers the boots of group members, and each boot
of a site member is above its witness. -/
structure BootInv (s : BootStore) (h : List BootRecord) : Prop where
  highWater : Covered s.highWater (devBoots h)
  site : ∀ b ∈ h, ∀ witness, b.path = .site witness → witness < b.session

theorem BootInv.grow {s : BootStore} (H : BootInv s h) (hg : s.Grows s') : BootInv s' h :=
  ⟨H.highWater.raise hg.highWater, H.site⟩

theorem BootInv.complete {s : BootStore} (H : BootInv s h) {path : BootPath} {session : UInt32}
    (hc : Completed s path session s') : BootInv s' (h ++ [⟨path, session⟩]) := by
  refine ⟨?_, fun b hb => ?_⟩
  · unfold devBoots
    rw [filter_append]
    by_cases hp : path = .devGroup
    · obtain ⟨hstored, habove⟩ := hc.devGroup hp
      rw [filter_singleton, decide_eq_true hp, hstored]
      exact H.highWater.record (b := ⟨path, session⟩) habove
    · rw [filter_singleton, decide_eq_false hp, Bool.cond_false, append_nil]
      exact H.highWater.raise hc.grows.highWater
  · rcases mem_append.mp hb with hb | hb
    · exact H.site b hb
    · rw [mem_singleton.mp hb]
      exact hc.site

theorem boot_step (disturbed : Bool) (s : BootStore) (hasSite : Bool) (witness : UInt32)
    (path : BootPath) (outcomes : List (Outcome Status)) :
    (∃ session, (bootMachine disturbed).out s (.boot hasSite witness path outcomes) = [⟨path, session⟩] ∧
      Completed s path session ((bootMachine disturbed).next s (.boot hasSite witness path outcomes))) ∨
    ((bootMachine disturbed).out s (.boot hasSite witness path outcomes) = [] ∧
      s.Grows ((bootMachine disturbed).next s (.boot hasSite witness path outcomes))) := by
  have hbooted := booted hasSite witness path outcomes s
  simp only [bootMachine]
  unfold Booted at hbooted
  split at hbooted
  · next session _ _ => exact .inl ⟨session, rfl, hbooted⟩
  · exact .inr ⟨rfl, hbooted⟩

theorem bootInv_of_run {disturbed : Bool} {s : BootStore} (hr : (bootMachine disturbed).Run s h) :
    BootInv s h := by
  refine hr.invariant (I := BootInv) (fun s _ => ⟨Covered.nil _, fun b hb => by simp at hb⟩) ?_
  intro s h e H _
  cases e with
  | disturb system =>
    simp only [bootMachine, append_nil]
    exact ⟨H.highWater, H.site⟩
  | boot hasSite witness path outcomes =>
    obtain ⟨session, hout, hcompleted⟩ | ⟨hout, hgrows⟩ :=
      boot_step disturbed s hasSite witness path outcomes
    · rw [hout]
      exact H.complete hcompleted
    · rw [hout, append_nil]
      exact H.grow hgrows

theorem covered_of_run {s : BootStore} (hr : (bootMachine false).Run s h) : Covered s.system h := by
  refine hr.invariant (I := fun s h => Covered s.system h) (fun s _ => Covered.nil _) ?_
  intro s h e H he
  cases e with
  | disturb system => exact absurd he Bool.false_ne_true
  | boot hasSite witness path outcomes =>
    obtain ⟨session, hout, hcompleted⟩ | ⟨hout, hgrows⟩ :=
      boot_step false s hasSite witness path outcomes
    · rw [hout, hcompleted.stored]
      exact H.record (b := ⟨path, session⟩) hcompleted.fresh
    · rw [hout, append_nil]
      exact H.raise hgrows.system

/-- **No completed boot gets a session that an earlier one had**: over any number of boots, whatever
their port operations report and wherever they crash, each completed boot gets a session above those
of all earlier completed ones. A boot of a group member is above every earlier boot of a group member
even on a device whose system counter is erased or rolled back between boots, and a boot of a site
member is above the witness it was given. -/
theorem boot_sessions_increase (disturbed : Bool) (s : BootStore) (h : List BootRecord)
    (hr : (bootMachine disturbed).Run s h) :
    (disturbed = false → h.Pairwise fun a b => a.session < b.session) ∧
      (devBoots h).Pairwise (fun a b => a.session < b.session) ∧
      ∀ b ∈ h, ∀ witness, b.path = .site witness → witness < b.session := by
  have H := bootInv_of_run hr
  refine ⟨?_, H.highWater.increasing, H.site⟩
  rintro rfl
  exact (covered_of_run hr).increasing

/-- A group member boots, crashes after its mark is committed, loses its counter and boots twice
more, the second time as a site member whose counter is behind the witness. -/
def sampleBoots : List BootEvent :=
  [.boot false 0 .devGroup [], .boot false 0 .devGroup [.ok, .ok, .ok, .ok, .ok, .crashAfter],
    .disturb none, .boot false 0 .devGroup [], .boot true 9 (.site 2000000) []]

theorem boot_sessions_increase_sample :
    ((bootMachine true).exec {} [] sampleBoots).2 =
        [⟨.devGroup, 1⟩, ⟨.devGroup, 3⟩, ⟨.site 2000000, 3048576⟩] ∧
      (devBoots ((bootMachine true).exec {} [] sampleBoots).2).Pairwise (fun a b => a.session < b.session) ∧
      ∀ b ∈ ((bootMachine true).exec {} [] sampleBoots).2, ∀ witness,
        b.path = .site witness → witness < b.session :=
  ⟨by decide +kernel,
    (boot_sessions_increase true _ _
      (Machine.run_exec trivial sampleBoots (by decide +kernel))).2⟩

/-- A site member boots twice, its counter is rolled back to the first of the two sessions, and it
boots as a group member: the mark never saw the boots of the site, and the second session returns. -/
theorem mixed_paths_repeat_session :
    ∃ s, (bootMachine true).Run s [⟨.site 4, 1048580⟩, ⟨.site 4, 1048581⟩, ⟨.devGroup, 1048581⟩] := by
  have hr := Machine.run_exec (M := bootMachine true) (s := {}) trivial
    [.boot false 0 (.site 4) [], .boot false 0 (.site 4) [], .disturb (some 1048580),
      .boot false 0 .devGroup []] (by decide +kernel)
  have hh : ((bootMachine true).exec {} [] [.boot false 0 (.site 4) [], .boot false 0 (.site 4) [],
      .disturb (some 1048580), .boot false 0 .devGroup []]).2 =
      [⟨.site 4, 1048580⟩, ⟨.site 4, 1048581⟩, ⟨.devGroup, 1048581⟩] := by decide +kernel
  rw [hh] at hr
  exact ⟨_, hr⟩

end RouteLoom
