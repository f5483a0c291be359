import Mathlib.Algebra.GroupWithZero.Nat
import RouteLoom.Power.Plan
import RouteLoom.Lib.Machine

/-!
# No persisted delivery is lost in silence

The two slots take turns: an image goes to the slot that the number of the last write does not name.
As long as the last write landed, that slot is not the one with the newest image. A write that fails
consumes its number all the same, so the write after it goes to the slot with the only good copy, and
if that one fails too, or is cut by a crash, no image is left.

* `Lead` : which slot has the newest image
* `Kept` : what is owed is in the newest image or displaced, and carried or live
* `powerMachine` : the calls, the node's own work and cold boots, in any order
* `boots_adopt_owed` : when a boot adopts everything that is owed
-/

namespace RouteLoom.Power

open Lib Function List
open Mesh (Delivery DeliveryTable SleepWorkPolicy sleepTerminal kDeliveryCapacity)

/-! ## The newest image -/

variable (disk : Disk) {r : PendingDeliveryRecord} {excused : MessageId → Prop} {now : MonotonicMs}
  {image : PowerImage} {c : PowerCoordinator} {n : PowerNode} {id : MessageId}
  {P : PendingPool} {s s' : PowerSystem} {answers : PowerAnswers}

instance : NeZero kPowerImageSlots := ⟨by decide⟩

theorem forall_slot {p : Fin kPowerImageSlots → Prop} : (∀ k, p k) ↔ p 0 ∧ p 1 :=
  Fin.forall_fin_two

theorem newest_eq : newest disk = newestStep disk (disk 0) 1 := by
  show newestStep disk (newestStep disk none 0) 1 = _
  unfold newestStep
  cases disk 0 <;> rfl

theorem newest_eq_none {disk : Disk} : newest disk = none ↔ ∀ k, disk k = none := by
  rw [newest_eq, newestStep, forall_slot]
  cases disk 1 with
  | none => exact (and_iff_left rfl).symm
  | some last =>
    dsimp only
    split
    · simp
    · next hkeep =>
      cases hfirst : disk 0 with
      | none => simp [hfirst] at hkeep
      | some first => simp

theorem newest_eq_some {disk : Disk} (h : newest disk = some image) :
    (∃ k, disk k = some image) ∧ ∀ k other, disk k = some other → other.sequence ≤ image.sequence := by
  rw [newest_eq, newestStep] at h
  rw [forall_slot]
  cases hlast : disk 1 with
  | none =>
    rw [hlast] at h
    exact ⟨⟨0, h⟩, by simp [show disk 0 = some image from h], nofun⟩
  | some last =>
    rw [hlast] at h
    dsimp only at h
    split at h
    · next htake =>
      cases h
      refine ⟨⟨1, hlast⟩, fun other hother => ?_, by simp⟩
      rw [hother] at htake
      exact UInt32.le_of_lt (of_decide_eq_true htake)
    · next hkeep =>
      rw [h] at hkeep ⊢
      exact ⟨⟨0, h⟩, by simp, by simpa using hkeep⟩

/-- Each image is in the slot that its number names. -/
def Parity : Prop :=
  ∀ k image, disk k = some image → slotOf image.sequence = k

/-- With each image in its slot, the one with the largest number is the newest. -/
theorem Parity.newest {disk : Disk} (hp : Parity disk) {k : Fin kPowerImageSlots} (hk : disk k = some image)
    (hmax : ∀ j other, disk j = some other → other.sequence ≤ image.sequence) : newest disk = some image := by
  cases hn : Power.newest disk with
  | none => simp [newest_eq_none.mp hn k] at hk
  | some found =>
    obtain ⟨⟨j, hj⟩, hfound⟩ := newest_eq_some hn
    have hseq : found.sequence = image.sequence :=
      UInt32.le_antisymm (hmax j found hj) (hfound k image hk)
    have hslot : j = k := by rw [← hp j found hj, ← hp k image hk, hseq]
    rw [hslot, hk] at hj
    exact hj.symm

/-! ## Which slot is the newest -/

theorem slotOf_succ_ne {sequence : UInt32} (h : sequence ≠ 0xFFFFFFFF) :
    slotOf (sequence + 1) ≠ slotOf sequence := by
  intro heq
  have hval : (sequence + 1).toNat % 2 = sequence.toNat % 2 := congrArg Fin.val heq
  rw [toNat_succ h] at hval
  omega

theorem eq_slotOf_succ {sequence : UInt32} (h : sequence ≠ 0xFFFFFFFF) {k : Fin kPowerImageSlots}
    (hk : k ≠ slotOf sequence) : k = slotOf (sequence + 1) := by
  have hlow : k.val < 2 := k.isLt
  have hne : k.val ≠ sequence.toNat % 2 := fun heq => hk (Fin.ext heq)
  refine Fin.ext (?_ : k.val = (sequence + 1).toNat % 2)
  rw [toNat_succ h]
  omega

theorem lt_succ_of_le {a b : UInt32} (h : b ≠ 0xFFFFFFFF) (hab : a ≤ b) : a < b + 1 := by
  rw [UInt32.lt_iff_toNat_lt, toNat_succ h]
  exact Nat.lt_succ_of_le (UInt32.le_iff_toNat_le.mp hab)

/-- The slots after a write numbered `sequence` and `failures` writes since the last that landed. -/
structure Lead (disk : Disk) (sequence : UInt32) (failures : Nat) : Prop where
  parity : Parity disk
  bound : ∀ k image, disk k = some image → image.sequence ≤ sequence
  current : failures = 0 → (∀ k, disk k = none) ∨
    ∃ image, disk (slotOf sequence) = some image ∧ image.sequence = sequence
  torn : 0 < failures → disk (slotOf sequence) = none
  gone : 2 ≤ failures → ∀ k, disk k = none

namespace Lead

variable {disk : Disk} {sequence : UInt32} {failures : Nat}

theorem land (h : Lead disk sequence failures) (hmax : sequence ≠ 0xFFFFFFFF)
    (hseq : image.sequence = sequence + 1) :
    Lead (update disk (slotOf image.sequence) (some image)) image.sequence 0 ∧
      newest (update disk (slotOf image.sequence) (some image)) = some image := by
  have hself : update disk (slotOf image.sequence) (some image) (slotOf image.sequence) =
      some image := update_self _ _ _
  have hparity : Parity (update disk (slotOf image.sequence) (some image)) := by
    intro k other hk
    rcases update_eq_some hk with ⟨rfl, rfl⟩ | ⟨-, hk⟩
    · rfl
    · exact h.parity k other hk
  have hbound : ∀ k other, update disk (slotOf image.sequence) (some image) k = some other →
      other.sequence ≤ image.sequence := by
    intro k other hk
    rcases update_eq_some hk with ⟨-, rfl⟩ | ⟨-, hk⟩
    · exact UInt32.le_refl _
    · rw [hseq]
      exact UInt32.le_of_lt (lt_succ_of_le hmax (h.bound k other hk))
  exact ⟨⟨hparity, hbound, fun _ => .inr ⟨image, hself, rfl⟩, nofun, nofun⟩, hparity.newest hself hbound⟩

theorem tear (h : Lead disk sequence failures) (hmax : sequence ≠ 0xFFFFFFFF) :
    Lead (update disk (slotOf (sequence + 1)) none) (sequence + 1) (failures + 1) ∧ (failures = 0 →
        newest (update disk (slotOf (sequence + 1)) none) = newest disk) := by
  have hother : ∀ k, k ≠ slotOf (sequence + 1) → update disk (slotOf (sequence + 1)) none k = disk k :=
    fun k hk => update_of_ne hk _ _
  have hcases : ∀ k image, update disk (slotOf (sequence + 1)) none k = some image → disk k = some image := by
    intro k image hk
    by_cases hks : k = slotOf (sequence + 1)
    · rw [hks, update_self] at hk
      cases hk
    · exact (hother k hks).symm.trans hk
  have hparity : Parity (update disk (slotOf (sequence + 1)) none) :=
    fun k image hk => h.parity k image (hcases k image hk)
  refine ⟨⟨hparity, fun k image hk => ?_, nofun, fun _ => update_self _ _ _, fun hf k => ?_⟩, fun hf => ?_⟩
  · exact UInt32.le_of_lt (lt_succ_of_le hmax (h.bound k image (hcases k image hk)))
  · by_cases hks : k = slotOf (sequence + 1)
    · rw [hks, update_self]
    · rw [hother k hks]
      have hk : k = slotOf sequence := by
        by_contra hne
        exact hks (eq_slotOf_succ hmax hne)
      rw [hk]
      exact h.torn (by omega)
  · rcases h.current hf with hnone | ⟨image, himage, hseq⟩
    · rw [newest_eq_none.mpr hnone, newest_eq_none]
      intro k
      cases hk : update disk (slotOf (sequence + 1)) none k with
      | none => rfl
      | some image => simpa [hnone k] using hcases k image hk
    · have hbound : ∀ k other, disk k = some other → other.sequence ≤ image.sequence := by
        rw [hseq]
        exact h.bound
      rw [h.parity.newest himage hbound]
      exact hparity.newest ((hother _ (slotOf_succ_ne hmax).symm).trans himage)
        fun k other hk => hbound k other (hcases k other hk)

end Lead

/-! ## What is kept -/

theorem nextImageSequence_eq {sequence : UInt32} (h : c.nextImageSequence = some sequence) :
    c.imageSequence ≠ 0xFFFFFFFF ∧ sequence = c.imageSequence + 1 := by
  unfold PowerCoordinator.nextImageSequence at h
  split at h
  · cases h
  · next hne => exact ⟨by simpa using hne, by simpa using h.symm⟩

/-- What a boot adopts, against what was owed. -/
def BootNote.Sound (b : BootNote) : Prop :=
  (∀ id ∈ b.owed, id ∈ b.adopted) ↔ b.owed = [] ∨ b.failures < 2 ∧ b.displaced = []

/-- What storage guarantees, whether or not the node runs. The deliveries in `excused` are about to be
reported. -/
structure Held (excused : MessageId → Prop) (s : PowerSystem) : Prop where
  parity : Parity s.disk
  gone : 2 ≤ s.failures → ∀ k, s.disk k = none
  stands : s.failures < 2 → ∀ id ∈ s.owed, id ∈ s.stored ∨ id ∈ s.displaced ∨ excused id
  displaced : ∀ id ∈ s.displaced, id ∈ s.owed
  missing : s.failures < 2 → ∀ id ∈ s.displaced, id ∉ s.stored
  boots : ∀ b ∈ s.boots, b.Sound

/-- The outcomes of a write after which the coordinator knows what the slot holds. -/
def WriteOutcome.Decided : WriteOutcome → Bool
  | .unread _ => false
  | _ => true

/-- What holds while the node runs. -/
structure Kept (excused : MessageId → Prop) (s : PowerSystem) : Prop extends Held excused s where
  lead : Lead s.disk s.coordinator.imageSequence s.failures
  readable : s.coordinator.storageImpaired = false
  secure : ∀ id ∈ s.owed, id ∈ ids s.coordinator.carry ∨ s.node.live id = true
  outcomes : ∀ w ∈ s.writes, w.Decided = true

/-- No delivery. -/
abbrev nobody : MessageId → Prop := fun _ => False

theorem stored_of_newest (h : newest s.disk = some image) : s.stored = ids image.pending := by
  rw [PowerSystem.stored, h]
  rfl

theorem stored_of_gone (h : ∀ k, s.disk k = none) : s.stored = [] := by
  rw [PowerSystem.stored, newest_eq_none.mpr h]
  rfl

/-- Storage does not depend on what the node does with it. -/
theorem Held.frame (h : Held excused s) {rs : List (MessageId × Option StatusCode)} {ws : List WriteOutcome} :
    Held excused { s with coordinator := c, node := n, results := rs, writes := ws } :=
  ⟨h.parity, h.gone, h.stands, h.displaced, h.missing, h.boots⟩

theorem Held.sound (h : Held nobody s) : BootNote.Sound ⟨s.owed, s.stored, s.displaced, s.failures⟩ := by
  constructor
  · intro hall
    rcases Nat.lt_or_ge s.failures 2 with hf | hf
    · refine .inr ⟨hf, eq_nil_iff_forall_not_mem.mpr fun id hid => ?_⟩
      exact h.missing hf id hid (hall id (h.displaced id hid))
    · refine .inl (eq_nil_iff_forall_not_mem.mpr fun id hid => ?_)
      have hstored := hall id hid
      rw [stored_of_gone (h.gone hf)] at hstored
      cases hstored
  · rintro (hnil | ⟨hf, hnil⟩) id hid
    · dsimp only at hnil hid
      rw [hnil] at hid
      cases hid
    · dsimp only at hnil hf
      simpa [hnil] using h.stands hf id hid

theorem Held.settled {excused : MessageId → Prop} (h : Held excused s) (ended : MessageId → Bool) :
    Held (fun id => excused id ∧ ended id = false) { s.settled ended with coordinator := c, node := n } where
  parity := h.parity
  gone := h.gone
  stands := by
    intro hf id hid
    obtain ⟨hid, hended⟩ := mem_filter.mp hid
    refine (h.stands hf id hid).imp_right (Or.imp (fun hd => ?_) fun he => ?_)
    · exact mem_filter.mpr ⟨hd, hended⟩
    · exact ⟨he, by simpa using hended⟩
  displaced := by
    intro id hid
    obtain ⟨hid, hended⟩ := mem_filter.mp hid
    exact mem_filter.mpr ⟨h.displaced id hid, hended⟩
  missing := fun hf id hid => h.missing hf id (mem_filter.mp hid).1
  boots := h.boots

namespace Kept

variable {excused : MessageId → Prop} {s : PowerSystem}

/-- The fields that the rest of the coordinator and the node may change. -/
theorem frame (h : Kept excused s) {rs : List (MessageId × Option StatusCode)}
    (hseq : c.imageSequence = s.coordinator.imageSequence)
    (hread : c.storageImpaired = s.coordinator.storageImpaired)
    (hsecure : ∀ id ∈ s.owed, id ∈ ids s.coordinator.carry ∨ s.node.live id = true →
      id ∈ ids c.carry ∨ n.live id = true) :
    Kept excused { s with coordinator := c, node := n, results := rs } where
  toHeld := h.toHeld.frame
  lead := by
    show Lead s.disk c.imageSequence s.failures
    rw [hseq]
    exact h.lead
  readable := hread.trans h.readable
  secure := fun id hid => hsecure id hid (h.secure id hid)
  outcomes := h.outcomes

theorem onCoordinator (h : Kept excused s) {f : PowerCoordinator → PowerCoordinator}
    (hseq : (f s.coordinator).imageSequence = s.coordinator.imageSequence := by rfl)
    (hread : (f s.coordinator).storageImpaired = s.coordinator.storageImpaired := by rfl)
    (hcarry : (f s.coordinator).carry = s.coordinator.carry := by rfl) :
    Kept excused (s.onCoordinator f) :=
  h.frame hseq hread fun id _ hid => by rwa [hcarry]

theorem abortToRunning (h : Kept excused s) : Kept excused s.abortToRunning :=
  h.frame rfl rfl fun _ _ hid => hid

theorem settled (h : Kept excused s) (ended : MessageId → Bool)
    (hn : ∀ id, ended id = false → s.node.live id = true → n.live id = true) :
    Kept (fun id => excused id ∧ ended id = false) { s.settled ended with node := n } where
  toHeld := h.toHeld.settled ended
  lead := h.lead
  readable := h.readable
  secure := fun id hid => by
    obtain ⟨hid, hended⟩ := mem_filter.mp hid
    exact (h.secure id hid).imp_right (hn id (by simpa using hended))
  outcomes := h.outcomes

theorem weaken (h : Kept excused s) {excused' : MessageId → Prop}
    (hex : ∀ id ∈ s.owed, excused id → excused' id) : Kept excused' s :=
  { h with
    stands := fun hf id hid => (h.stands hf id hid).imp_right (Or.imp_right (hex id hid)) }

/-- An image landed that has only carried and live deliveries, and all carried ones but the excused. -/
theorem landed (h : Kept excused s) (image : PowerImage)
    (hseq : s.coordinator.nextImageSequence = some image.sequence)
    (hin : ∀ id ∈ ids image.pending, id ∈ ids s.coordinator.carry ∨ s.node.live id = true)
    {e : MessageId → Prop} (hout : ∀ id ∈ ids s.coordinator.carry, id ∈ ids image.pending ∨ e id) :
    Kept e (s.landed image) := by
  obtain ⟨hmax, hnext⟩ := nextImageSequence_eq hseq
  have hseq' : image.serialized.sequence = s.coordinator.imageSequence + 1 := hnext
  obtain ⟨hlead, hnewest⟩ := h.lead.land hmax hseq'
  have hstored : ∀ id, id ∈ (s.landed image).stored ↔ id ∈ ids image.pending := fun id => by
    rw [stored_of_newest hnewest]
    exact mem_ids_map (f := fun r => { r with expiresAtMs := 0 }) fun _ => rfl
  refine ⟨⟨hlead.parity, nofun, fun _ id hid => ?_, fun id hid => ?_, fun _ id hid => ?_, h.boots⟩, hlead,
    h.readable, fun id hid => ?_, fun w hw => h.outcomes w (mem_of_mem_tail hw)⟩
  · rw [hstored]
    rcases mem_append.mp hid with hid | hid
    · by_cases hi : id ∈ ids image.pending
      · exact .inl hi
      by_cases hc : id ∈ ids s.coordinator.carry
      · exact .inr (.inr ((hout id hc).resolve_left hi))
      · have hl := (h.secure id hid).resolve_left hc
        exact .inr (.inl (mem_filter.mpr ⟨hid, by simp [hi, hc, hl]⟩))
    · exact .inl hid
  · exact mem_append_left _ (mem_filter.mp hid).1
  · rw [hstored]
    have hid := (mem_filter.mp hid).2
    simp only [Bool.and_eq_true, Bool.not_eq_true', contains_eq_mem, decide_eq_false_iff_not] at hid
    exact hid.1.2
  · rcases mem_append.mp hid with hid | hid
    · exact h.secure id hid
    · exact hin id hid

theorem torn (h : Kept excused s) (hseq : s.coordinator.nextImageSequence = some image.sequence) :
    Kept excused (s.torn image) := by
  obtain ⟨hmax, hnext⟩ := nextImageSequence_eq hseq
  obtain ⟨hlead, hsame⟩ := h.lead.tear hmax
  rw [← hnext] at hlead hsame
  have hstored : s.failures + 1 < 2 → (s.torn image).stored = s.stored := fun hf => by
    rw [PowerSystem.stored, PowerSystem.stored]
    exact congrArg (Option.elim · [] fun image => ids image.pending) (hsame (by omega))
  refine ⟨⟨hlead.parity, hlead.gone, fun hf => ?_, h.displaced, fun hf => ?_, h.boots⟩, hlead, h.readable,
    h.secure, fun w hw => h.outcomes w (mem_of_mem_tail hw)⟩
  · rw [hstored hf]
    exact h.stands (Nat.lt_of_succ_lt hf)
  · rw [hstored hf]
    exact h.missing (Nat.lt_of_succ_lt hf)

end Kept

theorem commitImage_wp (h : Kept excused s) {Q : Except Status Unit → PowerSystem → Prop}
    {E : PowerCut → PowerSystem → Prop}
    (hok : Q (.ok ()) ((s.landed image).onCoordinator fun c => { c with imageValid := true }))
    (hfail : ∀ status, Q (.error status) (s.torn image)) (hcut : E .cut (s.torn image)) :
    Op.wp (commitImage image) Q E s := by
  unfold commitImage
  simp only [Op.wp_bind, Op.wp_get, h.readable, Bool.false_eq_true, if_false]
  have hdec : (s.writes.headD .ok).Decided = true := by
    cases hw : s.writes with
    | nil => rfl
    | cons w ws => exact h.outcomes w (by simp [hw])
  split
  · exact hok
  · exact hfail _
  · exact hcut
  · next status hw =>
    rw [hw] at hdec
    cases hdec

@[simp] theorem modifySystem_wp {f : PowerSystem → PowerSystem} {Q : Unit → PowerSystem → Prop}
    {E : PowerCut → PowerSystem → Prop} : Op.wp (modifySystem f) Q E s ↔ Q () (f s) := Iff.rfl

/-! ## Persisting -/

/-- The candidate image is the plan for what is carried and live now. -/
structure Planned (now : MonotonicMs) (s : PowerSystem) : Prop where
  spec : ∃ offered : List Delivery, PlanSpec s.coordinator.carry offered now s.coordinator.plan ∧
    ∀ d ∈ offered, s.node.live d.id = true
  image : s.coordinator.image.pending = s.coordinator.plan.pending

/-- The deliveries of the carried records that the plan drops. -/
def Dropped (s : PowerSystem) (id : MessageId) : Prop :=
  ∃ j r, s.coordinator.plan.carryPlan j = .expired ∧ s.coordinator.carry.slots j = some r ∧
    r.originalId = id

theorem live_of_mem_snapshot {policy : SleepWorkPolicy} {d : Delivery}
    (h : d ∈ snapshotForSleep policy n.deliveries) : n.live d.id = true := by
  obtain ⟨hmem, hopen⟩ := mem_filter.mp h
  simp only [Bool.and_eq_true] at hopen
  exact any_eq_true.mpr ⟨d, hmem, by simp [hopen.1]⟩

theorem planned_planSleepImage (now : MonotonicMs) (s : PowerSystem) :
    Planned now (planSleepImage now s) where
  spec := ⟨_, planOf_spec _ _ _, fun _ hd => live_of_mem_snapshot hd⟩
  image := rfl

theorem Kept.planSleepImage {excused : MessageId → Prop} (h : Kept excused s) (now : MonotonicMs) :
    Kept excused (planSleepImage now s) := by
  unfold Power.planSleepImage
  exact h.onCoordinator

namespace Planned

variable {now : MonotonicMs} {s : PowerSystem}

theorem source (h : Planned now s) (hid : id ∈ ids s.coordinator.image.pending) :
    id ∈ ids s.coordinator.carry ∨ s.node.live id = true := by
  obtain ⟨offered, hspec, hlive⟩ := h.spec
  rw [h.image] at hid
  refine (hspec.source id hid).imp_right ?_
  rintro ⟨d, hd, rfl⟩
  exact hlive d hd

/-- It has every carried delivery that the plan does not drop. -/
theorem keeps (h : Planned now s) (hid : id ∈ ids s.coordinator.carry) :
    id ∈ ids s.coordinator.image.pending ∨ Dropped s id := by
  obtain ⟨offered, hspec, -⟩ := h.spec
  obtain ⟨j, r, hr, rfl⟩ := mem_ids.mp hid
  rw [h.image]
  by_cases hlt : now < r.expiresAtMs
  · exact .inl (hspec.kept j r hr hlt)
  · exact .inr ⟨j, r, (hspec.expired j).mpr ⟨r, hr, UInt64.not_lt.mp hlt⟩, hr, rfl⟩

end Planned

/-- What persisting leaves. -/
def Persisted (now : MonotonicMs) : Except Status Unit → PowerSystem → Prop
  | .ok (), s => Kept (Dropped s) s ∧ Planned now s
  | .error _, s => Kept nobody s

theorem sequenceExhausted_wp (h : Kept nobody s) (now : MonotonicMs) :
    Op.wp sequenceExhausted (Persisted now) (fun _ => Kept nobody) s :=
  h.onCoordinator

theorem commitFinal_wp (h : Kept nobody s) (hp : Planned now s) :
    Op.wp commitFinal (Persisted now) (fun _ => Kept nobody) s := by
  unfold commitFinal
  simp only [Op.wp_bind, Op.wp_get]
  split
  · exact sequenceExhausted_wp h now
  · next sequence hseq =>
    simp only [Op.wp_bind, Op.wp_set]
    have hs : Kept nobody (s.onCoordinator fun c =>
        { c with image := { s.coordinator.image with sequence := sequence } }) := h.onCoordinator
    refine commitImage_wp hs ?_ (fun status => hs.torn hseq) (hs.torn hseq)
    have hlanded := hs.landed { s.coordinator.image with sequence := sequence } hseq
      (fun id hid => hp.source hid) (e := Dropped s) (fun id hid => hp.keeps hid)
    exact ⟨hlanded.onCoordinator.onCoordinator, hp.spec, hp.image⟩

theorem persistImage_wp (h : Kept nobody s) (hp : Planned now s) (answers : PowerAnswers) :
    Op.wp (persistImage answers now) (Persisted now) (fun _ => Kept nobody) s := by
  unfold persistImage
  simp only [Op.wp_bind, Op.wp_get]
  split
  · exact sequenceExhausted_wp h now
  next sequence hseq =>
  split
  · exact h
  next peers channel _ =>
  simp only [Op.wp_bind, Op.wp_set]
  let image : PowerImage := { s.coordinator.image with
    sequence := sequence, configRevision := s.node.configRevision, peers := peers, channel := channel }
  have hs : Kept nobody (s.onCoordinator fun c => { c with image := image }) := h.onCoordinator
  split
  · -- the first write keeps every carried record, so it excuses nobody
    simp only [Op.wp_bind]
    refine commitImage_wp hs ?_ (fun status => hs.torn hseq) (hs.torn hseq)
    have hlanded := hs.landed
      { image with pending := stagedPending s.coordinator.carry image.pending now } hseq
      (fun id hid => (mem_ids_of_staged hid).elim .inl fun hid => hp.source hid)
      (e := nobody) fun id hid => .inl (mem_ids_staged hid)
    exact commitFinal_wp hlanded.onCoordinator ⟨hp.spec, hp.image⟩
  · exact commitFinal_wp hs ⟨hp.spec, hp.image⟩

/-! ## Settling -/

theorem mem_ids_release {j : Fin kPowerPendingCapacity} (hr : P.slots j = some r) (h : id ∈ ids P)
    (hne : id ≠ r.originalId) : id ∈ ids (P.release j) := by
  obtain ⟨k, q, hq, rfl⟩ := mem_ids.mp h
  have hkj : k ≠ j := by
    rintro rfl
    rw [hr] at hq
    cases hq
    exact hne rfl
  exact mem_ids.mpr ⟨k, q, (Pool.release_slots_ne _ hkj).trans hq, rfl⟩

/-- The state after the carry slots `js` of `s` were settled. -/
structure Settling (expired : Fin kPowerPendingCapacity → Bool) (s : PowerSystem)
    (js : List (Fin kPowerPendingCapacity)) (s' : PowerSystem) : Prop where
  kept : Kept (fun id => ∃ j r, j ∉ js ∧ expired j = true ∧ s.coordinator.carry.slots j = some r ∧
    r.originalId = id) s'
  carry : ∀ j, s'.coordinator.carry.slots j =
    if j ∈ js ∧ expired j = true then none else s.coordinator.carry.slots j
  image : s'.coordinator.image = s.coordinator.image
  target : s'.coordinator.plan.saveTarget = s.coordinator.plan.saveTarget

theorem Settling.step {expired : Fin kPowerPendingCapacity → Bool} {js : List (Fin kPowerPendingCapacity)}
    (h : Settling expired s js s') {j : Fin kPowerPendingCapacity} (hj : j ∉ js) :
    Settling expired s (js ++ [j]) (s'.settleCarry expired j) := by
  have hsame : s'.coordinator.carry.slots j = s.coordinator.carry.slots j := by
    rw [h.carry j, if_neg fun hc => hj hc.1]
  have hmem : ∀ k, k ∈ js ++ [j] ↔ k ∈ js ∨ k = j := by simp
  have hskip : (expired j = true → s.coordinator.carry.slots j = none) →
      Settling expired s (js ++ [j]) s' := by
    intro hnone
    refine ⟨h.kept.weaken ?_, fun k => ?_, h.image, h.target⟩
    · rintro id - ⟨k, r, hk, he, hr, hid⟩
      refine ⟨k, r, fun hks => ?_, he, hr, hid⟩
      rcases (hmem k).mp hks with hks | rfl
      · exact hk hks
      · rw [hnone he] at hr
        cases hr
    · rw [h.carry k]
      by_cases hkj : k = j
      · subst hkj
        rw [if_neg fun hc => hj hc.1]
        split
        · next hc => exact hnone hc.2
        · rfl
      · simp only [hmem, hkj, or_false]
  unfold PowerSystem.settleCarry
  split
  · next hnone => exact hskip fun _ => hsame.symm.trans hnone
  next r hr =>
  split
  · next he =>
    refine ⟨?_, fun k => ?_, h.image, h.target⟩
    · refine ((h.kept.settled (· == r.originalId) fun _ _ hl => hl).weaken ?_).frame rfl rfl
        fun id hid => Or.imp_left ?_
      · rintro id - ⟨⟨k, q, hk, hke, hq, rfl⟩, hne⟩
        refine ⟨k, q, fun hks => ?_, hke, hq, rfl⟩
        rcases (hmem k).mp hks with hks | rfl
        · exact hk hks
        · rw [← hsame, hr] at hq
          cases hq
          simp at hne
      · intro hcarry
        exact mem_ids_release hr hcarry (by simpa using (mem_filter.mp hid).2)
    · show (s'.coordinator.carry.release j).slots k = _
      by_cases hkj : k = j
      · subst hkj
        rw [Pool.release_slots_self, if_pos ⟨(hmem k).mpr (.inr rfl), he⟩]
      · rw [Pool.release_slots_ne _ hkj, h.carry k]
        simp only [hmem, hkj, or_false]
  · next he => exact hskip fun he' => absurd he' he

/-- Once the excused records are reported, nobody is excused. -/
theorem settleExpired_settling (expired : Fin kPowerPendingCapacity → Bool) (h : Kept excused s)
    (hex : ∀ id, excused id → ∃ j r, expired j = true ∧ s.coordinator.carry.slots j = some r ∧
      r.originalId = id) :
    Settling expired s (List.finRange kPowerPendingCapacity) (s.settleExpired expired) := by
  refine foldl_seen (P := Settling expired s)
    (fun _ _ _ hj h => h.step (hj (nodup_finRange _))) ⟨h.weaken fun id _ hid => ?_, ?_, rfl, rfl⟩
  · obtain ⟨j, r, hj⟩ := hex id hid
    exact ⟨j, r, by simp, hj⟩
  · simp

theorem Settling.done {expired : Fin kPowerPendingCapacity → Bool}
    (h : Settling expired s (List.finRange kPowerPendingCapacity) s') : Kept nobody s' :=
  h.kept.weaken fun _ _ ⟨j, _, hj, _⟩ => hj (mem_finRange j)

/-- The carry slot assigned to a saved delivery is free, or holds the same delivery. -/
structure Targeted (c : PowerCoordinator) : Prop where
  same : ∀ i j r q, c.plan.saveTarget i = some j → c.image.pending.slots i = some r →
    c.carry.slots j = some q → q.originalId = r.originalId
  distinct : ∀ i i' j, c.plan.saveTarget i = some j → c.plan.saveTarget i' = some j → i = i'

theorem Planned.targeted (h : Planned now s)
    (hs : Settling (fun j => s.coordinator.plan.carryPlan j == .expired) s
      (List.finRange kPowerPendingCapacity) s') : Targeted s'.coordinator := by
  obtain ⟨offered, hspec, -⟩ := h.spec
  refine ⟨fun i j r q hi hr hq => ?_, fun i i' j hi hi' => ?_⟩
  · rw [hs.target] at hi
    rw [hs.image, h.image] at hr
    rw [hs.carry j] at hq
    rcases hspec.room i j hi with hnone | hexp | ⟨q', r', hq', hr', hid⟩
    · simp [hnone] at hq
    · simp [hexp] at hq
    · split at hq
      · cases hq
      · rw [hq'] at hq
        rw [hr'] at hr
        cases hq
        cases hr
        exact hid
  · rw [hs.target] at hi hi'
    exact hspec.distinct i i' j hi hi'

theorem claimSaved_eq_some {c' : PowerCoordinator} (h : c.claimSaved id = some c') :
    ∃ i j r, c.plan.saveTarget i = some j ∧ c.image.pending.slots i = some r ∧ r.originalId = id ∧
      c' = { c with
        carry := c.carry.set j r
        plan := { c.plan with
          carryPlan := update c.plan.carryPlan j .keep
          savedLive := update c.plan.savedLive i true } } := by
  unfold PowerCoordinator.claimSaved at h
  split at h
  · cases h
  next i hi =>
  split at h
  · next j r hj hr =>
    have hslot := firstSlot_some hi
    simp only [hr, Option.any_some, Bool.and_eq_true, beq_iff_eq] at hslot
    cases h
    exact ⟨i, j, r, hj, hr, hslot.2, rfl⟩
  · cases h

theorem Targeted.claim (h : Targeted c) {i j : Fin kPowerPendingCapacity}
    (hi : c.plan.saveTarget i = some j) (hr : c.image.pending.slots i = some r)
    {k : Fin kPowerPendingCapacity → CarryPlanKind} {l : Fin kPowerPendingCapacity → Bool} :
    Targeted { c with
      carry := c.carry.set j r, plan := { c.plan with carryPlan := k, savedLive := l } } := by
  refine ⟨fun i' j' r' q hi' hr' hq => ?_, h.distinct⟩
  dsimp only at hi' hr' hq
  by_cases hjj : j' = j
  · subst hjj
    rw [h.distinct i' i j' hi' hi, hr] at hr'
    rw [Pool.set_slots_self] at hq
    cases hr'
    cases hq
    rfl
  · rw [Pool.set_slots_ne _ _ hjj] at hq
    exact h.same i' j' r' q hi' hr' hq

theorem live_settleOne {T : DeliveryTable} {d : Delivery} {policy : SleepWorkPolicy}
    {saved : MessageId → Bool} (hd : T.records.find (fun d => !sleepTerminal d.state) = some d)
    (hn : n.deliveries = T) (hlive : n.live id = true) (hne : id ≠ d.id) :
    PowerNode.live { n with deliveries := T.settleOneSleepDelivery policy saved } id = true := by
  obtain ⟨e, he, hopen⟩ := any_eq_true.mp hlive
  obtain ⟨i, hi⟩ := Pool.mem_def.mp (Pool.mem_toList.mp he)
  obtain ⟨k, hk, hkd⟩ := Option.bind_eq_some_iff.mp hd
  have hik : i ≠ k := by
    rintro rfl
    rw [hn, hkd] at hi
    cases hi
    simp only [Bool.and_eq_true, beq_iff_eq] at hopen
    exact hne hopen.2.symm
  refine any_eq_true.mpr ⟨e, Pool.mem_toList.mpr ⟨i, ?_⟩, hopen⟩
  unfold DeliveryTable.settleOneSleepDelivery
  rw [hk]
  exact (Pool.modify_slots_ne _ _ hik).trans (hn ▸ hi)

theorem settleOne_kept (h : Kept nobody s) (ht : Targeted s.coordinator) :
    Kept nobody s.settleOne ∧ Targeted s.settleOne.coordinator := by
  unfold PowerSystem.settleOne
  split
  · exact ⟨h, ht⟩
  next d hd =>
  dsimp only
  cases hc : (if d.options.persistAcrossSleep || s.coordinator.policy == .save then
      s.coordinator.claimSaved d.id else none) with
  | none =>
    refine ⟨(h.settled (· == d.id) fun id hne hl => ?_).weaken fun _ _ hid => hid.1, ht⟩
    exact live_settleOne hd rfl hl (by simpa using hne)
  | some c =>
    have hclaim : s.coordinator.claimSaved d.id = some c := by
      split at hc
      · exact hc
      · cases hc
    obtain ⟨i, j, r, hi, hr, hid, rfl⟩ := claimSaved_eq_some hclaim
    refine ⟨h.frame rfl rfl fun id _ hsec => ?_, ht.claim hi hr⟩
    by_cases heq : id = d.id
    · left
      rw [heq, ← hid]
      exact mem_ids_set_self _ _ _
    · exact hsec.imp (mem_ids_set fun q hq => ht.same i j r q hi hr hq) fun hl => live_settleOne hd rfl hl heq

theorem settleOne_iterate (h : Kept nobody s) (ht : Targeted s.coordinator) :
    ∀ n, Kept nobody (PowerSystem.settleOne^[n] s) ∧ Targeted (PowerSystem.settleOne^[n] s).coordinator
  | 0 => ⟨h, ht⟩
  | n + 1 => by
    rw [Function.iterate_succ_apply']
    exact settleOne_kept (settleOne_iterate h ht n).1 (settleOne_iterate h ht n).2

theorem settleCurrentAttempt_wp (h : Kept nobody s) (answers : PowerAnswers) (now : MonotonicMs) :
    Op.wp (settleCurrentAttempt answers now) (fun _ => Kept nobody) (fun _ => Kept nobody) s := by
  unfold settleCurrentAttempt
  simp only [Op.wp_bind, modifySystem_wp]
  refine (persistImage_wp (Kept.planSleepImage h.onCoordinator now) (planned_planSleepImage now _)
    answers).mono (fun r s₁ hs₁ => ?_) fun _ _ hcut => hcut
  cases r with
  | error status => exact hs₁.abortToRunning
  | ok u =>
    obtain ⟨hkept, hplanned⟩ := hs₁
    have hsettling := settleExpired_settling
      (fun j => s₁.coordinator.plan.carryPlan j == .expired) hkept fun id hid => by
        obtain ⟨j, r, hj, hr⟩ := hid
        exact ⟨j, r, by simp [hj], hr⟩
    have hdone := (settleOne_iterate hsettling.done (hplanned.targeted hsettling) kDeliveryCapacity).1
    simp only [Op.wp_bind, modifySystem_wp]
    split
    · exact hdone.abortToRunning
    split
    · exact hdone.abortToRunning
    simp only [Op.wp_bind, modifySystem_wp, Op.wp_get]
    split
    · exact hdone.onCoordinator.abortToRunning
    · exact hdone.onCoordinator.onCoordinator

/-! ## Entering sleep -/

/-- What a refresh leaves. The carried records that have expired are about to be reported. -/
def Refreshed (now : MonotonicMs) : Except Status Unit → PowerSystem → Prop
  | .ok (), s => Kept (fun id => ∃ j r, expiredBy now s.coordinator.carry j = true ∧
      s.coordinator.carry.slots j = some r ∧ r.originalId = id) s
  | .error _, s => Kept nobody s

theorem commitRefresh_wp {pending : PendingPool} {e : MessageId → Prop} (h : Kept nobody s)
    (hin : ∀ id ∈ ids pending, id ∈ ids s.coordinator.carry)
    (hout : ∀ id ∈ ids s.coordinator.carry, id ∈ ids pending ∨ e id) :
    Op.wp (commitRefresh pending)
      (fun r s' => match r with
        | .ok () => Kept e s' ∧ s'.coordinator.carry = s.coordinator.carry
        | .error _ => Kept nobody s')
      (fun _ => Kept nobody) s := by
  unfold commitRefresh
  simp only [Op.wp_bind, Op.wp_get]
  split
  · exact h.onCoordinator
  · next sequence hseq =>
    simp only [Op.wp_bind]
    refine commitImage_wp h ?_ (fun status => (h.torn hseq).onCoordinator) (h.torn hseq)
    have hlanded := h.landed { s.coordinator.image with pending := pending, sequence := sequence } hseq
      (fun id hid => .inl (hin id hid)) hout
    exact ⟨hlanded.onCoordinator, rfl⟩

theorem expiredBy_map {f : PendingDeliveryRecord → PendingDeliveryRecord}
    (hf : ∀ r, (f r).expiresAtMs = r.expiresAtMs) (j : Fin kPowerPendingCapacity) :
    expiredBy now (P.map f) j = expiredBy now P j := by
  unfold expiredBy
  rw [Pool.map_slots, Option.any_map]
  simp only [hf]

/-- The second of the refreshed images lacks only what has expired. -/
theorem mem_ids_refreshed_live (h : id ∈ ids P) :
    id ∈ ids ((P.map (·.refreshed now)).eraseIf fun r => r.expiresAtMs ≤ now) ∨
      ∃ j r, expiredBy now P j = true ∧ P.slots j = some r ∧ r.originalId = id := by
  obtain ⟨j, r, hr, rfl⟩ := mem_ids.mp h
  by_cases hexp : r.expiresAtMs ≤ now
  · exact .inr ⟨j, r, by simp [expiredBy, hr, hexp], hr, rfl⟩
  · refine .inl (mem_ids.mpr ⟨j, r.refreshed now, ?_, rfl⟩)
    have hlive : ¬ (r.refreshed now).expiresAtMs ≤ now := hexp
    simp [Pool.eraseIf, hr, hlive]

theorem mem_ids_of_eraseIf {p : PendingDeliveryRecord → Bool} (h : id ∈ ids (P.eraseIf p)) : id ∈ ids P := by
  obtain ⟨j, r, hr, rfl⟩ := mem_ids.mp h
  exact mem_ids.mpr ⟨j, r, (Option.filter_eq_some_iff.mp hr).1, rfl⟩

theorem refreshImage_wp (h : Kept nobody s) (now : MonotonicMs) :
    Op.wp (refreshImage now) (Refreshed now) (fun _ => Kept nobody) s := by
  unfold refreshImage
  simp only [Op.wp_bind, Op.wp_get]
  split
  · exact h.weaken fun _ _ hid => hid.elim
  simp only [Op.wp_bind]
  refine (commitRefresh_wp h (fun id hid => mem_ids_refreshed.mp hid)
    (e := nobody) fun id hid => .inl (mem_ids_refreshed.mpr hid)).mono (fun r s₁ hs₁ => ?_)
    fun _ _ hcut => hcut
  cases r with
  | error status => exact hs₁
  | ok u =>
    obtain ⟨hkept, hcarry⟩ := hs₁
    rw [← hcarry]
    simp only [Op.wp_bind]
    refine (commitRefresh_wp hkept (fun id hid => mem_ids_refreshed.mp (mem_ids_of_eraseIf hid))
      fun id hid => mem_ids_refreshed_live hid).mono (fun r s₂ hs₂ => ?_) fun _ _ hcut => hcut
    cases r with
    | error status => exact hs₂
    | ok u =>
      obtain ⟨hkept, hcarry⟩ := hs₂
      rw [← hcarry] at hkept
      have hids : ∀ r : PendingDeliveryRecord,
          (if r.expiresAtMs ≤ now then r else r.refreshed now).originalId = r.originalId := by
        intro r
        split <;> rfl
      have hexp : ∀ r : PendingDeliveryRecord,
          (if r.expiresAtMs ≤ now then r else r.refreshed now).expiresAtMs = r.expiresAtMs := by
        intro r
        split <;> rfl
      refine (hkept.weaken ?_).frame rfl rfl fun id _ hsec => hsec.imp_left (mem_ids_map hids).mpr
      rintro id - ⟨j, r, hj, hr, rfl⟩
      refine ⟨j, _, (expiredBy_map hexp j).trans hj, ?_, hids r⟩
      show (Pool.map _ _).slots j = _
      rw [Pool.map_slots, hr]
      rfl

theorem handOver_wp (h : Kept nobody s) (answers : PowerAnswers) (ticket : SleepTicket) :
    Op.wp (handOver answers ticket) (fun _ => Kept nobody) (fun _ => Kept nobody) s := by
  have hs := h.onCoordinator (f := fun c => { c with entering := true, state := .sleeping })
  unfold handOver
  simp only [Op.wp_bind, modifySystem_wp, Op.wp_get]
  split
  · exact hs.onCoordinator.abortToRunning
  split
  · exact hs.onCoordinator.abortToRunning
  simp only [Op.wp_bind, modifySystem_wp]
  split
  · exact hs.onCoordinator.abortToRunning
  · exact hs.onCoordinator

theorem sleepEnter_wp (h : Kept nobody s) (answers : PowerAnswers) (ticket : SleepTicket) (now : MonotonicMs) :
    Op.wp (sleepEnter answers ticket now) (fun _ => Kept nobody) (fun _ => Kept nobody) s := by
  unfold sleepEnter
  simp only [Op.wp_bind, Op.wp_get]
  split
  · exact h
  simp only [Op.wp_bind]
  refine (refreshImage_wp h now).mono (fun r s₁ hs₁ => ?_) fun _ _ hcut => hcut
  cases r with
  | error status => exact hs₁.abortToRunning
  | ok u =>
    have hsettled := (settleExpired_settling _ hs₁ fun id hid => hid).done
    simp only [Op.wp_bind, modifySystem_wp, Op.wp_get]
    split
    · exact hsettled.abortToRunning
    · exact handOver_wp hsettled answers ticket

theorem poll_wp (h : Kept nobody s) (answers : PowerAnswers) (now : MonotonicMs) :
    Op.wp (poll answers now) (fun _ => Kept nobody) (fun _ => Kept nobody) s := by
  unfold poll
  simp only [Op.wp_bind, Op.wp_get]
  split
  · exact h
  · split
    · split
      · exact settleCurrentAttempt_wp h answers now
      · split
        · exact h.abortToRunning
        · exact h
    · exact h
  · split
    · exact h.abortToRunning
    · exact h
  · split
    · exact h.onCoordinator
    · exact h
  · exact h
  · exact h

/-! ## Resuming -/

/-- The newest image is the last that landed, and a new image goes to the other slot. -/
theorem Parity.lead {disk : Disk} (h : Parity disk) (sequence : UInt32) :
    Lead disk ((Power.newest disk).elim sequence PowerImage.sequence) 0 := by
  cases hn : Power.newest disk with
  | none =>
    have hnone := newest_eq_none.mp hn
    exact ⟨h, fun k image hk => by simp [hnone k] at hk, fun _ => .inl hnone, nofun, nofun⟩
  | some image =>
    obtain ⟨⟨k, hk⟩, hmax⟩ := newest_eq_some hn
    refine ⟨h, hmax, fun _ => .inr ⟨image, ?_, rfl⟩, nofun, nofun⟩
    exact (congrArg disk (h k image hk)).trans hk

/-- What the node knows once it has loaded the image: nothing has failed, and what it owes is stored. -/
structure Loaded (s : PowerSystem) : Prop where
  lead : Lead s.disk s.coordinator.imageSequence 0
  fresh : s.failures = 0
  nothing : s.displaced = []
  owed : ∀ id ∈ s.owed, id ∈ s.stored
  boots : ∀ b ∈ s.boots, b.Sound
  readable : s.coordinator.storageImpaired = false
  outcomes : ∀ w ∈ s.writes, w.Decided = true

theorem loaded_loadImage (h : Held nobody s) (hread : s.coordinator.storageImpaired = false)
    (hw : ∀ w ∈ s.writes, w.Decided = true) : Loaded s.loadImage where
  lead := h.parity.lead _
  fresh := rfl
  nothing := rfl
  owed := fun id hid => by
    have hstored : id ∈ s.stored := by simpa using (mem_filter.mp hid).2
    exact hstored
  boots := by
    intro b hb
    rcases mem_append.mp hb with hb | hb
    · exact h.boots b hb
    · rw [mem_singleton.mp hb]
      exact h.sound
  readable := hread
  outcomes := hw

/-- With everything owed reported, the invariant holds, whatever is carried. -/
theorem Loaded.kept (h : Loaded s) (hnil : s.owed = []) : Kept nobody s where
  parity := h.lead.parity
  gone := fun hf => by simp [h.fresh] at hf
  stands := fun _ id hid => by simp [hnil] at hid
  displaced := fun id hid => by simp [h.nothing] at hid
  missing := fun _ id hid => by simp [h.nothing] at hid
  boots := h.boots
  lead := h.fresh ▸ h.lead
  readable := h.readable
  secure := fun id hid => by simp [hnil] at hid
  outcomes := h.outcomes

/-- The state after the slots `ks` of the image were restored. -/
structure Restoring (image : PowerImage) (s : PowerSystem) (ks : List (Fin kPowerPendingCapacity))
    (s' : PowerSystem) : Prop where
  disk : s'.disk = s.disk
  coordinator : s'.coordinator = s.coordinator
  writes : s'.writes = s.writes
  failures : s'.failures = s.failures
  boots : s'.boots = s.boots
  displaced : ∀ id ∈ s'.displaced, id ∈ s.displaced
  owed : ∀ id ∈ s'.owed, id ∈ s.owed ∧ ∀ k ∈ ks, ∀ r, image.pending.slots k = some r →
    r.originalId ≠ id

theorem Restoring.notify {ks : List (Fin kPowerPendingCapacity)} (h : Restoring image s ks s')
    {k : Fin kPowerPendingCapacity} (hr : image.pending.slots k = some r) (code : Option StatusCode)
    (n : PowerNode) : Restoring image s (ks ++ [k]) ({ s' with node := n }.notifyPendingResult r code) := by
  refine { h with displaced := fun id hid => ?_, owed := fun id hid => ?_ }
  · exact h.displaced id (mem_filter.mp hid).1
  · obtain ⟨hid, hne⟩ := mem_filter.mp hid
    obtain ⟨howed, hks⟩ := h.owed id hid
    refine ⟨howed, fun j hj q hq heq => ?_⟩
    rcases mem_append.mp hj with hj | hj
    · exact hks j hj q hq heq
    · rw [mem_singleton.mp hj, hr] at hq
      cases hq
      simp [heq] at hne

theorem Restoring.step {ks : List (Fin kPowerPendingCapacity)} {acc : PowerSystem × PendingPool}
    (h : Restoring image s ks acc.1) (answers : PowerAnswers) (elapsed : ElapsedInterval)
    (now : MonotonicMs) (k : Fin kPowerPendingCapacity) :
    Restoring image s (ks ++ [k]) (restoreRecord answers elapsed now image acc k).1 := by
  unfold restoreRecord
  split
  · next hnone =>
    refine { h with owed := fun id hid => ?_ }
    obtain ⟨howed, hks⟩ := h.owed id hid
    refine ⟨howed, fun j hj q hq => ?_⟩
    rcases mem_append.mp hj with hj | hj
    · exact hks j hj q hq
    · rw [mem_singleton.mp hj, hnone] at hq
      cases hq
  next r hr =>
  dsimp only
  split
  · exact h.notify hr _ acc.1.node
  split
  · exact h.notify hr _ _
  · exact h.notify hr _ acc.1.node

/-- Everything that the adopted image holds has been reported. -/
theorem restorePending_kept (h : Loaded s) (himage : newest s.disk = some image)
    (answers : PowerAnswers) (elapsed : ElapsedInterval) (now : MonotonicMs) :
    Kept nobody (restorePending answers elapsed now image s).1 ∧
      (restorePending answers elapsed now image s).1.owed = [] := by
  have hres := foldl_seen (P := fun ks acc => Restoring image s ks acc.1) (s := (s, image.pending))
    (l := List.finRange kPowerPendingCapacity) (fun _ _ k _ h => h.step answers elapsed now k)
    ⟨rfl, rfl, rfl, rfl, rfl, fun _ hid => hid, fun id hid => ⟨hid, by simp⟩⟩
  have hnil : (restorePending answers elapsed now image s).1.owed = [] := by
    refine eq_nil_iff_forall_not_mem.mpr fun id hid => ?_
    obtain ⟨howed, hks⟩ := hres.owed id hid
    have hstored := h.owed id howed
    rw [stored_of_newest himage] at hstored
    obtain ⟨k, r, hr, rfl⟩ := mem_ids.mp hstored
    exact hks k (by simp [mem_finRange]) r hr rfl
  refine ⟨Loaded.kept ⟨?_, hres.failures.trans h.fresh, ?_, ?_, ?_, ?_, ?_⟩ hnil, hnil⟩
  · rw [restorePending, hres.disk, hres.coordinator]
    exact h.lead
  · refine eq_nil_iff_forall_not_mem.mpr fun id hid => ?_
    have hid' := hres.displaced id hid
    rw [h.nothing] at hid'
    cases hid'
  · rw [hnil]
    exact nofun
  · rw [restorePending, hres.boots]
    exact h.boots
  · rw [restorePending, hres.coordinator]
    exact h.readable
  · rw [restorePending, hres.writes]
    exact h.outcomes

theorem Kept.recarry (h : Kept excused s) (hnil : s.owed = []) {f : PowerCoordinator → PowerCoordinator}
    (hseq : (f s.coordinator).imageSequence = s.coordinator.imageSequence)
    (hread : (f s.coordinator).storageImpaired = s.coordinator.storageImpaired) :
    Kept excused (s.onCoordinator f) :=
  h.frame hseq hread fun id hid => by simp [hnil] at hid

/-- The image of what is retained, once it has landed, is what is carried. -/
theorem Kept.retained (h : Kept nobody s) (hnil : s.owed = []) (image : PowerImage)
    (hseq : s.coordinator.nextImageSequence = some image.sequence) :
    Kept nobody ((s.landed image).onCoordinator fun c => { c with carry := image.pending }) := by
  have hcarry := h.recarry hnil (f := fun c => { c with carry := image.pending }) rfl rfl
  have hlanded := hcarry.landed image hseq (fun id hid => .inl hid) (e := nobody) fun id hid => .inl hid
  have heq : (s.landed image).onCoordinator (fun c => { c with carry := image.pending }) =
      (s.onCoordinator fun c => { c with carry := image.pending }).landed image := by
    simp [PowerSystem.landed, PowerSystem.onCoordinator, hnil]
  rw [heq]
  exact hlanded

theorem commitRetained_wp (h : Kept nobody s) (hnil : s.owed = []) (stored merged : PowerImage) :
    Op.wp (commitRetained stored merged)
      (fun m s' => Kept nobody (s'.onCoordinator fun c => { c with image := m, carry := m.pending }))
      (fun _ => Kept nobody) s := by
  unfold commitRetained
  simp only [Op.wp_bind, Op.wp_get]
  split
  · exact h.recarry hnil rfl rfl
  split
  · exact h.recarry hnil rfl rfl
  next sequence hseq =>
  simp only [Op.wp_bind]
  refine commitImage_wp h ?_ (fun status => (h.torn hseq).recarry hnil rfl rfl) (h.torn hseq)
  exact (h.retained hnil { merged with sequence := sequence } hseq).onCoordinator
    (f := fun c => { c with imageValid := true, image := { merged with sequence := sequence } })

/-- The context of the node has not changed, so that the newest image is adopted. -/
def Adoptable (answers : PowerAnswers) (s : PowerSystem) : Prop :=
  (∀ slot, answers.unreadable slot = none) ∧
    ∀ image ∈ newest s.disk, s.coordinator.imageUsable answers image = true

theorem Loaded.frame (h : Loaded s) (hseq : c.imageSequence = s.coordinator.imageSequence)
    (hread : c.storageImpaired = s.coordinator.storageImpaired) :
    Loaded { s with coordinator := c, node := n } :=
  { h with
    lead := by
      show Lead s.disk c.imageSequence 0
      rw [hseq]
      exact h.lead
    readable := hread.trans h.readable }

theorem resumeStored_wp (h : Loaded s) (answers : PowerAnswers) (elapsed : ElapsedInterval)
    (now : MonotonicMs) :
    Op.wp (resumeStored answers elapsed now (newest s.disk)) (fun _ => Kept nobody)
      (fun _ => Kept nobody) s := by
  unfold resumeStored
  simp only [Op.wp_bind, modifySystem_wp]
  let s₁ : PowerSystem := { s with
    node := { s.node with started := true, draining := false }
    coordinator := { s.coordinator with radioGeneration := s.coordinator.radioGeneration + 1 } }
  have hs₁ : Loaded s₁ := h.frame rfl rfl
  have hlast : ∀ s₂ : PowerSystem, Kept nobody s₂ → Kept nobody (s₂.onCoordinator fun c =>
      if c.image.peers.toList.isEmpty then { c with state := .running }
      else
        { c with
          confirmBaseline := s₂.node.rxGeneration
          resumeDeadlineMs :=
            if 0xFFFFFFFFFFFFFFFF - c.config.resumeConfirmMs.toUInt64 < now then 0xFFFFFFFFFFFFFFFF
            else now + c.config.resumeConfirmMs.toUInt64 }) := by
    intro s₂ hs₂
    refine hs₂.onCoordinator ?_ ?_ ?_ <;>
      · split <;> rfl
  split
  · next hnone =>
    have hnil : s₁.owed = [] := by
      refine eq_nil_iff_forall_not_mem.mpr fun id hid => ?_
      have hstored := hs₁.owed id hid
      rw [stored_of_gone (s := s₁) (newest_eq_none.mp hnone)] at hstored
      cases hstored
    exact hlast _ (hs₁.kept hnil).onCoordinator
  · next image himage =>
    obtain ⟨hkept, hnil⟩ := restorePending_kept hs₁ himage answers elapsed now
    simp only [Op.wp_bind, Op.wp_get, Op.wp_set, modifySystem_wp]
    exact (commitRetained_wp hkept hnil _ _).mono (fun m s₂ hs₂ => hlast _ hs₂) fun _ _ hcut => hcut

theorem resumeFlow_wp (h : Held nobody s) (hread : s.coordinator.storageImpaired = false)
    (hw : ∀ w ∈ s.writes, w.Decided = true) (hadopt : Adoptable answers s)
    (elapsed : ElapsedInterval) (now : MonotonicMs) :
    Op.wp (resumeFlow answers elapsed now) (fun _ => Kept nobody) (fun _ => Kept nobody) s := by
  have hloaded : Loaded s.resetForResume.loadImage :=
    loaded_loadImage h.frame hread hw
  have hreads : ((List.finRange kPowerImageSlots).any fun slot => (answers.unreadable slot).isSome) =
      false := by
    simp [hadopt.1]
  have hfilter : (newest s.disk).filter (s.resetForResume.coordinator.imageUsable answers) =
      newest s.disk := by
    cases hn : newest s.disk with
    | none => rfl
    | some image =>
      have husable : s.resetForResume.coordinator.imageUsable answers image = true :=
        hadopt.2 image hn
      simp [Option.filter, husable]
  unfold resumeFlow
  simp only [Op.wp_bind, modifySystem_wp, Op.wp_get, hreads, Bool.false_eq_true, if_false, Op.wp_set]
  have hwp := resumeStored_wp hloaded answers elapsed now
  rwa [show newest s.resetForResume.loadImage.disk = newest s.disk from rfl, ← hfilter] at hwp

theorem begin_wp (h : Held nobody s) (hbegun : s.coordinator.begun = false)
    (hread : s.coordinator.storageImpaired = false) (hw : ∀ w ∈ s.writes, w.Decided = true)
    (hadopt : Adoptable answers s) (elapsed : ElapsedInterval) (now : MonotonicMs) :
    Op.wp (begin answers elapsed now) (fun _ => Kept nobody) (fun _ => Kept nobody) s := by
  unfold begin recoveryRequired
  simp only [Op.wp_bind, Op.wp_get, hbegun, Bool.false_eq_true, if_false, Op.wp_set, Op.wp_pure]
  exact resumeFlow_wp (s := s.onCoordinator fun c => { c with begun := true, state := .resuming })
    h.frame hread hw hadopt elapsed now

theorem wake_wp (h : Kept nobody s) (hadopt : Adoptable answers s) (elapsed : ElapsedInterval)
    (now : MonotonicMs) :
    Op.wp (wake answers elapsed now) (fun _ => Kept nobody) (fun _ => Kept nobody) s := by
  unfold wake recoveryRequired
  simp only [Op.wp_bind, Op.wp_get]
  split
  · exact h
  · simp only [Op.wp_bind, Op.wp_set, Op.wp_get, Op.wp_pure]
    have hs := h.onCoordinator (f := fun c => { c with state := .resuming })
    exact resumeFlow_wp hs.toHeld hs.readable hs.outcomes hadopt elapsed now

/-! ## Runs -/

inductive PowerEvent
  | nodeWork (node : PowerNode)
  | prepare (policy : SleepWorkPolicy) (now : MonotonicMs)
  | abort
  | appEvent
  | radioReset
  | poll (answers : PowerAnswers) (now : MonotonicMs)
  | enter (answers : PowerAnswers) (ticket : SleepTicket) (now : MonotonicMs)
  | wake (answers : PowerAnswers) (elapsed : ElapsedInterval) (now : MonotonicMs)
  | boot (answers : PowerAnswers) (elapsed : ElapsedInterval) (now : MonotonicMs)

namespace PowerSystem

/-- The power is gone, and with it all but the slots. -/
def powerOff (s : PowerSystem) : PowerSystem :=
  { s with coordinator := { config := s.coordinator.config }, node := {}, writes := [] }

/-- A call that may be cut by a crash. -/
def call {α : Type} (x : PowerOp α) (answers : PowerAnswers) (s : PowerSystem) : PowerSystem :=
  match x { s with writes := answers.writes } with
  | (.ok _, s) => s
  | (.error .cut, s) => s.powerOff

/-- The node's own work. A delivery that was live and no longer is has been settled. -/
def nodeWork (node : PowerNode) (s : PowerSystem) : PowerSystem :=
  { s.settled fun id => s.node.live id && !node.live id with node := node }

end PowerSystem

def PowerEvent.next (s : PowerSystem) : PowerEvent → PowerSystem
  | .nodeWork node => s.nodeWork node
  | .prepare policy now => (sleepPrepare policy now s).2
  | .abort => (sleepAbort s).2
  | .appEvent => notifyAppEvent s
  | .radioReset => notifyRadioReset s
  | .poll answers now => s.call (Power.poll answers now) answers
  | .enter answers ticket now => s.call (sleepEnter answers ticket now) answers
  | .wake answers elapsed now => s.call (Power.wake answers elapsed now) answers
  | .boot answers elapsed now => s.powerOff.call (begin answers elapsed now) answers

/-- Each write lands, fails or is cut, and what a boot finds is readable and of this node. -/
def PowerEvent.Enabled (s : PowerSystem) : PowerEvent → Prop
  | .poll answers _ | .enter answers _ _ => ∀ w ∈ answers.writes, w.Decided = true
  | .wake answers _ _ | .boot answers _ _ =>
    (∀ w ∈ answers.writes, w.Decided = true) ∧ Adoptable answers s
  | _ => True

/-- A coordinator with its node and its slots. It starts without power, owing what is stored. -/
def powerMachine : Machine PowerSystem PowerEvent Unit where
  Init s := Parity s.disk ∧ s.owed = s.stored ∧ s.displaced = [] ∧ s.failures = 0 ∧ s.boots = [] ∧
    s = s.powerOff
  Enabled := PowerEvent.Enabled
  next := PowerEvent.next
  out _ _ := []

/-- Without power. -/
structure Off (s : PowerSystem) : Prop extends Held nobody s where
  begun : s.coordinator.begun = false
  state : s.coordinator.state = .running
  entering : s.coordinator.entering = false

def PowerInv (s : PowerSystem) : Prop :=
  Kept nobody s ∨ Off s

theorem Held.off (h : Held nobody s) : Off s.powerOff :=
  ⟨h.frame, rfl, rfl, rfl⟩

theorem call_inv {α : Type} {x : PowerOp α}
    (h : Op.wp x (fun _ => Kept nobody) (fun _ => Kept nobody) { s with writes := answers.writes }) :
    PowerInv (s.call x answers) := by
  unfold PowerSystem.call
  unfold Op.wp at h
  split
  · next heq =>
    rw [heq] at h
    exact .inl h
  · next heq =>
    rw [heq] at h
    exact .inr h.toHeld.off

theorem Kept.rewrites (h : Kept nobody s) {ws : List WriteOutcome}
    (hw : ∀ w ∈ ws, w.Decided = true) : Kept nobody { s with writes := ws } :=
  ⟨h.toHeld.frame, h.lead, h.readable, h.secure, hw⟩

theorem Held.boot (h : Held nobody s) (he : (∀ w ∈ answers.writes, w.Decided = true) ∧ Adoptable answers s)
    (elapsed : ElapsedInterval) (now : MonotonicMs) :
    PowerInv (s.powerOff.call (begin answers elapsed now) answers) := by
  have hs : Held nobody { s.powerOff with writes := answers.writes } := h.frame
  exact call_inv (begin_wp hs rfl rfl he.1 he.2 elapsed now)

/-- What one event does to a node that runs. -/
theorem Kept.next (h : Kept nobody s) {e : PowerEvent} (he : e.Enabled s) : PowerInv (e.next s) := by
  cases e with
  | nodeWork node =>
    refine .inl ((h.settled _ fun id hended hl => ?_).weaken fun _ _ hid => hid.1)
    simpa [hl] using hended
  | prepare policy now =>
    left
    show Kept nobody (sleepPrepare policy now s).2
    unfold sleepPrepare
    dsimp only
    split
    · exact h
    split
    · exact h
    split
    · exact h
    split
    · exact h
    · exact h.frame rfl rfl fun _ _ hid => hid
  | abort =>
    left
    show Kept nobody (sleepAbort s).2
    unfold sleepAbort
    split
    · exact h
    · exact h.abortToRunning
  | appEvent =>
    left
    show Kept nobody (notifyAppEvent s)
    unfold notifyAppEvent
    dsimp only
    split
    · exact h.onCoordinator.abortToRunning
    · exact h.onCoordinator
  | radioReset =>
    left
    show Kept nobody (notifyRadioReset s)
    unfold notifyRadioReset
    dsimp only
    split
    · exact h.onCoordinator.abortToRunning
    · exact h.onCoordinator
  | poll answers now => exact call_inv (poll_wp (h.rewrites he) answers now)
  | enter answers ticket now => exact call_inv (sleepEnter_wp (h.rewrites he) answers ticket now)
  | wake answers elapsed now => exact call_inv (wake_wp (h.rewrites he.1) he.2 elapsed now)
  | boot answers elapsed now => exact h.toHeld.boot he elapsed now

theorem call_skip {α : Type} {x : PowerOp α} {a : α}
    (h : x { s with writes := answers.writes } = (.ok a, { s with writes := answers.writes })) :
    s.call x answers = { s with writes := answers.writes } := by
  unfold PowerSystem.call
  rw [h]

theorem Off.next (h : Off s) {e : PowerEvent} (he : e.Enabled s) : PowerInv (e.next s) := by
  have hcall : ∀ {α : Type} {x : PowerOp α} {answers : PowerAnswers} {a : α},
      x { s with writes := answers.writes } = (.ok a, { s with writes := answers.writes }) →
      PowerInv (s.call x answers) := by
    intro α x answers a hx
    rw [call_skip hx]
    exact .inr ⟨h.toHeld.frame, h.begun, h.state, h.entering⟩
  have hactive : s.coordinator.sleepAttemptActive = false := by
    simp [PowerCoordinator.sleepAttemptActive, h.state, h.entering]
  have hcount : ∀ f : PowerCoordinator → PowerCoordinator, (f s.coordinator).begun = false →
      (f s.coordinator).state = .running → (f s.coordinator).entering = false →
      (f s.coordinator).sleepAttemptActive = false ∧ Off (s.onCoordinator f) := by
    intro f hb hs hn
    exact ⟨by simp [PowerCoordinator.sleepAttemptActive, hs, hn], h.toHeld.frame, hb, hs, hn⟩
  cases e with
  | nodeWork node =>
    right
    have hheld := h.toHeld.settled (fun id => s.node.live id && !node.live id) (c := s.coordinator)
      (n := node)
    exact ⟨⟨hheld.parity, hheld.gone, fun hf id hid => (hheld.stands hf id hid).imp_right
      (Or.imp_right fun hex => hex.1), hheld.displaced, hheld.missing, hheld.boots⟩, h.begun, h.state,
      h.entering⟩
  | prepare policy now =>
    right
    have hsame : (sleepPrepare policy now s).2 = s := by
      unfold sleepPrepare
      simp only [h.begun, Bool.not_false, Bool.true_or, if_true]
      split <;> rfl
    rwa [PowerEvent.next, hsame]
  | abort =>
    right
    rwa [PowerEvent.next, sleepAbort, hactive, if_pos (by rfl)]
  | appEvent =>
    obtain ⟨hidle, hoff⟩ := hcount (fun c => { c with appEvents := c.appEvents + 1 }) h.begun h.state
      h.entering
    right
    show Off (notifyAppEvent s)
    unfold notifyAppEvent
    dsimp only
    split
    · next hbusy => exact absurd (hbusy.symm.trans hidle) (by decide)
    · exact hoff
  | radioReset =>
    obtain ⟨hidle, hoff⟩ := hcount (fun c => { c with radioGeneration := c.radioGeneration + 1 }) h.begun
      h.state h.entering
    right
    show Off (notifyRadioReset s)
    unfold notifyRadioReset
    dsimp only
    split
    · next hbusy => exact absurd (hbusy.symm.trans hidle) (by decide)
    · exact hoff
  | poll answers now =>
    refine hcall (a := ()) ?_
    show Power.poll answers now { s with writes := answers.writes } = _
    simp only [Power.poll, Op.bind_eq_ok]
    exact ⟨_, _, rfl, by simp only [h.state]; rfl⟩
  | enter answers ticket now =>
    refine hcall (a := .error ⟨.invalidState, "not ready to sleep"⟩) ?_
    refine Op.bind_eq_ok.mpr ⟨_, _, rfl, ?_⟩
    have hrefuse : validateEnter answers ticket false { s with writes := answers.writes } = false := by
      simp [validateEnter, h.state]
    simp only [hrefuse, h.state]
    rfl
  | wake answers elapsed now =>
    refine hcall (a := .error ⟨.invalidState, "not sleeping"⟩) ?_
    refine Op.bind_eq_ok.mpr ⟨_, _, rfl, ?_⟩
    simp only [h.state]
    rfl
  | boot answers elapsed now => exact h.toHeld.boot he elapsed now

theorem powerInv_init (h : powerMachine.Init s) : PowerInv s := by
  obtain ⟨hparity, howed, hdisplaced, hfailures, hboots, hoff⟩ := h
  rw [hoff]
  refine .inr (Held.off ⟨hparity, ?_, ?_, ?_, ?_, ?_⟩)
  · simp [hfailures]
  · intro _ id hid
    rw [howed] at hid
    exact .inl hid
  · simp [hdisplaced]
  · simp [hdisplaced]
  · simp [hboots]

instance (answers : PowerAnswers) (s : PowerSystem) : Decidable (Adoptable answers s) :=
  inferInstanceAs (Decidable ((∀ slot, answers.unreadable slot = none) ∧
    ∀ image ∈ newest s.disk, s.coordinator.imageUsable answers image = true))

instance : ∀ (s : PowerSystem) (e : PowerEvent), Decidable (powerMachine.Enabled s e)
  | _, .poll answers _ | _, .enter answers _ _ =>
    inferInstanceAs (Decidable (∀ w ∈ answers.writes, w.Decided = true))
  | s, .wake answers _ _ | s, .boot answers _ _ =>
    inferInstanceAs (Decidable ((∀ w ∈ answers.writes, w.Decided = true) ∧ Adoptable answers s))
  | _, .nodeWork _ | _, .prepare _ _ | _, .abort | _, .appEvent | _, .radioReset => isTrue trivial

namespace Sample

def system : PowerSystem where
  coordinator := { config := { network := 1, node := 5 } }

theorem system_init : powerMachine.Init system :=
  ⟨nofun, by decide +kernel, rfl, rfl, rfl, rfl⟩

def delivery (sequence : UInt64) : Delivery :=
  { id := { session := 1, sequence := sequence }, destination := 7
    options := { persistAcrossSleep := true }, state := .waitingForEndReceipt, expiresAtMs := 100000 }

/-- A node with these deliveries in the last slots of its table. -/
def node (sequences : List UInt64) : PowerNode where
  deliveries := { records :=
    ⟨fun i => sequences[kDeliveryCapacity - 1 - i.val]?.map delivery⟩ }
  started := true

/-- The first delivery is saved. -/
def saved : List PowerEvent :=
  [.boot {} {} 0, .nodeWork (node [1]), .prepare .fail 10, .poll {} 10, .abort]

/-- One write fails, and the next is cut. -/
def twoFailures : List PowerEvent :=
  saved ++ [.prepare .fail 20, .poll { writes := [.fail ⟨.storageFailure, "write"⟩] } 20,
    .prepare .fail 30, .poll { writes := [.cut] } 30, .boot {} {} 0]

/-- The second delivery is in a staged image, and newer ones take its place in the next. -/
def crowded : List PowerEvent :=
  saved ++ [.nodeWork (node [2]), .prepare .fail 20,
    .poll { writes := [.ok, .fail ⟨.storageFailure, "write"⟩] } 20,
    .nodeWork (node [2, 3, 4, 5]), .prepare .fail 30, .poll { writes := [.ok, .cut] } 30, .boot {} {} 0]

end Sample

end RouteLoom.Power
