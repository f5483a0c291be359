import Mathlib.Data.Fintype.EquivFin
import RouteLoom.Power.Coordinator
import RouteLoom.Lib.Scan

/-!
# What the plan of an image keeps

The candidate image takes every carried record that has not expired, and each record of it is a
carried one or one of a live delivery. The slots that the saved deliveries will take among the carried
records are free by then, or hold the same delivery.

* `Placed` : what holds while carried records and live deliveries are placed
* `Targets` : what holds of the assigned carry slots
* `planOf_spec` : what the coordinator relies on
* `mem_ids_staged` : the image of the first write keeps every carried record
-/

namespace RouteLoom.Power

open Lib Function List
open Mesh (Delivery)

/-! ## Identifiers in a pool -/

variable {P : PendingPool} {id : MessageId} {i : Fin kPowerPendingCapacity}
  {seen : List (Fin kPowerPendingCapacity)} {offered : List Delivery}

theorem mem_ids : id ∈ ids P ↔ ∃ i r, P.slots i = some r ∧ r.originalId = id := by
  simp only [ids, mem_map, Pool.mem_toList, Pool.mem_def]
  constructor
  · rintro ⟨r, ⟨i, hi⟩, rfl⟩
    exact ⟨i, r, hi, rfl⟩
  · rintro ⟨i, r, hi, rfl⟩
    exact ⟨r, ⟨i, hi⟩, rfl⟩

theorem mem_ids_map {f : PendingDeliveryRecord → PendingDeliveryRecord}
    (hf : ∀ r, (f r).originalId = r.originalId) : id ∈ ids (P.map f) ↔ id ∈ ids P := by
  simp only [mem_ids, Pool.map_slots, Option.map_eq_some_iff]
  constructor
  · rintro ⟨i, _, ⟨r, hr, rfl⟩, hid⟩
    exact ⟨i, r, hr, (hf r).symm.trans hid⟩
  · rintro ⟨i, r, hr, hid⟩
    exact ⟨i, f r, ⟨r, hr, rfl⟩, (hf r).trans hid⟩

/-- Overwriting a slot that was free, or that held the same delivery, loses none. -/
theorem mem_ids_set {r : PendingDeliveryRecord} (hold : ∀ q, P.slots i = some q → q.originalId = r.originalId)
    (h : id ∈ ids P) : id ∈ ids (P.set i r) := by
  obtain ⟨k, q, hk, rfl⟩ := mem_ids.mp h
  by_cases hki : k = i
  · subst hki
    exact mem_ids.mpr ⟨k, r, Pool.set_slots_self _ _ _, (hold q hk).symm⟩
  · exact mem_ids.mpr ⟨k, q, (Pool.set_slots_ne _ _ hki).trans hk, rfl⟩

theorem mem_ids_set_self (P : PendingPool) (i : Fin kPowerPendingCapacity)
    (r : PendingDeliveryRecord) : r.originalId ∈ ids (P.set i r) :=
  mem_ids.mpr ⟨i, r, Pool.set_slots_self _ _ _, rfl⟩

theorem freeIdx_slots (h : P.freeIdx = some i) : P.slots i = none := by
  simpa using firstSlot_some h

theorem freeIdx_none (h : P.freeIdx = none) (i : Fin kPowerPendingCapacity) : ∃ r, P.slots i = some r := by
  have hi := firstSlot_none.mp h i
  cases hs : P.slots i with
  | none => simp [hs] at hi
  | some r => exact ⟨r, rfl⟩

/-! ## Placing -/

variable {carry : PendingPool} {now : MonotonicMs} {p : SleepPlan}

/-- The plan after the carry slots in `seen` and the deliveries in `offered` were placed. -/
structure Placed (carry : PendingPool) (now : MonotonicMs) (seen : List (Fin kPowerPendingCapacity))
    (offered : List Delivery) (p : SleepPlan) : Prop where
  kept : ∀ j ∈ seen, ∀ r, carry.slots j = some r → now < r.expiresAtMs →
    ∃ i, p.carrySlot i = some j
  carried : ∀ i j, p.carrySlot i = some j → j ∈ seen ∧ ∃ r q, carry.slots j = some r ∧
    now < r.expiresAtMs ∧ p.pending.slots i = some q ∧ q.originalId = r.originalId
  distinct : ∀ i i' j, p.carrySlot i = some j → p.carrySlot i' = some j → i = i'
  expired : ∀ j, p.carryPlan j = .expired ↔
    j ∈ seen ∧ ∃ r, carry.slots j = some r ∧ r.expiresAtMs ≤ now
  fresh : ∀ i, p.freshLive i = true → ∃ q, p.pending.slots i = some q ∧
    ∃ d ∈ offered, d.id = q.originalId
  old : ∀ i q, p.freshLive i = false → p.pending.slots i = some q → (p.carrySlot i).isSome
  target : ∀ i j, p.saveTarget i = some j → p.carrySlot i = some j

theorem Placed.nil : Placed carry now [] [] {} :=
  ⟨nofun, nofun, nofun, fun j => ⟨nofun, nofun⟩, nofun, fun i q _ hq => by simp at hq, nofun⟩

/-- As long as a carry slot is unseen, not every slot of the candidate is taken. -/
theorem Placed.free (h : Placed carry now seen [] p) {j : Fin kPowerPendingCapacity} (hj : j ∉ seen) :
    p.pending.freeIdx ≠ none := by
  intro hnone
  have hslot : ∀ i, ∃ k, p.carrySlot i = some k := by
    intro i
    obtain ⟨q, hq⟩ := freeIdx_none hnone i
    have hfresh : p.freshLive i = false := by
      by_contra hf
      obtain ⟨_, _, d, hd, _⟩ := h.fresh i (by simpa using hf)
      simp at hd
    exact Option.isSome_iff_exists.mp (h.old i q hfresh hq)
  choose f hf using hslot
  have hinj : Function.Injective f := fun i i' hii =>
    h.distinct i i' (f i') (hii ▸ hf i) (hf i')
  obtain ⟨i, hi⟩ := (Finite.injective_iff_surjective.mp hinj) j
  exact hj (hi ▸ (h.carried i _ (hf i)).1)

theorem Placed.placeCarry (h : Placed carry now seen [] p) {j : Fin kPowerPendingCapacity} (hj : j ∉ seen) :
    Placed carry now (seen ++ [j]) [] (p.placeCarry carry now j) := by
  have hmem : ∀ k, k ∈ seen ++ [j] ↔ k ∈ seen ∨ k = j := by simp
  unfold SleepPlan.placeCarry
  split
  · next hnone =>
    refine ⟨fun k hk r hr => ?_, fun i k hk => ?_, h.distinct, fun k => ?_, h.fresh, h.old, h.target⟩
    · rcases (hmem k).mp hk with hk | rfl
      · exact h.kept k hk r hr
      · rw [hnone] at hr
        cases hr
    · obtain ⟨hs, hrest⟩ := h.carried i k hk
      exact ⟨(hmem k).mpr (.inl hs), hrest⟩
    · rw [h.expired k, hmem]
      refine and_congr_left fun ⟨r, hr, _⟩ => ⟨.inl, fun hor => hor.resolve_right ?_⟩
      rintro rfl
      rw [hnone] at hr
      cases hr
  · next r hr =>
    split
    · next hexp =>
      refine ⟨fun k hk q hq hlt => ?_, fun i k hk => ?_, h.distinct, fun k => ?_, h.fresh, h.old, h.target⟩
      · rcases (hmem k).mp hk with hk | rfl
        · exact h.kept k hk q hq hlt
        · rw [hr] at hq
          cases hq
          exact absurd hexp (UInt64.not_le.mpr hlt)
      · obtain ⟨hs, hrest⟩ := h.carried i k hk
        exact ⟨(hmem k).mpr (.inl hs), hrest⟩
      · by_cases hkj : k = j
        · subst hkj
          simp only [update_self, true_iff]
          exact ⟨(hmem k).mpr (.inr rfl), r, hr, hexp⟩
        · simp only [update_of_ne hkj, h.expired k, hmem, hkj, or_false]
    · next hlive =>
      have hlt : now < r.expiresAtMs := UInt64.not_le.mp hlive
      have hplan : ∀ k, update p.carryPlan j .keep k = .expired ↔
          k ∈ seen ++ [j] ∧ ∃ q, carry.slots k = some q ∧ q.expiresAtMs ≤ now := by
        intro k
        by_cases hkj : k = j
        · subst hkj
          simp only [update_self, reduceCtorEq, false_iff, not_and, not_exists]
          intro _ q hq
          rw [hr] at hq
          cases hq
          exact hlive
        · simp only [update_of_ne hkj, h.expired k, hmem, hkj, or_false]
      split
      · next hfull => exact absurd hfull (h.free hj)
      · next i hi =>
        have hfree := freeIdx_slots hi
        have hnew : ∀ k, p.carrySlot k ≠ some j := fun k hk => hj (h.carried k j hk).1
        have hslot : p.carrySlot i = none := by
          cases hc : p.carrySlot i with
          | none => rfl
          | some k =>
            obtain ⟨_, _, q, _, _, hq, _⟩ := h.carried i k hc
            rw [hfree] at hq
            cases hq
        refine ⟨fun k hk q hq hltq => ?_, fun i' k hk => ?_, fun a b k ha hb => ?_, hplan,
          fun i' hi' => ?_, fun i' q hf hq => ?_, fun i' k hk => ?_⟩
        · rcases (hmem k).mp hk with hk | rfl
          · obtain ⟨i', hi'⟩ := h.kept k hk q hq hltq
            have hne : i' ≠ i := by
              rintro rfl
              rw [hslot] at hi'
              cases hi'
            exact ⟨i', (update_of_ne hne _ _).trans hi'⟩
          · exact ⟨i, update_self _ _ _⟩
        · rcases update_eq_some hk with ⟨rfl, rfl⟩ | ⟨hii, hk⟩
          · exact ⟨(hmem j).mpr (.inr rfl), r, _, hr, hlt, Pool.set_slots_self _ _ _, rfl⟩
          · obtain ⟨hs, r', q, hr', hlt', hq, hid⟩ := h.carried i' k hk
            exact ⟨(hmem k).mpr (.inl hs), r', q, hr', hlt', (Pool.set_slots_ne _ _ hii).trans hq, hid⟩
        · rcases update_eq_some ha with ⟨rfl, rfl⟩ | ⟨_, ha'⟩ <;>
            rcases update_eq_some hb with ⟨rfl, hjk⟩ | ⟨_, hb'⟩
          · rfl
          · exact absurd hb' (hnew b)
          · exact absurd (hjk ▸ ha') (hnew a)
          · exact h.distinct a b k ha' hb'
        · obtain ⟨_, _, d, hd, _⟩ := h.fresh i' hi'
          simp at hd
        · by_cases hii : i' = i
          · subst hii
            simp
          · dsimp only at hq ⊢
            rw [Pool.set_slots_ne _ _ hii] at hq
            rw [update_of_ne hii]
            exact h.old i' q hf hq
        · by_cases hii : i' = i
          · subst hii
            have := h.target i' k hk
            rw [hslot] at this
            cases this
          · dsimp only
            rw [update_of_ne hii]
            exact h.target i' k hk

/-- A slot that no carried record was copied to, or the same delivery, takes a live delivery. -/
theorem Placed.fillSlot (h : Placed carry now seen offered p) {d : Delivery}
    (hold : ∀ j r, p.carrySlot i = some j → carry.slots j = some r → r.originalId = d.id) :
    Placed carry now seen (offered ++ [d]) (p.fillSlot i now d) := by
  refine ⟨h.kept, fun i' j hj => ?_, h.distinct, h.expired, fun i' hi' => ?_, fun i' q hf hq => ?_, h.target⟩
  · obtain ⟨hs, r, q, hr, hlt, hq, hid⟩ := h.carried i' j hj
    by_cases hii : i' = i
    · subst hii
      exact ⟨hs, r, _, hr, hlt, Pool.set_slots_self _ _ _, (hold j r hj hr).symm⟩
    · exact ⟨hs, r, q, hr, hlt, (Pool.set_slots_ne _ _ hii).trans hq, hid⟩
  · by_cases hii : i' = i
    · subst hii
      exact ⟨_, Pool.set_slots_self _ _ _, d, by simp, rfl⟩
    · obtain ⟨q, hq, d', hd', hid⟩ := h.fresh i' ((update_of_ne hii _ _).symm.trans hi')
      exact ⟨q, (Pool.set_slots_ne _ _ hii).trans hq, d', by simp [hd'], hid⟩
  · have hii : i' ≠ i := by
      rintro rfl
      simp [SleepPlan.fillSlot] at hf
    exact h.old i' q ((update_of_ne hii _ _).symm.trans hf) ((Pool.set_slots_ne _ _ hii).symm.trans hq)

theorem Placed.offer (h : Placed carry now seen offered p) (d : Delivery) :
    Placed carry now seen (offered ++ [d]) p :=
  { h with
    fresh := fun i hi => by
      obtain ⟨q, hq, d', hd', hid⟩ := h.fresh i hi
      exact ⟨q, hq, d', by simp [hd'], hid⟩ }

theorem Placed.placeFresh (h : Placed carry now seen offered p) (d : Delivery) :
    Placed carry now seen (offered ++ [d]) (p.placeFresh now d) := by
  unfold SleepPlan.placeFresh
  split
  · exact h.offer d
  split
  · next i hi =>
    have hslot := firstSlot_some hi
    simp only [Bool.and_eq_true, Option.any_eq_true, beq_iff_eq] at hslot
    obtain ⟨-, q, hq, hid⟩ := hslot
    have hsame : ∀ j r, p.carrySlot i = some j → carry.slots j = some r → r.originalId = d.id := by
      intro j r hj hr
      obtain ⟨-, r', q', hr', -, hq', hid'⟩ := h.carried i j hj
      rw [hr] at hr'
      rw [hq] at hq'
      cases hr'
      cases hq'
      exact hid'.symm.trans hid
    split
    · exact h.fillSlot hsame
    · next j hj =>
      refine { h.fillSlot hsame with expired := fun k => ?_, target := fun i' k hk => ?_ }
      · -- the covered record has not expired, so it was not planned to be dropped
        rw [← h.expired k]
        by_cases hkj : k = j
        · subst hkj
          obtain ⟨-, r, -, hr, hlt, -⟩ := h.carried i k hj
          simp only [update_self, reduceCtorEq, false_iff, h.expired, not_and, not_exists]
          intro _ r' hr'
          rw [hr] at hr'
          cases hr'
          exact UInt64.not_le.mpr hlt
        · simp only [update_of_ne hkj]
      · rcases update_eq_some hk with ⟨rfl, rfl⟩ | ⟨-, hk⟩
        · exact hj
        · exact h.target i' k hk
  · split
    · exact h.offer d
    · next i hi =>
      refine h.fillSlot fun j r hj _ => ?_
      obtain ⟨-, -, q, -, -, hq, -⟩ := h.carried i j hj
      rw [freeIdx_slots hi] at hq
      cases hq

/-! ## The assigned slots -/

/-- Each assigned carry slot is free, or holds a record that expired or is of the same delivery; no
two records share one. -/
structure Targets (carry : PendingPool) (p : SleepPlan) : Prop where
  room : ∀ i j, p.saveTarget i = some j →
    carry.slots j = none ∨ p.carryPlan j = .expired ∨ p.carrySlot i = some j
  distinct : ∀ i i' j, p.saveTarget i = some j → p.saveTarget i' = some j → i = i'

theorem Placed.targets (h : Placed carry now seen offered p) : Targets carry p :=
  ⟨fun i j hj => .inr (.inr (h.target i j hj)),
    fun i i' j hj hj' => h.distinct i i' j (h.target i j hj) (h.target i' j hj')⟩

theorem Targets.assignTarget (h : Targets carry p) (i : Fin kPowerPendingCapacity) :
    Targets carry (p.assignTarget carry i) := by
  unfold SleepPlan.assignTarget
  split
  · exact h
  split
  · exact h
  · next j hj =>
    have hslot := firstSlot_some hj
    simp only [Bool.and_eq_true, Bool.or_eq_true, Option.isNone_iff_eq_none, beq_iff_eq,
      all_eq_true, mem_finRange, true_imp_iff, bne_iff_ne] at hslot
    obtain ⟨hroom, hnew⟩ := hslot
    refine ⟨fun k j' hk => ?_, fun k k' j' hk hk' => ?_⟩
    · rcases update_eq_some hk with ⟨rfl, rfl⟩ | ⟨-, hk⟩
      · exact hroom.imp_right .inl
      · exact h.room k j' hk
    · rcases update_eq_some hk with ⟨rfl, rfl⟩ | ⟨-, hold⟩ <;>
        rcases update_eq_some hk' with ⟨rfl, hjj⟩ | ⟨-, hold'⟩
      · rfl
      · exact absurd hold' (hnew k')
      · exact absurd (hjj ▸ hold) (hnew k)
      · exact h.distinct k k' j' hold hold'

theorem assignTarget_eq (carry : PendingPool) (p : SleepPlan) (i : Fin kPowerPendingCapacity) :
    ∃ t, p.assignTarget carry i = { p with saveTarget := t } := by
  unfold SleepPlan.assignTarget
  split
  · exact ⟨_, rfl⟩
  split
  · exact ⟨_, rfl⟩
  · exact ⟨_, rfl⟩

/-! ## The whole plan -/

/-- What the coordinator relies on. -/
structure PlanSpec (carry : PendingPool) (offered : List Delivery) (now : MonotonicMs) (p : SleepPlan) :
    Prop where
  kept : ∀ j r, carry.slots j = some r → now < r.expiresAtMs → r.originalId ∈ ids p.pending
  expired : ∀ j, p.carryPlan j = .expired ↔ ∃ r, carry.slots j = some r ∧ r.expiresAtMs ≤ now
  source : ∀ id ∈ ids p.pending, id ∈ ids carry ∨ ∃ d ∈ offered, d.id = id
  room : ∀ i j, p.saveTarget i = some j → carry.slots j = none ∨ p.carryPlan j = .expired ∨
    ∃ r q, carry.slots j = some r ∧ p.pending.slots i = some q ∧ r.originalId = q.originalId
  distinct : ∀ i i' j, p.saveTarget i = some j → p.saveTarget i' = some j → i = i'

theorem Placed.spec (h : Placed carry now (List.finRange kPowerPendingCapacity) offered p)
    {t : Fin kPowerPendingCapacity → Option (Fin kPowerPendingCapacity)}
    (ht : Targets carry { p with saveTarget := t }) :
    PlanSpec carry offered now { p with saveTarget := t } where
  kept := by
    intro j r hr hlt
    obtain ⟨i, hi⟩ := h.kept j (mem_finRange j) r hr hlt
    obtain ⟨-, r', q, hr', -, hq, hid⟩ := h.carried i j hi
    rw [hr] at hr'
    cases hr'
    exact mem_ids.mpr ⟨i, q, hq, hid⟩
  expired := by
    intro j
    rw [h.expired j]
    simp [mem_finRange]
  source := by
    intro id hid
    obtain ⟨i, q, hq, rfl⟩ := mem_ids.mp hid
    rcases Bool.eq_false_or_eq_true (p.freshLive i) with hf | hf
    · obtain ⟨q', hq', d, hd, hdq⟩ := h.fresh i hf
      rw [hq] at hq'
      cases hq'
      exact .inr ⟨d, hd, hdq⟩
    · obtain ⟨j, hj⟩ := Option.isSome_iff_exists.mp (h.old i q hf hq)
      obtain ⟨-, r, q', hr, -, hq', hidq⟩ := h.carried i j hj
      rw [hq] at hq'
      cases hq'
      exact .inl (mem_ids.mpr ⟨j, r, hr, hidq.symm⟩)
  room := by
    intro i j hj
    refine (ht.room i j hj).imp_right (Or.imp_right fun hc => ?_)
    obtain ⟨-, r, q, hr, -, hq, hid⟩ := h.carried i j hc
    exact ⟨r, q, hr, hq, hid.symm⟩
  distinct := ht.distinct

theorem assignTarget_all (carry : PendingPool) :
    ∀ (is : List (Fin kPowerPendingCapacity)) (p : SleepPlan), Targets carry p →
      ∃ t, is.foldl (SleepPlan.assignTarget carry) p = { p with saveTarget := t } ∧
        Targets carry { p with saveTarget := t }
  | [], p, h => ⟨p.saveTarget, rfl, h⟩
  | i :: is, p, h => by
    obtain ⟨t, ht⟩ := assignTarget_eq carry p i
    obtain ⟨t', heq, htargets⟩ := assignTarget_all carry is _ (h.assignTarget i)
    rw [ht] at heq htargets
    exact ⟨t', by rw [foldl_cons, ht, heq], htargets⟩

/-- **The plan keeps every carried record that has not expired**, takes its other records from live
deliveries, and saves these where nothing is lost. -/
theorem planOf_spec (carry : PendingPool) (offered : List Delivery) (now : MonotonicMs) :
    PlanSpec carry offered now (planOf carry offered now) := by
  have hcarried := foldl_seen (P := fun seen p => Placed carry now seen [] p) (s := {})
    (fun _ _ _ hj h => h.placeCarry (hj (nodup_finRange kPowerPendingCapacity))) .nil
  have hfilled := foldl_seen (P := fun offered p => Placed carry now _ offered p) (l := offered)
    (fun _ _ d _ h => h.placeFresh d) hcarried
  obtain ⟨t, heq, ht⟩ := assignTarget_all carry (List.finRange kPowerPendingCapacity) _ hfilled.targets
  unfold planOf
  rw [heq]
  exact hfilled.spec ht

/-! ## The staged image -/

theorem mem_ids_stageFresh {r : PendingDeliveryRecord} (h : id ∈ ids P) : id ∈ ids (stageFresh P r) := by
  unfold stageFresh
  split
  · exact h
  split
  · exact h
  · next i hi => exact mem_ids_set (fun q hq => by simp [freeIdx_slots hi] at hq) h

theorem mem_ids_of_stageFresh {r : PendingDeliveryRecord} (h : id ∈ ids (stageFresh P r)) :
    id ∈ ids P ∨ id = r.originalId := by
  unfold stageFresh at h
  split at h
  · exact .inl h
  split at h
  · exact .inl h
  · next i hi =>
    obtain ⟨k, q, hq, rfl⟩ := mem_ids.mp h
    by_cases hk : k = i
    · subst hk
      rw [Pool.set_slots_self] at hq
      cases hq
      exact .inr rfl
    · exact .inl (mem_ids.mpr ⟨k, q, (Pool.set_slots_ne _ _ hk).symm.trans hq, rfl⟩)

theorem mem_ids_refreshed : id ∈ ids (P.map (·.refreshed now)) ↔ id ∈ ids P :=
  mem_ids_map (f := (·.refreshed now)) fun _ => rfl

theorem mem_ids_staged {candidate : PendingPool} (h : id ∈ ids carry) :
    id ∈ ids (stagedPending carry candidate now) := by
  have hall : ∀ (rs : List PendingDeliveryRecord) (P : PendingPool), id ∈ ids P →
      id ∈ ids (rs.foldl stageFresh P) := by
    intro rs
    induction rs with
    | nil => exact fun P hP => hP
    | cons r rs ih => exact fun P hP => ih _ (mem_ids_stageFresh hP)
  exact hall _ _ (mem_ids_refreshed.mpr h)

theorem mem_ids_of_staged {candidate : PendingPool}
    (h : id ∈ ids (stagedPending carry candidate now)) : id ∈ ids carry ∨ id ∈ ids candidate := by
  have hall : ∀ (rs : List PendingDeliveryRecord) (P : PendingPool), id ∈ ids (rs.foldl stageFresh P) →
      id ∈ ids P ∨ id ∈ rs.map PendingDeliveryRecord.originalId := by
    intro rs
    induction rs with
    | nil => exact fun P hP => .inl hP
    | cons r rs ih =>
      intro P hP
      rcases ih _ hP with h | h
      · rcases mem_ids_of_stageFresh h with h | rfl
        · exact .inl h
        · exact .inr (by simp)
      · exact .inr (by simp only [map_cons, mem_cons, h, or_true])
  exact (hall _ _ h).imp_left mem_ids_refreshed.mp

end RouteLoom.Power
