import RouteLoom.Storage.CrashAtomic

/-!
# Pairs and the slots behind them

What a usable pair knows about its slots. A pair that has just been started, or has just committed, stands
on its slots; after a failed commit it is still anchored in them.

* `standing_conclude` : a start leaves a pair that stands on its slots, whatever reads fail
* `Anchored.stands` : so does a successful commit
* `Anchored.written` : a failed one leaves the pair anchored
-/

namespace RouteLoom.Storage

open Lib Lib.TwoSlot SealedSlotPair Function

variable {format : SealedRecordFormat} {pair : SealedSlotPair} {flash s : Flash} {record : List UInt8}

/-- The active slot holds the active record, and without an active record slot 1 holds none. -/
structure Anchored (format : SealedRecordFormat) (pair : SealedSlotPair) (flash : Flash) : Prop where
  active : Usable pair → pair.hasActive = true → pair.activeSeq ≤ pair.seqFloor ∧
    ∃ record, slotRecord format (flash pair.activeSlot) = some (pair.activeSeq, record)
  fresh : Usable pair → pair.hasActive = false → slotRecord format (flash 1) = none

/-- The slots stand for the active record, and without an active record they hold none. -/
structure Standing (format : SealedRecordFormat) (pair : SealedSlotPair) (flash : Flash) : Prop where
  active : Usable pair → pair.hasActive = true → pair.activeSeq ≤ pair.seqFloor ∧
    ∃ record, Stands format flash pair.activeSlot (pair.activeSeq, record)
  fresh : Usable pair → pair.hasActive = false →
    ∀ slot, Clean format (flash slot) ∧ slotRecord format (flash slot) = none

theorem anchored_of_not_usable (h : ¬ Usable pair) : Anchored format pair flash where
  active husable := absurd husable h
  fresh husable := absurd husable h

theorem Standing.anchored (h : Standing format pair flash) : Anchored format pair flash where
  active husable hactive := by
    obtain ⟨hle, record, hstands⟩ := h.active husable hactive
    exact ⟨hle, record, hstands.newest.held⟩
  fresh husable hactive := (h.fresh husable hactive 1).2

theorem Standing.clean (h : Standing format pair flash) (husable : Usable pair) :
    ∀ slot, Clean format (flash slot) := by
  intro slot
  cases hactive : pair.hasActive with
  | true =>
    obtain ⟨_, _, hstands⟩ := h.active husable hactive
    exact hstands.clean slot
  | false => exact (h.fresh husable hactive slot).1

/-! ## Starts -/

/-- A start on slots that stand for a record adopts it, or leaves a pair that is not usable. -/
theorem conclude_stands (hsequenced : format.sequenced = true) {scan : Fin 2 → Except Status Classified}
    (hscan : ScanOf format flash scan) (husable : Usable (conclude format scan).2) {i : Fin 2}
    {a : UInt32 × List UInt8} (hnewest : Newest seqOf (slotRecords format flash) i a) :
    ∃ stale, (conclude format scan).2 = adopted i a.1 stale ∧ Stands format flash i a := by
  obtain ⟨_, rfl, hclean, hcoherent⟩ := clean_of_usable hscan husable
  obtain ⟨stale, hconclude⟩ := conclude_clean hsequenced hclean hcoherent hnewest
  exact ⟨stale, by rw [hconclude], hclean, hcoherent, hnewest⟩

theorem standing_conclude (hsequenced : format.sequenced = true) {scan : Fin 2 → Except Status Classified}
    (hscan : ScanOf format flash scan) : Standing format (conclude format scan).2 flash := by
  by_cases hsome : ∃ slot a, slotRecord format (flash slot) = some a
  · obtain ⟨_, _, hheld⟩ := hsome
    obtain ⟨i, a, hnewest⟩ : ∃ i a, Newest seqOf (slotRecords format flash) i a := exists_newest hheld
    refine ⟨fun husable _ => ?_, fun husable hactive => ?_⟩
    · obtain ⟨stale, hadopted, hstands⟩ := conclude_stands hsequenced hscan husable hnewest
      rw [hadopted]
      exact ⟨UInt32.le_refl _, a.2, hstands⟩
    · obtain ⟨stale, hadopted, _⟩ := conclude_stands hsequenced hscan husable hnewest
      rw [hadopted] at hactive
      cases hactive
  · push Not at hsome
    have hnone : ∀ slot, slotRecord format (flash slot) = none := fun slot =>
      Option.eq_none_iff_forall_ne_some.mpr (hsome slot)
    refine ⟨fun husable hactive => ?_, fun husable _ slot => ?_⟩
    · obtain ⟨_, rfl, hclean, _⟩ := clean_of_usable hscan husable
      rw [conclude_fresh hclean hnone] at hactive
      cases hactive
    · obtain ⟨_, rfl, hclean, _⟩ := clean_of_usable hscan husable
      exact ⟨hclean slot, hnone slot⟩

/-! ## Commits -/

theorem Written.other {slot other : Fin 2} {seq : UInt32} (h : Written format flash slot record seq s)
    (hne : other ≠ slot) : s other = flash other := by
  cases h with
  | kept => rfl
  | pending | committed => exact update_of_ne hne _ _

theorem active_ne_target (h : pair.hasActive = true) : pair.activeSlot ≠ pair.target := by
  unfold target
  rw [if_pos h]
  exact (add_one_ne _).symm

/-- A commit that did not succeed leaves the pair anchored. -/
theorem Anchored.written {seq : UInt32} (h : Anchored format pair flash)
    (hs : Written format flash pair.target record seq s) : Anchored format pair s where
  active husable hactive := by
    rw [hs.other (active_ne_target hactive)]
    exact h.active husable hactive
  fresh husable hactive := by
    have hne : 1 ≠ pair.target := by
      unfold target
      simp [hactive]
    rw [hs.other hne]
    exact h.fresh husable hactive

/-- A successful commit: the slots stand for the new record. -/
theorem Anchored.stands (hsequenced : format.sequenced = true) (h : Anchored format pair flash)
    (hclean : ∀ slot, Clean format (flash slot)) (husable : Usable pair)
    (hadmitted : Admitted format pair record) (hprepared : Prepared format record (pair.seqFloor + 1)) :
    Stands format (update flash pair.target
      (landed format (committedRecord format record (pair.seqFloor + 1)))) pair.target
      (newRecord format pair record) := by
  have hcommitted := slotRecord_committed hsequenced hprepared hadmitted
  cases hactive : pair.hasActive with
  | true =>
    obtain ⟨hle, held, hheld⟩ := h.active husable hactive
    rw [show pair.target = pair.activeSlot + 1 from if_pos hactive]
    exact .committed hheld hcommitted (lt_newRecord hle hadmitted)
  | false =>
    have hone := h.fresh husable hactive
    rw [show pair.target = 0 by unfold target; rw [hactive]; rfl]
    refine ⟨clean_update (i := 1) (hclean 1) (clean_of_slotRecord hcommitted), ?_, .alone ?_ ?_⟩
    · intro a b _ hb
      rw [slotRecords_update, update_of_ne (by decide)] at hb
      rw [slotRecords, hone] at hb
      cases hb
    · rw [slotRecords_update, update_self]
      exact hcommitted
    · rw [slotRecords_update, update_of_ne (by decide)]
      exact hone

end RouteLoom.Storage
