import Mathlib.Data.Finset.Card
import Mathlib.Data.Fintype.Basic

/-!
# Bit masks of finite sets

A bit vector stands for a set of small numbers.

* `Masks` : the set bits are the elements
* `Masks.insert`, `Masks.erase` : setting and clearing a bit
* `Masks.test` : testing a bit
-/

namespace Lib

variable {w n : Nat} {m : BitVec w} {s : Finset (Fin n)}

/-- Bit `j` is set exactly when `j` is in the set. -/
def Masks (m : BitVec w) (s : Finset (Fin n)) : Prop :=
  ∀ j, m.getLsbD j = true ↔ ∃ i ∈ s, i.val = j

theorem masks_zero : Masks (0#w) (∅ : Finset (Fin n)) := by
  intro j
  simp

theorem getLsbD_bit (i : Nat) (hi : i < w) (j : Nat) : (1#w <<< i).getLsbD j = decide (i = j) := by
  rw [BitVec.getLsbD_shiftLeft, BitVec.getLsbD_one]
  by_cases hij : i = j
  · subst hij
    simp [hi, Nat.zero_lt_of_lt hi]
  · rw [decide_eq_false hij]
    simp only [Bool.and_eq_false_imp, Bool.and_eq_true, decide_eq_true_eq, Bool.not_eq_true',
      decide_eq_false_iff_not]
    omega

theorem Masks.insert (hm : Masks m s) (hw : n ≤ w) (i : Fin n) :
    Masks (m ||| 1#w <<< i.val) (insert i s) := by
  intro j
  rw [BitVec.getLsbD_or, getLsbD_bit i.val (by omega), Bool.or_eq_true, hm j, decide_eq_true_eq]
  simp only [Finset.mem_insert, exists_eq_or_imp]
  exact or_comm

theorem Masks.erase (hm : Masks m s) (hw : n ≤ w) (i : Fin n) :
    Masks (m &&& ~~~(1#w <<< i.val)) (s.erase i) := by
  intro j
  rw [BitVec.getLsbD_and, BitVec.getLsbD_not, getLsbD_bit i.val (by omega), Bool.and_eq_true, hm j]
  simp only [Bool.and_eq_true, decide_eq_true_eq, Bool.not_eq_true', decide_eq_false_iff_not,
    Finset.mem_erase]
  constructor
  · rintro ⟨⟨k, hk, rfl⟩, -, hne⟩
    exact ⟨k, ⟨fun h => hne (by rw [h]), hk⟩, rfl⟩
  · rintro ⟨k, ⟨hne, hk⟩, rfl⟩
    exact ⟨⟨k, hk, rfl⟩, by omega, fun h => hne (Fin.ext h.symm)⟩

theorem Masks.test (hm : Masks m s) (hw : n ≤ w) (i : Fin n) : m &&& 1#w <<< i.val ≠ 0#w ↔ i ∈ s := by
  have hbit : i ∈ s ↔ m.getLsbD i.val = true := by
    rw [hm]
    exact ⟨fun h => ⟨i, h, rfl⟩, fun ⟨k, hk, hki⟩ => Fin.ext hki ▸ hk⟩
  rw [hbit]
  constructor
  · intro hne
    by_contra hclear
    refine hne (BitVec.eq_of_getLsbD_eq fun j _ => ?_)
    rw [BitVec.getLsbD_and, getLsbD_bit i.val (by omega), BitVec.getLsbD_zero]
    by_cases hij : i.val = j
    · rw [← hij, Bool.eq_false_iff.mpr hclear, Bool.false_and]
    · rw [decide_eq_false hij, Bool.and_false]
  · intro hset heq
    have := congrArg (fun v => BitVec.getLsbD v i.val) heq
    simp only [BitVec.getLsbD_and, getLsbD_bit i.val (show i.val < w by omega), hset,
      decide_true, Bool.and_self, BitVec.getLsbD_zero] at this
    cases this

theorem Masks.eq_zero (hm : Masks m s) (hs : s = ∅) : m = 0#w := by
  refine BitVec.eq_of_getLsbD_eq fun j _ => ?_
  rw [BitVec.getLsbD_zero, Bool.eq_false_iff]
  intro hset
  obtain ⟨i, hi, -⟩ := (hm j).mp hset
  rw [hs] at hi
  exact absurd hi (Finset.notMem_empty i)

end Lib
