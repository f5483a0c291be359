import Mathlib.Data.Set.Basic
import Mathlib.Data.List.Nodup

/-!
# Numbers used at most once

Several holders each own a set of numbers that they may still use, and a list records the numbers
that were used. As long as the sets are disjoint from each other and from the list, no number is
used twice. The rules say how the sets may change.

* `Allocation.take` : a holder uses one of its numbers and gives it up
* `Allocation.grow` : a holder gets numbers that nobody owns and nobody used
* `Allocation.move` : a holder hands its numbers to another one
* `Allocation.place` : a holder starts with new numbers, and the others take over old sets
* `Allocation.mono` : holders give up numbers
-/

namespace Lib

open List

/-- `owned i` is what holder `i` may still use, `used` what was used. -/
structure Allocation {ι N : Type*} (owned : ι → Set N) (used : List N) : Prop where
  nodup : used.Nodup
  unused : ∀ i, ∀ x ∈ owned i, x ∉ used
  disjoint : ∀ i j, i ≠ j → ∀ x ∈ owned i, x ∉ owned j

namespace Allocation

variable {ι N : Type*} {owned owned' : ι → Set N} {used : List N}

theorem mono (h : Allocation owned used) (hsub : ∀ i, ∀ x ∈ owned' i, x ∈ owned i) :
    Allocation owned' used where
  nodup := h.nodup
  unused i x hx := h.unused i x (hsub i x hx)
  disjoint i j hij x hi hj := h.disjoint i j hij x (hsub i x hi) (hsub j x hj)

theorem take (h : Allocation owned used) {i : ι} {x : N} (hx : x ∈ owned i)
    (hsub : ∀ j, ∀ y ∈ owned' j, y ∈ owned j) (hgone : x ∉ owned' i) : Allocation owned' (used ++ [x]) where
  nodup := by
    rw [nodup_append]
    refine ⟨h.nodup, nodup_singleton x, fun y hy z hz => ?_⟩
    rw [mem_singleton.mp hz]
    rintro rfl
    exact h.unused i y hx hy
  unused j y hy hmem := by
    rcases mem_append.mp hmem with hmem | hmem
    · exact h.unused j y (hsub j y hy) hmem
    · rw [mem_singleton.mp hmem] at hy
      by_cases hij : i = j
      · exact hgone (hij ▸ hy)
      · exact h.disjoint i j hij x hx (hsub j x hy)
  disjoint := (h.mono hsub).disjoint

theorem grow (h : Allocation owned used) (i : ι) {G : Set N}
    (hnew : ∀ x ∈ G, x ∉ used ∧ ∀ j, j ≠ i → x ∉ owned j) (hsub : ∀ j, j ≠ i → ∀ x ∈ owned' j, x ∈ owned j)
    (hi : ∀ x ∈ owned' i, x ∈ owned i ∨ x ∈ G) : Allocation owned' used where
  nodup := h.nodup
  unused j x hx := by
    by_cases hj : j = i
    · rw [hj] at hx
      rcases hi x hx with hx | hx
      · exact h.unused i x hx
      · exact (hnew x hx).1
    · exact h.unused j x (hsub j hj x hx)
  disjoint := by
    -- a number in two sets: at most one of the holders is the one that grew
    have key : ∀ j, j ≠ i → ∀ x ∈ owned' i, x ∉ owned' j := by
      intro j hj x hx hxj
      rcases hi x hx with hx | hx
      · exact h.disjoint i j hj.symm x hx (hsub j hj x hxj)
      · exact (hnew x hx).2 j hj (hsub j hj x hxj)
    intro j k hjk x hx hxk
    by_cases hj : j = i
    · rw [hj] at hx hjk
      exact key k hjk.symm x hx hxk
    · by_cases hk : k = i
      · rw [hk] at hxk
        exact key j hj x hxk hx
      · exact h.disjoint j k hjk x (hsub j hj x hx) (hsub k hk x hxk)

theorem place (h : Allocation owned used) (i : ι) (source : ι → ι)
    (hnew : ∀ x ∈ owned' i, x ∉ used ∧ ∀ j, x ∉ owned j)
    (hold : ∀ j, j ≠ i → ∀ x ∈ owned' j, x ∈ owned (source j))
    (hinj : ∀ j k, j ≠ i → k ≠ i → source j = source k → j = k) : Allocation owned' used where
  nodup := h.nodup
  unused j x hx := by
    by_cases hj : j = i
    · rw [hj] at hx
      exact (hnew x hx).1
    · exact h.unused _ x (hold j hj x hx)
  disjoint j k hjk x hx hxk := by
    by_cases hj : j = i
    · rw [hj] at hx hjk
      exact (hnew x hx).2 _ (hold k hjk.symm x hxk)
    · by_cases hk : k = i
      · rw [hk] at hxk
        exact (hnew x hxk).2 _ (hold j hj x hx)
      · exact h.disjoint _ _ (fun hs => hjk (hinj j k hj hk hs)) x (hold j hj x hx) (hold k hk x hxk)

theorem move (h : Allocation owned used) {i j : ι} (hgive : ∀ x, x ∉ owned' i)
    (hto : ∀ x ∈ owned' j, x ∈ owned i) (hsub : ∀ k, k ≠ j → ∀ x ∈ owned' k, x ∈ owned k) :
    Allocation owned' used := by
  classical
  -- `j` takes over from `i`, who keeps nothing
  refine h.place i (Function.update id j i) (fun x hx => absurd hx (hgive x)) (fun k _ x hx => ?_)
    fun k l hk hl heq => ?_
  · by_cases hkj : k = j
    · subst hkj
      rw [Function.update_self]
      exact hto x hx
    · rw [Function.update_of_ne hkj]
      exact hsub k hkj x hx
  · simp only [Function.update_apply, id_eq] at heq
    split at heq <;> split at heq <;> grind

end Allocation

end Lib
