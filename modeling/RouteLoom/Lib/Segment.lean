import Mathlib.Data.List.Basic

/-!
# Fields of a list

A record with a fixed layout is a list whose fields are segments. Overwriting one segment leaves
every disjoint one as it was.

* `segment`, `patch` : read and overwrite a field
* `segment_patch_self`, `segment_patch_below`, `segment_patch_above` : what a read sees of a write
-/

namespace Lib

open List

variable {α : Type}

/-- The `count` elements from `start` on. -/
def segment (l : List α) (start count : Nat) : List α :=
  (l.drop start).take count

/-- Overwrite the elements from `start` on with `new`. -/
def patch (l : List α) (start : Nat) (new : List α) : List α :=
  l.take start ++ (new ++ l.drop (start + new.length))

variable {l new : List α} {start count i : Nat}

theorem length_patch (h : start + new.length ≤ l.length) : (patch l start new).length = l.length := by
  unfold patch
  rw [length_append, length_append, length_take, length_drop]
  omega

theorem take_patch (h : start ≤ l.length) (hi : i ≤ start) : (patch l start new).take i = l.take i := by
  have hlength : (l.take start).length = start := length_take_of_le h
  unfold patch
  rw [take_append_of_le_length (by rw [hlength]; exact hi), take_take, Nat.min_eq_left hi]

theorem take_patch_self (new : List α) (h : start ≤ l.length) :
    (patch l start new).take (start + new.length) = l.take start ++ new := by
  have hlength : (l.take start).length = start := length_take_of_le h
  unfold patch
  rw [← append_assoc]
  exact take_left' (by rw [length_append, hlength])

theorem length_patch_ge (new : List α) (h : start ≤ l.length) :
    start + new.length ≤ (patch l start new).length := by
  have hlength : (l.take start).length = start := length_take_of_le h
  unfold patch
  rw [length_append, length_append, hlength]
  omega

theorem drop_patch (h : start ≤ l.length) (hi : start + new.length ≤ i) :
    (patch l start new).drop i = l.drop i := by
  have hlength : (l.take start).length = start := length_take_of_le h
  unfold patch
  rw [drop_append, drop_eq_nil_of_le (by omega), nil_append, hlength, drop_append,
    drop_eq_nil_of_le (by omega), nil_append, drop_drop]
  congr 1
  omega

theorem segment_patch_self (new : List α) (h : start ≤ l.length) : segment (patch l start new) start new.length = new := by
  have hlength : (l.take start).length = start := length_take_of_le h
  unfold segment patch
  rw [drop_append, drop_eq_nil_of_le (by omega), nil_append, hlength, Nat.sub_self, drop_zero, take_left]

theorem getElem?_patch (h : start ≤ l.length) (p : Nat) :
    (patch l start new)[p]? =
      if start ≤ p ∧ p < start + new.length then new[p - start]? else l[p]? := by
  have hlength : (l.take start).length = start := length_take_of_le h
  unfold patch
  by_cases hlow : p < start
  · rw [getElem?_append_left (by omega), getElem?_take_of_lt hlow, if_neg (by omega)]
  rw [getElem?_append_right (by omega), hlength]
  by_cases hhigh : p < start + new.length
  · rw [getElem?_append_left (by omega), if_pos (by omega)]
  · rw [getElem?_append_right (by omega), getElem?_drop, if_neg (by omega)]
    congr 1
    omega

theorem segment_zero : segment l 0 count = l.take count := rfl

theorem segment_length (h : start + count ≤ l.length) : (segment l start count).length = count := by
  unfold segment
  rw [length_take, length_drop]
  omega

theorem segment_patch_from (h : start ≤ l.length) (hcount : new.length ≤ count) :
    segment (patch l start new) start count = new ++ segment l (start + new.length) (count - new.length) := by
  have hlength : (l.take start).length = start := length_take_of_le h
  unfold segment patch
  rw [drop_append, drop_eq_nil_of_le (by omega), nil_append, hlength, Nat.sub_self,
    drop_zero, take_append, take_of_length_le hcount]

theorem segment_eq_drop_take : segment l start count = (l.take (start + count)).drop start := by
  unfold segment
  rw [drop_take, Nat.add_sub_cancel_left]

theorem segment_patch_below (h : start ≤ l.length) (hi : i + count ≤ start) :
    segment (patch l start new) i count = segment l i count := by
  rw [segment_eq_drop_take, segment_eq_drop_take, take_patch h hi]

theorem segment_patch_above (h : start ≤ l.length) (hi : start + new.length ≤ i) :
    segment (patch l start new) i count = segment l i count := by
  unfold segment
  rw [drop_patch h hi]

theorem segment_append {m : List α} (h : start + count ≤ l.length) :
    segment (l ++ m) start count = segment l start count := by
  rw [segment_eq_drop_take, segment_eq_drop_take, take_append_of_le_length h]

theorem segment_front {a : List α} (h : a.length = count) : segment (a ++ l) 0 count = a := by
  rw [segment_zero, ← h]
  exact take_left

theorem segment_skip {a : List α} {k : Nat} (h : a.length = k) :
    segment (a ++ l) (k + i) count = segment l i count := by
  unfold segment
  rw [← h, ← drop_drop, drop_left]

theorem segment_take {n : Nat} (h : start + count ≤ n) : segment (l.take n) start count = segment l start count := by
  rw [segment_eq_drop_take, segment_eq_drop_take, take_take, Nat.min_eq_left h]

end Lib
