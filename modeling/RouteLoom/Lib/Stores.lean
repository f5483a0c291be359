import Mathlib.Data.List.Basic

/-!
# Stores that can be cut off

A write to memory is a list of single stores. When it is cut off, a first part of the list was done.

* `applyStores` : the memory after some stores
* `getElem?_applyStores_eq` : a cell to which all stores agree holds that value
* `applyStores_copy` : stores that copy every cell of an image make the memory the image
-/

namespace Lib

open List

variable {α : Type*}

/-- The memory after stores of a value at an index, in their order. -/
def applyStores (memory : List α) (stores : List (Nat × α)) : List α :=
  stores.foldl (fun memory store => memory.set store.1 store.2) memory

@[simp] theorem length_applyStores (memory : List α) (stores : List (Nat × α)) :
    (applyStores memory stores).length = memory.length := by
  unfold applyStores
  induction stores generalizing memory with
  | nil => rfl
  | cons store stores ih => rw [foldl_cons, ih, length_set]

theorem applyStores_append (memory : List α) (stores stores' : List (Nat × α)) :
    applyStores memory (stores ++ stores') = applyStores (applyStores memory stores) stores' :=
  foldl_append

/-- A cell holds a value that it held before or that was stored to it. -/
theorem getElem?_applyStores_of_forall {memory : List α} {stores : List (Nat × α)} {i : Nat} {v : α}
    (hold : memory[i]? = some v) (hall : ∀ store ∈ stores, store.1 = i → store.2 = v) :
    (applyStores memory stores)[i]? = some v := by
  unfold applyStores
  induction stores generalizing memory with
  | nil => exact hold
  | cons store stores ih =>
    rw [foldl_cons]
    refine ih ?_ fun s hs => hall s (mem_cons_of_mem _ hs)
    have hlt : i < memory.length := (List.getElem?_eq_some_iff.mp hold).1
    by_cases hi : store.1 = i
    · rw [hi, getElem?_set_self hlt, hall store mem_cons_self hi]
    · rw [getElem?_set_ne hi, hold]

theorem getElem?_applyStores_eq {memory : List α} {stores : List (Nat × α)} {i : Nat} {v : α}
    (hlt : i < memory.length) (hsome : ∃ store ∈ stores, store.1 = i)
    (hall : ∀ store ∈ stores, store.1 = i → store.2 = v) : (applyStores memory stores)[i]? = some v := by
  obtain ⟨store, hstore, hi⟩ := hsome
  obtain ⟨front, back, rfl⟩ := append_of_mem hstore
  rw [applyStores_append]
  show (applyStores ((applyStores memory front).set store.1 store.2) back)[i]? = _
  refine getElem?_applyStores_of_forall ?_ fun s hs => hall s ?_
  · rw [hi, getElem?_set_self (by simpa using hlt), hall store hstore hi]
  · exact mem_append_right _ (mem_cons_of_mem _ hs)

/-- Whatever the order of the copies, and whatever was stored before them. -/
theorem applyStores_copy {memory image : List α} {stores : List (Nat × α)}
    (hlength : memory.length = image.length) (hcopy : ∀ store ∈ stores, image[store.1]? = some store.2)
    (hall : ∀ i, i < image.length → ∃ store ∈ stores, store.1 = i) : applyStores memory stores = image := by
  refine ext_getElem? fun i => ?_
  by_cases hi : i < image.length
  · refine (getElem?_applyStores_eq (v := image[i]) (by omega) (hall i hi) fun store hs heq => ?_).trans
      (getElem?_eq_getElem hi).symm
    have := hcopy store hs
    rw [heq, getElem?_eq_getElem hi] at this
    exact (Option.some.inj this).symm
  · rw [getElem?_eq_none (by simpa [hlength] using hi), getElem?_eq_none (by simpa using hi)]

end Lib
