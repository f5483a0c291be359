import Mathlib.Data.List.FinRange
import Mathlib.Data.Fin.VecNotation
import Mathlib.Data.Fintype.Card
import Mathlib.Logic.Function.Basic

/-!
# Fixed pools

A pool of `n` slots, each free or holding one element. Every scan runs in slot order, so `find` is
the first match and a new element goes to the first free slot.

* `firstSlot` : the first index a test accepts
* `Pool.best` : the preferred element among those a test accepts
* `Pool.find_map`, `Pool.find_set_hit`, `Pool.find_set_fresh`, `Pool.find_set_miss` : what a lookup
  reads after an in-place pass and after a write to one slot
-/

universe u

namespace Lib

open List

variable {α : Type u} {n : Nat}

/-- The first index that `p` accepts. -/
def firstSlot (p : Fin n → Bool) : Option (Fin n) :=
  (List.finRange n).find? p

variable {i : Fin n}

theorem firstSlot_some {p : Fin n → Bool} (h : firstSlot p = some i) : p i = true :=
  find?_some h

theorem firstSlot_none {p : Fin n → Bool} : firstSlot p = none ↔ ∀ i, p i = false := by
  unfold firstSlot
  rw [find?_eq_none]
  exact ⟨fun h i => by simpa using h i (mem_finRange i), fun h i _ => by simp [h i]⟩

theorem firstSlot_congr {p q : Fin n → Bool} (h : ∀ i, p i = q i) : firstSlot p = firstSlot q := by
  rw [funext h]

/-- Accepting more at the index already found, and nothing new before it, keeps the answer. -/
theorem firstSlot_eq_of_agree {p q : Fin n → Bool} (h : firstSlot p = some i) (hi : q i = true)
    (hne : ∀ j, j ≠ i → q j = p j) : firstSlot q = some i := by
  unfold firstSlot at h ⊢
  rw [find?_eq_some_iff_append] at h ⊢
  obtain ⟨_, as, bs, hl, has⟩ := h
  refine ⟨hi, as, bs, hl, fun j hj => ?_⟩
  have hji : j ≠ i := by
    rintro rfl
    have hnd := nodup_finRange n
    rw [hl, nodup_append] at hnd
    exact hnd.2.2 j hj j mem_cons_self rfl
  rw [hne j hji]
  exact has j hj

/-- What a partial map holds after one place was filled. -/
theorem update_eq_some {ι : Type*} [DecidableEq ι] {f : ι → Option α} {i j : ι} {a b : α}
    (h : Function.update f i (some a) j = some b) : j = i ∧ a = b ∨ j ≠ i ∧ f j = some b := by
  by_cases hji : j = i
  · subst hji
    exact .inl ⟨rfl, by simpa using h⟩
  · exact .inr ⟨hji, (Function.update_of_ne hji _ _).symm.trans h⟩

/-- All indices, from `start` on and around. -/
def around (n start : Nat) : List (Fin n) :=
  (List.finRange n).map fun i => ⟨(start + i.val) % n, Nat.mod_lt _ i.pos⟩

theorem mem_around (start : Nat) (j : Fin n) : j ∈ around n start := by
  have hlt : start % n < n := Nat.mod_lt _ j.pos
  -- the step that leads from `start` to `j`
  refine mem_map.mpr ⟨⟨(j.val + (n - start % n)) % n, Nat.mod_lt _ j.pos⟩, mem_finRange _, ?_⟩
  refine Fin.ext ?_
  show (start + (j.val + (n - start % n)) % n) % n = j.val
  have hsum : start % n + (j.val + (n - start % n)) = j.val + n := by omega
  rw [Nat.add_mod_mod, ← Nat.mod_add_mod, hsum, Nat.add_mod_right, Nat.mod_eq_of_lt j.isLt]

/-- A pool of `n` slots. -/
structure Pool (α : Type u) (n : Nat) where
  slots : Fin n → Option α

namespace Pool

instance : Membership α (Pool α n) := ⟨fun P a => ∃ i, P.slots i = some a⟩

variable {a : α} {j : Fin n} {f : α → α} {p : α → Bool}

theorem mem_def {P : Pool α n} : a ∈ P ↔ ∃ i, P.slots i = some a := Iff.rfl

def empty : Pool α n := ⟨fun _ => none⟩

section

variable (P : Pool α n)

/-- The first used slot whose element `p` accepts. -/
def findIdx (p : α → Bool) : Option (Fin n) :=
  firstSlot fun i => (P.slots i).any p

/-- The first element `p` accepts. -/
def find (p : α → Bool) : Option α :=
  (P.findIdx p).bind P.slots

/-- The first free slot. -/
def freeIdx : Option (Fin n) :=
  firstSlot fun i => (P.slots i).isNone

def set (i : Fin n) (a : α) : Pool α n :=
  ⟨Function.update P.slots i (some a)⟩

/-- Rewrite the element of one slot, if there is one. -/
def modify (i : Fin n) (f : α → α) : Pool α n :=
  ⟨Function.update P.slots i ((P.slots i).map f)⟩

def release (i : Fin n) : Pool α n :=
  ⟨Function.update P.slots i none⟩

/-- One pass that rewrites every element in place. -/
def map (P : Pool α n) (f : α → α) : Pool α n :=
  ⟨fun i => (P.slots i).map f⟩

/-- One pass that releases every element `p` accepts. -/
def eraseIf (p : α → Bool) : Pool α n :=
  ⟨fun i => (P.slots i).filter fun a => !p a⟩

/-- The elements in slot order. -/
def toList : List α :=
  (List.finRange n).filterMap P.slots

def size : Nat :=
  P.toList.length

@[simp] theorem empty_slots (i : Fin n) : (empty : Pool α n).slots i = none := rfl

@[simp] theorem map_slots (f : α → α) (i : Fin n) : (P.map f).slots i = (P.slots i).map f := rfl

@[simp] theorem set_slots_self (i : Fin n) (a : α) : (P.set i a).slots i = some a := by
  simp [set]

theorem set_slots_ne (a : α) (h : j ≠ i) : (P.set i a).slots j = P.slots j := by
  simp [set, h]

@[simp] theorem release_slots_self (i : Fin n) : (P.release i).slots i = none := by
  simp [release]

theorem release_slots_ne (h : j ≠ i) : (P.release i).slots j = P.slots j := by
  simp [release, h]

@[simp] theorem modify_slots_self (i : Fin n) (f : α → α) : (P.modify i f).slots i = (P.slots i).map f := by
  simp [modify]

theorem modify_slots_ne (f : α → α) (h : j ≠ i) : (P.modify i f).slots j = P.slots j := by
  simp [modify, h]

section

variable {P : Pool α n}

theorem modify_slots_eq_some {b : α} (h : (P.modify i f).slots j = some b) :
    ∃ a, P.slots j = some a ∧ (j = i ∧ b = f a ∨ j ≠ i ∧ b = a) := by
  by_cases hj : j = i
  · subst hj
    rw [modify_slots_self] at h
    obtain ⟨a, ha, rfl⟩ := Option.map_eq_some_iff.mp h
    exact ⟨a, ha, .inl ⟨rfl, rfl⟩⟩
  · rw [modify_slots_ne P f hj] at h
    exact ⟨b, h, .inr ⟨hj, rfl⟩⟩

theorem modify_eq_set (h : P.slots i = some a) : P.modify i f = P.set i (f a) := by
  rw [modify, h]
  rfl

@[simp] theorem not_mem_empty (a : α) : ¬ a ∈ (empty : Pool α n) := by
  rintro ⟨i, hi⟩
  simp at hi

theorem mem_eraseIf : a ∈ P.eraseIf p ↔ a ∈ P ∧ p a = false := by
  simp only [mem_def, eraseIf, Option.filter_eq_some_iff, Bool.not_eq_eq_eq_not, Bool.not_true]
  exact ⟨fun ⟨i, hi, hp⟩ => ⟨⟨i, hi⟩, hp⟩, fun ⟨⟨i, hi⟩, hp⟩ => ⟨i, hi, hp⟩⟩

theorem mem_set {b : α} (h : b ∈ P.set i a) : b = a ∨ b ∈ P := by
  obtain ⟨j, hj⟩ := h
  by_cases hji : j = i
  · subst hji
    rw [set_slots_self] at hj
    exact Or.inl (Option.some.inj hj).symm
  · rw [set_slots_ne P a hji] at hj
    exact Or.inr ⟨j, hj⟩

theorem mem_toList : a ∈ P.toList ↔ a ∈ P := by
  simp [toList, mem_def]

theorem eraseIf_eq_self (h : ∀ a ∈ P, p a = false) : P.eraseIf p = P := by
  cases P with
  | mk slots =>
    unfold eraseIf
    congr 1
    funext i
    change (slots i).filter _ = slots i
    cases hi : slots i with
    | none => rfl
    | some a => simp [Option.filter, h a ⟨i, hi⟩]

/-! ## Lookup -/

theorem findIdx_some (h : P.findIdx p = some i) : ∃ a, P.slots i = some a ∧ p a = true := by
  have hi := firstSlot_some h
  rw [Option.any_eq_true] at hi
  obtain ⟨a, ha, hpa⟩ := hi
  exact ⟨a, ha, hpa⟩

theorem findIdx_none : P.findIdx p = none ↔ ∀ a ∈ P, p a = false := by
  unfold findIdx
  rw [firstSlot_none]
  constructor
  · rintro h a ⟨i, hi⟩
    simpa [hi] using h i
  · intro h i
    cases hi : P.slots i with
    | none => rfl
    | some a => simpa using h a ⟨i, hi⟩

theorem find_eq_of_findIdx (h : P.findIdx p = some i) : P.find p = P.slots i := by
  rw [find, h, Option.bind_some]

theorem find_some (h : P.find p = some a) : a ∈ P ∧ p a = true := by
  obtain ⟨i, hi, ha⟩ := Option.bind_eq_some_iff.mp h
  obtain ⟨b, hb, hpb⟩ := findIdx_some hi
  rw [hb] at ha
  cases ha
  exact ⟨⟨i, hb⟩, hpb⟩

theorem find_none : P.find p = none ↔ ∀ a ∈ P, p a = false := by
  rw [← findIdx_none]
  cases h : P.findIdx p with
  | none => simp [find, h]
  | some i =>
    obtain ⟨a, ha, _⟩ := findIdx_some h
    simp [find_eq_of_findIdx h, ha]

theorem findIdx_isSome_iff : P.findIdx p = none ↔ P.find p = none := by
  rw [findIdx_none, find_none]

@[simp] theorem find_empty (p : α → Bool) : (empty : Pool α n).find p = none :=
  find_none.mpr fun a ha => absurd ha (not_mem_empty a)

theorem find_map (hf : ∀ a, p (f a) = p a) : (P.map f).find p = (P.find p).map f := by
  have hidx : (P.map f).findIdx p = P.findIdx p := by
    refine firstSlot_congr fun i => ?_
    cases hi : P.slots i with
    | none => simp [hi]
    | some a => simp [hi, hf a]
  rw [find, hidx, find]
  cases P.findIdx p with
  | none => rfl
  | some i => simp

theorem find_set_hit (h : P.findIdx p = some i) (ha : p a = true) : (P.set i a).find p = some a := by
  have hidx : (P.set i a).findIdx p = some i := by
    refine firstSlot_eq_of_agree h (by simp [ha]) fun j hj => ?_
    rw [set_slots_ne P a hj]
  rw [find_eq_of_findIdx hidx, set_slots_self]

theorem find_set_fresh (h : P.find p = none) (ha : p a = true) : (P.set i a).find p = some a := by
  cases hb : (P.set i a).find p with
  | none =>
    have := find_none.mp hb a ⟨i, set_slots_self P i a⟩
    rw [ha] at this
    cases this
  | some b =>
    obtain ⟨hmem, hpb⟩ := find_some hb
    rcases mem_set hmem with rfl | hP
    · rfl
    · rw [find_none.mp h b hP] at hpb
      cases hpb

/-- A write that the lookup tests neither before nor after. -/
theorem find_set_miss (hold : (P.slots i).any p = false) (ha : p a = false) :
    (P.set i a).find p = P.find p := by
  have hagree : ∀ j, ((P.set i a).slots j).any p = (P.slots j).any p := by
    intro j
    by_cases hji : j = i
    · subst hji
      rw [set_slots_self, hold]
      simpa using ha
    · rw [set_slots_ne P a hji]
  have hidx : (P.set i a).findIdx p = P.findIdx p := firstSlot_congr hagree
  rw [find, hidx, find]
  cases hj : P.findIdx p with
  | none => rfl
  | some j =>
    obtain ⟨b, hb, hpb⟩ := findIdx_some hj
    have hji : j ≠ i := by
      rintro rfl
      rw [hb] at hold
      simp [hpb] at hold
    simp [set_slots_ne P a hji]

end

/-! ## One element per key -/

/-- No two slots hold elements with the same key. -/
def KeyUnique {κ : Type*} (key : α → κ) : Prop :=
  ∀ i j a b, P.slots i = some a → P.slots j = some b → key a = key b → i = j

end

variable {κ : Type*} {key : α → κ} {P : Pool α n}

theorem keyUnique_empty (key : α → κ) : (empty : Pool α n).KeyUnique key := by
  intro i j a b hi
  simp at hi

section

variable (h : P.KeyUnique key)
include h

theorem KeyUnique.map (hf : ∀ a, key (f a) = key a) : (P.map f).KeyUnique key := by
  intro i j a b hi hj hab
  obtain ⟨a₀, ha₀, rfl⟩ := Option.map_eq_some_iff.mp hi
  obtain ⟨b₀, hb₀, rfl⟩ := Option.map_eq_some_iff.mp hj
  rw [hf, hf] at hab
  exact h i j a₀ b₀ ha₀ hb₀ hab

theorem KeyUnique.set (ha : ∀ j b, j ≠ i → P.slots j = some b → key b ≠ key a) :
    (P.set i a).KeyUnique key := by
  intro j k b c hj hk hbc
  by_cases hji : j = i <;> by_cases hki : k = i
  · exact hji.trans hki.symm
  · subst hji
    rw [set_slots_self] at hj
    rw [set_slots_ne P a hki] at hk
    cases hj
    exact absurd hbc.symm (ha k c hki hk)
  · subst hki
    rw [set_slots_self] at hk
    rw [set_slots_ne P a hji] at hj
    cases hk
    exact absurd hbc (ha j b hji hj)
  · rw [set_slots_ne P a hji] at hj
    rw [set_slots_ne P a hki] at hk
    exact h j k b c hj hk hbc

theorem KeyUnique.set_same {b : α} (hi : P.slots i = some b) (hab : key a = key b) :
    (P.set i a).KeyUnique key :=
  h.set fun j c hj hc hk => hj (h j i c b hc hi (hk.trans hab))

theorem KeyUnique.release (i : Fin n) : (P.release i).KeyUnique key := by
  intro j k b c hj hk
  by_cases hji : j = i
  · subst hji
    rw [release_slots_self] at hj
    cases hj
  · by_cases hki : k = i
    · subst hki
      rw [release_slots_self] at hk
      cases hk
    · rw [release_slots_ne P hji] at hj
      rw [release_slots_ne P hki] at hk
      exact h j k b c hj hk

theorem KeyUnique.eraseIf (p : α → Bool) : (P.eraseIf p).KeyUnique key := by
  intro i j a b hi hj
  exact h i j a b (Option.filter_eq_some_iff.mp hi).1 (Option.filter_eq_some_iff.mp hj).1

theorem KeyUnique.find_eq [DecidableEq κ] (ha : a ∈ P) : P.find (fun b => key b == key a) = some a := by
  obtain ⟨i, hi⟩ := ha
  cases hf : P.findIdx (fun b => key b == key a) with
  | none =>
    have := findIdx_none.mp hf a ⟨i, hi⟩
    simp at this
  | some j =>
    obtain ⟨b, hb, hp⟩ := findIdx_some hf
    have hij := h j i b a hb hi (by simpa using hp)
    rw [find_eq_of_findIdx hf, hij, hi]

/-- With unique keys, a lookup by key finds the element or nothing. -/
theorem KeyUnique.find_eq_some_iff [DecidableEq κ] {k : κ} :
    P.find (fun b => key b == k) = some a ↔ a ∈ P ∧ key a = k := by
  constructor
  · intro hfind
    obtain ⟨hmem, hkey⟩ := find_some hfind
    exact ⟨hmem, by simpa using hkey⟩
  · rintro ⟨hmem, rfl⟩
    exact h.find_eq hmem

theorem KeyUnique.find_eraseIf [DecidableEq κ] (p : α → Bool) (k : κ) :
    (P.eraseIf p).find (fun b => key b == k) = (P.find fun b => key b == k).filter fun a => !p a := by
  refine Option.ext fun a => ?_
  rw [(h.eraseIf p).find_eq_some_iff, Option.filter_eq_some_iff, h.find_eq_some_iff, mem_eraseIf,
    Bool.not_eq_true', and_right_comm]

theorem KeyUnique.find_release [DecidableEq κ] {b : α} (hi : P.slots i = some b) (k : κ) :
    (P.release i).find (fun b => key b == k) =
      if key b = k then none else P.find fun b => key b == k := by
  refine Option.ext fun a => ?_
  rw [(h.release i).find_eq_some_iff]
  have hmem : a ∈ P.release i ↔ a ∈ P ∧ key a ≠ key b := by
    constructor
    · rintro ⟨j, hj⟩
      by_cases hji : j = i
      · rw [hji, release_slots_self] at hj
        cases hj
      · rw [release_slots_ne P hji] at hj
        exact ⟨⟨j, hj⟩, fun hk => hji (h j i a b hj hi hk)⟩
    · rintro ⟨⟨j, hj⟩, hk⟩
      refine ⟨j, ?_⟩
      rw [release_slots_ne P fun hji => hk ?_]
      · exact hj
      · rw [hji, hi] at hj
        cases hj
        rfl
  rw [hmem]
  split
  · rename_i hk
    subst hk
    simp only [reduceCtorEq, iff_false, not_and]
    exact fun ⟨_, hne⟩ => hne
  · rename_i hk
    rw [h.find_eq_some_iff]
    constructor
    · rintro ⟨⟨ha, -⟩, hka⟩
      exact ⟨ha, hka⟩
    · rintro ⟨ha, hka⟩
      exact ⟨⟨ha, fun hab => hk (hab.symm.trans hka)⟩, hka⟩

theorem KeyUnique.nodup_toList : (P.toList.map key).Nodup := by
  have : ∀ l : List (Fin n), l.Nodup → ((l.filterMap P.slots).map key).Nodup := by
    intro l hl
    induction l with
    | nil => exact nodup_nil
    | cons i l ih =>
      rw [nodup_cons] at hl
      cases hi : P.slots i with
      | none => simpa [filterMap_cons, hi] using ih hl.2
      | some a =>
        simp only [filterMap_cons, hi, map_cons, nodup_cons]
        refine ⟨fun hm => ?_, ih hl.2⟩
        obtain ⟨b, hb, hk⟩ := mem_map.mp hm
        obtain ⟨j, hj, hjb⟩ := mem_filterMap.mp hb
        have hji := h j i b a hjb hi hk
        exact hl.1 (hji ▸ hj)
  exact this _ (nodup_finRange n)

end

/-! ## Choosing one element -/

/-- One step of the scan of `best`. -/
def bestStep (P : Pool α n) (p : α → Bool) (better : α → α → Bool) (found : Option (Fin n × α))
    (i : Fin n) : Option (Fin n × α) :=
  match P.slots i with
  | none => found
  | some a => if p a && found.all (fun b => better a b.2) then some (i, a) else found

/-- The element that `better` prefers among those `p` accepts, in the earliest slot on a tie. -/
def best (P : Pool α n) (p : α → Bool) (better : α → α → Bool) : Option (Fin n × α) :=
  (List.finRange n).foldl (P.bestStep p better) none

theorem best_some {better : α → α → Bool} (h : P.best p better = some (i, a)) :
    P.slots i = some a ∧ p a = true := by
  have hfold : ∀ (l : List (Fin n)) (found : Option (Fin n × α)),
      (∀ b ∈ found, P.slots b.1 = some b.2 ∧ p b.2 = true) →
      ∀ b ∈ l.foldl (P.bestStep p better) found, P.slots b.1 = some b.2 ∧ p b.2 = true := by
    intro l
    induction l with
    | nil => exact fun _ hf => hf
    | cons j l ih =>
      intro found hf
      refine ih _ fun b hb => ?_
      unfold bestStep at hb
      split at hb
      · exact hf b hb
      · next a hj =>
          split at hb
          · next hp =>
              cases Option.mem_some.mp hb
              exact ⟨hj, (Bool.and_eq_true _ _ ▸ hp).1⟩
          · exact hf b hb
  exact hfold _ none (fun _ hb => by cases hb) (i, a) h

theorem best_none {better : α → α → Bool} (h : P.best p better = none) : ∀ a ∈ P, p a = false := by
  have hfold : ∀ (l : List (Fin n)) (found : Option (Fin n × α)),
      l.foldl (P.bestStep p better) found = none →
      found = none ∧ ∀ i ∈ l, (P.slots i).any p = false := by
    intro l
    induction l with
    | nil => exact fun _ hf => ⟨hf, fun _ hi => by cases hi⟩
    | cons j l ih =>
      intro found hf
      obtain ⟨hstep, hl⟩ := ih _ hf
      unfold bestStep at hstep
      cases hj : P.slots j with
      | none =>
        rw [hj] at hstep
        exact ⟨hstep, forall_mem_cons.mpr ⟨by rw [hj]; rfl, hl⟩⟩
      | some a =>
        simp only [hj] at hstep
        split at hstep
        · cases hstep
        · next hp =>
          subst hstep
          refine ⟨rfl, forall_mem_cons.mpr ⟨?_, hl⟩⟩
          simpa [hj] using hp
  rintro a ⟨i, hi⟩
  simpa [hi] using (hfold _ none h).2 i (mem_finRange i)

end Pool

end Lib
