import Mathlib.Data.List.Basic

/-!
# Fallible computations

A computation that checks its input step by step and stops at the first check that fails.

* `refuse` : one check, with the error it reports
* `checkAll` : one check for every element of a list
* `bind_eq_ok` : a success came through every step
-/

namespace Lib

open List

variable {ε α β : Type}

/-- Stop with `e` when `bad` holds. -/
def refuse (bad : Bool) (e : ε) : Except ε Unit :=
  if bad then .error e else .ok ()

@[simp] theorem refuse_eq_ok {bad : Bool} {e : ε} {u : Unit} : refuse bad e = .ok u ↔ bad = false := by
  cases bad with
  | false => simp [refuse]
  | true => simp [refuse]

@[simp] theorem refuse_eq_error {bad : Bool} {e e' : ε} : refuse bad e = .error e' ↔ bad = true ∧ e = e' := by
  cases bad with
  | false => simp [refuse]
  | true => simp [refuse]

theorem bind_eq_ok {x : Except ε α} {f : α → Except ε β} {b : β} :
    (x >>= f) = .ok b ↔ ∃ a, x = .ok a ∧ f a = .ok b := by
  cases x with
  | error e => simp [bind, Except.bind]
  | ok a => simp [bind, Except.bind]

theorem refuse_bind_eq_ok {bad : Bool} {e : ε} {f : Unit → Except ε β} {b : β} :
    (refuse bad e >>= f) = .ok b ↔ bad = false ∧ f () = .ok b := by
  cases bad with
  | false | true => simp [refuse, bind, Except.bind]

/-- The same check on every element, in order. -/
def checkAll (f : α → Except ε Unit) : List α → Except ε Unit
  | [] => .ok ()
  | a :: as => do
    f a
    checkAll f as

theorem checkAll_eq_ok {f : α → Except ε Unit} {as : List α} {u : Unit} :
    checkAll f as = .ok u ↔ ∀ a ∈ as, f a = .ok () := by
  induction as with
  | nil => simp [checkAll]
  | cons a as ih =>
    rw [checkAll, bind_eq_ok, forall_mem_cons, ← ih]
    exact ⟨fun ⟨_, h⟩ => h, fun h => ⟨(), h⟩⟩

theorem exists_of_mapM_eq_ok {f : α → Except ε β} {as : List α} {bs : List β}
    (h : as.mapM f = .ok bs) {b : β} (hb : b ∈ bs) : ∃ a ∈ as, f a = .ok b := by
  induction as generalizing bs with
  | nil =>
    cases h
    cases hb
  | cons a as ih =>
    rw [mapM_cons, bind_eq_ok] at h
    obtain ⟨c, hc, h⟩ := h
    obtain ⟨cs, hcs, h⟩ := bind_eq_ok.mp h
    cases h
    rcases mem_cons.mp hb with rfl | hb
    · exact ⟨a, mem_cons_self, hc⟩
    · obtain ⟨a', ha', heq⟩ := ih hcs hb
      exact ⟨a', mem_cons_of_mem _ ha', heq⟩

end Lib
