import Mathlib.Data.Fin.Basic
import Mathlib.Order.Basic

/-!
# The newest of two slots

Two slots hold at most one record each, and a key orders the records. The slot with the greater
key is the newest, and slot 0 if the keys are equal. A store that replaces only the slot that is not
the newest always has the old record or the new one as the newest.

* `Newest` : which slot a reader takes, and what it holds
* `Newest.clear`, `Newest.write` : a write to the other slot
* `Newest.twin` : the same record in both slots
-/

namespace Lib.TwoSlot

open Function

variable {ρ κ : Type} [LinearOrder κ]

/-- Slot `i` holds `a`, and the other slot nothing that a reader prefers. -/
structure Newest (key : ρ → κ) (slots : Fin 2 → Option ρ) (i : Fin 2) (a : ρ) : Prop where
  held : slots i = some a
  newest : ∀ b, slots (i + 1) = some b → key b < key a ∨ key b = key a ∧ i = 0

variable {key : ρ → κ} {slots : Fin 2 → Option ρ} {i j : Fin 2} {a b : ρ}

theorem add_one_ne (i : Fin 2) : i + 1 ≠ i := by
  revert i
  decide

theorem add_one_add_one (i : Fin 2) : i + 1 + 1 = i := by
  revert i
  decide

theorem eq_zero_or_one (i : Fin 2) : i = 0 ∨ i = 1 := by
  revert i
  decide

theorem eq_or_eq_add_one (i j : Fin 2) : j = i ∨ j = i + 1 := by
  revert i j
  decide

theorem Newest.clear (h : slots i = some a) : Newest key (update slots (i + 1) none) i a where
  held := by rw [update_of_ne (add_one_ne i).symm, h]
  newest := by simp

theorem Newest.write (h : slots i = some a) (hlt : key a < key b) :
    Newest key (update slots (i + 1) (some b)) (i + 1) b where
  held := update_self _ _ _
  newest := by
    intro c hc
    rw [add_one_add_one, update_of_ne (add_one_ne i).symm, h, Option.some.injEq] at hc
    exact .inl (hc ▸ hlt)

theorem Newest.alone (h : slots i = some a) (hother : slots (i + 1) = none) : Newest key slots i a where
  held := h
  newest := by simp [hother]

theorem Newest.twin (h₀ : slots 0 = some a) (h₁ : slots 1 = some a) : Newest key slots 0 a where
  held := h₀
  newest := by
    intro b hb
    rw [show (0 : Fin 2) + 1 = 1 from rfl, h₁, Option.some.injEq] at hb
    exact .inr ⟨by rw [hb], rfl⟩

/-- Unless both slots are empty, one of them is the newest. -/
theorem exists_newest (h : slots i = some a) : ∃ j b, Newest key slots j b := by
  cases hother : slots (i + 1) with
  | none => exact ⟨i, a, .alone h hother⟩
  | some b =>
    have hback : slots (i + 1 + 1) = some a := by rw [add_one_add_one, h]
    rcases lt_trichotomy (key a) (key b) with hlt | heq | hgt
    · refine ⟨i + 1, b, hother, fun c hc => ?_⟩
      rw [hback, Option.some.injEq] at hc
      exact .inl (hc ▸ hlt)
    · -- equal keys: slot 0 is taken
      rcases eq_zero_or_one i with rfl | rfl
      · refine ⟨0, a, h, fun c hc => ?_⟩
        rw [hother, Option.some.injEq] at hc
        exact .inr ⟨hc ▸ heq.symm, rfl⟩
      · refine ⟨0, b, hother, fun c hc => ?_⟩
        rw [show (0 : Fin 2) + 1 = 1 from rfl, h, Option.some.injEq] at hc
        exact .inr ⟨hc ▸ heq, rfl⟩
    · refine ⟨i, a, h, fun c hc => ?_⟩
      rw [hother, Option.some.injEq] at hc
      exact .inl (hc ▸ hgt)

theorem Newest.unique (h₁ : Newest key slots i a) (h₂ : Newest key slots j b) : i = j ∧ a = b := by
  obtain rfl | rfl := eq_or_eq_add_one i j
  · have hab := h₁.held.symm.trans h₂.held
    rw [Option.some.injEq] at hab
    exact ⟨rfl, hab⟩
  · have hb := h₁.newest b h₂.held
    have ha := h₂.newest a (by rw [add_one_add_one]; exact h₁.held)
    rcases hb with hb | ⟨hb, hi⟩
    · rcases ha with ha | ⟨ha, _⟩
      · exact absurd ha (lt_asymm hb)
      · exact absurd hb (by rw [ha]; exact lt_irrefl _)
    · rcases ha with ha | ⟨_, hj⟩
      · exact absurd ha (by rw [hb]; exact lt_irrefl _)
      · subst hi
        cases hj

/-- Every slot that holds a record, holds none that is newer. -/
theorem Newest.le (h : Newest key slots i a) (hb : slots j = some b) : key b ≤ key a := by
  obtain rfl | rfl := eq_or_eq_add_one i j
  · have hab := h.held.symm.trans hb
    rw [Option.some.injEq] at hab
    exact le_of_eq (by rw [hab])
  · rcases h.newest b hb with hlt | ⟨heq, _⟩
    · exact le_of_lt hlt
    · exact le_of_eq heq

end Lib.TwoSlot
