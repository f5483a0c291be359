import Mathlib.Data.List.Basic

/-!
# Machines and their runs

A machine moves on events that are enabled in its state and emits a list of outputs at each move.
A run pairs the state it ends in with everything emitted so far, so a property of a whole history
is an invariant like any other.

* `Machine.Run.invariant` : what holds at the start and is kept by each step holds of every run
* `Machine.run_exec` : executing a list of enabled events is a run
-/

namespace Lib

/-- States `σ`, events `ε`, outputs `ο`. -/
structure Machine (σ ε ο : Type*) where
  Init : σ → Prop
  Enabled : σ → ε → Prop
  next : σ → ε → σ
  out : σ → ε → List ο

namespace Machine

variable {σ ε ο : Type*} (M : Machine σ ε ο)

/-- `Run s h`: some sequence of enabled events leads from an initial state to `s` and emits `h`. -/
inductive Run : σ → List ο → Prop
  | init {s : σ} : M.Init s → Run s []
  | step {s : σ} {h : List ο} {e : ε} : Run s h → M.Enabled s e → Run (M.next s e) (h ++ M.out s e)

variable {M}

/-- The induction over runs. -/
theorem Run.invariant {I : σ → List ο → Prop} (h₀ : ∀ s, M.Init s → I s [])
    (hstep : ∀ s h e, I s h → M.Enabled s e → I (M.next s e) (h ++ M.out s e))
    {s : σ} {h : List ο} (hr : M.Run s h) : I s h := by
  induction hr with
  | init hi => exact h₀ _ hi
  | step _ he ih => exact hstep _ _ _ ih he

variable (M)

/-- Execute a list of events. -/
def exec (s : σ) (h : List ο) : List ε → σ × List ο
  | [] => (s, h)
  | e :: es => exec (M.next s e) (h ++ M.out s e) es

/-- Each event of the list is enabled when its turn comes. -/
def AllEnabled (s : σ) : List ε → Prop
  | [] => True
  | e :: es => M.Enabled s e ∧ AllEnabled (M.next s e) es

instance decidableAllEnabled [∀ s e, Decidable (M.Enabled s e)] :
    ∀ (s : σ) (es : List ε), Decidable (M.AllEnabled s es)
  | _, [] => isTrue trivial
  | s, e :: es =>
    have := decidableAllEnabled (M.next s e) es
    inferInstanceAs (Decidable (M.Enabled s e ∧ M.AllEnabled (M.next s e) es))

variable {M}

theorem Run.exec {s : σ} {h : List ο} (hr : M.Run s h) (es : List ε) (he : M.AllEnabled s es) :
    M.Run (M.exec s h es).1 (M.exec s h es).2 := by
  induction es generalizing s h with
  | nil => exact hr
  | cons e es ih => exact ih (hr.step he.1) he.2

theorem run_exec {s : σ} (hs : M.Init s) (es : List ε) (he : M.AllEnabled s es) :
    M.Run (M.exec s [] es).1 (M.exec s [] es).2 :=
  (Run.init hs).exec es he

end Machine

end Lib
