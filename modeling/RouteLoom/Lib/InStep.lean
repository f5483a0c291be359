import RouteLoom.Lib.Stateful

/-!
# Operations in step

Two operations on different states answer alike and keep a relation between the states. Each
construct has a rule, so two programs of the same shape are compared statement by statement.
-/

namespace Lib.Op

variable {σ τ ε α β : Type} {R : σ → τ → Prop} {s s' : σ} {t t' : τ}

/-- From related states both answer the same and leave related states. -/
def InStep (R : σ → τ → Prop) (m : Op σ ε α) (m' : Op τ ε α) (s : σ) (t : τ) : Prop :=
  (m s).1 = (m' t).1 ∧ R (m s).2 (m' t).2

theorem inStep_pure (h : R s t) (a : α) : InStep R (pure a : Op σ ε α) (pure a) s t := ⟨rfl, h⟩

theorem inStep_throw (h : R s t) (e : ε) : InStep R (throw e : Op σ ε α) (throw e) s t := ⟨rfl, h⟩

theorem inStep_set (h : R s' t') : InStep R (set s' : Op σ ε Unit) (set t') s t := ⟨rfl, h⟩

theorem inStep_get_bind {f : σ → Op σ ε β} {g : τ → Op τ ε β} (h : InStep R (f s) (g t) s t) :
    InStep R (get >>= f) (get >>= g) s t := h

theorem inStep_set_bind {f : Unit → Op σ ε β} {g : Unit → Op τ ε β} (h : InStep R (f ()) (g ()) s' t') :
    InStep R (set s' >>= f) (set t' >>= g) s t := h

theorem inStep_check_bind (h : R s t) {r : Except ε α} {f : α → Op σ ε β} {g : α → Op τ ε β}
    (hfg : ∀ a, r = .ok a → InStep R (f a) (g a) s t) : InStep R (check r >>= f) (check r >>= g) s t := by
  cases r with
  | ok a => exact hfg a rfl
  | error e => exact ⟨rfl, h⟩

theorem InStep.bind {m : Op σ ε α} {m' : Op τ ε α} {f : α → Op σ ε β} {g : α → Op τ ε β}
    (hm : InStep R m m' s t) (hfg : ∀ a s t, R s t → InStep R (f a) (g a) s t) :
    InStep R (m >>= f) (m' >>= g) s t := by
  obtain ⟨heq, hR⟩ := hm
  unfold InStep
  simp only [Bind.bind]
  cases hx : m s with
  | mk a s₁ =>
    cases hy : m' t with
    | mk b t₁ =>
      rw [hx, hy] at heq hR
      cases heq
      cases a with
      | ok a => exact hfg a s₁ t₁ hR
      | error e => exact ⟨rfl, hR⟩

end Lib.Op
