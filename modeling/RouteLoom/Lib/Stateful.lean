import RouteLoom.Lib.Fallible

/-!
# Operations on a state

An operation reads and writes a state and can fail; what it wrote before it failed stays written.

* `Op.wp` : what must hold so that every success and every failure is as stated, with one rule for
  each construct
* `Op.wp.after` : from the weakest precondition to what an operation leaves
* `Op.Along` : an operation that moves the state along a relation, however it ends
-/

namespace Lib

/-- An operation on a state `σ` with result `α` that can fail with `ε`. -/
def Op (σ ε α : Type) : Type :=
  σ → Except ε α × σ

namespace Op

variable {σ ε α β : Type}

instance : Monad (Op σ ε) where
  pure a := fun s => (.ok a, s)
  bind x f := fun s =>
    match x s with
    | (.ok a, s) => f a s
    | (.error e, s) => (.error e, s)

def throw (e : ε) : Op σ ε α := fun s => (.error e, s)

def get : Op σ ε σ := fun s => (.ok s, s)

def set (s : σ) : Op σ ε Unit := fun _ => (.ok (), s)

/-- A computation that does not touch the state. -/
def check (r : Except ε α) : Op σ ε α := fun s => (r, s)

/-- Every success satisfies `Q` and every failure `E`. -/
def wp (x : Op σ ε α) (Q : α → σ → Prop) (E : ε → σ → Prop) (s : σ) : Prop :=
  match x s with
  | (.ok a, s) => Q a s
  | (.error e, s) => E e s

variable {Q : α → σ → Prop} {E : ε → σ → Prop} {s : σ}

@[simp] theorem wp_pure (a : α) : wp (pure a) Q E s ↔ Q a s := Iff.rfl

@[simp] theorem wp_get {Q : σ → σ → Prop} : wp get Q E s ↔ Q s s := Iff.rfl

@[simp] theorem wp_set {Q : Unit → σ → Prop} (s' : σ) : wp (set s') Q E s ↔ Q () s' := Iff.rfl

theorem wp_check (r : Except ε α) :
    wp (check r) Q E s ↔ (∀ a, r = .ok a → Q a s) ∧ ∀ e, r = .error e → E e s := by
  cases r with
  | ok a => simp [wp, check]
  | error e => simp [wp, check]

variable {f : α → Op σ ε β} {x : Op σ ε α}

theorem wp_check_bind {Q : β → σ → Prop} {r : Except ε α} (hE : ∀ e, r = .error e → E e s)
    (hQ : ∀ a, r = .ok a → wp (f a) Q E s) : wp (check r >>= f) Q E s := by
  cases r with
  | ok a => exact hQ a rfl
  | error e => exact hE e rfl

@[simp] theorem wp_bind {Q : β → σ → Prop} (x : Op σ ε α) (f : α → Op σ ε β) :
    wp (x >>= f) Q E s ↔ wp x (fun a s => wp (f a) Q E s) E s := by
  unfold wp
  simp only [bind]
  obtain ⟨_ | _, _⟩ := x s
  · exact Iff.rfl
  · exact Iff.rfl

theorem wp.mono {Q' : α → σ → Prop} {E' : ε → σ → Prop} (h : wp x Q E s)
    (hQ : ∀ a s, Q a s → Q' a s) (hE : ∀ e s, E e s → E' e s) : wp x Q' E' s := by
  unfold wp at h ⊢
  cases hx : x s with
  | mk r s' =>
    rw [hx] at h
    cases r with
    | error e => exact hE e s' h
    | ok a => exact hQ a s' h

theorem wp.and {Q' : α → σ → Prop} {E' : ε → σ → Prop} (h : wp x Q E s) (h' : wp x Q' E' s) :
    wp x (fun a s => Q a s ∧ Q' a s) (fun e s => E e s ∧ E' e s) s := by
  unfold wp at *
  cases hx : x s with
  | mk r s' =>
    rw [hx] at h h'
    cases r with
    | error e => exact ⟨h, h'⟩
    | ok a => exact ⟨h, h'⟩

/-- What holds of every success and failure holds of what the operation leaves. -/
theorem wp.after {P : Except ε α → σ → Prop}
    (h : wp x (fun a s => P (.ok a) s) (fun e s => P (.error e) s) s) : P (x s).1 (x s).2 := by
  unfold wp at h
  cases hx : x s with
  | mk r s' =>
    rw [hx] at h
    cases r with
    | error e => exact h
    | ok a => exact h

/-- Whether it succeeds or fails, the operation moves the state along `R`. -/
def Along (R : σ → σ → Prop) (x : Op σ ε α) : Prop :=
  ∀ s, wp x (fun _ t => R s t) (fun _ t => R s t) s

variable {R : σ → σ → Prop}

theorem along_get {f : σ → Op σ ε α} (hf : ∀ s, wp (f s) (fun _ t => R s t) (fun _ t => R s t) s) :
    Along R (get >>= f) := hf

theorem Along.bind [Trans R R R] (hx : Along R x) (hf : ∀ a, Along R (f a)) : Along R (x >>= f) := by
  intro s
  rw [wp_bind]
  refine (hx s).mono (fun a t ht => ?_) fun _ _ ht => ht
  exact (hf a t).mono (fun _ _ hu => Trans.trans ht hu) fun _ _ hu => Trans.trans ht hu

theorem Along.after (hx : Along R x) (s : σ) : R s (x s).2 :=
  wp.after (P := fun _ t => R s t) (hx s)

variable [Std.Refl R]

theorem along_pure (a : α) : Along R (pure a : Op σ ε α) := fun s => Std.Refl.refl (r := R) s

theorem along_check {r : Except ε α} (hf : ∀ a, wp (f a) (fun _ t => R s t) (fun _ t => R s t) s) :
    wp (check r >>= f) (fun _ t => R s t) (fun _ t => R s t) s :=
  wp_check_bind (fun _ _ => Std.Refl.refl (r := R) s) fun a _ => hf a

theorem bind_eq_ok {s' : σ} {b : β} :
    (x >>= f) s = (.ok b, s') ↔ ∃ a s₁, x s = (.ok a, s₁) ∧ f a s₁ = (.ok b, s') := by
  show (match x s with
    | (.ok a, s) => f a s
    | (.error e, s) => (.error e, s)) = _ ↔ _
  cases hx : x s with
  | mk r s₁ =>
    cases r with
    | error e => simp
    | ok a => simp

theorem bind_ok {s' : σ} {a : α} (h : x s = (.ok a, s')) : (x >>= f) s = f a s' := by
  simp only [bind, h]

theorem bind_error {s' : σ} {e : ε} (h : x s = (.error e, s')) : (x >>= f) s = (.error e, s') := by
  simp only [bind, h]

theorem refuse_bind {bad : Bool} {e : ε} {f : Unit → Op σ ε β} :
    (check (refuse bad e) >>= f) s = if bad then (.error e, s) else f () s := by
  cases bad with
  | false => rfl
  | true => rfl

/-- A check that an operation shares with a computation it agrees with. -/
theorem refuse_bind_map {γ : Type} {bad : Bool} {e : ε} {f : Unit → Op σ ε β} {k : Unit → Except ε γ}
    {g : β → γ} (h : (f () s).1.map g = k ()) :
    ((check (refuse bad e) >>= f) s).1.map g = (refuse bad e >>= k) := by
  cases bad with
  | false => exact h
  | true => rfl

theorem pure_eq_ok {a b : α} {s' : σ} : (pure a : Op σ ε α) s = (.ok b, s') ↔ a = b ∧ s = s' := by
  show ((Except.ok a, s) : Except ε α × σ) = (.ok b, s') ↔ _
  simp

theorem check_eq_ok {r : Except ε α} {b : α} {s' : σ} :
    (check r : Op σ ε α) s = (.ok b, s') ↔ r = .ok b ∧ s = s' := by
  show ((r, s) : Except ε α × σ) = (.ok b, s') ↔ _
  simp

end Op

end Lib
