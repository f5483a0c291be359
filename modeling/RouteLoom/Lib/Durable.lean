import Mathlib.Data.List.Basic

/-!
# Methods over a durable store

An object in memory works on a store that survives crashes. A store operation can succeed, fail
without or after its effect, or be cut off by a crash before or after its effect; a crash takes
every object with it and leaves the store. A method is a tree of store operations, so its behaviour
under every such outcome can be reasoned about with one weakest precondition.

* `Prog` : a tree of loads and commits, `Prog.run` its execution under given outcomes
* `Method` : a program that also reads and writes its object and can fail
* `Method.wp` : what must hold so that every return, failure and crash is as stated, with one rule
  for each construct
* `Method.wp.after` : soundness for every list of outcomes
-/

namespace Lib

/-- How one store operation ends, with the error `ε` it reports. -/
inductive Outcome (ε : Type)
  | ok
  | failBefore (error : ε)
  | failAfter (error : ε)
  | crashBefore
  | crashAfter
  deriving DecidableEq, Repr

/-- A tree of operations on a store `S`. -/
inductive Prog (S ε α : Type)
  | ret (a : α)
  | load (k : Except ε S → Prog S ε α)
  | commit (f : S → S) (k : Except ε Unit → Prog S ε α)

namespace Prog

variable {S ε α β : Type}

def bind : Prog S ε α → (α → Prog S ε β) → Prog S ε β
  | ret a, f => f a
  | load k, f => load fun r => (k r).bind f
  | commit g k, f => commit g fun r => (k r).bind f

/-- Execute under the given outcomes, one for each store operation; operations beyond the list
succeed. The result is `none` after a crash. -/
def run : Prog S ε α → List (Outcome ε) → S → Option α × S
  | ret a, _, s => (some a, s)
  | load k, outcomes, s =>
    match outcomes.headD .ok with
    | .ok => (k (.ok s)).run outcomes.tail s
    | .failBefore e | .failAfter e => (k (.error e)).run outcomes.tail s
    | .crashBefore | .crashAfter => (none, s)
  | commit f k, outcomes, s =>
    match outcomes.headD .ok with
    | .ok => (k (.ok ())).run outcomes.tail (f s)
    | .failBefore e => (k (.error e)).run outcomes.tail s
    | .failAfter e => (k (.error e)).run outcomes.tail (f s)
    | .crashBefore => (none, s)
    | .crashAfter => (none, f s)

/-- Every return satisfies `Q` and every crash leaves a store with `R`. -/
def wp : Prog S ε α → (α → S → Prop) → (S → Prop) → S → Prop
  | ret a, Q, _, s => Q a s
  | load k, Q, R, s => R s ∧ (k (.ok s)).wp Q R s ∧ ∀ e, (k (.error e)).wp Q R s
  | commit f k, Q, R, s =>
    R s ∧ R (f s) ∧ (k (.ok ())).wp Q R (f s) ∧
      ∀ e, (k (.error e)).wp Q R s ∧ (k (.error e)).wp Q R (f s)

theorem wp_bind (p : Prog S ε α) (f : α → Prog S ε β) (Q : β → S → Prop) (R : S → Prop) (s : S) :
    (p.bind f).wp Q R s ↔ p.wp (fun a s => (f a).wp Q R s) R s := by
  induction p generalizing s with
  | ret a => exact Iff.rfl
  | load k ih => simp only [bind, wp, ih]
  | commit g k ih => simp only [bind, wp, ih]

theorem wp.mono {p : Prog S ε α} {Q Q' : α → S → Prop} {R R' : S → Prop} {s : S}
    (h : p.wp Q R s) (hQ : ∀ a s, Q a s → Q' a s) (hR : ∀ s, R s → R' s) : p.wp Q' R' s := by
  induction p generalizing s with
  | ret a => exact hQ a s h
  | load k ih =>
    obtain ⟨hr, hok, herr⟩ := h
    exact ⟨hR s hr, ih _ hok, fun e => ih _ (herr e)⟩
  | commit f k ih =>
    obtain ⟨hr, hrf, hok, herr⟩ := h
    exact ⟨hR s hr, hR _ hrf, ih _ hok, fun e => ⟨ih _ (herr e).1, ih _ (herr e).2⟩⟩

/-- Soundness: whatever the outcomes, a return satisfies `Q` and a crash satisfies `R`. -/
theorem wp.sound {p : Prog S ε α} {Q : α → S → Prop} {R : S → Prop} {s : S} (h : p.wp Q R s)
    (outcomes : List (Outcome ε)) :
    (∀ a, (p.run outcomes s).1 = some a → Q a (p.run outcomes s).2) ∧
      ((p.run outcomes s).1 = none → R (p.run outcomes s).2) := by
  induction p generalizing s outcomes with
  | ret a =>
    refine ⟨fun b hb => ?_, fun hn => by cases hn⟩
    cases hb
    exact h
  | load k ih =>
    obtain ⟨hr, hok, herr⟩ := h
    unfold run
    split
    · exact ih _ hok _
    · exact ih _ (herr _) _
    · exact ih _ (herr _) _
    · exact ⟨fun a ha => (by cases ha), fun _ => hr⟩
    · exact ⟨fun a ha => (by cases ha), fun _ => hr⟩
  | commit f k ih =>
    obtain ⟨hr, hrf, hok, herr⟩ := h
    unfold run
    split
    · exact ih _ hok _
    · exact ih _ (herr _).1 _
    · exact ih _ (herr _).2 _
    · exact ⟨fun a ha => (by cases ha), fun _ => hr⟩
    · exact ⟨fun a ha => (by cases ha), fun _ => hrf⟩

theorem run_bind_nil (p : Prog S ε α) (f : α → Prog S ε β) (s : S) :
    (p.bind f).run [] s =
      match p.run [] s with
      | (some a, s) => (f a).run [] s
      | (none, s) => (none, s) := by
  induction p generalizing s with
  | ret a => rfl
  | load k ih => exact ih (.ok s) s
  | commit g k ih => exact ih (.ok ()) (g s)

end Prog

/-- A method of an object `W` over a store `S`: it can change the object, fail with an `ε`, and what
it changed before a failure stays changed. -/
def Method (S W ε α : Type) : Type :=
  W → Prog S ε (Except ε α × W)

namespace Method

variable {S W ε α β : Type}

instance : Monad (Method S W ε) where
  pure a := fun w => .ret (.ok a, w)
  bind x f := fun w => (x w).bind fun r =>
    match r with
    | (.ok a, w) => f a w
    | (.error e, w) => .ret (.error e, w)

def throw (e : ε) : Method S W ε α := fun w => .ret (.error e, w)

/-- A computation that touches neither store nor object. -/
def ofExcept (r : Except ε α) : Method S W ε α := fun w => .ret (r, w)

def get : Method S W ε W := fun w => .ret (.ok w, w)

def set (w : W) : Method S W ε Unit := fun _ => .ret (.ok (), w)

def load : Method S W ε S := fun w => .load fun r => .ret (r, w)

def commit (f : S → S) : Method S W ε Unit := fun w => .commit f fun r => .ret (r, w)

/-- A load whose failure is a result. -/
def tryLoad : Method S W ε (Except ε S) := fun w => .load fun r => .ret (.ok r, w)

/-- A commit whose failure is a result. -/
def tryCommit (f : S → S) : Method S W ε (Except ε Unit) := fun w => .commit f fun r => .ret (.ok r, w)

/-- A method of a member object, which the outer object holds at `field`. -/
def within {V : Type} (field : W → V) (put : V → W → W) (x : Method S V ε α) : Method S W ε α :=
  fun w => (x (field w)).bind fun r => .ret (r.1, put r.2 w)

variable (x : Method S W ε α)

/-- The result of a method as a value: the method itself does not fail. -/
def attempt : Method S W ε (Except ε α) :=
  fun w => (x w).bind fun r => .ret (.ok r.1, r.2)

/-- Replace the object at the end, whether the method succeeded or failed. -/
def andFinally (w : W) : Method S W ε α :=
  fun w₀ => (x w₀).bind fun r => .ret (r.1, w)

/-- Every success satisfies `Q`, every failure `E`, and every crash leaves a store with `R`. -/
def wp (x : Method S W ε α) (Q : α → W → S → Prop) (E : ε → W → S → Prop) (R : S → Prop) (w : W)
    (s : S) : Prop :=
  (x w).wp (fun r s =>
    match r with
    | (.ok a, w) => Q a w s
    | (.error e, w) => E e w s) R s

variable {Q : α → W → S → Prop} {E : ε → W → S → Prop} {R : S → Prop} {w : W} {s : S}

@[simp] theorem wp_pure (a : α) : wp (pure a) Q E R w s ↔ Q a w s := Iff.rfl

theorem wp_ofExcept (r : Except ε α) :
    wp (ofExcept r) Q E R w s ↔ (∀ a, r = .ok a → Q a w s) ∧ ∀ e, r = .error e → E e w s := by
  cases r with
  | ok a => simp [wp, ofExcept, Prog.wp]
  | error e => simp [wp, ofExcept, Prog.wp]

@[simp] theorem wp_get {Q : W → W → S → Prop} : wp get Q E R w s ↔ Q w w s := Iff.rfl

@[simp] theorem wp_set {Q : Unit → W → S → Prop} (w' : W) : wp (set w') Q E R w s ↔ Q () w' s := Iff.rfl

@[simp] theorem wp_load {Q : S → W → S → Prop} : wp load Q E R w s ↔ R s ∧ Q s w s ∧ ∀ e, E e w s := Iff.rfl

@[simp] theorem wp_commit {Q : Unit → W → S → Prop} (f : S → S) :
    wp (commit f) Q E R w s ↔ R s ∧ R (f s) ∧ Q () w (f s) ∧ ∀ e, E e w s ∧ E e w (f s) := Iff.rfl

@[simp] theorem wp_tryLoad {Q : Except ε S → W → S → Prop} :
    wp tryLoad Q E R w s ↔ R s ∧ Q (.ok s) w s ∧ ∀ e, Q (.error e) w s := Iff.rfl

@[simp] theorem wp_tryCommit {Q : Except ε Unit → W → S → Prop} (f : S → S) :
    wp (tryCommit f) Q E R w s ↔
      R s ∧ R (f s) ∧ Q (.ok ()) w (f s) ∧ ∀ e, Q (.error e) w s ∧ Q (.error e) w (f s) := Iff.rfl

theorem wp_then {γ : Type} {P : γ → S → Prop} (w : W) {f : Except ε α × W → Prog S ε γ}
    (hok : ∀ a w s, (f (.ok a, w)).wp P R s ↔ Q a w s)
    (herr : ∀ e w s, (f (.error e, w)).wp P R s ↔ E e w s) :
    ((x w).bind f).wp P R s ↔ wp x Q E R w s := by
  rw [Prog.wp_bind]
  refine iff_of_eq (congrArg (fun Q => (x w).wp Q R s) (funext fun r => funext fun s => propext ?_))
  obtain ⟨_ | _, _⟩ := r
  · exact herr _ _ _
  · exact hok _ _ _

@[simp] theorem wp_within {V : Type} (field : W → V) (put : V → W → W) (x : Method S V ε α) :
    wp (within field put x) Q E R w s ↔
      wp x (fun a v s => Q a (put v w) s) (fun e v s => E e (put v w) s) R (field w) s := by
  exact wp_then x (field w) (fun _ _ _ => Iff.rfl) fun _ _ _ => Iff.rfl

@[simp] theorem wp_attempt {Q : Except ε α → W → S → Prop} :
    wp x.attempt Q E R w s ↔ wp x (fun a w s => Q (.ok a) w s) (fun e w s => Q (.error e) w s) R w s := by
  exact wp_then x w (fun _ _ _ => Iff.rfl) fun _ _ _ => Iff.rfl

@[simp] theorem wp_bind {Q : β → W → S → Prop} (x : Method S W ε α) (f : α → Method S W ε β) :
    wp (x >>= f) Q E R w s ↔ wp x (fun a w s => wp (f a) Q E R w s) E R w s := by
  exact wp_then x w (fun _ _ _ => Iff.rfl) fun _ _ _ => Iff.rfl

@[simp] theorem wp_andFinally (w' : W) :
    wp (x.andFinally w') Q E R w s ↔ wp x (fun a _ s => Q a w' s) (fun e _ s => E e w' s) R w s := by
  exact wp_then x w (fun _ _ _ => Iff.rfl) fun _ _ _ => Iff.rfl

theorem wp.mono {Q' : α → W → S → Prop} {E' : ε → W → S → Prop} {R' : S → Prop} {x : Method S W ε α}
    (h : wp x Q E R w s) (hQ : ∀ a w s, Q a w s → Q' a w s) (hE : ∀ e w s, E e w s → E' e w s)
    (hR : ∀ s, R s → R' s) : wp x Q' E' R' w s := by
  refine Prog.wp.mono h (fun r s hr => ?_) hR
  obtain ⟨_ | _, _⟩ := r
  · exact hE _ _ _ hr
  · exact hQ _ _ _ hr

/-- A call: the result and the object, or `none` after a crash, and the store. -/
def call (w : W) (outcomes : List (Outcome ε)) (s : S) : Option (Except ε α × W) × S :=
  (x w).run outcomes s

theorem call_bind_nil (f : α → Method S W ε β) :
    (x >>= f).call w [] s =
      match x.call w [] s with
      | (some (.ok a, w), s) => (f a).call w [] s
      | (some (.error e, w), s) => (some (.error e, w), s)
      | (none, s) => (none, s) := by
  show ((x w).bind _).run [] s = _
  rw [Prog.run_bind_nil]
  unfold call
  obtain ⟨_ | ⟨_ | _, _⟩, _⟩ := (x w).run [] s
  · rfl
  · rfl
  · rfl

theorem call_within_nil {V : Type} (field : W → V) (put : V → W → W) (x : Method S V ε α) :
    (within field put x).call w [] s =
      (((x.call (field w) [] s).1.map fun r => (r.1, put r.2 w)), (x.call (field w) [] s).2) := by
  show ((x (field w)).bind _).run [] s = _
  rw [Prog.run_bind_nil]
  unfold call
  obtain ⟨_ | _, _⟩ := (x (field w)).run [] s
  · rfl
  · rfl

theorem call_attempt_nil :
    x.attempt.call w [] s = (((x.call w [] s).1.map fun r => (.ok r.1, r.2)), (x.call w [] s).2) := by
  show ((x w).bind _).run [] s = _
  rw [Prog.run_bind_nil]
  unfold call
  obtain ⟨_ | _, _⟩ := (x w).run [] s
  · rfl
  · rfl

/-- Soundness for calls: what holds of every return, failure and crash holds of what a call leaves. -/
theorem wp.after {P : Option (Except ε α × W) → S → Prop} {x : Method S W ε α}
    (h : wp x (fun a w s => P (some (.ok a, w)) s) (fun e w s => P (some (.error e, w)) s) (P none)
      w s) (outcomes : List (Outcome ε)) : P (x.call w outcomes s).1 (x.call w outcomes s).2 := by
  obtain ⟨hret, hcrash⟩ := Prog.wp.sound h outcomes
  unfold call
  cases hr : ((x w).run outcomes s).1 with
  | none => exact hcrash hr
  | some r =>
    have hQ := hret r hr
    obtain ⟨_ | _, _⟩ := r
    · exact hQ
    · exact hQ

end Method

end Lib
