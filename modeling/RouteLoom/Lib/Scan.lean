import Mathlib.Data.List.Induction

/-!
# Scans that keep one element

A loop over a list that carries the element it prefers so far.

* `foldl_seen` : what a loop keeps of the elements it has seen
* `foldl_pick_mem` : it ends with its start or an element of the list
* `Prefers.split` : preferring a strictly higher rank, it ends with the first element of the
  highest rank
* `Prefers.filter` : elements other than the winner can be left out
-/

namespace Lib

open List

variable {α : Type*}

theorem foldl_seen {σ : Type*} {P : List α → σ → Prop} {f : σ → α → σ} {l : List α} {s : σ}
    (hstep : ∀ seen s a, (l.Nodup → a ∉ seen) → P seen s → P (seen ++ [a]) (f s a)) (hs : P [] s) :
    P l (l.foldl f s) := by
  induction l using List.reverseRecOn with
  | nil => exact hs
  | append_singleton l a ih =>
    rw [foldl_append]
    refine hstep l _ a (fun hnd ha => (nodup_append.mp hnd).2.2 a ha a mem_cons_self rfl) ?_
    exact ih fun seen s b hb => hstep seen s b fun hnd => hb (nodup_append.mp hnd).1

/-- A scan that keeps its choice or takes the next element ends with its start or an element. -/
theorem foldl_pick_mem {step : Option α → α → Option α}
    (hstep : ∀ b a c, step b a = some c → b = some c ∨ a = c) (l : List α) (b : Option α) {c : α}
    (h : l.foldl step b = some c) : b = some c ∨ c ∈ l := by
  induction l generalizing b with
  | nil => exact .inl h
  | cons a l ih =>
    rcases ih _ h with hb | hm
    · rcases hstep _ _ _ hb with hb | rfl
      · exact .inl hb
      · exact .inr mem_cons_self
    · exact .inr (mem_cons_of_mem a hm)

/-- One step: take the element, or let `pick` choose. -/
def pickStep (pick : α → α → α) (s : Option α) (c : α) : Option α :=
  some (s.elim c (pick · c))

variable {pick : α → α → α} {r : α → Nat} {l : List α} {b : α}

/-- `pick` prefers the second element if its rank is strictly higher. -/
def Prefers (pick : α → α → α) (r : α → Nat) (l : List α) : Prop :=
  ∀ x ∈ l, ∀ y ∈ l, pick x y = if r x < r y then y else x

theorem Prefers.mem (hpick : Prefers pick r l) {s : Option α} (hs : ∀ a, s = some a → a ∈ l) {m : List α}
    (hm : ∀ x ∈ m, x ∈ l) (h : m.foldl (pickStep pick) s = some b) : s = some b ∨ b ∈ m := by
  induction m generalizing s with
  | nil => exact .inl h
  | cons c m ih =>
    have hc := hm c mem_cons_self
    have hstep : pickStep pick s c = s ∨ pickStep pick s c = some c := by
      cases s with
      | none => exact .inr rfl
      | some a =>
        show some (pick a c) = some a ∨ some (pick a c) = some c
        rw [hpick a (hs a rfl) c hc]
        split
        · exact .inr rfl
        · exact .inl rfl
    have hs' : ∀ a, pickStep pick s c = some a → a ∈ l := by
      intro a ha
      rcases hstep with heq | heq
      · exact hs a (heq ▸ ha)
      · rw [heq] at ha
        cases ha
        exact hc
    rcases ih hs' (fun x hx => hm x (mem_cons_of_mem c hx)) h with hb | hb
    · rcases hstep with heq | heq
      · exact .inl (heq ▸ hb)
      · rw [heq] at hb
        cases hb
        exact .inr mem_cons_self
    · exact .inr (mem_cons_of_mem c hb)

/-- The scan ends with the first element of the highest rank. -/
theorem Prefers.split (hpick : Prefers pick r l) (h : l.foldl (pickStep pick) none = some b) :
    ∃ as bs, l = as ++ b :: bs ∧ (∀ x ∈ as, r x < r b) ∧ ∀ x ∈ bs, r x ≤ r b := by
  induction l using List.reverseRecOn generalizing b with
  | nil => cases h
  | append_singleton l c ih =>
    have hsub : ∀ x ∈ l, x ∈ l ++ [c] := fun x hx => mem_append_left _ hx
    have hc : c ∈ l ++ [c] := mem_append_right _ mem_cons_self
    rw [foldl_append] at h
    change pickStep pick (l.foldl (pickStep pick) none) c = some b at h
    cases hl : l.foldl (pickStep pick) none with
    | none =>
      -- nothing was scanned before
      rw [hl] at h
      cases h
      cases l with
      | nil => exact ⟨[], [], rfl, by simp, by simp⟩
      | cons a l =>
        exfalso
        have hsome : ∀ (m : List α) (s : Option α), s.isSome → (m.foldl (pickStep pick) s).isSome := by
          intro m
          induction m with
          | nil => exact fun _ hs => hs
          | cons x m ihm => exact fun _ _ => ihm _ rfl
        have := hsome l (some a) rfl
        rw [foldl_cons] at hl
        change l.foldl (pickStep pick) (some a) = none at hl
        rw [hl] at this
        cases this
    | some a =>
      rw [hl] at h
      obtain ⟨as, bs, rfl, hfirst, hmax⟩ :=
        ih (fun x hx y hy => hpick x (hsub x hx) y (hsub y hy)) hl
      have ha : a ∈ as ++ a :: bs := mem_append_right _ mem_cons_self
      have hpicked : pick a c = b := Option.some.inj h
      rw [hpick a (hsub a ha) c hc] at hpicked
      split at hpicked
      · rename_i hlt
        subst hpicked
        refine ⟨as ++ a :: bs, [], rfl, fun x hx => ?_, by simp⟩
        rcases mem_append.mp hx with hx | hx
        · exact Nat.lt_trans (hfirst x hx) hlt
        · rcases mem_cons.mp hx with rfl | hx
          · exact hlt
          · exact Nat.lt_of_le_of_lt (hmax x hx) hlt
      · rename_i hle
        subst hpicked
        refine ⟨as, bs ++ [c], by simp, hfirst, fun x hx => ?_⟩
        rcases mem_append.mp hx with hx | hx
        · exact hmax x hx
        · rw [mem_singleton.mp hx]
          exact Nat.le_of_not_lt hle

theorem Prefers.of_split {as bs : List α} (hpick : Prefers pick r (as ++ b :: bs))
    (hfirst : ∀ x ∈ as, r x < r b) (hmax : ∀ x ∈ bs, r x ≤ r b) :
    (as ++ b :: bs).foldl (pickStep pick) none = some b := by
  have hb : b ∈ as ++ b :: bs := mem_append_right _ mem_cons_self
  have hreach : pickStep pick (as.foldl (pickStep pick) none) b = some b := by
    cases ha : as.foldl (pickStep pick) none with
    | none => rfl
    | some a =>
      have hmem := (hpick.mem (by simp) (fun x hx => mem_append_left _ hx) ha).resolve_left (by simp)
      show some (pick a b) = some b
      rw [hpick a (mem_append_left _ hmem) b hb, if_pos (hfirst a hmem)]
  have hstay : ∀ m : List α, (∀ x ∈ m, x ∈ bs) → m.foldl (pickStep pick) (some b) = some b := by
    intro m
    induction m with
    | nil => exact fun _ => rfl
    | cons x m ih =>
      intro hm
      have hx := hm x mem_cons_self
      have hkeep : pickStep pick (some b) x = some b := by
        show some (pick b x) = some b
        rw [hpick b hb x (mem_append_right _ (mem_cons_of_mem b hx)), if_neg (Nat.not_lt.mpr (hmax x hx))]
      rw [foldl_cons, hkeep]
      exact ih fun y hy => hm y (mem_cons_of_mem x hy)
  rw [foldl_append, foldl_cons, hreach]
  exact hstay bs fun _ hx => hx

/-- **A scan of fewer elements ends with the same element, if that is still among them.** -/
theorem Prefers.filter (hpick : Prefers pick r l) (h : l.foldl (pickStep pick) none = some b)
    {q : α → Bool} (hq : q b = true) : (l.filter q).foldl (pickStep pick) none = some b := by
  obtain ⟨as, bs, rfl, hfirst, hmax⟩ := hpick.split h
  have hpick' : Prefers pick r ((as ++ b :: bs).filter q) := fun x hx y hy =>
    hpick x (mem_filter.mp hx).1 y (mem_filter.mp hy).1
  rw [filter_append, filter_cons_of_pos hq] at hpick' ⊢
  exact hpick'.of_split (fun x hx => hfirst x (mem_filter.mp hx).1) fun x hx => hmax x (mem_filter.mp hx).1

end Lib
