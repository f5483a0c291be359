import RouteLoom.Lib.Allocation

/-!
# Threads that are saved and resumed

A thread is numbered when it starts and lives in one place at a time, with a value that says which
numbers it may still use. Images of a thread can be taken and one can be resumed when the thread is
gone. An image does not learn of later uses, so a use makes the images of its thread worthless.

* `Lineage` : no thread used a number twice, and neither live threads nor images offer a used one
* `Lineage.mono` : threads end, move on by themselves, or are saved
* `Lineage.start`, `Lineage.resume` : a new thread starts, an image is resumed
* `Lineage.use` : a thread uses a number
-/

namespace Lib

open List

variable {H V C : Type*}

/-- What the thread at `h` may still use, with the number of the thread. -/
def offered (live : H → Option (Nat × V)) (avail : V → C → Prop) (h : H) : Set (Nat × C) :=
  {x | ∃ v, live h = some (x.1, v) ∧ avail v x.2}

/-- `live h` is the thread at `h`, `count` the number of threads started so far. -/
structure Lineage (avail : V → C → Prop) (live : H → Option (Nat × V)) (images : Set (Nat × V))
    (count : Nat) (used : List (Nat × C)) : Prop where
  alloc : Allocation (offered live avail) used
  saved : ∀ o v, (o, v) ∈ images → ∀ c, avail v c → (o, c) ∉ used
  started : ∀ x ∈ used, x.1 < count

namespace Lineage

variable {avail : V → C → Prop} {live live' : H → Option (Nat × V)} {images images' : Set (Nat × V)}
  {count count' : Nat} {used : List (Nat × C)}

theorem empty (hlive : ∀ h, live h = none) (himages : ∀ x, x ∉ images) :
    Lineage avail live images count [] where
  alloc :=
    { nodup := nodup_nil
      unused := fun _ _ _ => not_mem_nil
      disjoint := fun h _ _ x hx => by
        obtain ⟨v, hv, _⟩ := hx
        rw [hlive] at hv
        cases hv }
  saved o v hv := absurd hv (himages (o, v))
  started _ hx := absurd hx not_mem_nil

/-- `v'` offers nothing that the thread at `h` does not offer. -/
def Below (avail : V → C → Prop) (live : H → Option (Nat × V)) (h : H) (o : Nat) (v' : V) : Prop :=
  ∃ v, live h = some (o, v) ∧ ∀ c, avail v' c → avail v c

variable {o : Nat}

theorem Below.refl {h : H} {v : V} (hv : live h = some (o, v)) : Below avail live h o v :=
  ⟨v, hv, fun _ hc => hc⟩

theorem Below.offered {h : H} {v' : V} (hb : Below avail live h o v') {c : C} (hc : avail v' c) :
    (o, c) ∈ offered live avail h := by
  obtain ⟨v, hv, hsub⟩ := hb
  exact ⟨v, hv, hsub c hc⟩

theorem offered_sub (hsub : ∀ h o v, live' h = some (o, v) → Below avail live h o v) (h : H)
    (x : Nat × C) (hx : x ∈ offered live' avail h) : x ∈ offered live avail h := by
  obtain ⟨v, hv, hc⟩ := hx
  exact (hsub h x.1 v hv).offered hc

section

variable (hl : Lineage avail live images count used)
include hl

theorem mono (hlive : ∀ h o v, live' h = some (o, v) → Below avail live h o v)
    (himages : ∀ o v, (o, v) ∈ images' → (o, v) ∈ images ∨ ∃ h, Below avail live h o v)
    (hcount : count ≤ count') : Lineage avail live' images' count' used where
  alloc := hl.alloc.mono (offered_sub hlive)
  saved o v hv c hc := by
    rcases himages o v hv with hv | ⟨h, hb⟩
    · exact hl.saved o v hv c hc
    · exact hl.alloc.unused h (o, c) (hb.offered hc)
  started x hx := Nat.lt_of_lt_of_le (hl.started x hx) hcount

/-- A thread that lives nowhere appears at `h`, and the others may move. -/
theorem place (h : H) (source : H → H) {v : V} (hnew : live' h = some (o, v))
    (hold : ∀ g, g ≠ h → live' g = live (source g))
    (hinj : ∀ g g', g ≠ h → g' ≠ h → source g = source g' → g = g') (hdead : ∀ g w, live g ≠ some (o, w))
    (hunused : ∀ c, avail v c → (o, c) ∉ used) (himages : images' ⊆ images) (hcount : count ≤ count') :
    Lineage avail live' images' count' used where
  alloc := by
    refine hl.alloc.place h source (fun x hx => ?_) (fun g hg x hx => ?_) hinj
    · obtain ⟨w, hw, hc⟩ := hx
      rw [hnew] at hw
      cases hw
      refine ⟨hunused x.2 hc, fun g hg => ?_⟩
      obtain ⟨w, hw, _⟩ := hg
      exact hdead g w hw
    · obtain ⟨w, hw, hc⟩ := hx
      rw [hold g hg] at hw
      exact ⟨w, hw, hc⟩
  saved o v hv := hl.saved o v (himages hv)
  started x hx := Nat.lt_of_lt_of_le (hl.started x hx) hcount

theorem start (h : H) (source : H → H) {v : V} (hnew : live' h = some (count, v))
    (hold : ∀ g, g ≠ h → live' g = live (source g))
    (hinj : ∀ g g', g ≠ h → g' ≠ h → source g = source g' → g = g')
    (hlive : ∀ g o w, live g = some (o, w) → o < count) (himages : images' ⊆ images) :
    Lineage avail live' images' (count + 1) used :=
  hl.place h source hnew hold hinj (fun g w hw => Nat.lt_irrefl _ (hlive g count w hw))
    (fun _ _ hmem => Nat.lt_irrefl _ (hl.started _ hmem)) himages (Nat.le_succ count)

/-- The resumed value may differ from the saved one, as long as it offers no more. -/
theorem resume (h : H) (source : H → H) {v w : V} (hnew : live' h = some (o, w))
    (hold : ∀ g, g ≠ h → live' g = live (source g))
    (hinj : ∀ g g', g ≠ h → g' ≠ h → source g = source g' → g = g') (hdead : ∀ g w, live g ≠ some (o, w))
    (hsaved : (o, v) ∈ images) (hsub : ∀ c, avail w c → avail v c) (himages : images' ⊆ images) :
    Lineage avail live' images' count used :=
  hl.place h source hnew hold hinj hdead (fun c hc => hl.saved o v hsaved c (hsub c hc)) himages
    (Nat.le_refl count)

theorem use {h : H} {v : V} {c : C} (hv : live h = some (o, v)) (hc : avail v c) (ho : o < count)
    (hgone : ∀ o' v', live' h = some (o', v') → ¬ avail v' c)
    (hlive : ∀ g o v, live' g = some (o, v) → Below avail live g o v)
    (himages : ∀ o' v', (o', v') ∈ images' → (o', v') ∈ images ∧ o' ≠ o) :
    Lineage avail live' images' count (used ++ [(o, c)]) where
  alloc := by
    refine hl.alloc.take ⟨v, hv, hc⟩ (offered_sub hlive) fun hx => ?_
    obtain ⟨v', hv', hc'⟩ := hx
    exact hgone o v' hv' hc'
  saved o' v' hv' c' hc' hmem := by
    obtain ⟨hold, hne⟩ := himages o' v' hv'
    rcases mem_append.mp hmem with hmem | hmem
    · exact hl.saved o' v' hold c' hc' hmem
    · exact hne (congrArg Prod.fst (mem_singleton.mp hmem))
  started x hx := by
    rcases mem_append.mp hx with hx | hx
    · exact hl.started x hx
    · rw [mem_singleton.mp hx]
      exact ho

end

end Lineage

end Lib
