import Mathlib.Data.List.Chain
import Mathlib.Data.List.Nodup

/-!
# Loop freedom of a distance-vector protocol with feasibility

Every node carries a score that only grows. A node announces values it has itself reached, and a
node follows a neighbor only for an announcement whose value beats its own score. Announcements are
never taken out of `sent`, so loss, duplication, delay and reordering need no case of their own.

* `View.Sound` : announcements are covered by their senders, and every candidate was announced
* `View.Evolves` : what one step of a protocol may do to a view
* `View.Sound.evolves` : soundness is kept
* `View.Sound.nodup_of_chain` : **following candidates never returns to a node**
-/

namespace Lib

/-- What matters of a distance-vector protocol for one destination. -/
structure View (α A : Type*) where
  /-- the destination itself; it announces without a bound -/
  root : α
  score : α → Nat
  value : A → Nat
  /-- `sent v a`: node `v` has made the announcement `a` at some time -/
  sent : α → A → Prop
  /-- `cand u v a`: node `u` holds the announcement `a` of node `v` -/
  cand : α → α → A → Prop

namespace View

variable {α A : Type*} {V W : View α A}

/-- Node `u` may follow node `v`: it holds an announcement of `v` that beats its own score. -/
def Follows (V : View α A) (u v : α) : Prop :=
  ∃ a, V.cand u v a ∧ V.score u < V.value a

structure Sound (V : View α A) : Prop where
  covered : ∀ v a, V.sent v a → v = V.root ∨ V.value a ≤ V.score v
  announced : ∀ u v a, V.cand u v a → V.sent v a
  rootless : ∀ v a, ¬ V.cand V.root v a

/-- What a step may do: scores grow, a new announcement is within its sender's new score, and a new
candidate was announced before. -/
structure Evolves (V W : View α A) : Prop where
  root : W.root = V.root
  value : W.value = V.value
  score : ∀ v, V.score v ≤ W.score v
  mono : ∀ v a, V.sent v a → W.sent v a
  sent : ∀ v a, W.sent v a → V.sent v a ∨ v = V.root ∨ V.value a ≤ W.score v
  cand : ∀ u v a, W.cand u v a → V.cand u v a ∨ (u ≠ V.root ∧ V.sent v a)

theorem Sound.evolves (hV : V.Sound) (h : V.Evolves W) : W.Sound where
  covered := by
    intro v a hs
    rw [h.root, h.value]
    rcases h.sent v a hs with hold | hroot | hle
    · rcases hV.covered v a hold with hroot | hle
      · exact Or.inl hroot
      · exact Or.inr (hle.trans (h.score v))
    · exact Or.inl hroot
    · exact Or.inr hle
  announced := by
    intro u v a hc
    rcases h.cand u v a hc with hold | ⟨_, hs⟩
    · exact h.mono v a (hV.announced u v a hold)
    · exact h.mono v a hs
  rootless := by
    intro v a hc
    rw [h.root] at hc
    rcases h.cand _ v a hc with hold | ⟨hne, _⟩
    · exact hV.rootless v a hold
    · exact hne rfl

/-- Every followed edge that does not end at the destination raises the score. -/
theorem Sound.score_lt (hV : V.Sound) {u v : α} (h : V.Follows u v) (hv : v ≠ V.root) :
    V.score u < V.score v := by
  obtain ⟨a, hc, hlt⟩ := h
  rcases hV.covered v a (hV.announced u v a hc) with hroot | hle
  · exact absurd hroot hv
  · exact Nat.lt_of_lt_of_le hlt hle

/-- The order that every followed edge ascends: by score, with the destination on top. -/
def Below (V : View α A) (u v : α) : Prop :=
  u ≠ V.root ∧ (v = V.root ∨ V.score u < V.score v)

theorem Below.trans {u v w : α} (huv : V.Below u v) (hvw : V.Below v w) : V.Below u w := by
  refine ⟨huv.1, ?_⟩
  rcases hvw.2 with hw | hlt
  · exact Or.inl hw
  · rcases huv.2 with hv | hlt'
    · exact absurd hv hvw.1
    · exact Or.inr (hlt'.trans hlt)

theorem Below.ne {u v : α} (h : V.Below u v) : u ≠ v := by
  rintro rfl
  rcases h.2 with hu | hlt
  · exact h.1 hu
  · exact lt_irrefl _ hlt

theorem Sound.below_of_follows (hV : V.Sound) {u v : α} (h : V.Follows u v) : V.Below u v := by
  constructor
  · rintro rfl
    obtain ⟨a, hc, _⟩ := h
    exact hV.rootless v a hc
  · by_cases hv : v = V.root
    · exact Or.inl hv
    · exact Or.inr (hV.score_lt h hv)

instance : IsTrans α V.Below := ⟨fun _ _ _ => Below.trans⟩

/-- **Loop freedom.** A chain of followed edges visits no node twice. -/
theorem Sound.nodup_of_chain (hV : V.Sound) {path : List α} (h : path.IsChain V.Follows) : path.Nodup := by
  have hb : path.IsChain V.Below := h.imp fun _ _ => hV.below_of_follows
  exact (List.isChain_iff_pairwise.mp hb).imp Below.ne

end View

end Lib
