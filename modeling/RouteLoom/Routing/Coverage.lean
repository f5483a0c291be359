import RouteLoom.Routing.Emission
import RouteLoom.Routing.Feasibility
import RouteLoom.Lib.Machine

/-!
# Feasible distance before advertisement

A queued record is covered when the feasible distance of its destination is valid and at least as
good as the record. The scoped, broadcast and upward paths update the feasible distance of every
finite record they build, so all their frames are covered. The flat update updates it only for the
rows of its rotating dump, not for its group-root prefix, and the flat answer to a route request
not at all.

* `RouteTable.Covers` : the feasible distance is at least as good as a record
* `RouteTable.Shows.tight_of_mark` : marking makes the selected route covered
* `RouteNode.Touches`, `RouteNode.Emits` : what building and queueing a frame may change
-/

namespace RouteLoom

open Lib List

variable {d : NodeId} {r : RouteAdvertisement}

namespace RouteTable

variable {cap : Nat} {T : RouteTable cap}

/-- The feasible distance for the record's destination is valid and at least as good: its sequence
is newer, or the same with a metric no larger. -/
def Covers (T : RouteTable cap) (r : RouteAdvertisement) : Prop :=
  ∃ e, T.find r.destination = some e ∧ e.feasible.valid = true ∧
    (Serial.newer e.feasible.sequence r.sequence = true ∨
      (e.feasible.sequence = r.sequence ∧ e.feasible.metric ≤ r.metric))

/-- The feasible distance has the record's own sequence and a metric no larger. -/
def Tight (T : RouteTable cap) (r : RouteAdvertisement) : Prop :=
  ∃ e, T.find r.destination = some e ∧ e.feasible.valid = true ∧
    e.feasible.sequence = r.sequence ∧ e.feasible.metric ≤ r.metric

theorem Tight.covers (h : T.Tight r) : T.Covers r := by
  obtain ⟨e, he, hv, hs, hm⟩ := h
  exact ⟨e, he, hv, Or.inr ⟨hs, hm⟩⟩

instance (T : RouteTable cap) (r : RouteAdvertisement) : Decidable (T.Covers r) :=
  decidable_of_iff ((T.find r.destination).any fun e => e.feasible.valid &&
      (Serial.newer e.feasible.sequence r.sequence ||
        (e.feasible.sequence == r.sequence && decide (e.feasible.metric ≤ r.metric))) = true) (by
    simp [Covers, Option.any_eq_true])

theorem best_valid (h : (T.best d).valid = true) :
    ∃ e, T.find d = some e ∧ e.select.valid = true ∧ T.best d = e.select := by
  unfold best at h ⊢
  cases he : T.find d with
  | none =>
    rw [he] at h
    cases h
  | some e =>
    rw [he] at h
    exact ⟨e, rfl, h, rfl⟩

theorem best_destination (h : (T.best d).valid = true) : (T.best d).destination = d := by
  obtain ⟨e, he, hv, hb⟩ := best_valid h
  obtain ⟨c, _, _, hsel⟩ := RouteEntry.select_valid hv
  rw [hb, hsel]
  simpa using (Pool.find_some he).2

/-- The record is what the table selects for its destination. -/
def Shows (T : RouteTable cap) (r : RouteAdvertisement) : Prop :=
  (T.best r.destination).valid = true ∧ r.sequence = (T.best r.destination).sequence ∧
    r.metric = (T.best r.destination).metric

/-- Marking covers the selected route: what is selected is feasible, so it is either better than the
feasible distance or has its sequence. -/
theorem Shows.tight_of_mark (h : T.Shows r) : (T.markAdvertised r.destination).1.Tight r := by
  obtain ⟨hvalid, hseq, hmetric⟩ := h
  obtain ⟨e, he, hv, hb⟩ := best_valid hvalid
  have hfind : (T.markAdvertised r.destination).1.find r.destination = some (markEntry e e.select) := by
    simp [find_markAdvertised, he, hv]
  obtain ⟨c, _, hl, hsel⟩ := RouteEntry.select_valid hv
  refine ⟨markEntry e e.select, hfind, ?_⟩
  rw [hseq, hmetric, hb]
  by_cases hf : e.feasible.valid = false ∨
      Better e.select.sequence e.select.metric e.feasible.sequence e.feasible.metric
  · rw [markEntry_of_better hf]
    exact ⟨rfl, rfl, UInt16.le_refl _⟩
  · rw [not_or, Bool.not_eq_false] at hf
    obtain ⟨hfv, hnb⟩ := hf
    rw [markEntry_of_not_better hfv hnb]
    have hfeas : e.isFeasible c.sequence c.advertised = true := (Bool.and_eq_true_iff.mp hl).2
    rw [hsel] at hnb ⊢
    rcases (RouteEntry.isFeasible_iff hfv).mp hfeas with hnew | ⟨hseq, _⟩
    · exact absurd (Or.inl hnew) hnb
    · exact ⟨hfv, hseq.symm, UInt16.not_lt.mp fun hlt => hnb (Or.inr ⟨hseq, hlt⟩)⟩

theorem best_markAdvertised_ne {d' : NodeId} (h : d' ≠ d) : (T.markAdvertised d).1.best d' = T.best d' := by
  simp [best, find_markAdvertised, h]

theorem best_setAnnouncedUp (d : NodeId) (b : Bool) (d' : NodeId) :
    (T.setAnnouncedUp d b).best d' = T.best d' := by
  unfold best
  rw [find_setAnnouncedUp]
  by_cases hd : d' = d
  · rw [if_pos hd]
    cases T.find d' with
    | none => rfl
    | some e => rfl
  · rw [if_neg hd]

theorem Tight.markAdvertised_ne (h : T.Tight r) (hd : r.destination ≠ d) :
    (T.markAdvertised d).1.Tight r := by
  obtain ⟨e, he, hrest⟩ := h
  exact ⟨e, by simpa [find_markAdvertised, hd] using he, hrest⟩

theorem Tight.setAnnouncedUp (h : T.Tight r) (d : NodeId) (b : Bool) : (T.setAnnouncedUp d b).Tight r := by
  obtain ⟨e, he, hv, hs, hm⟩ := h
  by_cases hd : r.destination = d
  · refine ⟨{ e with announcedUp := b }, ?_, hv, hs, hm⟩
    rw [find_setAnnouncedUp, if_pos hd, he]
    rfl
  · exact ⟨e, by simpa [find_setAnnouncedUp, hd] using he, hv, hs, hm⟩

/-- A table with one entry per destination selects for a row exactly what `best` selects. -/
theorem UniqueKeys.best_of_row (h : T.UniqueKeys) {row : RouteSelection}
    (hrow : row ∈ T.forEachSelected) : row.valid = true ∧ T.best row.destination = row := by
  obtain ⟨e, he, hsel⟩ := mem_filterMap.mp hrow
  split at hsel
  · rename_i hv
    cases hsel
    obtain ⟨c, _, _, heq⟩ := RouteEntry.select_valid hv
    have hdest : e.select.destination = e.destination := by rw [heq]
    refine ⟨hv, ?_⟩
    rw [best, hdest, h.find_eq (Pool.mem_toList.mp he)]
  · cases hsel

theorem UniqueKeys.nodup_rows (h : T.UniqueKeys) : (T.forEachSelected.map (·.destination)).Nodup := by
  have hsub : (T.forEachSelected.map (·.destination)).Sublist (T.entries.toList.map (·.destination)) := by
    unfold forEachSelected
    induction T.entries.toList with
    | nil => exact .slnil
    | cons e l ih =>
      by_cases hv : e.select.valid = true
      · obtain ⟨c, _, _, heq⟩ := RouteEntry.select_valid hv
        have hdest : e.select.destination = e.destination := by rw [heq]
        simpa [filterMap_cons, hv, hdest] using ih
      · simpa [filterMap_cons, hv] using ih.cons _
  exact (Pool.KeyUnique.nodup_toList h).sublist hsub

end RouteTable

/-! ## Building and queueing a frame -/

/-- A finite record for a destination other than the node itself. -/
def Counts (self : NodeId) (r : RouteAdvertisement) : Prop :=
  r.destination ≠ self ∧ r.metric ≠ kInfiniteRouteMetric

instance (self : NodeId) (r : RouteAdvertisement) : Decidable (Counts self r) :=
  inferInstanceAs (Decidable (_ ∧ _))

/-- Every finite record of a queued frame is covered by the table its step left. -/
def CoveredFrame {cap : Nat} (self : NodeId) (q : RouteFrame × RouteTable cap) : Prop :=
  ∀ r ∈ q.1.records, Counts self r → q.2.Covers r

instance {cap : Nat} (self : NodeId) (q : RouteFrame × RouteTable cap) :
    Decidable (CoveredFrame self q) :=
  inferInstanceAs (Decidable (∀ r ∈ q.1.records, Counts self r → q.2.Covers r))

namespace RouteNode

variable {cap : Nat} {σ : Type} {S : TxScheduler σ} {n n' n'' : RouteNode cap σ}

/-- Building a frame may update feasible distances of the destinations in `D` and announcement
marks, and nothing else that a later record or frame depends on. -/
structure Touches (D : NodeId → Prop) (n n' : RouteNode cap σ) : Prop where
  config : n'.config = n.config
  neighbors : n'.neighbors = n.neighbors
  relay : n'.relayEnabled = n.relayEnabled
  dirty : n'.scopedDirty = n.scopedDirty
  queued : n'.queued = n.queued
  unique : n.routes.UniqueKeys → n'.routes.UniqueKeys
  best : ∀ d, ¬ D d → n'.routes.best d = n.routes.best d
  tight : ∀ r, ¬ D r.destination → n.routes.Tight r → n'.routes.Tight r

theorem Touches.refl (D : NodeId → Prop) (n : RouteNode cap σ) : Touches D n n :=
  ⟨rfl, rfl, rfl, rfl, rfl, fun h => h, fun _ _ => rfl, fun _ _ h => h⟩

variable {D : NodeId → Prop} {records : List RouteAdvertisement}

theorem Touches.trans (h₁ : Touches D n n') (h₂ : Touches D n' n'') : Touches D n n'' where
  config := h₂.config.trans h₁.config
  neighbors := h₂.neighbors.trans h₁.neighbors
  relay := h₂.relay.trans h₁.relay
  dirty := h₂.dirty.trans h₁.dirty
  queued := h₂.queued.trans h₁.queued
  unique h := h₂.unique (h₁.unique h)
  best d hd := (h₂.best d hd).trans (h₁.best d hd)
  tight r hr h := h₂.tight r hr (h₁.tight r hr h)

theorem Touches.mono {E : NodeId → Prop} (h : Touches D n n') (hDE : ∀ d, D d → E d) : Touches E n n' :=
  { h with
    best := fun d hd => h.best d fun hD => hd (hDE d hD)
    tight := fun r hr => h.tight r fun hD => hr (hDE _ hD) }

theorem touches_markAdvertised (n : RouteNode cap σ) (d : NodeId) :
    Touches (· = d) n (n.markAdvertised d) where
  config := rfl
  neighbors := rfl
  relay := rfl
  dirty := rfl
  queued := rfl
  unique h := h.markAdvertised d
  best _ hd := RouteTable.best_markAdvertised_ne hd
  tight _ hr h := h.markAdvertised_ne hr

theorem touches_setAnnouncedUp (n : RouteNode cap σ) (d : NodeId) (b : Bool) (D : NodeId → Prop) :
    Touches D n (n.setAnnouncedUp d b) where
  config := rfl
  neighbors := rfl
  relay := rfl
  dirty := rfl
  queued := rfl
  unique h := h.setAnnouncedUp d b
  best d' _ := RouteTable.best_setAnnouncedUp d b d'
  tight _ _ h := h.setAnnouncedUp d b

/-- The records built so far have tight feasible distances. -/
def Good (n : RouteNode cap σ) (records : List RouteAdvertisement) : Prop :=
  ∀ r ∈ records, Counts n.config.node r → n.routes.Tight r

/-- Adding a record: the step touches only destinations of no finite record built before. -/
theorem Good.append {added : List RouteAdvertisement} (h : n.Good records) (ht : Touches D n n')
    (hold : ∀ r ∈ records, Counts n.config.node r → ¬ D r.destination)
    (hnew : ∀ r ∈ added, Counts n.config.node r → n'.routes.Tight r) : n'.Good (records ++ added) := by
  intro r hr hc
  rw [ht.config] at hc
  rcases mem_append.mp hr with hr | hr
  · exact ht.tight r (hold r hr hc) (h r hr hc)
  · exact hnew r hr hc

theorem good_self (n : RouteNode cap σ) : n.Good [n.selfRecord] := by
  intro r hr hc
  rw [mem_singleton.mp hr] at hc
  exact absurd rfl hc.1

theorem Touches.shows (h : Touches D n n') (hr : ¬ D r.destination) (hs : n.routes.Shows r) :
    n'.routes.Shows r := by
  unfold RouteTable.Shows at hs ⊢
  rw [h.best _ hr]
  exact hs

theorem Touches.isRouteGateway (h : Touches D n n') (d : NodeId) :
    n'.isRouteGateway d = n.isRouteGateway d := by
  unfold RouteNode.isRouteGateway
  rw [h.config]

section Fold

variable {α : Type} {f : RouteNode cap σ → α → RouteNode cap σ} {key : α → NodeId}

theorem Touches.foldl (hf : ∀ n a, Touches (· = key a) n (f n a)) (L : List α)
    (n : RouteNode cap σ) : Touches (· ∈ L.map key) n (L.foldl f n) := by
  induction L generalizing n with
  | nil => exact .refl _ n
  | cons a L ih =>
    refine ((hf n a).mono ?_).trans ((ih (f n a)).mono ?_)
    · intro d hd
      rw [hd]
      exact mem_cons_self
    · intro d hd
      exact mem_cons_of_mem _ hd

/-- A fold that marks distinct destinations covers what the table selected for them before. -/
theorem tight_foldl {P : α → Prop} (hf : ∀ n a, Touches (· = key a) n (f n a))
    (hmark : ∀ n a r, P a → r.destination = key a → n.routes.Shows r → (f n a).routes.Tight r) (L : List α)
    (hL : (L.map key).Nodup) (n : RouteNode cap σ) {a : α} (ha : a ∈ L) (hP : P a)
    (hr : r.destination = key a) (hs : n.routes.Shows r) : (L.foldl f n).routes.Tight r := by
  induction L generalizing n with
  | nil => cases ha
  | cons b L ih =>
    rw [map_cons, nodup_cons] at hL
    rcases mem_cons.mp ha with rfl | ha
    · refine (Touches.foldl hf L (f n a)).tight r ?_ (hmark n a r hP hr hs)
      rw [hr]
      exact hL.1
    · refine ih hL.2 (f n b) ha ((hf n b).shows ?_ hs)
      rintro heq
      rw [← heq, hr] at hL
      exact hL.1 (mem_map_of_mem ha)

end Fold

/-- A step after which every newly queued frame is covered exactly when `P` holds. -/
structure Emits (P : Prop) (n n' : RouteNode cap σ) : Prop where
  config : n'.config = n.config
  unique : n.routes.UniqueKeys → n'.routes.UniqueKeys
  dirty : n.scopedDirty.Nodup → n'.scopedDirty.Nodup
  covered : ∀ q ∈ n'.queued, q ∈ n.queued ∨ (CoveredFrame n.config.node q ↔ P)

variable {P : Prop}

theorem Emits.refl (P : Prop) (n : RouteNode cap σ) : Emits P n n :=
  ⟨rfl, fun h => h, fun h => h, fun _ h => Or.inl h⟩

theorem Emits.trans (h₁ : Emits P n n') (h₂ : Emits P n' n'') : Emits P n n'' where
  config := h₂.config.trans h₁.config
  unique h := h₂.unique (h₁.unique h)
  dirty h := h₂.dirty (h₁.dirty h)
  covered q hq := by
    rcases h₂.covered q hq with hq | hq
    · exact h₁.covered q hq
    · rw [h₁.config] at hq
      exact Or.inr hq

theorem Touches.emits (h : Touches D n n') : Emits P n n' :=
  ⟨h.config, h.unique, fun hd => h.dirty ▸ hd, fun _ hq => Or.inl (h.queued ▸ hq)⟩

theorem emits_noteQueued (n : RouteNode cap σ) (frame : RouteFrame)
    (h : CoveredFrame n.config.node (frame, n.routes) ↔ P) : Emits P n (n.noteQueued frame) := by
  refine ⟨rfl, fun h => h, fun h => h, fun q hq => ?_⟩
  rcases mem_append.mp hq with hq | hq
  · exact Or.inl hq
  · rw [mem_singleton.mp hq]
    exact Or.inr h

theorem emits_enqueueFrame (n : RouteNode cap σ) (frame : RouteFrame) (now : MonotonicMs)
    (h : CoveredFrame n.config.node (frame, n.routes) ↔ P) : Emits P n (n.enqueueFrame S frame now).1 := by
  unfold enqueueFrame enqueue
  cases S.enqueue n.scheduler frame now with
  | error status => exact .refl P n
  | ok scheduler =>
    have hstart : Emits P n { n with scheduler := scheduler } :=
      ⟨rfl, fun h => h, fun h => h, fun _ hq => Or.inl hq⟩
    exact hstart.trans (emits_noteQueued _ frame h)

theorem Good.covered {frame : RouteFrame} (h : n.Good frame.records) :
    CoveredFrame n.config.node (frame, n.routes) ↔ True :=
  iff_true_intro fun r hr hc => (h r hr hc).covers

theorem emits_enqueueRouteRecords (n : RouteNode cap σ) (neighbor : NodeId) (now : MonotonicMs)
    (h : n.Good records) : Emits True n (n.enqueueRouteRecords S neighbor records now).1 := by
  unfold enqueueRouteRecords
  split
  · exact .refl _ n
  · exact n.emits_enqueueFrame _ now (Good.covered h)

/-! ## The scoped profile -/

theorem poisoned_finite {selection : RouteSelection} {receiver : NodeId}
    (h : n.poisoned selection receiver ≠ kInfiniteRouteMetric) :
    n.poisoned selection receiver = selection.metric := by
  unfold poisoned at h ⊢
  split at h
  · exact absurd rfl h
  · rename_i hc
    rw [if_neg hc]

theorem scopedRecord_spec (n : RouteNode cap σ) (d receiver : NodeId) :
    Touches (· = d) n (n.scopedRecord d receiver).1 ∧
      ∀ r, (n.scopedRecord d receiver).2 = some r → r.destination = d ∧
        (r.metric ≠ kInfiniteRouteMetric → (n.scopedRecord d receiver).1.routes.Tight r) := by
  unfold scopedRecord
  dsimp only
  split
  · exact ⟨.refl _ n, fun r hr => by cases hr⟩
  · split
    · rename_i hv
      by_cases hfin : n.poisoned (n.routes.best d) receiver = kInfiniteRouteMetric
      · simp only [hfin, bne_self_eq_false, Bool.false_eq_true, if_false]
        refine ⟨.refl _ n, ?_⟩
        rintro _ ⟨⟩
        exact ⟨rfl, fun h => absurd rfl h⟩
      · rw [if_pos (by simpa using hfin), poisoned_finite hfin]
        refine ⟨n.touches_markAdvertised d, ?_⟩
        rintro _ ⟨⟩
        exact ⟨rfl, fun _ => RouteTable.Shows.tight_of_mark ⟨hv, rfl, rfl⟩⟩
    · refine ⟨.refl _ n, fun r hr => ?_⟩
      obtain ⟨lost, _, rfl⟩ := Option.map_eq_some_iff.mp hr
      exact ⟨rfl, fun h => absurd rfl h⟩

/-- Adding records for destinations in `D` to a frame under construction. -/
structure Builds (D : NodeId → Prop) (n n' : RouteNode cap σ)
    (records records' : List RouteAdvertisement) : Prop where
  touches : Touches D n n'
  good : n.Good records →
    (∀ r ∈ records, Counts n.config.node r → ¬ D r.destination) → n'.Good records'
  mem : ∀ r ∈ records', r ∈ records ∨ D r.destination

theorem Builds.of_touches (ht : Touches D n n') : Builds D n n' records records where
  touches := ht
  good h hold r hr hc := by
    rw [ht.config] at hc
    exact ht.tight r (hold r hr hc) (h r hr hc)
  mem _ hr := Or.inl hr

theorem Builds.of_append {added : List RouteAdvertisement} (ht : Touches D n n')
    (hd : ∀ r ∈ added, D r.destination) (hnew : ∀ r ∈ added, Counts n.config.node r → n'.routes.Tight r) :
    Builds D n n' records (records ++ added) where
  touches := ht
  good h hold := h.append ht hold hnew
  mem r hr := by
    rcases mem_append.mp hr with hr | hr
    · exact Or.inl hr
    · exact Or.inr (hd r hr)

/-- Building for a list of distinct destinations, one after the other. -/
theorem Builds.foldl {β : Type} {node : β → RouteNode cap σ} {recs : β → List RouteAdvertisement}
    {step : β → NodeId → β}
    (hstep : ∀ b d, Builds (· = d) (node b) (node (step b d)) (recs b) (recs (step b d)))
    (L : List NodeId) (hL : L.Nodup) (b : β) :
    Builds (· ∈ L) (node b) (node (L.foldl step b)) (recs b) (recs (L.foldl step b)) := by
  induction L generalizing b with
  | nil => exact .of_touches (.refl _ _)
  | cons d L ih =>
    rw [nodup_cons] at hL
    have h₁ := hstep b d
    have h₂ := ih hL.2 (step b d)
    refine ⟨?_, fun hgood hold => ?_, fun r hr => ?_⟩
    · refine (h₁.touches.mono ?_).trans (h₂.touches.mono fun d' => mem_cons_of_mem d)
      rintro d' rfl
      exact mem_cons_self
    · refine h₂.good (h₁.good hgood fun r hr hc => ?_) fun r hr hc => ?_
      · exact ne_of_not_mem_cons (hold r hr hc)
      · rw [h₁.touches.config] at hc
        rcases h₁.mem r hr with hr | hr
        · exact not_mem_of_not_mem_cons (hold r hr hc)
        · rw [hr]
          exact hL.1
    · rcases h₂.mem r hr with hr | hr
      · rcases h₁.mem r hr with hr | hr
        · exact Or.inl hr
        · rw [hr]
          exact Or.inr mem_cons_self
      · exact Or.inr (mem_cons_of_mem d hr)

theorem builds_pushScoped (receiver : NodeId) (b : RouteNode cap σ × List RouteAdvertisement) (d : NodeId) :
    Builds (· = d) b.1 (pushScoped receiver b d).1 b.2 (pushScoped receiver b d).2 := by
  obtain ⟨ht, hr⟩ := b.1.scopedRecord_spec d receiver
  unfold pushScoped
  generalize b.1.scopedRecord d receiver = res at ht hr
  obtain ⟨n', o⟩ := res
  cases o with
  | none =>
    exact .of_touches ht
  | some record =>
    obtain ⟨hdest, htight⟩ := hr record rfl
    refine .of_append ht (by simpa using hdest) fun r hm hc => ?_
    rw [mem_singleton.mp hm] at hc ⊢
    exact htight hc.2

theorem mem_baseGateways (h : d ∈ n.baseGateways) : d ≠ n.config.node ∧ n.isRouteGateway d = true := by
  obtain ⟨i, hi, rfl⟩ := mem_map.mp h
  have hp := (mem_filter.mp hi).2
  simp only [Bool.and_eq_true, bne_iff_ne] at hp
  refine ⟨hp.1.2, ?_⟩
  simp only [isRouteGateway, Bool.and_eq_true, bne_iff_ne, any_eq_true, beq_iff_eq]
  exact ⟨hp.1.1, _, mem_ofFn.mpr ⟨i, rfl⟩, rfl⟩

theorem nodup_baseGateways (n : RouteNode cap σ) : n.baseGateways.Nodup := by
  refine List.Nodup.map_on ?_ ((nodup_finRange _).filter _)
  -- the later of two equal gateways is dropped as a duplicate
  have later : ∀ i j : Fin kMaxRouteGateways, i ∈ (List.finRange kMaxRouteGateways).filter (fun i =>
        n.config.routeGateways i != kInvalidNodeId && n.config.routeGateways i != n.config.node &&
          !(List.finRange kMaxRouteGateways).any fun j =>
            j < i && n.config.routeGateways j == n.config.routeGateways i) →
      n.config.routeGateways i = n.config.routeGateways j → ¬ j < i := by
    intro i j hi heq hlt
    have hp := (mem_filter.mp hi).2
    simp only [Bool.and_eq_true, Bool.not_eq_eq_eq_not, Bool.not_true, any_eq_false] at hp
    exact hp.2 j (mem_finRange j) (by simp [hlt, heq])
  intro i hi j hj heq
  exact le_antisymm (not_lt.mp (later i j hi heq)) (not_lt.mp (later j i hj heq.symm))

/-- The leading records of every scoped frame. -/
structure Base (n n' : RouteNode cap σ) (records : List RouteAdvertisement) : Prop where
  touches : Touches (· ∈ n.baseGateways) n n'
  good : n'.Good records
  mem : ∀ r ∈ records, r.destination = n.config.node ∨ n.isRouteGateway r.destination = true

theorem base_appendScopedBase (n : RouteNode cap σ) (receiver : NodeId) :
    Base n (n.appendScopedBase receiver).1 (n.appendScopedBase receiver).2 := by
  have h := Builds.foldl (builds_pushScoped receiver) n.baseGateways n.nodup_baseGateways (n, [n.selfRecord])
  refine ⟨h.touches, h.good n.good_self fun r hr hc => ?_, fun r hr => ?_⟩
  · rw [mem_singleton.mp hr] at hc
    exact absurd rfl hc.1
  · rcases h.mem r hr with hr | hr
    · rw [mem_singleton.mp hr]
      exact Or.inl rfl
    · exact Or.inr (mem_baseGateways hr).2

theorem emits_queueScopedUpdate (n : RouteNode cap σ) (neighbor extra : NodeId)
    (now : MonotonicMs) : Emits True n (n.queueScopedUpdate S neighbor extra now).1 := by
  have hbase := n.base_appendScopedBase neighbor
  unfold queueScopedUpdate
  generalize n.appendScopedBase neighbor = base at hbase
  dsimp only
  split
  · rename_i hextra
    simp only [Bool.and_eq_true, bne_iff_ne, Bool.not_eq_eq_eq_not, Bool.not_true] at hextra
    have hb := builds_pushScoped neighbor base extra
    have hgood := hb.good hbase.good fun r hr _ => by
      rintro rfl
      rcases hbase.mem r hr with hr | hr
      · exact hextra.1.1.2 hr
      · rw [hr] at hextra
        exact absurd hextra.1.2 (by simp)
    exact (hbase.touches.emits.trans hb.touches.emits).trans (emits_enqueueRouteRecords _ _ _ hgood)
  · exact hbase.touches.emits.trans (emits_enqueueRouteRecords _ _ _ hbase.good)

/-! ## The broadcast update -/

/-- The route records of a broadcast batch under construction. -/
def batch (b : RouteNode cap σ × Option (List BroadcastRouteRecord)) : List RouteAdvertisement :=
  (b.2.getD []).map (·.route)

theorem builds_pushBroadcast (b : RouteNode cap σ × Option (List BroadcastRouteRecord))
    (d : NodeId) : Builds (· = d) b.1 (pushBroadcast b d).1 (batch b) (batch (pushBroadcast b d)) := by
  obtain ⟨n, o⟩ := b
  cases o with
  | none => exact .of_touches (.refl _ n)
  | some records =>
    have infinite : ∀ r : RouteAdvertisement, ∀ via, r.destination = d → r.metric = kInfiniteRouteMetric →
        Builds (· = d) n n (batch (n, some records)) (batch (n, some (records ++ [⟨r, via⟩]))) := by
      intro r via hd hm
      simp only [batch, Option.getD_some, map_append]
      refine .of_append (.refl _ n) (by simpa using hd) fun r' hr' hc => ?_
      rw [map_singleton, mem_singleton] at hr'
      rw [hr'] at hc
      exact absurd hm hc.2
    unfold pushBroadcast
    dsimp only
    split
    · exact ⟨.refl _ n, fun _ _ r hr => (by cases hr), fun r hr => (by cases hr)⟩
    · split
      · exact .of_touches (.refl _ n)
      · split
        · split
          · exact .of_touches (.refl _ n)
          · exact infinite _ _ rfl rfl
        · rename_i hv
          split
          · exact infinite _ _ rfl rfl
          · split
            · exact ⟨.refl _ n, fun _ _ r hr => (by cases hr), fun r hr => (by cases hr)⟩
            · simp only [batch, Option.getD_some, map_append]
              refine .of_append (n.touches_markAdvertised d) (by simp) fun r hr _ => ?_
              rw [map_singleton, mem_singleton] at hr
              subst hr
              exact RouteTable.Shows.tight_of_mark ⟨by simpa using hv, rfl, rfl⟩

theorem emits_queueBroadcastRouteUpdate (n : RouteNode cap σ) (now : MonotonicMs) :
    Emits True n (n.queueBroadcastRouteUpdate S now).1 := by
  have hb := Builds.foldl builds_pushBroadcast n.baseGateways n.nodup_baseGateways
    (n, some [⟨n.selfRecord, kInvalidNodeId⟩])
  have hgood := hb.good n.good_self fun r hr hc => by
    rw [mem_singleton.mp hr] at hc
    exact absurd rfl hc.1
  unfold queueBroadcastRouteUpdate buildBroadcastRecords
  split
  · rename_i heq
    rw [heq] at hb
    exact hb.touches.emits
  · rename_i heq
    rw [heq] at hb hgood
    split
    · exact hb.touches.emits.trans (emits_enqueueFrame _ _ _ (Good.covered hgood))
    · exact hb.touches.emits

/-! ## Upward records -/

theorem upwardEligible_iff {selection : RouteSelection} {parent : NodeId} {now : MonotonicMs}
    (h : n.upwardEligible selection parent now = true) :
    selection.valid = true ∧ selection.destination ≠ n.config.node ∧
      n.isRouteGateway selection.destination = false := by
  simp only [upwardEligible, Bool.and_eq_true, bne_iff_ne, Bool.not_eq_eq_eq_not, Bool.not_true] at h
  exact ⟨h.1.1.1.1.1, h.1.1.1.2, h.1.1.2⟩

theorem touches_announce (n : RouteNode cap σ) (r : RouteAdvertisement) :
    Touches (· = r.destination) n (n.announce r) := by
  unfold announce
  dsimp only
  split
  · exact (n.touches_markAdvertised _).trans (touches_setAnnouncedUp _ _ _ _)
  · exact touches_setAnnouncedUp _ _ _ _

theorem tight_announce {r' : RouteAdvertisement} (hfin : r.metric ≠ kInfiniteRouteMetric)
    (hd : r'.destination = r.destination) (hs : n.routes.Shows r') : (n.announce r).routes.Tight r' := by
  have htight := hs.tight_of_mark
  rw [hd] at htight
  unfold announce
  dsimp only
  rw [if_pos (by simpa using hfin)]
  exact htight.setAnnouncedUp _ _

/-- What the page walk adds: one record for some of the eligible rows, in order. -/
theorem foldl_pageStep (cycle : UpwardCycle) (now : MonotonicMs) (rows : List RouteSelection) (page : Page) :
    ∃ added, (rows.foldl (n.pageStep cycle now) page).records = page.records ++ added ∧
      (added.map (·.destination)).Sublist (rows.map (·.destination)) ∧
      ∀ r ∈ added, ∃ row ∈ rows, n.upwardEligible row cycle.parent now = true ∧
        r.destination = row.destination ∧ r.sequence = row.sequence ∧
        (r.metric ≠ kInfiniteRouteMetric → r.metric = row.metric) := by
  induction rows generalizing page with
  | nil => exact ⟨[], by simp, .slnil, by simp⟩
  | cons row rows ih =>
    obtain ⟨added, hrec, hsub, hadded⟩ := ih (n.pageStep cycle now page row)
    have widen : ∀ r ∈ added, ∃ row' ∈ row :: rows, n.upwardEligible row' cycle.parent now = true ∧
        r.destination = row'.destination ∧ r.sequence = row'.sequence ∧
        (r.metric ≠ kInfiniteRouteMetric → r.metric = row'.metric) := by
      intro r hr
      obtain ⟨row', hrow', h⟩ := hadded r hr
      exact ⟨row', mem_cons_of_mem _ hrow', h⟩
    rw [foldl_cons, hrec]
    by_cases hskip : (n.pageStep cycle now page row).records = page.records
    · exact ⟨added, by rw [hskip], hsub.cons _, widen⟩
    · have helig : n.upwardEligible row cycle.parent now = true := by
        by_contra h
        exact hskip (by simp [pageStep, h])
      -- a row that changes the records is the one appended last
      have hpush : (n.pageStep cycle now page row).records = page.records ++
          [⟨row.destination, row.generation, row.sequence,
            if n.relayEnabled then row.metric else kInfiniteRouteMetric⟩] := by
        unfold pageStep at hskip ⊢
        simp only [helig, Bool.not_true, Bool.false_eq_true, if_false] at hskip ⊢
        split at hskip
        · exact absurd rfl hskip
        · split at hskip
          · exact absurd rfl hskip
          · rename_i h₁ h₂
            rw [if_neg h₁, if_neg h₂]
      refine ⟨_ :: added, by rw [hpush, append_assoc]; rfl, ?_, ?_⟩
      · exact hsub.cons_cons row.destination
      · intro r hr
        rcases mem_cons.mp hr with rfl | hr
        · refine ⟨row, mem_cons_self, helig, rfl, rfl, fun hfin => ?_⟩
          by_cases hrelay : n.relayEnabled = true
          · exact if_pos hrelay
          · exact absurd (if_neg hrelay) hfin
        · exact widen r hr

/-- A page behind the base: its rows are selected routes of destinations outside the base, and each
finite one is marked. -/
theorem Base.page {n₀ : RouteNode cap σ} (hbase : Base n₀ n records) (hu : n.routes.UniqueKeys)
    (cycle : UpwardCycle) (now : MonotonicMs) {page : Page}
    (hpage : page = n.routes.forEachSelected.foldl (n.pageStep cycle now) { records := records }) :
    Touches (fun _ => True) n ((page.records.drop records.length).foldl announce n) ∧
      ((page.records.drop records.length).foldl announce n).Good page.records := by
  obtain ⟨added, hrec, hsub, hadded⟩ := n.foldl_pageStep cycle now n.routes.forEachSelected
    { records := records }
  rw [← hpage] at hrec
  rw [hrec, drop_left]
  have hmark := Touches.foldl (fun n r => touches_announce n r) added n
  refine ⟨hmark.mono fun _ _ => trivial, hbase.good.append hmark ?_ ?_⟩
  · intro r hr _ hmem
    obtain ⟨r', hr', heq⟩ := mem_map.mp hmem
    obtain ⟨row, _, helig, hdest, _⟩ := hadded r' hr'
    obtain ⟨_, hself, hgw⟩ := upwardEligible_iff helig
    rw [← hdest, heq] at hself hgw
    rw [hbase.touches.isRouteGateway] at hgw
    rw [hbase.touches.config] at hself
    rcases hbase.mem r hr with h | h
    · exact hself h
    · rw [h] at hgw
      cases hgw
  · intro r hr hc
    obtain ⟨row, hrow, _, hdest, hseq, hmetric⟩ := hadded r hr
    obtain ⟨hv, hbest⟩ := hu.best_of_row hrow
    refine tight_foldl (fun n r => touches_announce n r)
      (fun n a r' hP hd hs => tight_announce hP hd hs) added (hu.nodup_rows.sublist hsub) n hr hc.2
      rfl ?_
    rw [RouteTable.Shows, hdest, hbest]
    exact ⟨hv, hseq, hmetric hc.2⟩

theorem emits_emitUpward (n : RouteNode cap σ) (cycle : UpwardCycle) (now : MonotonicMs) (frames : Nat)
    (hu : n.routes.UniqueKeys) : Emits True n (n.emitUpward S cycle now frames).1 := by
  induction frames generalizing n cycle with
  | zero => exact .refl _ n
  | succ frames ih =>
    have hbase := n.base_appendScopedBase cycle.parent
    unfold emitUpward
    split
    · exact .refl _ n
    · generalize n.appendScopedBase cycle.parent = base at hbase
      have hu₁ := hbase.touches.unique hu
      obtain ⟨ht, hgood⟩ := hbase.page hu₁ cycle now rfl
      have hstart : Emits True n _ := hbase.touches.emits.trans ht.emits
      have henq := emits_enqueueRouteRecords (S := S) _ cycle.parent now hgood
      dsimp only
      split
      · rename_i heq
        rw [heq] at henq
        exact hstart.trans henq
      · rename_i heq
        rw [heq] at henq
        exact (hstart.trans henq).trans (ih _ _ (henq.unique (ht.unique hu₁)))

theorem upwardChangeRecord_spec (n : RouteNode cap σ) (d parent : NodeId) (now : MonotonicMs) :
    Touches (fun d' => d' = d ∧ n.isRouteGateway d = false ∧ d ≠ n.config.node) n
        (n.upwardChangeRecord d parent now).1 ∧
      ∀ r, (n.upwardChangeRecord d parent now).2 = some r → r.destination = d ∧
        (r.metric ≠ kInfiniteRouteMetric → (n.upwardChangeRecord d parent now).1.routes.Tight r) := by
  unfold upwardChangeRecord
  dsimp only
  split
  · rename_i helig
    obtain ⟨hv, hself, hgw⟩ := upwardEligible_iff helig
    rw [RouteTable.best_destination hv] at hself hgw
    refine ⟨(touches_announce n _).mono fun d' hd => ⟨hd, hgw, hself⟩, ?_⟩
    rintro _ ⟨⟩
    refine ⟨rfl, fun hfin => tight_announce hfin rfl ⟨hv, rfl, ?_⟩⟩
    by_cases hrelay : n.relayEnabled = true
    · exact if_pos hrelay
    · exact absurd (if_neg hrelay) hfin
  · split
    · exact ⟨.refl _ n, fun r hr => by cases hr⟩
    · split
      · refine ⟨touches_setAnnouncedUp _ _ _ _, ?_⟩
        rintro _ ⟨⟩
        exact ⟨rfl, fun h => absurd rfl h⟩
      · refine ⟨touches_setAnnouncedUp _ _ _ _, fun r hr => ?_⟩
        obtain ⟨lost, _, rfl⟩ := Option.map_eq_some_iff.mp hr
        exact ⟨rfl, fun h => absurd rfl h⟩

/-- The loop over the dirty destinations. A finite record built earlier is about a gateway or about a
destination that is not visited again. -/
theorem emits_emitDirty (parent : NodeId) (now : MonotonicMs) (dirty : List NodeId) (hdirty : dirty.Nodup)
    (n : RouteNode cap σ) (records : List RouteAdvertisement) (hgood : n.Good records)
    (hold : ∀ r ∈ records, Counts n.config.node r →
      n.isRouteGateway r.destination = true ∨ r.destination ∉ dirty) :
    Emits True n (emitDirty S parent now dirty n records) := by
  induction dirty generalizing n records with
  | nil => exact emits_enqueueRouteRecords n parent now hgood
  | cons d dirty ih =>
    rw [nodup_cons] at hdirty
    have add : ∀ (n : RouteNode cap σ) (records : List RouteAdvertisement), n.Good records →
        (∀ r ∈ records, Counts n.config.node r →
          n.isRouteGateway r.destination = true ∨ r.destination ∉ d :: dirty) →
        Emits True n (emitDirty S parent now dirty (n.upwardChangeRecord d parent now).1
          (records ++ (n.upwardChangeRecord d parent now).2.toList)) := by
      intro n records hgood hold
      obtain ⟨ht, hr⟩ := n.upwardChangeRecord_spec d parent now
      generalize n.upwardChangeRecord d parent now = res at ht hr
      refine ht.emits.trans (ih hdirty.2 res.1 _ (hgood.append ht ?_ ?_) ?_)
      · rintro r hm hc ⟨rfl, hgw, _⟩
        rcases hold r hm hc with h | h
        · rw [h] at hgw
          cases hgw
        · exact h mem_cons_self
      · intro r hm hc
        exact (hr r (Option.mem_toList.mp hm)).2 hc.2
      · intro r hm hc
        rw [ht.config] at hc
        rw [ht.isRouteGateway]
        rcases mem_append.mp hm with hm | hm
        · exact (hold r hm hc).imp_right not_mem_of_not_mem_cons
        · rw [(hr r (Option.mem_toList.mp hm)).1]
          exact Or.inr hdirty.1
    unfold emitDirty
    split
    · have henq := emits_enqueueRouteRecords (S := S) n parent now hgood
      generalize n.enqueueRouteRecords S parent records now = res at henq
      obtain ⟨n₁, o⟩ := res
      cases o with
      | error status => exact henq
      | ok _ =>
        dsimp only
        split
        · exact henq
        · have hbase := n₁.base_appendScopedBase parent
          refine (henq.trans hbase.touches.emits).trans (add _ _ hbase.good ?_)
          intro r hm hc
          rw [hbase.touches.config] at hc
          rw [hbase.touches.isRouteGateway]
          exact Or.inl ((hbase.mem r hm).resolve_left hc.1)
    · exact add n records hgood hold

theorem emits_emitUpwardDirty (n : RouteNode cap σ) (parent : NodeId) (now : MonotonicMs)
    (hdirty : n.scopedDirty.Nodup) : Emits True n (n.emitUpwardDirty S parent now) := by
  unfold emitUpwardDirty
  split
  · exact .refl _ n
  · have hbase := n.base_appendScopedBase parent
    refine hbase.touches.emits.trans
      (emits_emitDirty parent now n.scopedDirty hdirty _ _ hbase.good fun r hm hc => ?_)
    rw [hbase.touches.config] at hc
    rw [hbase.touches.isRouteGateway]
    exact Or.inl ((hbase.mem r hm).resolve_left hc.1)

theorem Good.retract (h : n.Good records) (r : RouteAdvertisement) (hr : r.metric = kInfiniteRouteMetric)
    (d : NodeId) : (n.setAnnouncedUp d false).Good (records ++ [r]) := by
  refine h.append (touches_setAnnouncedUp n d false fun _ => False) (fun _ _ _ h => h) ?_
  intro r' hm hc
  rw [mem_singleton.mp hm] at hc
  exact absurd hr hc.2

/-- One slot of the sweep. Once the scheduler refused, the records are not used any more. -/
theorem emits_sweepStep (parent : NodeId) (now : MonotonicMs) (sweep : Sweep cap σ) (i : Fin cap)
    (hgood : sweep.full = false → sweep.node.Good sweep.records) :
    Emits True sweep.node (sweepStep S parent now sweep i).node ∧
      ((sweepStep S parent now sweep i).full = false →
        (sweepStep S parent now sweep i).node.Good (sweepStep S parent now sweep i).records) := by
  have stay : Emits True sweep.node sweep.node ∧
      (sweep.full = false → sweep.node.Good sweep.records) := ⟨.refl _ _, hgood⟩
  unfold sweepStep
  split
  · exact stay
  · dsimp only
    split
    · exact stay
    · rename_i hskip
      have hfull : sweep.full = false := by
        simp only [Bool.or_eq_true, not_or, Bool.not_eq_true] at hskip
        exact hskip.1.1.2
      split
      · split
        · exact ⟨.refl _ _, fun h => by cases h⟩
        · have henq := emits_enqueueRouteRecords (S := S) sweep.node parent now (hgood hfull)
          generalize sweep.node.enqueueRouteRecords S parent sweep.records now = res at henq
          obtain ⟨n, o⟩ := res
          cases o with
          | error status => exact ⟨henq, fun h => by cases h⟩
          | ok _ =>
            have hbase := n.base_appendScopedBase parent
            refine ⟨?_, fun _ => hbase.good.retract _ rfl _⟩
            exact (henq.trans hbase.touches.emits).trans (touches_setAnnouncedUp _ _ _ fun _ => False).emits
      · refine ⟨(touches_setAnnouncedUp _ _ _ fun _ => False).emits, fun _ => ?_⟩
        exact (hgood hfull).retract _ rfl _

theorem emits_foldl_sweepStep (parent : NodeId) (now : MonotonicMs) (slots : List (Fin cap))
    (sweep : Sweep cap σ) (hgood : sweep.full = false → sweep.node.Good sweep.records) :
    Emits True sweep.node (slots.foldl (sweepStep S parent now) sweep).node ∧
      ((slots.foldl (sweepStep S parent now) sweep).full = false →
        (slots.foldl (sweepStep S parent now) sweep).node.Good
          (slots.foldl (sweepStep S parent now) sweep).records) := by
  induction slots generalizing sweep with
  | nil => exact ⟨.refl _ _, hgood⟩
  | cons i slots ih =>
    obtain ⟨hstep, hgood'⟩ := emits_sweepStep (S := S) parent now sweep i hgood
    obtain ⟨hrest, hgood''⟩ := ih (sweepStep S parent now sweep i) hgood'
    exact ⟨hstep.trans hrest, hgood''⟩

theorem emits_emitUpwardRetractions (n : RouteNode cap σ) (parent : NodeId) (now : MonotonicMs) :
    Emits True n (n.emitUpwardRetractions S parent now) := by
  have hbase := n.base_appendScopedBase parent
  unfold emitUpwardRetractions
  generalize n.appendScopedBase parent = base at hbase
  obtain ⟨hsweep, hgood⟩ := emits_foldl_sweepStep (S := S) parent now (List.finRange cap)
    { node := base.1, records := base.2 } fun _ => hbase.good
  have hstart := hbase.touches.emits.trans hsweep
  dsimp only
  split
  · rename_i h
    simp only [Bool.and_eq_true, Bool.not_eq_eq_eq_not, Bool.not_true] at h
    exact hstart.trans (emits_enqueueRouteRecords _ parent now (hgood h.1.1))
  · exact hstart

/-! ## Steps that queue nothing -/

theorem emits_of_quiet (hconfig : n'.config = n.config) (hunique : n.routes.UniqueKeys → n'.routes.UniqueKeys)
    (hdirty : n.scopedDirty.Nodup → n'.scopedDirty.Nodup) (hqueued : n'.queued = n.queued) : Emits P n n' :=
  ⟨hconfig, hunique, hdirty, fun q hq => Or.inl (by rw [hqueued] at hq; exact hq)⟩

theorem Emits.foldl {α : Type} {f : RouteNode cap σ → α → RouteNode cap σ} (hf : ∀ n a, Emits P n (f n a))
    (L : List α) (n : RouteNode cap σ) : Emits P n (L.foldl f n) := by
  induction L generalizing n with
  | nil => exact .refl P n
  | cons a L ih => exact (hf n a).trans (ih (f n a))

section

variable (n : RouteNode cap σ) (peer : NodeId) (records : List RouteAdvertisement)
  (now : MonotonicMs)

theorem emits_updateNeighbor (node : NodeId) (f : Neighbor → Neighbor) :
    Emits P n (n.updateNeighbor node f) := by
  unfold updateNeighbor
  split
  · exact .refl P n
  · split
    · exact .refl P n
    · exact emits_of_quiet rfl (fun h => h) (fun h => h) rfl

theorem emits_markScopedDirty (d : NodeId) : Emits P n (n.markScopedDirty d) := by
  unfold markScopedDirty
  split
  · exact .refl P n
  · rename_i hnew
    split
    · refine emits_of_quiet rfl (fun h => h) (fun h => ?_) rfl
      refine List.Nodup.append h (nodup_singleton d) ?_
      simpa using hnew
    · exact emits_of_quiet rfl (fun h => h) (fun h => h) rfl

theorem emits_noteTreeChange (d : NodeId) (selection previous : RouteSelection) (now : MonotonicMs) :
    Emits P n (n.noteTreeChange d selection previous now) := by
  unfold noteTreeChange
  split
  · exact .refl P n
  · split
    · exact emits_of_quiet rfl (fun h => h) (fun h => h) rfl
    · split
      · exact emits_markScopedDirty n d
      · exact .refl P n

theorem emits_noteScopedChange (n : RouteNode cap σ) (change : RouteSelection × RouteSelection) :
    Emits P n (noteScopedChange now n change) := by
  unfold noteScopedChange
  dsimp only
  generalize (if change.1.valid = true then change.1.destination else change.2.destination) = d
  split
  · exact .refl P n
  · split
    · have hpull : Emits P n (n.answerPulls d now) :=
        emits_of_quiet rfl (fun h => h) (fun h => h) rfl
      exact hpull.trans (emits_noteTreeChange _ _ _ _ _)
    · exact emits_noteTreeChange n _ _ _ _

theorem emits_scanSelectionChanges : Emits P n (n.scanSelectionChanges now) := by
  have hscan : Emits P n { n with routes := (n.routes.forEachSelectedChange now).1 } :=
    emits_of_quiet rfl (·.forEachSelectedChange now) (fun h => h) rfl
  unfold scanSelectionChanges
  dsimp only
  split
  · exact hscan.trans (Emits.foldl (emits_noteScopedChange now) _ _)
  · exact hscan

theorem emits_noteScopedUpdate : Emits P n (n.noteScopedUpdate peer records now) := by
  unfold noteScopedUpdate
  dsimp only
  split
  · exact .refl P n
  · split
    · split
      · exact emits_updateNeighbor n _ _
      · exact ((emits_updateNeighbor n _ _).trans (Emits.foldl emits_markScopedDirty _ _)).trans
          (emits_updateNeighbor _ _ _)
    · split
      · split
        · exact (emits_updateNeighbor n _ _).trans (Emits.foldl emits_markScopedDirty _ _)
        · exact emits_updateNeighbor n _ _
      · exact .refl P n

theorem emits_noteFlatGroupUpdate : Emits P n (n.noteFlatGroupUpdate peer records now) := by
  unfold noteFlatGroupUpdate
  split
  · exact .refl P n
  · exact emits_updateNeighbor n _ _

theorem emits_considerRecord (linkCost : RouteMetric) (now : MonotonicMs) (n : RouteNode cap σ)
    (record : RouteAdvertisement) : Emits P n (considerRecord peer linkCost now n record) := by
  unfold considerRecord
  split
  · exact .refl P n
  · exact emits_of_quiet rfl (·.consider record peer linkCost now _) (fun h => h) rfl

theorem emits_noteRestart (pairwise : Bool) : Emits P n (n.noteRestart peer now pairwise) := by
  refine Emits.trans ?_ (emits_updateNeighbor _ peer _)
  exact emits_of_quiet rfl (·.invalidateNextHop peer now false) (fun h => h) rfl

theorem emits_applyRouteRecords (peer : NodeId) (now : MonotonicMs) (pairwise : Bool) :
    Emits P n (n.applyRouteRecords records peer now pairwise) := by
  unfold applyRouteRecords
  split
  · exact .refl P n
  · split
    · exact .refl P n
    · dsimp only
      refine Emits.trans ?_ (Emits.foldl (emits_considerRecord _ _ _) _ _)
      refine Emits.trans ?_ (emits_noteFlatGroupUpdate _ _ _ _)
      refine Emits.trans ?_ (emits_noteScopedUpdate _ _ _ _)
      split
      · exact (emits_updateNeighbor n peer _).trans (emits_noteRestart _ peer now pairwise)
      · exact emits_updateNeighbor n peer _

end

/-! ## Route requests -/

theorem good_singleton (h : r.metric ≠ kInfiniteRouteMetric → n.routes.Tight r) : n.Good [r] := by
  intro r' hr' hc
  rw [mem_singleton.mp hr'] at hc ⊢
  exact h hc.2

theorem emits_queueRouteRequest (n : RouteNode cap σ) (peer : NodeId)
    (payload : RouteRequestPayload) (now : MonotonicMs) (h : n.Good [payload.record]) :
    Emits True n (n.queueRouteRequest S peer payload now).1 :=
  n.emits_enqueueFrame _ now (Good.covered h)

theorem emits_routeRequestForwardBudget (n : RouteNode cap σ) (now : MonotonicMs) :
    Emits P n (n.routeRequestForwardBudget now).1 := by
  unfold routeRequestForwardBudget
  dsimp only
  split
  · split
    · exact emits_of_quiet rfl (fun h => h) (fun h => h) rfl
    · exact emits_of_quiet rfl (fun h => h) (fun h => h) rfl
  · split
    · exact .refl P n
    · exact emits_of_quiet rfl (fun h => h) (fun h => h) rfl

theorem emits_handleDiscover (n : RouteNode cap σ) (request : RouteRequestPayload) (peer : NodeId)
    (now : MonotonicMs) : Emits True n (n.handleDiscover S request peer now) := by
  unfold handleDiscover
  split
  · exact n.emits_queueRouteRequest _ _ _ n.good_self
  · split
    · exact .refl _ n
    · have hbudget : Emits True n (n.routeRequestForwardBudget now).1 :=
        n.emits_routeRequestForwardBudget now
      split
      · rename_i heq
        rw [heq] at hbudget
        exact hbudget
      · rename_i m heq
        rw [heq] at hbudget
        dsimp only
        generalize m.discoverHop request.target peer = next
        split
        · exact hbudget
        · obtain ⟨ht, hr⟩ := m.scopedRecord_spec request.requester next
          refine (hbudget.trans ht.emits).trans (emits_queueRouteRequest _ _ _ _ ?_)
          refine good_singleton fun hfin => ?_
          cases ho : (m.scopedRecord request.requester next).2 with
          | none =>
            rw [ho] at hfin
            exact absurd rfl hfin
          | some record =>
            rw [ho] at hfin
            exact (hr record ho).2 hfin

theorem emits_handleReply (n : RouteNode cap σ) (request : RouteRequestPayload)
    (now : MonotonicMs) : Emits True n (n.handleReply S request now) := by
  unfold handleReply
  split
  · exact .refl _ n
  · split
    · exact .refl _ n
    · rename_i pointer _
      split
      · exact .refl _ n
      · obtain ⟨ht, hr⟩ := n.scopedRecord_spec request.target pointer.previousHop
        generalize n.scopedRecord request.target pointer.previousHop = res at ht hr
        obtain ⟨m, o⟩ := res
        cases o with
        | none => exact ht.emits
        | some record =>
          dsimp only
          split
          · exact ht.emits
          · exact ht.emits.trans (emits_queueRouteRequest _ _ _ _ (good_singleton (hr record rfl).2))

end RouteNode

end RouteLoom
