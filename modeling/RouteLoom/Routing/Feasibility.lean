import RouteLoom.Routing.Table

/-!
# What the table operations keep

Only `mark_advertised` and a higher origin generation move the feasible distance. Every other
operation on an entry forgets or reprices candidates, which `RouteEntry.Keeps` states once:
generation and feasible distance are unchanged, and no candidate appears that the predicate `P`
does not accept.

* `evaluateEntry_keeps`, `withdrawEntry_keeps`, `invalidateEntry_keeps`, `expireEntry_keeps`,
  `recost_keeps` : the forgetting operations
* `learn_keeps` : a learned candidate is the advertisement that was considered
* `chosen_live` : what is selected is a live candidate of the entry
-/

namespace RouteLoom

open Lib List

namespace RouteCandidate

/-- A withdrawn candidate: it waits for its lease to end with no finite metric left. -/
def Withdrawn (candidate : RouteCandidate) : Prop :=
  candidate.advertised = kInfiniteRouteMetric ∧ candidate.metric = kInfiniteRouteMetric

end RouteCandidate

namespace RouteEntry

/-- Every valid candidate is withdrawn or carries an advertisement that `P` accepts. -/
def Supported (P : NodeId → RouteSequence → RouteMetric → Prop) (entry : RouteEntry) : Prop :=
  ∀ i, (entry.candidates i).valid = true → (entry.candidates i).Withdrawn ∨
    P (entry.candidates i).nextHop (entry.candidates i).sequence (entry.candidates i).advertised

/-- From `e` to `e'` the route identity stays, and no candidate outside `P` appears. -/
structure Keeps (P : NodeId → RouteSequence → RouteMetric → Prop) (e e' : RouteEntry) : Prop where
  destination : e'.destination = e.destination
  generation : e'.generation = e.generation
  feasible : e'.feasible = e.feasible
  supported : e.Supported P → e'.Supported P

variable {P : NodeId → RouteSequence → RouteMetric → Prop}

theorem Keeps.refl (e : RouteEntry) : Keeps P e e :=
  ⟨rfl, rfl, rfl, fun h => h⟩

theorem Keeps.trans {e₁ e₂ e₃ : RouteEntry} (h₁ : Keeps P e₁ e₂) (h₂ : Keeps P e₂ e₃) : Keeps P e₁ e₃ :=
  ⟨h₂.destination.trans h₁.destination, h₂.generation.trans h₁.generation,
    h₂.feasible.trans h₁.feasible, fun h => h₂.supported (h₁.supported h)⟩

variable {e : RouteEntry} {c : RouteCandidate}

theorem Keeps.of_eq {e' : RouteEntry} (hd : e'.destination = e.destination)
    (hg : e'.generation = e.generation) (hf : e'.feasible = e.feasible)
    (hc : e'.candidates = e.candidates) : Keeps P e e' :=
  ⟨hd, hg, hf, fun h i hv => by rw [hc] at hv ⊢; exact h i hv⟩

theorem Keeps.of_update {e' : RouteEntry} {slot : Fin kRouteCandidatesPerDestination}
    (hd : e'.destination = e.destination) (hg : e'.generation = e.generation)
    (hf : e'.feasible = e.feasible) (hc : e'.candidates = Function.update e.candidates slot c)
    (hP : P c.nextHop c.sequence c.advertised) : Keeps P e e' := by
  refine ⟨hd, hg, hf, fun h i hv => ?_⟩
  rw [hc] at hv ⊢
  by_cases hi : i = slot
  · subst hi
    rw [Function.update_self]
    exact Or.inr hP
  · rw [Function.update_of_ne hi] at hv ⊢
    exact h i hv

theorem mem_candidateList : c ∈ e.candidateList ↔ ∃ i, e.candidates i = c := by
  simp [candidateList]

theorem rewriteCandidates_keeps (e : RouteEntry) (p : RouteCandidate → Bool)
    {f : RouteCandidate → RouteCandidate} (hf : ∀ c, (f c).valid = true → (f c).Withdrawn ∨
      ((f c).nextHop = c.nextHop ∧ (f c).sequence = c.sequence ∧ (f c).advertised = c.advertised ∧
        (c.Withdrawn → (f c).Withdrawn))) : Keeps P e (e.rewriteCandidates p f).1 := by
  refine ⟨rfl, rfl, rfl, fun h i hv => ?_⟩
  simp only [rewriteCandidates] at hv ⊢
  split at hv
  · rename_i hp
    rw [if_pos hp]
    rcases hf _ hv with hw | ⟨hn, hs, ha, hw⟩
    · exact Or.inl hw
    · rw [hn, hs, ha]
      exact (h i (Bool.and_eq_true_iff.mp hp).1).imp_left hw
  · rename_i hp
    rw [if_neg hp]
    exact h i hv

theorem armTombstone_keeps (e : RouteEntry) (dwell : UInt32) (now : MonotonicMs) :
    Keeps P e (e.armTombstone dwell now) := by
  unfold armTombstone
  split
  · exact .of_eq rfl rfl rfl rfl
  · exact .refl e

theorem requestIfLost_keeps (e : RouteEntry) (removed : Bool) : Keeps P e (e.requestIfLost removed) := by
  unfold requestIfLost
  split
  · exact .of_eq rfl rfl rfl rfl
  · exact .refl e

theorem switchTo_keeps (e : RouteEntry) (hop : NodeId) (now : MonotonicMs) : Keeps P e (e.switchTo hop now) :=
  .of_eq rfl rfl rfl rfl

/-! ## Selection -/

theorem betterOf_eq (selected candidate : RouteCandidate) :
    betterOf selected candidate = selected ∨ betterOf selected candidate = candidate := by
  simp only [betterOf]
  split
  · exact Or.inr rfl
  · split
    · exact Or.inr rfl
    · exact Or.inl rfl

/-- The best-candidate scan returns its accumulator or an element of the list. -/
theorem foldl_better_mem (l : List RouteCandidate) (selected : Option RouteCandidate)
    (h : l.foldl (fun s c => some (s.elim c (betterOf · c))) selected = some c) :
    selected = some c ∨ c ∈ l := by
  induction l generalizing selected with
  | nil => exact Or.inl h
  | cons a l ih =>
    rcases ih _ h with hs | hm
    · cases selected with
      | none => exact Or.inr (by simp_all)
      | some b =>
        rcases betterOf_eq b a with hb | hb
        · exact Or.inl (by simpa [hb] using hs)
        · exact Or.inr (by simp_all)
    · exact Or.inr (mem_cons_of_mem a hm)

theorem bestCandidate_live {exclude : NodeId} (h : e.bestCandidate exclude = some c) :
    c ∈ e.candidateList ∧ e.live c = true := by
  rcases foldl_better_mem _ _ h with hn | hm
  · cases hn
  · simp only [mem_filter, Bool.and_eq_true] at hm
    exact ⟨hm.1, hm.2.2⟩

theorem selectable_live {hop : NodeId} (h : e.selectable hop = some c) :
    c ∈ e.candidateList ∧ e.live c = true := by
  unfold selectable at h
  split at h
  · cases h
  · have hp := find?_some h
    exact ⟨mem_of_find?_eq_some h, (Bool.and_eq_true_iff.mp hp).2⟩

theorem chosen_live (h : e.chosen = some c) : c ∈ e.candidateList ∧ e.live c = true := by
  rcases Option.or_eq_some_iff.mp h with hs | ⟨_, hb⟩
  · exact selectable_live hs
  · exact bestCandidate_live hb

theorem select_valid (h : e.select.valid = true) :
    ∃ c ∈ e.candidateList, e.live c = true ∧ e.select =
      { destination := e.destination, nextHop := c.nextHop, generation := e.generation,
        sequence := c.sequence, metric := c.metric, valid := true } := by
  unfold select at h ⊢
  cases hc : e.chosen with
  | none => rw [hc] at h; cases h
  | some c =>
    obtain ⟨hm, hl⟩ := chosen_live hc
    exact ⟨c, hm, hl, rfl⟩

end RouteEntry

namespace RouteTable

open RouteEntry (Keeps)

variable {cap : Nat} (table : RouteTable cap) {P : NodeId → RouteSequence → RouteMetric → Prop}

variable (e : RouteEntry)

theorem improve_keeps (committed raw : RouteCandidate) (now : MonotonicMs) :
    Keeps P e (table.improve e committed raw now) := by
  simp only [improve]
  split
  · exact .of_eq rfl rfl rfl rfl
  · split
    · exact .of_eq rfl rfl rfl rfl
    · split
      · exact e.switchTo_keeps _ _
      · exact .refl e

theorem fastRepair_keeps (committed : RouteCandidate) (now : MonotonicMs) :
    Keeps P e (table.fastRepair e committed now) := by
  unfold fastRepair
  split
  · exact .refl e
  · split
    · exact e.switchTo_keeps _ _
    · exact .refl e

theorem evaluateEntry_keeps (now : MonotonicMs) : Keeps P e (table.evaluateEntry e now) := by
  unfold evaluateEntry
  split
  · exact .of_eq rfl rfl rfl rfl
  · split
    · exact table.fastRepair_keeps e _ now
    · split
      · exact .of_eq rfl rfl rfl rfl
      · split
        · exact .of_eq rfl rfl rfl rfl
        · dsimp only
          split
          · exact e.switchTo_keeps _ _
          · split
            · split
              · exact e.switchTo_keeps _ _
              · exact .refl e
            · exact table.improve_keeps e _ _ now

/-- The shared tail of every operation that may lose the selected candidate. -/
theorem settle_keeps {e e₁ : RouteEntry} (h : Keeps P e e₁) (removed : Bool) (now : MonotonicMs) :
    Keeps P e (table.evaluateEntry
      ((e₁.requestIfLost removed).armTombstone table.tombstoneDwellMs now) now) :=
  ((h.trans (e₁.requestIfLost_keeps removed)).trans (RouteEntry.armTombstone_keeps _ _ now)).trans
    (table.evaluateEntry_keeps _ now)

theorem withdrawEntry_keeps (hop : NodeId) (now : MonotonicMs) :
    Keeps P e (table.withdrawEntry e hop now).1 := by
  have hw : Keeps P e (e.rewriteCandidates (·.nextHop == hop) fun candidate =>
      { candidate with
        feasible := false, metric := kInfiniteRouteMetric,
        advertised := kInfiniteRouteMetric }).1 :=
    e.rewriteCandidates_keeps _ fun _ _ => Or.inl ⟨rfl, rfl⟩
  simp only [withdrawEntry]
  split
  · refine table.settle_keeps ?_ true now
    exact hw.trans (.of_eq rfl rfl rfl rfl)
  · exact hw

theorem forget_keeps (p : RouteCandidate → Bool) : Keeps P e (e.rewriteCandidates p fun _ => {}).1 :=
  e.rewriteCandidates_keeps p fun _ h => by cases h

theorem invalidateEntry_keeps (hop : NodeId) (now : MonotonicMs) (hold : Bool) :
    Keeps P e (table.invalidateEntry hop now hold e) := by
  have hw := forget_keeps (P := P) e (·.nextHop == hop)
  generalize hr : e.rewriteCandidates (·.nextHop == hop) (fun _ => {}) = r at hw
  simp only [invalidateEntry, hr]
  -- the hold-down is cleared or kept, then set or kept: no branch touches a candidate
  have hclear : ∀ b : Bool, Keeps P e
      (if b then { r.1 with holdNextHop := kInvalidNodeId, holdUntilMs := 0 } else r.1) := by
    intro b
    cases b with
    | false => exact hw
    | true => exact hw.trans (.of_eq rfl rfl rfl rfl)
  split
  · refine table.settle_keeps ?_ true now
    split
    · exact (hclear _).trans (.of_eq rfl rfl rfl rfl)
    · exact hclear _
  · exact hclear _

theorem expireEntry_keeps (now : MonotonicMs) : Keeps P e (table.expireEntry now e) := by
  have hw := forget_keeps (P := P) e (·.expiresAtMs ≤ now)
  simp only [expireEntry]
  split
  · exact table.settle_keeps hw _ now
  · exact hw.trans ((RouteEntry.requestIfLost_keeps _ _).trans (RouteEntry.armTombstone_keeps _ _ now))

theorem routeMetricAdd_infinite (cost : RouteMetric) :
    routeMetricAdd kInfiniteRouteMetric cost = kInfiniteRouteMetric := by
  simp [routeMetricAdd]

theorem recost_keeps (hop : NodeId) (cost : RouteMetric) (now : MonotonicMs) :
    Keeps P e (table.recost hop cost now e).1 := by
  have hw : Keeps P e (e.rewriteCandidates (·.nextHop == hop) fun candidate =>
      { candidate with
        metric := routeMetricAdd candidate.advertised cost
        feasible := routeMetricAdd candidate.advertised cost != kInfiniteRouteMetric &&
          e.isFeasible candidate.sequence candidate.advertised }).1 := by
    refine e.rewriteCandidates_keeps _ fun c _ => Or.inr ⟨rfl, rfl, rfl, fun h => ⟨h.1, ?_⟩⟩
    -- a withdrawn candidate stays infinite whatever the new cost is
    change routeMetricAdd c.advertised cost = _
    rw [h.1, routeMetricAdd_infinite]
  simp only [recost]
  split
  · exact hw.trans (table.evaluateEntry_keeps _ now)
  · exact hw

/-- Learning adds one candidate: the advertisement under consideration. -/
theorem learn_keeps (ad : RouteAdvertisement) (hop : NodeId) (link : RouteMetric) (now life : MonotonicMs)
    (hP : P hop ad.sequence ad.metric) : Keeps P e (table.learn e ad hop link now life).1 := by
  simp only [learn]
  split
  · exact .refl e
  · split
    · refine .trans ?_ (table.evaluateEntry_keeps _ now)
      exact .of_update rfl rfl rfl rfl hP
    · refine .trans ?_ (table.evaluateEntry_keeps _ now)
      exact .of_update rfl rfl rfl rfl hP

end RouteTable

/-! ## The order of feasible distances -/

/-- Sequence `q'` with metric `m'` is better than `q` with `m`: newer, or the same and smaller. -/
def Better (q' : RouteSequence) (m' : RouteMetric) (q : RouteSequence) (m : RouteMetric) : Prop :=
  Serial.newer q' q = true ∨ (q' = q ∧ m' < m)

/-- With a feasible distance, the feasibility test asks for something better. -/
theorem RouteEntry.isFeasible_iff {e : RouteEntry} {q : RouteSequence} {m : RouteMetric}
    (hv : e.feasible.valid = true) :
    e.isFeasible q m = true ↔ Better q m e.feasible.sequence e.feasible.metric := by
  simp only [isFeasible, routeSequenceNewer, hv, Bool.not_true, Bool.false_eq_true, if_false, Better]
  by_cases hn : Serial.newer q e.feasible.sequence = true
  · simp [hn]
  · by_cases ha : Serial.ambiguous q e.feasible.sequence = true
    · have hne : q ≠ e.feasible.sequence := by
        rintro rfl
        simp at ha
      simp [hn, ha, hne]
    · simp [hn, ha]

namespace RouteTable

theorem mark_test_iff {q q' : RouteSequence} {m m' : RouteMetric} :
    (Serial.newer q' q || (!Serial.ambiguous q' q && q' == q && decide (m' < m))) = true ↔
      Better q' m' q m := by
  simp only [Better, Bool.or_eq_true, Bool.and_eq_true, Bool.not_eq_eq_eq_not, Bool.not_true,
    beq_iff_eq, decide_eq_true_eq]
  refine or_congr_right ⟨fun ⟨⟨_, hq⟩, hm⟩ => ⟨hq, hm⟩, fun ⟨hq, hm⟩ => ⟨⟨?_, hq⟩, hm⟩⟩
  rw [hq, Serial.ambiguous_self]

/-- A first or better selection becomes the feasible distance. -/
theorem markEntry_of_better {e : RouteEntry} {sel : RouteSelection} (h : e.feasible.valid = false ∨
      Better sel.sequence sel.metric e.feasible.sequence e.feasible.metric) :
    markEntry e sel =
      { e with
        feasible := ⟨sel.sequence, sel.metric, true⟩
        lastSelected := LastSelection.from sel } := by
  simp only [markEntry, routeSequenceNewer]
  cases hv : e.feasible.valid with
  | false => simp
  | true =>
    have hb : Better sel.sequence sel.metric e.feasible.sequence e.feasible.metric := by
      simpa [hv] using h
    simp only [Bool.not_true, Bool.false_eq_true, if_false, mark_test_iff, hb, if_true]

theorem markEntry_of_not_better {e : RouteEntry} {sel : RouteSelection} (hv : e.feasible.valid = true)
    (h : ¬ Better sel.sequence sel.metric e.feasible.sequence e.feasible.metric) :
    markEntry e sel = { e with lastSelected := LastSelection.from sel } := by
  simp only [markEntry, routeSequenceNewer, hv, Bool.not_true, Bool.false_eq_true, if_false, mark_test_iff, h]

end RouteTable

/-! ## One table operation, seen at one destination -/

/-- What one table operation may do to the entry of destination `d`. `A hop ad` says which
advertisements a candidate may carry. -/
inductive EntryStep (A : NodeId → RouteAdvertisement → Prop) (d : NodeId) :
    Option RouteEntry → Option RouteEntry → Prop
  | absent : EntryStep A d none none
  | keep {e e' : RouteEntry} :
      RouteEntry.Keeps (fun hop q m => A hop ⟨d, e.generation, q, m⟩) e e' →
      EntryStep A d (some e) (some e')
  /-- a new entry, or one whose origin restarted: no feasible distance yet -/
  | restart {o : Option RouteEntry} {e' : RouteEntry} :
      (∀ e, o = some e → e.generation < e'.generation) → e'.feasible.valid = false →
      e'.Supported (fun hop q m => A hop ⟨d, e'.generation, q, m⟩) →
      EntryStep A d o (some e')
  | mark {e : RouteEntry} : e.select.valid = true →
      EntryStep A d (some e) (some (RouteTable.markEntry e e.select))

theorem EntryStep.refl (A : NodeId → RouteAdvertisement → Prop) (d : NodeId)
    (o : Option RouteEntry) : EntryStep A d o o := by
  cases o with
  | none => exact .absent
  | some e => exact .keep (.refl e)

/-- A step from an entry without feasible distance and candidates is a step from no entry. -/
theorem EntryStep.of_blank {A : NodeId → RouteAdvertisement → Prop} {d : NodeId}
    {e e' : RouteEntry} (h : EntryStep A d (some e) (some e')) (hf : e.feasible.valid = false)
    (hc : ∀ i, (e.candidates i).valid = false) : EntryStep A d none (some e') := by
  have hblank : ∀ P, e.Supported P := fun P i hv => by rw [hc i] at hv; cases hv
  cases h with
  | keep hk =>
    refine .restart (fun _ h => by cases h) (by rw [hk.feasible]; exact hf) ?_
    rw [hk.generation]
    exact hk.supported (hblank _)
  | restart _ hv hs => exact .restart (fun _ h => by cases h) hv hs
  | mark hv =>
    obtain ⟨c, hm, hl, _⟩ := RouteEntry.select_valid hv
    obtain ⟨i, rfl⟩ := RouteEntry.mem_candidateList.mp hm
    simp [RouteEntry.live, hc i] at hl

/-- A table operation, seen at every destination. -/
def TableStep {cap : Nat} (A : NodeId → RouteAdvertisement → Prop) (T T' : RouteTable cap) : Prop :=
  ∀ d, EntryStep A d (T.find d) (T'.find d)

namespace TableStep

variable {cap : Nat} {A : NodeId → RouteAdvertisement → Prop} {T : RouteTable cap}

theorem refl (A : NodeId → RouteAdvertisement → Prop) (T : RouteTable cap) : TableStep A T T :=
  fun d => .refl A d _

theorem of_map {f : RouteEntry → RouteEntry} (hf : ∀ P e, RouteEntry.Keeps P e (f e)) :
    TableStep A T { T with entries := T.entries.map f } := by
  intro d
  have hfind : RouteTable.find { T with entries := T.entries.map f } d = (T.find d).map f :=
    Pool.find_map fun e => by rw [(hf (fun _ _ _ => True) e).destination]
  rw [hfind]
  cases T.find d with
  | none => exact .absent
  | some e => exact .keep (hf _ e)

/-- A write to the slot where `dest` is found, or to any slot when it is not. -/
theorem of_set {dest : NodeId} {i : Fin cap} {e e' : RouteEntry}
    (hslot : (T.findSlot dest = some i ∧ T.entries.slots i = some e) ∨
      (T.findSlot dest = none ∧ T.entries.slots i = none)) (hdest : e'.destination = dest)
    (hstep : EntryStep A dest (T.find dest) (some e')) :
    TableStep A T { T with entries := T.entries.set i e' } := by
  intro d
  by_cases hd : d = dest
  · subst hd
    have hfind : RouteTable.find { T with entries := T.entries.set i e' } d = some e' := by
      rcases hslot with ⟨hi, _⟩ | ⟨hn, _⟩
      · exact Pool.find_set_hit hi (by simp [hdest])
      · exact Pool.find_set_fresh (Pool.findIdx_isSome_iff.mp hn) (by simp [hdest])
    rw [hfind]
    exact hstep
  · have hfind : RouteTable.find { T with entries := T.entries.set i e' } d = T.find d := by
      refine Pool.find_set_miss ?_ (by simpa [hdest] using fun h => hd h.symm)
      rcases hslot with ⟨hi, he⟩ | ⟨_, he⟩
      · obtain ⟨a, ha, hp⟩ := Pool.findIdx_some hi
        rw [ha] at he ⊢
        have hda : a.destination = dest := by simpa using hp
        simpa [hda] using fun h => hd h.symm
      · rw [he]
        rfl
    rw [hfind]
    exact .refl A d _

end TableStep

namespace RouteTable

variable {cap : Nat} (table : RouteTable cap) {A : NodeId → RouteAdvertisement → Prop}

theorem findSlot_some {d : NodeId} {i : Fin cap} (h : table.findSlot d = some i) :
    ∃ e, table.entries.slots i = some e ∧ e.destination = d ∧ table.find d = some e := by
  obtain ⟨e, he, hp⟩ := Pool.findIdx_some h
  exact ⟨e, he, by simpa using hp, (Pool.find_eq_of_findIdx h).trans he⟩

theorem evaluate_step (now : MonotonicMs) : TableStep A table (table.evaluate now) :=
  .of_map fun _ e => table.evaluateEntry_keeps e now

theorem updateLinkCost_step (hop : NodeId) (cost : RouteMetric) (now : MonotonicMs) :
    TableStep A table (table.updateLinkCost hop cost now).1 := by
  unfold updateLinkCost
  split
  · exact .refl A table
  · exact .of_map fun _ e => table.recost_keeps e hop cost now

theorem invalidateNextHop_step (hop : NodeId) (now : MonotonicMs) (hold : Bool) :
    TableStep A table (table.invalidateNextHop hop now hold) :=
  .of_map fun _ e => table.invalidateEntry_keeps e hop now hold

theorem expire_step (now : MonotonicMs) (h : ∀ e ∈ table.entries, collectable now e = false) :
    TableStep A table (table.expire now).1 := by
  unfold expire
  rw [Pool.eraseIf_eq_self h]
  exact .of_map fun _ e => table.expireEntry_keeps e now

theorem withdraw_step (d hop : NodeId) (now : MonotonicMs) :
    TableStep A table (table.withdraw d hop now).1 := by
  unfold withdraw
  cases hi : table.findSlot d with
  | none => exact .refl A table
  | some i =>
    obtain ⟨e, he, hd, hfind⟩ := table.findSlot_some hi
    simp only [he]
    have hk := fun P => table.withdrawEntry_keeps (P := P) e hop now
    refine .of_set (Or.inl ⟨hi, he⟩) ((hk fun _ _ _ => True).destination.trans hd) ?_
    rw [hfind]
    exact .keep (hk _)

theorem markAdvertised_step (d : NodeId) : TableStep A table (table.markAdvertised d).1 := by
  unfold markAdvertised
  cases hi : table.findSlot d with
  | none => exact .refl A table
  | some i =>
    obtain ⟨e, he, hd, hfind⟩ := table.findSlot_some hi
    simp only [he]
    split
    · rename_i hv
      refine .of_set (Or.inl ⟨hi, he⟩) hd ?_
      rw [hfind]
      exact .mark hv
    · exact .refl A table

/-- A write to the slot where `dest` is found, read back at every destination. -/
theorem find_set_found {dest : NodeId} {i : Fin cap} {e' : RouteEntry}
    (hi : table.findSlot dest = some i) (hdest : e'.destination = dest) (d : NodeId) :
    RouteTable.find { table with entries := table.entries.set i e' } d =
      if d = dest then some e' else table.find d := by
  split
  · rename_i hd
    subst hd
    exact Pool.find_set_hit hi (by simp [hdest])
  · rename_i hd
    obtain ⟨e, he, hde, _⟩ := table.findSlot_some hi
    refine Pool.find_set_miss ?_ (by simpa [hdest] using fun h => hd h.symm)
    rw [he]
    simpa [hde] using fun h => hd h.symm

/-- A write of a new destination to a free slot, read back at every destination. -/
theorem find_set_free {dest : NodeId} {i : Fin cap} {e' : RouteEntry} (hnone : table.findSlot dest = none)
    (hfree : table.entries.slots i = none) (hdest : e'.destination = dest) (d : NodeId) :
    RouteTable.find { table with entries := table.entries.set i e' } d =
      if d = dest then some e' else table.find d := by
  split
  · rename_i hd
    subst hd
    exact Pool.find_set_fresh (Pool.findIdx_isSome_iff.mp hnone) (by simp [hdest])
  · rename_i hd
    refine Pool.find_set_miss ?_ (by simpa [hdest] using fun h => hd h.symm)
    rw [hfree]
    rfl

theorem find_markAdvertised (dest d : NodeId) :
    (table.markAdvertised dest).1.find d =
      if d = dest then (table.find d).map fun e => if e.select.valid then markEntry e e.select else e
      else table.find d := by
  unfold markAdvertised
  cases hi : table.findSlot dest with
  | none =>
    have hnone : table.find dest = none := Pool.findIdx_isSome_iff.mp hi
    by_cases hd : d = dest
    · simp [hd, hnone]
    · simp [hd]
  | some i =>
    obtain ⟨e, he, hde, hfind⟩ := table.findSlot_some hi
    simp only [he]
    by_cases hv : e.select.valid = true
    · rw [if_pos hv, table.find_set_found hi (by exact hde : (markEntry e e.select).destination = _)]
      by_cases hd : d = dest
      · simp [hd, hfind, hv]
      · simp [hd]
    · rw [if_neg hv]
      by_cases hd : d = dest
      · simp [hd, hfind, hv]
      · simp [hd]

theorem find_setAnnouncedUp (dest : NodeId) (b : Bool) (d : NodeId) :
    (table.setAnnouncedUp dest b).find d =
      if d = dest then (table.find d).map fun e => { e with announcedUp := b }
      else table.find d := by
  unfold setAnnouncedUp
  cases hi : table.findSlot dest with
  | none =>
    have hnone : table.find dest = none := Pool.findIdx_isSome_iff.mp hi
    by_cases hd : d = dest
    · simp [hd, hnone]
    · simp [hd]
  | some i =>
    obtain ⟨e, he, hde, hfind⟩ := table.findSlot_some hi
    simp only [he]
    rw [table.find_set_found hi (by exact hde : ({ e with announcedUp := b } : RouteEntry).destination = _)]
    by_cases hd : d = dest
    · simp [hd, hfind]
    · simp [hd]

theorem noteNextHopBusy_step (hop : NodeId) (since : MonotonicMs) :
    TableStep A table (table.noteNextHopBusy hop since) := by
  unfold noteNextHopBusy
  split
  · exact .refl A table
  · split
    · exact .refl A table
    · split
      · exact .refl A table
      · exact .refl A table

theorem clearNextHopBusy_step (hop : NodeId) : TableStep A table (table.clearNextHopBusy hop) := by
  unfold clearNextHopBusy
  split
  · exact .refl A table
  · exact .refl A table

theorem applyAdvertisement_keeps {P : NodeId → RouteSequence → RouteMetric → Prop}
    (e : RouteEntry) (ad : RouteAdvertisement) (hop : NodeId) (link : RouteMetric)
    (now life : MonotonicMs) (hP : ad.metric ≠ kInfiniteRouteMetric → P hop ad.sequence ad.metric) :
    RouteEntry.Keeps P e (table.applyAdvertisement e ad hop link now life).1 := by
  unfold applyAdvertisement
  split
  · exact table.withdrawEntry_keeps e hop now
  · rename_i hm
    exact table.learn_keeps e ad hop link now life (hP (by simpa using hm))

theorem considerEntry_step (e : RouteEntry) (ad : RouteAdvertisement) (hop : NodeId)
    (link : RouteMetric) (now life : MonotonicMs) (hA : ad.metric ≠ kInfiniteRouteMetric → A hop ad) :
    EntryStep A ad.destination (some e) (some (table.considerEntry e ad hop link now life).1) := by
  have apply : ∀ current : RouteEntry, current.generation = ad.generation →
      RouteEntry.Keeps (fun h q m => A h ⟨ad.destination, current.generation, q, m⟩) current
        (table.applyAdvertisement current ad hop link now life).1 := by
    intro current hg
    refine table.applyAdvertisement_keeps current ad hop link now life fun hm => ?_
    rw [hg]
    exact hA hm
  unfold considerEntry
  split
  · exact .refl A _ _
  · rename_i hge
    split
    · rename_i hgt
      have hk := apply (restartEntry e ad.generation) rfl
      refine .restart ?_ ?_ ?_
      · rintro _ ⟨⟩
        rw [hk.generation]
        exact hgt
      · rw [hk.feasible]
        rfl
      · rw [hk.generation]
        exact hk.supported fun i hv => by cases hv
    · rename_i hgt
      have hg : e.generation = ad.generation :=
        UInt32.le_antisymm (UInt32.not_lt.mp hge) (UInt32.not_lt.mp hgt)
      exact .keep (apply e hg)

theorem considerEntry_destination (e : RouteEntry) (ad : RouteAdvertisement) (hop : NodeId)
    (link : RouteMetric) (now life : MonotonicMs) :
    (table.considerEntry e ad hop link now life).1.destination = e.destination := by
  have apply := fun current => (table.applyAdvertisement_keeps (P := fun _ _ _ => True) current ad
    hop link now life fun _ => trivial).destination
  unfold considerEntry
  split
  · rfl
  · split
    · exact apply (restartEntry e ad.generation)
    · exact apply e

/-- A consideration works on the entry of its destination, or on a new one in a free slot. -/
theorem consider_cases (ad : RouteAdvertisement) (hop : NodeId) (link : RouteMetric) (now life : MonotonicMs) :
    (table.consider ad hop link now life).1 = table ∨
      link ≠ 0 ∧ ∃ i e, (table.findSlot ad.destination = some i ∧ table.entries.slots i = some e ∨
          table.findSlot ad.destination = none ∧ table.entries.slots i = none ∧
            e = { destination := ad.destination }) ∧
        (table.consider ad hop link now life).1 = { table with
          entries := table.entries.set i (table.considerEntry e ad hop link now life).1 } := by
  unfold consider
  split
  · exact .inl rfl
  · rename_i hvalid
    have hlink : link ≠ 0 := by
      rintro rfl
      simp at hvalid
    dsimp only
    split
    · exact .inl rfl
    · rename_i i e hfound
      refine .inr ⟨hlink, i, e, ?_, rfl⟩
      split at hfound
      · obtain ⟨j, hj, hm⟩ := Option.bind_eq_some_iff.mp hfound
        obtain ⟨e₁, he₁, heq⟩ := Option.map_eq_some_iff.mp hm
        cases heq
        exact .inl ⟨hj, he₁⟩
      · unfold findOrAllocate at hfound
        split at hfound
        · cases hfound
        · split at hfound
          · rename_i j hj
            obtain ⟨e₁, he₁, heq⟩ := Option.map_eq_some_iff.mp hfound
            cases heq
            exact .inl ⟨hj, he₁⟩
          · rename_i hnone
            obtain ⟨j, hj, heq⟩ := Option.map_eq_some_iff.mp hfound
            cases heq
            exact .inr ⟨hnone, by simpa using firstSlot_some hj, rfl⟩

theorem consider_step (ad : RouteAdvertisement) (hop : NodeId) (link : RouteMetric)
    (now life : MonotonicMs) (hA : ad.metric ≠ kInfiniteRouteMetric → A hop ad) :
    TableStep A table (table.consider ad hop link now life).1 := by
  rcases table.consider_cases ad hop link now life with heq | ⟨-, i, e, hslot, heq⟩
  · rw [heq]
    exact .refl A table
  · rw [heq]
    rcases hslot with ⟨hi, he⟩ | ⟨hnone, hfree, rfl⟩
    · obtain ⟨e₀, he₀, hd, hfind⟩ := table.findSlot_some hi
      rw [he] at he₀
      cases he₀
      refine .of_set (Or.inl ⟨hi, he⟩) ((table.considerEntry_destination e ad hop link now life).trans hd) ?_
      rw [hfind]
      exact table.considerEntry_step e ad hop link now life hA
    · refine .of_set (e := default) (Or.inr ⟨hnone, hfree⟩)
        (table.considerEntry_destination _ ad hop link now life) ?_
      rw [show table.find ad.destination = none from Pool.findIdx_isSome_iff.mp hnone]
      exact (table.considerEntry_step { destination := ad.destination } ad hop link now life
        hA).of_blank rfl fun _ => rfl

/-! ## One entry per destination -/

/-- No destination has two entries. -/
def UniqueKeys (table : RouteTable cap) : Prop :=
  table.entries.KeyUnique RouteEntry.destination

variable {table}

section

variable (h : table.UniqueKeys)
include h

theorem UniqueKeys.map {f : RouteEntry → RouteEntry} (hf : ∀ e, (f e).destination = e.destination) :
    UniqueKeys { table with entries := table.entries.map f } :=
  Pool.KeyUnique.map h hf

theorem UniqueKeys.consider (ad : RouteAdvertisement) (hop : NodeId) (link : RouteMetric)
    (now life : MonotonicMs) : (table.consider ad hop link now life).1.UniqueKeys := by
  rcases table.consider_cases ad hop link now life with heq | ⟨-, i, e, hslot, heq⟩
  · rw [heq]
    exact h
  · rw [heq]
    have hdest := table.considerEntry_destination e ad hop link now life
    rcases hslot with ⟨-, he⟩ | ⟨hnone, -, rfl⟩
    · exact Pool.KeyUnique.set_same h he hdest
    · refine Pool.KeyUnique.set h fun j b _ hb hk => ?_
      have := Pool.findIdx_none.mp hnone b ⟨j, hb⟩
      simp [hk, hdest] at this

theorem UniqueKeys.markAdvertised (d : NodeId) : (table.markAdvertised d).1.UniqueKeys := by
  unfold RouteTable.markAdvertised
  split
  · exact h
  · split
    · exact h
    · rename_i he
      split
      · exact Pool.KeyUnique.set_same h he rfl
      · exact h

theorem UniqueKeys.setAnnouncedUp (d : NodeId) (b : Bool) : (table.setAnnouncedUp d b).UniqueKeys := by
  unfold RouteTable.setAnnouncedUp
  split
  · exact h
  · split
    · exact h
    · rename_i he
      exact Pool.KeyUnique.set_same h he rfl

theorem UniqueKeys.evaluate (now : MonotonicMs) : (table.evaluate now).UniqueKeys :=
  h.map fun e => (table.evaluateEntry_keeps (P := fun _ _ _ => True) e now).destination

theorem UniqueKeys.updateLinkCost (hop : NodeId) (cost : RouteMetric) (now : MonotonicMs) :
    (table.updateLinkCost hop cost now).1.UniqueKeys := by
  unfold RouteTable.updateLinkCost
  split
  · exact h
  · exact h.map fun e => (table.recost_keeps (P := fun _ _ _ => True) e hop cost now).destination

theorem UniqueKeys.invalidateNextHop (hop : NodeId) (now : MonotonicMs) (hold : Bool) :
    (table.invalidateNextHop hop now hold).UniqueKeys :=
  h.map fun e => (table.invalidateEntry_keeps (P := fun _ _ _ => True) e hop now hold).destination

theorem UniqueKeys.expire (now : MonotonicMs) : (table.expire now).1.UniqueKeys :=
  (Pool.KeyUnique.eraseIf h _).map fun e =>
    (table.expireEntry_keeps (P := fun _ _ _ => True) e now).destination

theorem UniqueKeys.withdraw (d hop : NodeId) (now : MonotonicMs) :
    (table.withdraw d hop now).1.UniqueKeys := by
  unfold RouteTable.withdraw
  split
  · exact h
  · split
    · exact h
    · rename_i e he
      exact Pool.KeyUnique.set_same h he
        (table.withdrawEntry_keeps (P := fun _ _ _ => True) e hop now).destination

theorem UniqueKeys.reclaimTombstone : table.reclaimTombstone.1.UniqueKeys := by
  unfold RouteTable.reclaimTombstone
  dsimp only
  split
  · exact h
  · exact Pool.KeyUnique.release h _

theorem UniqueKeys.noteNextHopBusy (hop : NodeId) (since : MonotonicMs) :
    (table.noteNextHopBusy hop since).UniqueKeys := by
  unfold RouteTable.noteNextHopBusy
  split
  · exact h
  · split
    · exact h
    · split
      · exact h
      · exact h

theorem UniqueKeys.clearNextHopBusy (hop : NodeId) : (table.clearNextHopBusy hop).UniqueKeys := by
  unfold RouteTable.clearNextHopBusy
  split
  · exact h
  · exact h

omit h in
theorem selectedChange_destination (now : MonotonicMs) (e : RouteEntry) :
    (selectedChange now e).1.destination = e.destination := by
  unfold selectedChange
  dsimp only
  split
  · rfl
  · split
    · rfl
    · rfl

theorem UniqueKeys.forEachSelectedChange (now : MonotonicMs) :
    (table.forEachSelectedChange now).1.UniqueKeys :=
  h.map (selectedChange_destination now)

/-- With one entry per destination, an entry of the table is what a lookup finds. -/
theorem UniqueKeys.find_eq {e : RouteEntry} (he : e ∈ table.entries) : table.find e.destination = some e :=
  Pool.KeyUnique.find_eq h he

end

end RouteTable

end RouteLoom
