import RouteLoom.Routing.TableRuns

/-!
# Advertising a route does not move it

`mark_advertised` takes the selected route as the new feasible distance, against which every
candidate is tested again when the table is read. The selected candidate passes that test, because
its metric is the advertised one plus a link cost that is never zero. A candidate that passes it was
selectable before, as long as the sequences in use lie in one half space.

* `RouteCandidate.Priced` : the metric exceeds the advertised one
* `select_markEntry` : the selection after the mark
* `advertising_keeps_routes` : any number of advertisements leave every route as it was
-/

namespace RouteLoom

open Lib List

variable {cap : Nat}

/-! ## Prices -/

/-- A finite metric includes the cost of a link. -/
def RouteCandidate.Priced (c : RouteCandidate) : Prop :=
  c.metric ≠ kInfiniteRouteMetric → c.advertised < c.metric

def RouteEntry.Priced (e : RouteEntry) : Prop :=
  ∀ i, (e.candidates i).Priced

theorem lt_routeMetricAdd {advertised cost : RouteMetric} (hcost : cost ≠ 0)
    (hfinite : routeMetricAdd advertised cost ≠ kInfiniteRouteMetric) :
    advertised < routeMetricAdd advertised cost := by
  unfold routeMetricAdd at hfinite ⊢
  split at hfinite
  · exact absurd rfl hfinite
  · rename_i hmetric
    rw [if_neg hmetric]
    dsimp only at hfinite ⊢
    split at hfinite
    · exact absurd rfl hfinite
    · rename_i hsum
      rw [if_neg hsum]
      have ha := advertised.toNat_lt
      have hc := cost.toNat_lt
      have hpos : 0 < cost.toNat := Nat.pos_of_ne_zero fun h => hcost (UInt16.toNat_inj.mp h)
      have hlt : (advertised.toUInt32 + cost.toUInt32).toNat < 65535 := by
        rw [ge_iff_le, UInt32.not_le, UInt32.lt_iff_toNat_lt] at hsum
        exact hsum
      rw [UInt32.toNat_add, UInt16.toNat_toUInt32, UInt16.toNat_toUInt32] at hlt
      rw [UInt16.lt_iff_toNat_lt, UInt32.toNat_toUInt16, UInt32.toNat_add, UInt16.toNat_toUInt32,
        UInt16.toNat_toUInt32]
      omega

theorem Recast.priced {c c' : RouteCandidate} (h : Recast c c') (hp : c.Priced) : c'.Priced := by
  cases h with
  | same => exact hp
  | dropped | withdrawn => exact fun hfinite => absurd rfl hfinite
  | repriced feasible hcost => exact lt_routeMetricAdd hcost

theorem Edit.priced {dwell : UInt32} {now : MonotonicMs} {e e' : RouteEntry} (h : Edit dwell now e e')
    (hp : e.Priced) : e'.Priced := by
  intro i
  cases h.candidates with
  | each hall => exact (hall i).priced (hp i)
  | learned hop hlink heq =>
    rw [heq]
    by_cases hi : i = e.candidateSlot hop
    · rw [hi, Function.update_self]
      exact lt_routeMetricAdd hlink
    · rw [Function.update_of_ne hi]
      exact hp i

theorem Shift.priced {table : RouteTable cap} {now : MonotonicMs} {e e' : RouteEntry}
    (h : Shift table now e e') (hp : e.Priced) : e'.Priced := by
  cases h with
  | edited hedit => exact hedit.priced hp
  | evaluated hedit =>
    intro i
    rw [(table.evaluateEntry_decides _ now).candidates]
    exact hedit.priced hp i

theorem Touched.priced {table : RouteTable cap} {d : NodeId} {ev : TableEvent} {o o' : Option RouteEntry}
    (h : Touched table d ev o o') (hp : ∀ e ∈ o, e.Priced) : ∀ e ∈ o', e.Priced := by
  have hblank : ∀ e : RouteEntry, (∀ i, e.candidates i = {}) → e.Priced := by
    intro e he i
    rw [he i]
    exact fun hfinite => absurd rfl hfinite
  cases h with
  | absent => simp
  | noted e last adMs up => simpa [RouteEntry.Priced] using hp
  | shifted hnow hshift =>
    rintro _ ⟨⟩
    exact hshift.priced (hp _ rfl)
  | restarted hnow hnewer hshift | created hnow hshift =>
    rintro _ ⟨⟩
    exact hshift.priced (hblank _ fun _ => rfl)
  | marked hvalid => simpa [RouteEntry.Priced, RouteTable.markEntry] using hp
  | expired hdue => simp
  | reclaimed => simp

theorem priced_of_run {table : RouteTable cap} {h : List Unit} (hr : (tableMachine cap).Run table h) :
    table.UniqueKeys ∧ ∀ d, ∀ e ∈ table.find d, e.Priced := by
  refine Machine.Run.invariant (M := tableMachine cap)
    (I := fun table _ => table.UniqueKeys ∧ ∀ d, ∀ e ∈ table.find d, e.Priced) (fun table hinit => ?_)
    (fun table _ ev ⟨hu, hp⟩ _ => ⟨ev.uniqueKeys hu, fun d => (ev.touched hu d).priced (hp d)⟩) hr
  cases hinit
  exact ⟨uniqueKeys_empty, fun d e he => by simp [RouteTable.find] at he⟩

/-! ## One half space -/

/-- The sequences that the entry compares lie in one half of the sequence space. -/
def RouteEntry.InHalf (e : RouteEntry) : Prop :=
  ∃ base, (e.feasible.valid = true → Serial.InHalf base e.feasible.sequence) ∧
    ∀ i, (e.candidates i).valid = true → Serial.InHalf base (e.candidates i).sequence

variable {base : RouteSequence}

theorem Better.trans {q₁ q₂ q₃ : RouteSequence} {m₁ m₂ m₃ : RouteMetric}
    (h₁ : Serial.InHalf base q₁) (h₂ : Serial.InHalf base q₂) (h₃ : Serial.InHalf base q₃)
    (h : Better q₁ m₁ q₂ m₂) (h' : Better q₂ m₂ q₃ m₃) : Better q₁ m₁ q₃ m₃ := by
  unfold Better at *
  rw [Serial.newer_iff_offset_lt h₁ h₂] at h
  rw [Serial.newer_iff_offset_lt h₂ h₃] at h'
  rw [Serial.newer_iff_offset_lt h₁ h₃]
  rcases h with hn | ⟨rfl, hm⟩
  · rcases h' with hn' | ⟨rfl, -⟩
    · exact .inl (Nat.lt_trans hn' hn)
    · exact .inl hn
  · rcases h' with hn' | ⟨rfl, hm'⟩
    · exact .inl hn'
    · exact .inr ⟨rfl, UInt16.lt_trans hm hm'⟩

/-- The rank of a candidate: newer sequences first, then smaller metrics. -/
def RouteCandidate.rank (base : RouteSequence) (c : RouteCandidate) : Nat :=
  Serial.offset base c.sequence * 65536 + (65535 - c.metric.toNat)

theorem betterOf_eq_rank {x y : RouteCandidate} (hx : Serial.InHalf base x.sequence)
    (hy : Serial.InHalf base y.sequence) :
    RouteEntry.betterOf x y = if x.rank base < y.rank base then y else x := by
  have hmx := x.metric.toNat_lt
  have hmy := y.metric.toNat_lt
  have hiff : (Serial.newer y.sequence x.sequence = true ∨ y.sequence = x.sequence ∧ y.metric < x.metric) ↔
      x.rank base < y.rank base := by
    unfold RouteCandidate.rank
    rw [Serial.newer_iff_offset_lt hy hx, UInt16.lt_iff_toNat_lt]
    constructor
    · rintro (hlt | ⟨heq, hlt⟩)
      · omega
      · rw [heq]
        omega
    · intro hlt
      by_cases heq : Serial.offset base y.sequence = Serial.offset base x.sequence
      · rw [heq] at hlt
        exact .inr ⟨Serial.offset_inj heq, by omega⟩
      · exact .inl (by omega)
  unfold RouteEntry.betterOf
  dsimp only [routeSequenceNewer]
  rw [Serial.not_ambiguous hy hx]
  by_cases hnewer : Serial.newer y.sequence x.sequence = true
  · rw [if_pos hnewer, if_pos (hiff.mp (.inl hnewer))]
  · rw [if_neg hnewer]
    by_cases hsame : y.sequence = x.sequence ∧ y.metric < x.metric
    · rw [if_pos (by simp [hsame.1, hsame.2]), if_pos (hiff.mp (.inr hsame))]
    · rw [if_neg (by simpa using hsame), if_neg fun hlt => ?_]
      rcases hiff.mpr hlt with h | h
      · exact hnewer h
      · exact hsame h

/-! ## The selection after a mark -/

/-- Among fewer elements, the first that is accepted is still the first. -/
theorem find?_of_imp {α : Type} {l : List α} {p q : α → Bool} {c : α} (h : l.find? p = some c)
    (hc : q c = true) (himp : ∀ x ∈ l, q x = true → p x = true) : l.find? q = some c := by
  rw [find?_eq_some_iff_append] at h ⊢
  obtain ⟨_, as, bs, rfl, has⟩ := h
  refine ⟨hc, as, bs, rfl, fun x hx => ?_⟩
  have hnot := has x hx
  rw [Bool.not_eq_true'] at hnot ⊢
  refine Bool.eq_false_iff.mpr fun hq => ?_
  rw [himp x (mem_append_left _ hx) hq] at hnot
  cases hnot

namespace RouteEntry

variable {e : RouteEntry} {c : RouteCandidate}

/-- The entry with the candidate `c` as its feasible distance. -/
def tightened (e : RouteEntry) (c : RouteCandidate) : RouteEntry :=
  { e with feasible := ⟨c.sequence, c.metric, true⟩ }

theorem live_tightened_self (hp : c.Priced) (hl : e.live c = true) : (e.tightened c).live c = true := by
  simp only [live, Bool.and_eq_true, bne_iff_ne] at hl ⊢
  refine ⟨hl.1, ?_⟩
  rw [isFeasible_iff rfl]
  exact .inr ⟨rfl, hp hl.1.2⟩

/-- A candidate that passes the tighter test passed the old one. -/
theorem live_of_tightened (hhalf : e.feasible.valid = true → Serial.InHalf base e.feasible.sequence)
    (hbetter : e.feasible.valid = false ∨ Better c.sequence c.metric e.feasible.sequence e.feasible.metric)
    (hc : Serial.InHalf base c.sequence) {x : RouteCandidate} (hx : Serial.InHalf base x.sequence)
    (hp : x.Priced) (hl : (e.tightened c).live x = true) : e.live x = true := by
  simp only [live, Bool.and_eq_true, bne_iff_ne] at hl ⊢
  refine ⟨hl.1, ?_⟩
  have htight := (isFeasible_iff (e := e.tightened c) rfl).mp hl.2
  cases hv : e.feasible.valid with
  | false =>
    have hlt := hp hl.1.2
    unfold isFeasible
    rw [hv]
    simp only [Bool.not_false, if_true, bne_iff_ne, ne_eq]
    intro hinf
    rw [hinf, UInt16.lt_iff_toNat_lt] at hlt
    have := x.metric.toNat_lt
    have hmax : kInfiniteRouteMetric.toNat = 65535 := rfl
    omega
  | true =>
    rw [isFeasible_iff hv]
    rw [hv] at hbetter
    exact htight.trans hx hc (hhalf hv) (hbetter.resolve_left (by simp))

theorem bestCandidate_eq_foldl (e : RouteEntry) (exclude : NodeId) :
    e.bestCandidate exclude = (e.candidateList.filter fun candidate =>
      candidate.nextHop != exclude && e.live candidate).foldl (pickStep betterOf) none := rfl

theorem chosen_tightened (hprices : e.Priced)
    (hfd : e.feasible.valid = true → Serial.InHalf base e.feasible.sequence)
    (hall : ∀ i, (e.candidates i).valid = true → Serial.InHalf base (e.candidates i).sequence)
    (hbetter : e.feasible.valid = false ∨ Better c.sequence c.metric e.feasible.sequence e.feasible.metric)
    (hc : e.chosen = some c) : (e.tightened c).chosen = some c := by
  obtain ⟨hmem, hl⟩ := chosen_live hc
  have hhalf : ∀ x ∈ e.candidateList, x.valid = true → Serial.InHalf base x.sequence := by
    intro x hx hv
    obtain ⟨i, rfl⟩ := mem_candidateList.mp hx
    exact hall i hv
  have hpriced : ∀ x ∈ e.candidateList, x.Priced := by
    intro x hx
    obtain ⟨i, rfl⟩ := mem_candidateList.mp hx
    exact hprices i
  have hvalid : ∀ (e' : RouteEntry) x, e'.live x = true → x.valid = true := by
    intro e' x hx
    simp only [live, Bool.and_eq_true] at hx
    exact hx.1.1.1
  have hself := live_tightened_self (hpriced c hmem) hl
  have himp : ∀ x ∈ e.candidateList, (e.tightened c).live x = true → e.live x = true := fun x hx hx' =>
    live_of_tightened hfd hbetter (hhalf c hmem (hvalid e c hl)) (hhalf x hx (hvalid _ x hx'))
      (hpriced x hx) hx'
  unfold chosen at hc ⊢
  cases hs : e.selectable e.committedNextHop with
  | some c' =>
    rw [hs] at hc
    cases hc
    have hs' : (e.tightened c).selectable e.committedNextHop = some c := by
      unfold selectable at hs ⊢
      split at hs
      · cases hs
      · rename_i hne
        rw [if_neg hne]
        have hhop := find?_some hs
        rw [Bool.and_eq_true] at hhop
        refine find?_of_imp hs (by rw [hhop.1, hself]; rfl) fun x hx hx' => ?_
        rw [Bool.and_eq_true] at hx' ⊢
        exact ⟨hx'.1, himp x hx hx'.2⟩
    show ((e.tightened c).selectable e.committedNextHop).or _ = some c
    rw [hs']
    rfl
  | none =>
    rw [hs, Option.none_or] at hc
    have hs' : (e.tightened c).selectable e.committedNextHop = none := by
      unfold selectable at hs ⊢
      split
      · rfl
      · rename_i hne
        rw [if_neg hne, find?_eq_none] at hs
        refine find?_eq_none.mpr fun x hx hx' => hs x hx ?_
        rw [Bool.and_eq_true] at hx' ⊢
        exact ⟨hx'.1, himp x hx hx'.2⟩
    show ((e.tightened c).selectable e.committedNextHop).or ((e.tightened c).bestCandidate _) = some c
    rw [hs', Option.none_or]
    rw [bestCandidate_eq_foldl] at hc ⊢
    have hprefers : Prefers betterOf (RouteCandidate.rank base) (e.candidateList.filter fun candidate =>
        candidate.nextHop != kInvalidNodeId && e.live candidate) := by
      intro x hx y hy
      rw [mem_filter, Bool.and_eq_true] at hx hy
      exact betterOf_eq_rank (hhalf x hx.1 (hvalid e x hx.2.2)) (hhalf y hy.1 (hvalid e y hy.2.2))
    have hfilter : ((e.tightened c).candidateList.filter fun candidate =>
        candidate.nextHop != kInvalidNodeId && (e.tightened c).live candidate) =
        (e.candidateList.filter fun candidate =>
          candidate.nextHop != kInvalidNodeId && e.live candidate).filter (e.tightened c).live := by
      rw [filter_filter]
      refine filter_congr fun x hx => ?_
      cases hx' : (e.tightened c).live x with
      | false => simp
      | true => simp [himp x hx hx']
    rw [hfilter]
    exact hprefers.filter hc hself

theorem select_of_chosen (h : e.chosen = some c) :
    e.select = { destination := e.destination, nextHop := c.nextHop, generation := e.generation
                 sequence := c.sequence, metric := c.metric, valid := true } := by
  unfold select
  rw [h]

/-- **The entry selects the same route after the mark.** -/
theorem select_markEntry (hprices : e.Priced) (hhalf : e.InHalf) (hv : e.select.valid = true) :
    (RouteTable.markEntry e e.select).select = e.select := by
  obtain ⟨base, hfd, hall⟩ := hhalf
  unfold select at hv
  cases hc : e.chosen with
  | none =>
    rw [hc] at hv
    cases hv
  | some c =>
    have hsel := select_of_chosen hc
    by_cases hbetter : e.feasible.valid = false ∨
        Better c.sequence c.metric e.feasible.sequence e.feasible.metric
    · have hb : e.feasible.valid = false ∨
          Better e.select.sequence e.select.metric e.feasible.sequence e.feasible.metric := by
        rw [hsel]
        exact hbetter
      rw [RouteTable.markEntry_of_better hb, hsel]
      exact select_of_chosen (chosen_tightened hprices hfd hall hbetter hc)
    · rw [not_or, Bool.not_eq_false] at hbetter
      have hb : ¬ Better e.select.sequence e.select.metric e.feasible.sequence e.feasible.metric := by
        rw [hsel]
        exact hbetter.2
      rw [RouteTable.markEntry_of_not_better hbetter.1 hb]
      rfl

/-- After the mark no sequence is in use that was not before. -/
theorem InHalf.markEntry (hhalf : e.InHalf) (hv : e.select.valid = true) :
    (RouteTable.markEntry e e.select).InHalf := by
  obtain ⟨base, hfd, hall⟩ := hhalf
  refine ⟨base, fun _ => ?_, hall⟩
  obtain ⟨c, hmem, hl, hsel⟩ := select_valid hv
  obtain ⟨i, rfl⟩ := mem_candidateList.mp hmem
  have hc : Serial.InHalf base e.select.sequence := by
    rw [hsel]
    simp only [live, Bool.and_eq_true] at hl
    exact hall i hl.1.1.1
  by_cases hbetter : e.feasible.valid = false ∨
      Better e.select.sequence e.select.metric e.feasible.sequence e.feasible.metric
  · rw [RouteTable.markEntry_of_better hbetter]
    exact hc
  · rw [not_or, Bool.not_eq_false] at hbetter
    rw [RouteTable.markEntry_of_not_better hbetter.1 hbetter.2]
    exact hfd hbetter.1

end RouteEntry

/-- `f'` is as good a feasible distance as `f`. -/
def FeasibleDistance.NoWorse (f' f : FeasibleDistance) : Prop :=
  f.valid = true → f' = f ∨ f'.valid = true ∧ Better f'.sequence f'.metric f.sequence f.metric

theorem markEntry_noWorse (e : RouteEntry) (selected : RouteSelection) :
    (RouteTable.markEntry e selected).feasible.NoWorse e.feasible := by
  intro hv
  by_cases hbetter : Better selected.sequence selected.metric e.feasible.sequence e.feasible.metric
  · rw [RouteTable.markEntry_of_better (.inr hbetter)]
    exact .inr ⟨rfl, hbetter⟩
  · rw [RouteTable.markEntry_of_not_better hv hbetter]
    exact .inl rfl

theorem markEntry_twice (e : RouteEntry) (selected : RouteSelection) :
    RouteTable.markEntry (RouteTable.markEntry e selected) selected = RouteTable.markEntry e selected := by
  have hself : ¬ Better selected.sequence selected.metric selected.sequence selected.metric := by
    rintro (hnewer | ⟨-, hlt⟩)
    · rw [Serial.newer_self] at hnewer
      cases hnewer
    · exact UInt16.lt_irrefl _ hlt
  by_cases hbetter : e.feasible.valid = false ∨
      Better selected.sequence selected.metric e.feasible.sequence e.feasible.metric
  · rw [RouteTable.markEntry_of_better hbetter]
    exact RouteTable.markEntry_of_not_better rfl hself
  · rw [not_or, Bool.not_eq_false] at hbetter
    rw [RouteTable.markEntry_of_not_better hbetter.1 hbetter.2]
    exact RouteTable.markEntry_of_not_better hbetter.1 hbetter.2

/-! ## Advertising -/

namespace RouteTable

/-- Prices and half spaces, at every destination. -/
def Steady (table : RouteTable cap) : Prop :=
  ∀ d, ∀ e ∈ table.find d, e.Priced ∧ e.InHalf

variable {table : RouteTable cap}

theorem Steady.best_markAdvertised (hs : table.Steady) (d x : NodeId) :
    (table.markAdvertised d).1.best x = table.best x := by
  unfold best
  rw [table.find_markAdvertised]
  by_cases hd : x = d
  · rw [if_pos hd]
    cases hx : table.find x with
    | none => rfl
    | some e =>
      obtain ⟨hp, hh⟩ := hs x e hx
      rw [Option.map_some]
      by_cases hv : e.select.valid = true
      · rw [if_pos hv]
        exact RouteEntry.select_markEntry hp hh hv
      · rw [if_neg hv]
  · rw [if_neg hd]

theorem Steady.markAdvertised (hs : table.Steady) (d : NodeId) : (table.markAdvertised d).1.Steady := by
  intro x e he
  rw [table.find_markAdvertised] at he
  split at he
  · obtain ⟨e₀, he₀, rfl⟩ := Option.map_eq_some_iff.mp he
    obtain ⟨hp, hh⟩ := hs x e₀ he₀
    split
    · rename_i hv
      exact ⟨hp, hh.markEntry hv⟩
    · exact ⟨hp, hh⟩
  · exact hs x e he

theorem Steady.foldl_markAdvertised (hs : table.Steady) (ds : List NodeId) (x : NodeId) :
    (ds.foldl (fun t d => (t.markAdvertised d).1) table).best x = table.best x := by
  induction ds generalizing table with
  | nil => rfl
  | cons d ds ih =>
    rw [foldl_cons, ih (hs.markAdvertised d)]
    exact hs.best_markAdvertised d x

theorem Steady.markAdvertised_twice (hs : table.Steady) (d x : NodeId) :
    (((table.markAdvertised d).1.markAdvertised d).1.find x) = (table.markAdvertised d).1.find x := by
  rw [find_markAdvertised, find_markAdvertised]
  split
  · cases hx : table.find x with
    | none => rfl
    | some e =>
      obtain ⟨hp, hh⟩ := hs x e hx
      rw [Option.map_some, Option.map_some]
      by_cases hv : e.select.valid = true
      · rw [if_pos hv, RouteEntry.select_markEntry hp hh hv, if_pos hv, markEntry_twice]
      · rw [if_neg hv, if_neg hv]
  · rfl

theorem find_markAdvertised_noWorse {d x : NodeId} {e e' : RouteEntry} (he : table.find x = some e)
    (he' : (table.markAdvertised d).1.find x = some e') : e'.feasible.NoWorse e.feasible := by
  rw [find_markAdvertised, he, Option.map_some] at he'
  split at he'
  · cases he'
    split
    · exact markEntry_noWorse e e.select
    · exact fun _ => .inl rfl
  · cases he'
    exact fun _ => .inl rfl

end RouteTable

/-- **Advertising does not move traffic**: in a reachable table whose sequences lie in one half space
for each destination, advertisements leave every selection as it was, a repeated one leaves the
feasible distance as it was, and none makes it worse. -/
theorem advertising_keeps_routes {table : RouteTable cap} {h : List Unit}
    (hr : (tableMachine cap).Run table h) (hhalf : ∀ d, ∀ e ∈ table.find d, e.InHalf) :
    (∀ d x, (table.markAdvertised d).1.best x = table.best x) ∧
      (∀ d x, (((table.markAdvertised d).1.markAdvertised d).1.find x).map (·.feasible) =
        ((table.markAdvertised d).1.find x).map (·.feasible)) ∧
      (∀ d x e e', table.find x = some e → (table.markAdvertised d).1.find x = some e' →
        e'.feasible.NoWorse e.feasible) ∧
      ∀ (ds : List NodeId) x, (ds.foldl (fun t d => (t.markAdvertised d).1) table).best x = table.best x := by
  have hpriced := (priced_of_run hr).2
  have hs : table.Steady := fun d e he => ⟨hpriced d e he, hhalf d e he⟩
  refine ⟨hs.best_markAdvertised, fun d x => ?_, fun d x e e' he he' => ?_, hs.foldl_markAdvertised⟩
  · rw [hs.markAdvertised_twice]
  · exact RouteTable.find_markAdvertised_noWorse he he'

/-- Destination 5, learned from neighbor 7. -/
def learnedRoute : TableEvent :=
  .consider { destination := 5, generation := 1, sequence := 3, metric := 10 } 7 4 100 1000

/-- Neighbor 7 offers destination 5, and the route stays through two advertisements. -/
theorem advertising_keeps_routes_sample :
    ∃ table : RouteTable 1, (tableMachine 1).Run table [] ∧ (table.best 5).nextHop = 7 ∧
      (([5, 5].foldl (fun t d => (RouteTable.markAdvertised t d).1) table).best 5).nextHop = 7 := by
  have hr : (tableMachine 1).Run (learnedRoute.next {}) [] :=
    Machine.run_exec (M := tableMachine 1) rfl [learnedRoute] ⟨trivial, trivial⟩
  have hhalf : ∀ d, ∀ e ∈ (learnedRoute.next ({} : RouteTable 1)).find d, e.InHalf := by
    intro d e he
    obtain ⟨⟨i, hi⟩, -⟩ := Pool.find_some he
    obtain rfl := Fin.eq_zero i
    cases hi
    exact ⟨3, by decide, by decide⟩
  have hbest := (advertising_keeps_routes hr hhalf).2.2.2 [5, 5] 5
  have hhop : ((learnedRoute.next ({} : RouteTable 1)).best 5).nextHop = 7 := by rfl
  exact ⟨_, hr, hhop, (congrArg RouteSelection.nextHop hbest).trans hhop⟩

end RouteLoom
