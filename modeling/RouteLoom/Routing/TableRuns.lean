import RouteLoom.Lib.Machine
import RouteLoom.Lib.Scan
import RouteLoom.Routing.Feasibility

/-!
# Sequences of table operations

Every public operation that changes a `RouteTable` edits the candidates of an entry and then, if
something changed, evaluates its switching discipline. Here each operation is brought into that form
once.

* `TableEvent` : the operations
* `Edit` : what an operation does to an entry before it is evaluated
* `Touched`, `TableEvent.touched` : what an operation does to the entry of one destination
-/

namespace RouteLoom

open Lib

namespace RouteTable

variable {cap : Nat}

def setSelf (table : RouteTable cap) (self : NodeId) : RouteTable cap :=
  { table with selfId := self }

/-- The dwell is never shorter than the default one. -/
def setTombstoneDwell (table : RouteTable cap) (lifetimeMs : UInt32) : RouteTable cap :=
  { table with
    tombstoneDwellMs :=
      if lifetimeMs > kRouteTombstoneDwellMs then lifetimeMs else kRouteTombstoneDwellMs }

end RouteTable

inductive TableEvent
  | consider (ad : RouteAdvertisement) (hop : NodeId) (link : RouteMetric) (now life : MonotonicMs)
  | withdraw (d hop : NodeId) (now : MonotonicMs)
  | invalidateNextHop (hop : NodeId) (now : MonotonicMs) (hold : Bool)
  | expire (now : MonotonicMs)
  | reclaimTombstone
  | setSelf (self : NodeId)
  | setTombstoneDwell (lifetime : UInt32)
  | updateLinkCost (hop : NodeId) (cost : RouteMetric) (now : MonotonicMs)
  | noteNextHopBusy (hop : NodeId) (since : MonotonicMs)
  | clearNextHopBusy (hop : NodeId)
  | evaluate (now : MonotonicMs)
  | markAdvertised (d : NodeId)
  | setAnnouncedUp (d : NodeId) (announced : Bool)
  | forEachSelectedChange (now : MonotonicMs)

variable {cap : Nat}

namespace TableEvent

def next (table : RouteTable cap) : TableEvent → RouteTable cap
  | consider ad hop link now life => (table.consider ad hop link now life).1
  | withdraw d hop now => (table.withdraw d hop now).1
  | invalidateNextHop hop now hold => table.invalidateNextHop hop now hold
  | expire now => (table.expire now).1
  | reclaimTombstone => table.reclaimTombstone.1
  | setSelf self => table.setSelf self
  | setTombstoneDwell lifetime => table.setTombstoneDwell lifetime
  | updateLinkCost hop cost now => (table.updateLinkCost hop cost now).1
  | noteNextHopBusy hop since => table.noteNextHopBusy hop since
  | clearNextHopBusy hop => table.clearNextHopBusy hop
  | evaluate now => table.evaluate now
  | markAdvertised d => (table.markAdvertised d).1
  | setAnnouncedUp d announced => table.setAnnouncedUp d announced
  | forEachSelectedChange now => (table.forEachSelectedChange now).1

/-- The time of an operation that takes one. -/
def now : TableEvent → Option MonotonicMs
  | consider _ _ _ now _ => some now
  | withdraw _ _ now => some now
  | invalidateNextHop _ now _ => some now
  | expire now => some now
  | updateLinkCost _ _ now => some now
  | evaluate now => some now
  | forEachSelectedChange now => some now
  | _ => none

end TableEvent

/-- A table that is fresh, and any operation on it at any time. -/
def tableMachine (cap : Nat) : Machine (RouteTable cap) TableEvent Unit where
  Init table := table = {}
  Enabled _ _ := True
  next := TableEvent.next
  out _ _ := []

/-! ## Edits of an entry -/

/-- What becomes of a candidate that an operation does not replace. -/
inductive Recast : RouteCandidate → RouteCandidate → Prop
  | same (c : RouteCandidate) : Recast c c
  | dropped (c : RouteCandidate) : Recast c {}
  | withdrawn (c : RouteCandidate) :
      Recast c { c with
        feasible := false, metric := kInfiniteRouteMetric, advertised := kInfiniteRouteMetric }
  | repriced (c : RouteCandidate) {cost : RouteMetric} (feasible : Bool) (hcost : cost ≠ 0) :
      Recast c { c with metric := routeMetricAdd c.advertised cost, feasible }

/-- The candidates of `e'` are those of `e`, recast, or one of them is a new one. -/
inductive Recasts (e e' : RouteEntry) : Prop
  | each (h : ∀ i, Recast (e.candidates i) (e'.candidates i))
  | learned (hop : NodeId) {expires : MonotonicMs} {sequence : RouteSequence}
      {advertised link : RouteMetric} {feasible : Bool} (hlink : link ≠ 0)
      (h : e'.candidates = Function.update e.candidates (e.candidateSlot hop)
        ⟨hop, expires, sequence, routeMetricAdd advertised link, advertised, feasible, true⟩)

/-- The tombstone is cleared, armed because nothing is left, or as it was. -/
inductive Buries (dwell : UInt32) (now : MonotonicMs) (e e' : RouteEntry) : Prop
  | cleared (h : e'.tombstoneExpiresAtMs = 0)
  | armed (hnone : e'.hasCandidates = false) (h : e'.tombstoneExpiresAtMs = now + dwell.toUInt64)
  | kept (h : e'.tombstoneExpiresAtMs = e.tombstoneExpiresAtMs)
      (hvalid : ∀ i, (e'.candidates i).valid = true → (e.candidates i).valid = true)

/-- What an operation at `now` does to an entry before the entry is evaluated. -/
structure Edit (dwell : UInt32) (now : MonotonicMs) (e e' : RouteEntry) : Prop where
  destination : e'.destination = e.destination
  generation : e'.generation = e.generation
  feasible : e'.feasible = e.feasible
  committed : e'.committedNextHop = e.committedNextHop
  hold : e'.switchHoldUntilMs = e.switchHoldUntilMs
  candidates : Recasts e e'
  tombstone : Buries dwell now e e'

/-- An edit, with or without an evaluation after it. -/
inductive Shift (table : RouteTable cap) (now : MonotonicMs) (e : RouteEntry) : RouteEntry → Prop
  | edited {e' : RouteEntry} : Edit table.tombstoneDwellMs now e e' → Shift table now e e'
  | evaluated {e₁ : RouteEntry} :
      Edit table.tombstoneDwellMs now e e₁ → Shift table now e (table.evaluateEntry e₁ now)

namespace Edit

variable {dwell : UInt32} {now : MonotonicMs} {e e₁ e₂ : RouteEntry}

theorem refl (dwell : UInt32) (now : MonotonicMs) (e : RouteEntry) : Edit dwell now e e where
  destination := rfl
  generation := rfl
  feasible := rfl
  committed := rfl
  hold := rfl
  candidates := .each fun _ => .same _
  tombstone := .kept rfl fun _ h => h

theorem note (h : Edit dwell now e e₁) (hd : e₂.destination = e₁.destination)
    (hg : e₂.generation = e₁.generation) (hf : e₂.feasible = e₁.feasible)
    (hc : e₂.committedNextHop = e₁.committedNextHop) (hs : e₂.switchHoldUntilMs = e₁.switchHoldUntilMs)
    (hcand : e₂.candidates = e₁.candidates) (ht : e₂.tombstoneExpiresAtMs = e₁.tombstoneExpiresAtMs) :
    Edit dwell now e e₂ where
  destination := hd.trans h.destination
  generation := hg.trans h.generation
  feasible := hf.trans h.feasible
  committed := hc.trans h.committed
  hold := hs.trans h.hold
  candidates := by
    cases h.candidates with
    | each hall => exact .each fun i => hcand ▸ hall i
    | learned hop hlink heq => exact .learned hop hlink (hcand.trans heq)
  tombstone := by
    cases h.tombstone with
    | cleared hz => exact .cleared (ht.trans hz)
    | armed hnone ha =>
      refine .armed ?_ (ht.trans ha)
      unfold RouteEntry.hasCandidates RouteEntry.candidateList at hnone ⊢
      rw [hcand]
      exact hnone
    | kept hk hvalid => exact .kept (ht.trans hk) fun i hi => hvalid i (hcand ▸ hi)

theorem requestIfLost (h : Edit dwell now e e₁) (removed : Bool) :
    Edit dwell now e (e₁.requestIfLost removed) := by
  unfold RouteEntry.requestIfLost
  split
  · exact h.note rfl rfl rfl rfl rfl rfl rfl
  · exact h

theorem armTombstone (h : Edit dwell now e e₁) : Edit dwell now e (e₁.armTombstone dwell now) := by
  unfold RouteEntry.armTombstone
  split
  · rename_i hnone
    rw [Bool.and_eq_true, Bool.not_eq_true'] at hnone
    refine ⟨h.destination, h.generation, h.feasible, h.committed, h.hold, ?_, .armed hnone.1 rfl⟩
    cases h.candidates with
    | each hall => exact .each hall
    | learned hop hlink heq => exact .learned hop hlink heq
  · exact h

theorem rewrite (dwell : UInt32) (now : MonotonicMs) (e : RouteEntry) (p : RouteCandidate → Bool)
    {f : RouteCandidate → RouteCandidate} (hf : ∀ c, Recast c (f c))
    (hvalid : ∀ c, (f c).valid = true → c.valid = true) : Edit dwell now e (e.rewriteCandidates p f).1 := by
  refine ⟨rfl, rfl, rfl, rfl, rfl, .each fun i => ?_, .kept rfl fun i hi => ?_⟩
  · unfold RouteEntry.rewriteCandidates
    dsimp only
    split
    · exact hf _
    · exact .same _
  · unfold RouteEntry.rewriteCandidates at hi
    dsimp only at hi
    split at hi
    · exact hvalid _ hi
    · exact hi

end Edit

variable {link : RouteMetric}

namespace RouteTable

variable (table : RouteTable cap) (e : RouteEntry)

theorem settle_shift {now : MonotonicMs} {e₁ : RouteEntry} (h : Edit table.tombstoneDwellMs now e e₁) :
    Shift table now e (table.evaluateEntry
      ((e₁.requestIfLost true).armTombstone table.tombstoneDwellMs now) now) :=
  .evaluated (h.requestIfLost true).armTombstone

theorem withdrawEntry_shift (hop : NodeId) (now : MonotonicMs) :
    Shift table now e (table.withdrawEntry e hop now).1 := by
  have hw := Edit.rewrite table.tombstoneDwellMs now e (·.nextHop == hop) (f := fun candidate =>
    { candidate with
      feasible := false, metric := kInfiniteRouteMetric, advertised := kInfiniteRouteMetric })
    (fun c => .withdrawn c) fun _ h => h
  simp only [withdrawEntry]
  split
  · exact table.settle_shift e (hw.note rfl rfl rfl rfl rfl rfl rfl)
  · exact .edited hw

theorem invalidateEntry_shift (hop : NodeId) (now : MonotonicMs) (hold : Bool) :
    Shift table now e (table.invalidateEntry hop now hold e) := by
  have hw := Edit.rewrite table.tombstoneDwellMs now e (·.nextHop == hop) (f := fun _ => {})
    (fun c => .dropped c) fun _ h => by cases h
  generalize hr : e.rewriteCandidates (·.nextHop == hop) (fun _ => {}) = r at hw
  simp only [invalidateEntry, hr]
  have hclear : ∀ b : Bool, Edit table.tombstoneDwellMs now e
      (if b then { r.1 with holdNextHop := kInvalidNodeId, holdUntilMs := 0 } else r.1) := by
    intro b
    cases b with
    | false => exact hw
    | true => exact hw.note rfl rfl rfl rfl rfl rfl rfl
  split
  · refine table.settle_shift e ?_
    split
    · exact (hclear _).note rfl rfl rfl rfl rfl rfl rfl
    · exact hclear _
  · exact .edited (hclear _)

theorem expireEntry_shift (now : MonotonicMs) : Shift table now e (table.expireEntry now e) := by
  have hw := Edit.rewrite table.tombstoneDwellMs now e (·.expiresAtMs ≤ now) (f := fun _ => {})
    (fun c => .dropped c) fun _ h => by cases h
  simp only [expireEntry]
  split
  · exact .evaluated (hw.requestIfLost _).armTombstone
  · exact .edited (hw.requestIfLost _).armTombstone

theorem recost_shift {hop : NodeId} {cost : RouteMetric} (hcost : cost ≠ 0) (now : MonotonicMs) :
    Shift table now e (table.recost hop cost now e).1 := by
  have hw := Edit.rewrite table.tombstoneDwellMs now e (·.nextHop == hop) (f := fun candidate =>
    { candidate with
      metric := routeMetricAdd candidate.advertised cost
      feasible := routeMetricAdd candidate.advertised cost != kInfiniteRouteMetric &&
        e.isFeasible candidate.sequence candidate.advertised })
    (fun c => .repriced c _ hcost) fun _ h => h
  simp only [recost]
  split
  · exact .evaluated hw
  · exact .edited hw

theorem learn_shift (ad : RouteAdvertisement) (hop : NodeId) (hlink : link ≠ 0)
    (now life : MonotonicMs) : Shift table now e (table.learn e ad hop link now life).1 := by
  simp only [learn]
  split
  · exact .edited (.refl _ now e)
  · split
    · exact .evaluated ⟨rfl, rfl, rfl, rfl, rfl, .learned hop hlink rfl, .cleared rfl⟩
    · exact .evaluated ⟨rfl, rfl, rfl, rfl, rfl, .learned hop hlink rfl, .cleared rfl⟩

theorem applyAdvertisement_shift (ad : RouteAdvertisement) (hop : NodeId) (hlink : link ≠ 0)
    (now life : MonotonicMs) : Shift table now e (table.applyAdvertisement e ad hop link now life).1 := by
  unfold applyAdvertisement
  split
  · exact table.withdrawEntry_shift e hop now
  · exact table.learn_shift e ad hop hlink now life

end RouteTable

/-! ## Evaluation of an entry -/

/-- What an evaluation at `now` decides. -/
inductive Decides (now : MonotonicMs) (e : RouteEntry) : RouteEntry → Prop
  | stays (improvement : NodeId) (since : MonotonicMs) :
      Decides now e { e with improvementNextHop := improvement, improvementSinceMs := since }
  | repairs (hlost : e.selectable e.committedNextHop = none) : Decides now e (e.repair now)
  /-- a switch is overdue, or follows another sequence -/
  | switches {committed raw : RouteCandidate} (hheld : e.selectable e.committedNextHop = some committed)
      (hraw : raw ∈ e.candidateList) (hlive : e.live raw = true)
      (hwhy : e.switchHoldUntilMs ≤ now ∨ raw.sequence ≠ committed.sequence) :
      Decides now e (e.switchTo raw.nextHop now)

namespace RouteTable

variable (table : RouteTable cap) {e : RouteEntry} {now : MonotonicMs} {committed raw : RouteCandidate}

theorem improve_decides (hheld : e.selectable e.committedNextHop = some committed)
    (hraw : raw ∈ e.candidateList) (hlive : e.live raw = true) :
    Decides now e (table.improve e committed raw now) := by
  simp only [improve]
  split
  · exact .stays _ _
  · split
    · exact .stays _ _
    · split
      · rename_i hdue
        rw [Bool.and_eq_true, decide_eq_true_eq, decide_eq_true_eq] at hdue
        exact .switches hheld hraw hlive (.inl hdue.2)
      · exact .stays _ _

theorem fastRepair_decides (hheld : e.selectable e.committedNextHop = some committed) :
    Decides now e (table.fastRepair e committed now) := by
  unfold fastRepair
  split
  · exact .stays _ _
  · rename_i alt halt
    obtain ⟨hraw, hlive⟩ := RouteEntry.bestCandidate_live halt
    split
    · rename_i hdue
      rw [Bool.and_eq_true, decide_eq_true_eq] at hdue
      exact .switches hheld hraw hlive (.inl hdue.1)
    · exact .stays _ _

theorem evaluateEntry_decides (e : RouteEntry) (now : MonotonicMs) :
    Decides now e (table.evaluateEntry e now) := by
  unfold evaluateEntry
  split
  · rename_i hlost
    exact .repairs hlost
  · rename_i committed hheld
    split
    · exact table.fastRepair_decides hheld
    · split
      · exact .stays _ _
      · rename_i raw hbest
        obtain ⟨hraw, hlive⟩ := RouteEntry.bestCandidate_live hbest
        split
        · exact .stays _ _
        · dsimp only [routeSequenceNewer]
          split
          · rename_i hfresh
            refine .switches hheld hraw hlive (.inr fun hsame => ?_)
            rw [hsame, Serial.newer_self, Serial.ambiguous_self] at hfresh
            cases hfresh
          · split
            · split
              · rename_i hdue
                exact .switches hheld hraw hlive (.inl hdue)
              · exact .stays _ _
            · exact table.improve_decides hheld hraw hlive

end RouteTable

/-- An evaluation moves the committed hop and its timers only. -/
theorem Decides.candidates {now : MonotonicMs} {e e' : RouteEntry} (h : Decides now e e') :
    e'.candidates = e.candidates := by
  cases h with
  | stays improvement since => rfl
  | repairs hlost => rfl
  | switches hheld hraw hlive hwhy => rfl

/-! ## One operation, seen at one destination -/

/-- What an operation may do to the entry of destination `d`. -/
inductive Touched (table : RouteTable cap) (d : NodeId) :
    TableEvent → Option RouteEntry → Option RouteEntry → Prop
  | absent {ev : TableEvent} : Touched table d ev none none
  | noted {ev : TableEvent} (e : RouteEntry) (last : LastSelection) (adMs : MonotonicMs) (up : Bool) :
      Touched table d ev (some e)
        (some { e with lastSelected := last, improvementAdMs := adMs, announcedUp := up })
  | shifted {ev : TableEvent} {now : MonotonicMs} {e e' : RouteEntry} (hnow : ev.now = some now)
      (h : Shift table now e e') : Touched table d ev (some e) (some e')
  | restarted {ev : TableEvent} {now : MonotonicMs} {e e' : RouteEntry} {generation : RouteGeneration}
      (hnow : ev.now = some now) (hnewer : e.generation < generation)
      (h : Shift table now (RouteTable.restartEntry e generation) e') : Touched table d ev (some e) (some e')
  | created {ev : TableEvent} {now : MonotonicMs} {e' : RouteEntry} {generation : RouteGeneration}
      (hnow : ev.now = some now)
      (h : Shift table now { destination := d, generation } e') : Touched table d ev none (some e')
  | marked {e : RouteEntry} (hvalid : e.select.valid = true) :
      Touched table d (.markAdvertised d) (some e) (some (RouteTable.markEntry e e.select))
  | expired {now : MonotonicMs} {e : RouteEntry} (hdue : RouteTable.collectable now e = true) :
      Touched table d (.expire now) (some e) none
  | reclaimed {e : RouteEntry} : Touched table d .reclaimTombstone (some e) none

namespace Touched

variable {table : RouteTable cap} {d : NodeId} {ev : TableEvent}

theorem unchanged (table : RouteTable cap) (d : NodeId) (ev : TableEvent) (o : Option RouteEntry) :
    Touched table d ev o o := by
  cases o with
  | none => exact .absent
  | some e => exact .noted e _ _ _

theorem of_map {now : MonotonicMs} (hnow : ev.now = some now) {f : RouteEntry → RouteEntry}
    (hf : ∀ e, Shift table now e (f e)) (hdest : ∀ e, (f e).destination = e.destination) :
    Touched table d ev (table.find d)
      (RouteTable.find { table with entries := table.entries.map f } d) := by
  have hfind : RouteTable.find { table with entries := table.entries.map f } d = (table.find d).map f :=
    Pool.find_map fun e => by rw [hdest]
  rw [hfind]
  cases table.find d with
  | none => exact .absent
  | some e => exact .shifted hnow (hf e)

end Touched

namespace RouteTable

variable (table : RouteTable cap) {d : NodeId}

theorem considerEntry_touched {ad : RouteAdvertisement} {hop : NodeId} (hlink : link ≠ 0)
    (now life : MonotonicMs) (e : RouteEntry) :
    Touched table d (.consider ad hop link now life) (some e)
      (some (table.considerEntry e ad hop link now life).1) := by
  unfold considerEntry
  split
  · exact .unchanged table d _ _
  · split
    · rename_i hnewer
      exact .restarted rfl hnewer (table.applyAdvertisement_shift _ ad hop hlink now life)
    · exact .shifted rfl (table.applyAdvertisement_shift e ad hop hlink now life)

theorem considerEntry_created {ad : RouteAdvertisement} {hop : NodeId} (hlink : link ≠ 0)
    (now life : MonotonicMs) :
    Touched table d (.consider ad hop link now life) none
      (some (table.considerEntry { destination := d } ad hop link now life).1) := by
  unfold considerEntry
  split
  · rename_i hstale
    exact absurd hstale (UInt32.not_lt.mpr (UInt32.le_iff_toNat_le.mpr (Nat.zero_le _)))
  · split
    · exact .created rfl (table.applyAdvertisement_shift
        (restartEntry { destination := d } ad.generation) ad hop hlink now life)
    · exact .created rfl (table.applyAdvertisement_shift { destination := d } ad hop hlink now life)

theorem consider_touched (ad : RouteAdvertisement) (hop : NodeId) (link : RouteMetric)
    (now life : MonotonicMs) :
    Touched table d (.consider ad hop link now life) (table.find d)
      ((table.consider ad hop link now life).1.find d) := by
  rcases table.consider_cases ad hop link now life with heq | ⟨hlink, i, e, hslot, heq⟩
  · rw [heq]
    exact .unchanged table d _ _
  · rw [heq]
    have hdest := table.considerEntry_destination e ad hop link now life
    rcases hslot with ⟨hi, he⟩ | ⟨hnone, hfree, rfl⟩
    · obtain ⟨e₀, he₀, hd, hfind⟩ := table.findSlot_some hi
      rw [he] at he₀
      cases he₀
      rw [table.find_set_found hi (hdest.trans hd)]
      split
      · rename_i heqd
        rw [heqd, hfind]
        exact table.considerEntry_touched hlink now life e
      · exact .unchanged table d _ _
    · rw [table.find_set_free hnone hfree hdest]
      split
      · rename_i heqd
        subst heqd
        rw [show table.find ad.destination = none from Pool.findIdx_isSome_iff.mp hnone]
        exact table.considerEntry_created hlink now life
      · exact .unchanged table d _ _

theorem withdraw_touched (dest hop : NodeId) (now : MonotonicMs) :
    Touched table d (.withdraw dest hop now) (table.find d) ((table.withdraw dest hop now).1.find d) := by
  unfold withdraw
  cases hi : table.findSlot dest with
  | none => exact .unchanged table d _ _
  | some i =>
    obtain ⟨e, he, hd, hfind⟩ := table.findSlot_some hi
    simp only [he]
    have hdest := (table.withdrawEntry_keeps (P := fun _ _ _ => True) e hop now).destination
    rw [table.find_set_found hi (hdest.trans hd)]
    split
    · rename_i heqd
      rw [heqd, hfind]
      exact .shifted rfl (table.withdrawEntry_shift e hop now)
    · exact .unchanged table d _ _

theorem expire_touched (hu : table.UniqueKeys) (now : MonotonicMs) :
    Touched table d (.expire now) (table.find d) ((table.expire now).1.find d) := by
  have hfind : (table.expire now).1.find d =
      ((table.find d).filter fun e => !collectable now e).map (table.expireEntry now) := by
    have herase : (table.entries.eraseIf (collectable now)).find (fun e => e.destination == d) =
        (table.find d).filter fun e => !collectable now e :=
      Pool.KeyUnique.find_eraseIf hu (collectable now) d
    rw [← herase]
    exact Pool.find_map fun e => by
      rw [(table.expireEntry_keeps (P := fun _ _ _ => True) e now).destination]
  rw [hfind]
  cases table.find d with
  | none => exact .absent
  | some e =>
    cases hdue : collectable now e with
    | true =>
      rw [Option.filter_some, hdue]
      exact .expired hdue
    | false =>
      rw [Option.filter_some, hdue]
      exact .shifted rfl (table.expireEntry_shift e now)

theorem reclaimTombstone_cases : table.reclaimTombstone.1 = table ∨
    ∃ i e, table.entries.slots i = some e ∧ e.tombstoneExpiresAtMs ≠ 0 ∧
      table.reclaimTombstone.1 = { table with entries := table.entries.release i } := by
  unfold reclaimTombstone
  dsimp only
  split
  · exact .inl rfl
  · rename_i i due holdest
    refine .inr ⟨i, ?_⟩
    have hmem := (foldl_pick_mem (fun b a c h => ?_) _ none holdest).resolve_left (by simp)
    · obtain ⟨j, -, hj⟩ := List.mem_filterMap.mp hmem
      obtain ⟨e, he, harmed⟩ := Option.bind_eq_some_iff.mp hj
      split at harmed
      · cases harmed
      · rename_i hne
        cases harmed
        exact ⟨e, he, by simpa using hne, rfl⟩
    · cases b with
      | none => exact .inr (Option.some.inj h)
      | some x =>
        dsimp only at h
        split at h
        · exact .inr (Option.some.inj h)
        · exact .inl h

theorem reclaimTombstone_touched (hu : table.UniqueKeys) :
    Touched table d .reclaimTombstone (table.find d) (table.reclaimTombstone.1.find d) := by
  rcases table.reclaimTombstone_cases with heq | ⟨i, e, he, -, heq⟩
  · rw [heq]
    exact .unchanged table d _ _
  · rw [heq]
    have hfind : RouteTable.find { table with entries := table.entries.release i } d =
        if e.destination = d then none else table.find d := Pool.KeyUnique.find_release hu he d
    rw [hfind]
    split
    · rename_i hd
      rw [← hd, hu.find_eq ⟨i, he⟩]
      exact .reclaimed
    · exact .unchanged table d _ _

end RouteTable

/-- **What an operation does to the entry of one destination.** -/
theorem TableEvent.touched {table : RouteTable cap} (hu : table.UniqueKeys) (ev : TableEvent) (d : NodeId) :
    Touched table d ev (table.find d) ((ev.next table).find d) := by
  cases ev with
  | consider ad hop link now life => exact table.consider_touched ad hop link now life
  | withdraw dest hop now => exact table.withdraw_touched dest hop now
  | invalidateNextHop hop now hold =>
    exact .of_map rfl (fun e => table.invalidateEntry_shift e hop now hold) fun e =>
      (table.invalidateEntry_keeps (P := fun _ _ _ => True) e hop now hold).destination
  | expire now => exact table.expire_touched hu now
  | reclaimTombstone => exact table.reclaimTombstone_touched hu
  | setSelf self => exact .unchanged table d _ _
  | setTombstoneDwell lifetime => exact .unchanged table d _ _
  | updateLinkCost hop cost now =>
    show Touched table d _ _ ((table.updateLinkCost hop cost now).1.find d)
    unfold RouteTable.updateLinkCost
    split
    · exact .unchanged table d _ _
    · rename_i hvalid
      have hcost : cost ≠ 0 := by
        rintro rfl
        simp at hvalid
      exact .of_map rfl (fun e => table.recost_shift e hcost now) fun e =>
        (table.recost_keeps (P := fun _ _ _ => True) e hop cost now).destination
  | noteNextHopBusy hop since =>
    show Touched table d _ _ ((table.noteNextHopBusy hop since).find d)
    unfold RouteTable.noteNextHopBusy
    repeat' split
    all_goals exact .unchanged table d _ _
  | clearNextHopBusy hop =>
    show Touched table d _ _ ((table.clearNextHopBusy hop).find d)
    unfold RouteTable.clearNextHopBusy
    split
    all_goals exact .unchanged table d _ _
  | evaluate now =>
    exact .of_map rfl (fun e => .evaluated (.refl _ now e)) fun e =>
      (table.evaluateEntry_keeps (P := fun _ _ _ => True) e now).destination
  | markAdvertised dest =>
    show Touched table d _ _ ((table.markAdvertised dest).1.find d)
    rw [table.find_markAdvertised]
    split
    · rename_i hd
      subst hd
      cases table.find d with
      | none => exact .absent
      | some e =>
        rw [Option.map_some]
        split
        · rename_i hvalid
          exact .marked hvalid
        · exact .unchanged table d _ _
    · exact .unchanged table d _ _
  | setAnnouncedUp dest announced =>
    show Touched table d _ _ ((table.setAnnouncedUp dest announced).find d)
    rw [table.find_setAnnouncedUp]
    split
    · cases table.find d with
      | none => exact .absent
      | some e => exact .noted e _ _ announced
    · exact .unchanged table d _ _
  | forEachSelectedChange now =>
    have hfind : ((table.forEachSelectedChange now).1).find d =
        (table.find d).map fun e => (RouteTable.selectedChange now e).1 :=
      Pool.find_map fun e => by rw [RouteTable.selectedChange_destination]
    show Touched table d _ _ ((table.forEachSelectedChange now).1.find d)
    rw [hfind]
    cases table.find d with
    | none => exact .absent
    | some e =>
      rw [Option.map_some]
      unfold RouteTable.selectedChange
      dsimp only
      repeat' split
      all_goals exact .noted e _ _ _

theorem TableEvent.uniqueKeys {table : RouteTable cap} (hu : table.UniqueKeys) (ev : TableEvent) :
    (ev.next table).UniqueKeys := by
  cases ev with
  | consider ad hop link now life => exact hu.consider ad hop link now life
  | withdraw dest hop now => exact hu.withdraw dest hop now
  | invalidateNextHop hop now hold => exact hu.invalidateNextHop hop now hold
  | expire now => exact hu.expire now
  | reclaimTombstone => exact hu.reclaimTombstone
  | setSelf self => exact hu
  | setTombstoneDwell lifetime => exact hu
  | updateLinkCost hop cost now => exact hu.updateLinkCost hop cost now
  | noteNextHopBusy hop since => exact hu.noteNextHopBusy hop since
  | clearNextHopBusy hop => exact hu.clearNextHopBusy hop
  | evaluate now => exact hu.evaluate now
  | markAdvertised dest => exact hu.markAdvertised dest
  | setAnnouncedUp dest announced => exact hu.setAnnouncedUp dest announced
  | forEachSelectedChange now => exact hu.forEachSelectedChange now

theorem uniqueKeys_empty : (({} : RouteTable cap)).UniqueKeys :=
  Pool.keyUnique_empty _

end RouteLoom
