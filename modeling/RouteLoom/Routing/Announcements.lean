import RouteLoom.Routing.Coverage

/-!
# When a queued record is covered

The two flat paths leave records behind whose feasible distance nobody updates: the group-root
prefix of the flat update, unless the rotating dump of the same frame reaches the root, and the
target record of the flat answer to a route request. For every other path the frame is covered.

* `RouteNode.FlatUpdateOk`, `RouteNode.FlatAnswerOk` : when a flat frame is covered
* `RouteNode.announcements` : the node as a machine that outputs its queued frames
* `RouteNode.queued_covered_iff` : **a frame of any run is covered iff its event is `Ok`**
-/

namespace RouteLoom.RouteNode

open Lib List

variable {cap : Nat} {σ : Type} {S : TxScheduler σ} {n n' : RouteNode cap σ}

/-! ## The flat update -/

/-- Each finite group-root record is also in this page of the rotating dump, or is already
covered. -/
def FlatUpdateOk (n : RouteNode cap σ) (neighbor : NodeId) : Prop :=
  n.gatewayScoped = false → ∀ root ∈ List.ofFn n.config.groupRoots,
    ∀ r ∈ n.rootRecord neighbor root, r.metric ≠ kInfiniteRouteMetric →
      root ∈ (n.flatDump neighbor).finiteRecords ∨ n.routes.Covers r

theorem foldl_appendRecord (L records : List RouteAdvertisement)
    (h : records.length + L.length ≤ kMaxRouteRecordsPerFrame) :
    L.foldl (fun records record => (appendRecord records record).getD records) records = records ++ L := by
  induction L generalizing records with
  | nil => simp
  | cons record L ih =>
    rw [length_cons] at h
    have hroom : appendRecord records record = some (records ++ [record]) := by
      unfold appendRecord
      rw [if_neg (by omega)]
    rw [foldl_cons, hroom, Option.getD_some, ih (records ++ [record]) (by simp; omega)]
    simp

theorem flatLead_eq (n : RouteNode cap σ) (neighbor : NodeId) :
    n.flatLead neighbor = n.selfRecord :: (if n.gatewayScoped then []
      else (List.ofFn n.config.groupRoots).filterMap (n.rootRecord neighbor)) := by
  have hroots : ((List.ofFn n.config.groupRoots).filterMap (n.rootRecord neighbor)).length ≤
      kMaxRouteGateways :=
    (length_filterMap_le _ _).trans_eq length_ofFn
  have hlen : (if n.gatewayScoped then []
      else (List.ofFn n.config.groupRoots).filterMap (n.rootRecord neighbor)).length ≤
      kMaxRouteGateways := by
    split
    · exact Nat.zero_le _
    · exact hroots
  unfold flatLead
  dsimp only
  rw [foldl_appendRecord]
  · rfl
  · have hcap : kMaxRouteGateways + 1 ≤ kMaxRouteRecordsPerFrame := by decide
    rw [length_nil, length_cons]
    omega

variable {r : RouteAdvertisement}

theorem rootRecord_spec {neighbor root : NodeId} (h : n.rootRecord neighbor root = some r) :
    r.destination = root ∧ root ≠ n.config.node ∧ (r.metric ≠ kInfiniteRouteMetric → n.routes.Shows r) := by
  unfold rootRecord at h
  split at h
  · cases h
  · rename_i hself
    have hne : root ≠ n.config.node := by
      rintro rfl
      simp at hself
    dsimp only at h
    split at h
    · rename_i hv
      split at h
      · cases h
      · cases h
        exact ⟨rfl, hne, fun hfin => ⟨hv, rfl, poisoned_finite hfin⟩⟩
    · obtain ⟨lost, _, rfl⟩ := Option.map_eq_some_iff.mp h
      exact ⟨rfl, hne, fun hfin => absurd rfl hfin⟩

/-- What the rotating dump adds: records of some rows, the finite ones in `finite`. -/
theorem foldl_dumpStep (neighbor : NodeId) (skip : Nat) (rows : List RouteSelection) (dump : Dump) :
    ∃ added finite, (rows.foldl (n.dumpStep neighbor skip) dump).records = dump.records ++ added ∧
      (rows.foldl (n.dumpStep neighbor skip) dump).finiteRecords = dump.finiteRecords ++ finite ∧
      finite.Sublist (rows.map (·.destination)) ∧
      ∀ r ∈ added, r.metric ≠ kInfiniteRouteMetric → r.destination ∈ finite ∧
        ∃ row ∈ rows, r.destination = row.destination ∧ r.sequence = row.sequence ∧
          r.metric = row.metric := by
  induction rows generalizing dump with
  | nil => exact ⟨[], [], by simp, by simp, .slnil, by simp⟩
  | cons row rows ih =>
    obtain ⟨added, finite, hrec, hfin, hsub, hadded⟩ := ih (n.dumpStep neighbor skip dump row)
    rw [foldl_cons, hrec, hfin]
    -- a row either leaves both lists alone or adds its record
    have hstep : ((n.dumpStep neighbor skip dump row).records = dump.records ∧
          (n.dumpStep neighbor skip dump row).finiteRecords = dump.finiteRecords) ∨
        ((n.dumpStep neighbor skip dump row).records = dump.records ++ [⟨row.destination,
            row.generation, row.sequence, n.poisoned row neighbor⟩] ∧
          (n.dumpStep neighbor skip dump row).finiteRecords = dump.finiteRecords ++
            if n.poisoned row neighbor != kInfiniteRouteMetric then [row.destination] else []) := by
      unfold dumpStep appendRecord
      dsimp only
      split
      · exact Or.inl ⟨rfl, rfl⟩
      · split
        · exact Or.inl ⟨rfl, rfl⟩
        · by_cases hfull : dump.records.length ≥ kMaxRouteRecordsPerFrame
          · rw [if_pos hfull]
            exact Or.inl ⟨rfl, rfl⟩
          · rw [if_neg hfull]
            refine Or.inr ⟨rfl, ?_⟩
            dsimp only
            split
            · rfl
            · rw [append_nil]
    have widen : ∀ {F : List NodeId}, (∀ d ∈ finite, d ∈ F) → ∀ r ∈ added,
        r.metric ≠ kInfiniteRouteMetric → r.destination ∈ F ∧
          ∃ row' ∈ row :: rows, r.destination = row'.destination ∧ r.sequence = row'.sequence ∧
            r.metric = row'.metric := by
      intro F hF r hr hm
      obtain ⟨hmem, row', hrow', h⟩ := hadded r hr hm
      exact ⟨hF _ hmem, row', mem_cons_of_mem _ hrow', h⟩
    rcases hstep with ⟨h₁, h₂⟩ | ⟨h₁, h₂⟩
    · rw [h₁, h₂]
      exact ⟨added, finite, rfl, rfl, hsub.cons _, widen fun _ h => h⟩
    · rw [h₁, h₂, append_assoc, append_assoc]
      refine ⟨_, _, rfl, rfl, ?_, fun r hr hm => ?_⟩
      · split
        · exact hsub.cons_cons row.destination
        · exact hsub.cons _
      · rcases mem_append.mp hr with hr | hr
        · rw [mem_singleton.mp hr] at hm ⊢
          have hpos : (n.poisoned row neighbor != kInfiniteRouteMetric) = true := by simpa using hm
          rw [hpos, if_pos rfl]
          exact ⟨mem_cons_self, row, mem_cons_self, rfl, rfl, poisoned_finite hm⟩
        · exact widen (fun d hd => mem_append_right _ hd) r hr hm

theorem foldl_lostStep (losts : List RouteTable.LostRoute) (dump : Dump) :
    ∃ added, (losts.foldl n.lostStep dump).records = dump.records ++ added ∧
      ∀ r ∈ added, r.metric = kInfiniteRouteMetric := by
  induction losts generalizing dump with
  | nil => exact ⟨[], by simp, by simp⟩
  | cons lost losts ih =>
    obtain ⟨added, hrec, hinf⟩ := ih (n.lostStep dump lost)
    rw [foldl_cons, hrec]
    have hstep : (n.lostStep dump lost).records = dump.records ∨
        (n.lostStep dump lost).records = dump.records ++
          [⟨lost.destination, lost.generation, lost.sequence, kInfiniteRouteMetric⟩] := by
      unfold lostStep appendRecord
      split
      · exact Or.inl rfl
      · by_cases hfull : dump.records.length ≥ kMaxRouteRecordsPerFrame
        · rw [if_pos hfull]
          exact Or.inl rfl
        · rw [if_neg hfull]
          exact Or.inr rfl
    rcases hstep with h | h
    · rw [h]
      exact ⟨added, rfl, hinf⟩
    · rw [h, append_assoc]
      refine ⟨_, rfl, fun r hr => ?_⟩
      rcases mem_append.mp hr with hr | hr
      · rw [mem_singleton.mp hr]
      · exact hinf r hr

theorem find_foldl_markAdvertised (marks : List NodeId) (n : RouteNode cap σ) {d : NodeId}
    (hd : d ∉ marks) : (marks.foldl markAdvertised n).routes.find d = n.routes.find d := by
  induction marks generalizing n with
  | nil => rfl
  | cons m marks ih =>
    rw [foldl_cons, ih _ (not_mem_of_not_mem_cons hd)]
    unfold markAdvertised
    rw [RouteTable.find_markAdvertised]
    exact if_neg (ne_of_not_mem_cons hd)

theorem covers_foldl_markAdvertised (marks : List NodeId) (n : RouteNode cap σ) (hr : r.destination ∉ marks) :
    (marks.foldl markAdvertised n).routes.Covers r ↔ n.routes.Covers r := by
  unfold RouteTable.Covers
  rw [find_foldl_markAdvertised marks n hr]

theorem tight_foldl_markAdvertised (marks : List NodeId) (hmarks : marks.Nodup) (n : RouteNode cap σ)
    (hr : r.destination ∈ marks) (hs : n.routes.Shows r) : (marks.foldl markAdvertised n).routes.Tight r := by
  refine tight_foldl (P := fun _ => True) (fun n d => n.touches_markAdvertised d) ?_
    marks (by simpa using hmarks) n hr trivial rfl hs
  intro n d r _ hd hs
  cases (show r.destination = d from hd)
  exact hs.tight_of_mark

/-- The marks of a flat update cover its finite records, except the group roots that the dump did
not reach. -/
theorem covered_flatUpdate (hu : n.routes.UniqueKeys) (neighbor : NodeId) {m : RouteNode cap σ}
    (hm : m.routes = n.routes) (frame : RouteFrame) (hframe : frame.records =
      (n.routes.forEachLost.foldl n.lostStep (n.flatDump neighbor)).records) :
    CoveredFrame n.config.node (frame, ((n.flatDump neighbor).finiteRecords.foldl markAdvertised m).routes) ↔
      n.FlatUpdateOk neighbor := by
  obtain ⟨dumped, finite, hdump, hfin, hsub, hdumped⟩ := n.foldl_dumpStep neighbor
    (n.dumpSkip neighbor) n.routes.forEachSelected { records := n.flatLead neighbor }
  obtain ⟨lost, hlost, hinf⟩ := n.foldl_lostStep n.routes.forEachLost (n.flatDump neighbor)
  rw [nil_append] at hfin
  have hnodup : (n.flatDump neighbor).finiteRecords.Nodup := by
    unfold flatDump
    rw [hfin]
    exact hu.nodup_rows.sublist hsub
  rw [hlost, show (n.flatDump neighbor).records = n.flatLead neighbor ++ dumped from hdump,
    flatLead_eq] at hframe
  have marked : ∀ r : RouteAdvertisement, r.destination ∈ (n.flatDump neighbor).finiteRecords →
      n.routes.Shows r →
      ((n.flatDump neighbor).finiteRecords.foldl markAdvertised m).routes.Covers r := by
    intro r hr hs
    rw [← hm] at hs
    exact (tight_foldl_markAdvertised _ hnodup m hr hs).covers
  constructor
  · intro hcov hflat root hroot r hr hmetric
    obtain ⟨rfl, hself, _⟩ := rootRecord_spec hr
    by_cases hin : r.destination ∈ (n.flatDump neighbor).finiteRecords
    · exact Or.inl hin
    · refine Or.inr ?_
      have hmem : r ∈ frame.records := by
        rw [hframe, hflat]
        simp only [Bool.false_eq_true, if_false, mem_append, mem_cons, mem_filterMap]
        exact Or.inl (Or.inl (Or.inr ⟨_, hroot, hr⟩))
      have h := hcov r hmem ⟨hself, hmetric⟩
      rwa [covers_foldl_markAdvertised _ m hin, hm] at h
  · intro hok r hr hc
    dsimp only at hr ⊢
    rw [hframe] at hr
    rcases mem_append.mp hr with hr | hr
    · rcases mem_append.mp hr with hr | hr
      · rcases mem_cons.mp hr with rfl | hr
        · exact absurd rfl hc.1
        · by_cases hflat : n.gatewayScoped = true
          · rw [if_pos hflat] at hr
            cases hr
          · rw [if_neg hflat] at hr
            obtain ⟨root, hroot, hr⟩ := mem_filterMap.mp hr
            obtain ⟨rfl, _, hshow⟩ := rootRecord_spec hr
            by_cases hin : r.destination ∈ (n.flatDump neighbor).finiteRecords
            · exact marked r hin (hshow hc.2)
            · rw [covers_foldl_markAdvertised _ m hin, hm]
              exact (hok (by simpa using hflat) _ hroot r hr hc.2).resolve_left hin
      · obtain ⟨hin, row, hrow, hdest, hseq, hmetric⟩ := hdumped r hr hc.2
        refine marked r (by unfold flatDump; rwa [hfin]) ?_
        obtain ⟨hv, hbest⟩ := hu.best_of_row hrow
        rw [RouteTable.Shows, hdest, hbest]
        exact ⟨hv, hseq, hmetric⟩
    · exact absurd (hinf r hr) hc.2

theorem updateNeighbor_routes (n : RouteNode cap σ) (node : NodeId) (f : Neighbor → Neighbor) :
    (n.updateNeighbor node f).routes = n.routes := by
  unfold updateNeighbor
  split
  · rfl
  · split
    · rfl
    · rfl

theorem emits_queueRouteUpdate (n : RouteNode cap σ) (neighbor : NodeId) (now : MonotonicMs)
    (hu : n.routes.UniqueKeys) : Emits (n.FlatUpdateOk neighbor) n (n.queueRouteUpdate S neighbor now).1 := by
  unfold queueRouteUpdate enqueue
  dsimp only
  cases S.enqueue n.scheduler _ now with
  | error status => exact .refl _ n
  | ok scheduler =>
    dsimp only
    have hstart : Emits (n.FlatUpdateOk neighbor) n { n with scheduler := scheduler } :=
      emits_of_quiet rfl (fun h => h) (fun h => h) rfl
    refine Emits.trans (hstart.trans ?_) (emits_noteQueued _ _ ?_)
    · exact (emits_updateNeighbor _ neighbor _).trans
        (Touches.foldl (fun n d => n.touches_markAdvertised d) _ _).emits
    · rw [(Touches.foldl (fun n d => n.touches_markAdvertised d) _ _).config,
        (emits_updateNeighbor (P := True) _ neighbor _).config]
      exact covered_flatUpdate hu neighbor (updateNeighbor_routes { n with scheduler := scheduler } _ _)
        ⟨.routeUpdate, neighbor, kControlLifetimeMs, .update _⟩ rfl

/-! ## The flat answer -/

/-- The target record of the flat answer is already covered. -/
def FlatAnswerOk (n : RouteNode cap σ) (target peer : NodeId) : Prop :=
  n.gatewayScoped = false → ∀ r ∈ n.flatAnswer target peer,
    r.metric ≠ kInfiniteRouteMetric → n.routes.Covers r

theorem flatAnswer_destination {target peer : NodeId} (h : n.flatAnswer target peer = some r) :
    r.destination ≠ n.config.node := by
  unfold flatAnswer at h
  dsimp only at h
  split at h
  · rename_i hc
    cases h
    simp only [Bool.and_eq_true, bne_iff_ne] at hc
    exact hc.1.1.2
  · cases h

theorem emits_answerFlatRequest (n : RouteNode cap σ) (request : RouteRequestPayload)
    (peer : NodeId) (now : MonotonicMs) (hflat : n.gatewayScoped = false) :
    Emits (n.FlatAnswerOk request.target peer) n (n.answerFlatRequest S request peer now) := by
  unfold answerFlatRequest
  split
  · exact .refl _ n
  · unfold enqueueRouteRecords
    split
    · exact .refl _ n
    · refine n.emits_enqueueFrame _ now ⟨fun hcov _ r hr hfin => ?_, fun hok r hr hc => ?_⟩
      · refine hcov r (mem_cons_of_mem _ ?_) ⟨flatAnswer_destination hr, hfin⟩
        exact Option.mem_toList.mpr hr
      · rcases mem_cons.mp hr with rfl | hr
        · exact absurd rfl hc.1
        · exact hok hflat r (Option.mem_toList.mp hr) hc.2

theorem emits_handleRouteRequest (n : RouteNode cap σ) (request : RouteRequestPayload)
    (peer : NodeId) (now : MonotonicMs) :
    Emits (n.FlatAnswerOk request.target peer) n (n.handleRouteRequest S request peer now) := by
  unfold handleRouteRequest
  split
  · exact .refl _ n
  · split
    · exact .refl _ n
    · split
      · rename_i hflat
        exact n.emits_answerFlatRequest request peer now (by simpa using hflat)
      · rename_i hscoped
        -- under the scoped profile the condition on flat answers is empty
        have htrue : n.FlatAnswerOk request.target peer ↔ True :=
          iff_true_intro fun hflat => absurd hflat (by simpa using hscoped)
        rw [htrue]
        split
        · split
          · exact .refl _ n
          · exact (emits_considerRecord _ _ _ n _).trans (emits_updateNeighbor _ _ _)
        · split
          · exact .refl _ n
          · split
            · exact .refl _ n
            · split
              · exact .refl _ n
              · dsimp only
                rename_i i _
                have hseen : Emits True n { n with
                    routeRequestSeen := n.routeRequestSeen.set i ⟨request.requester,
                      request.requestId, request.kind, peer, now + kRouteRequestSeenMs⟩ } :=
                  emits_of_quiet rfl (fun h => h) (fun h => h) rfl
                have hstart := fun link => (hseen.trans
                  (emits_considerRecord peer link now _ request.record)).trans
                    (emits_scanSelectionChanges _ now)
                split
                · exact (hstart _).trans (emits_handleDiscover _ request peer now)
                · exact (hstart _).trans (emits_handleReply _ request now)

/-! ## Whole runs -/

/-- What a node does with its routes. The queueing calls take any argument at any time; what the
node's other code does between them is in `environment` and `markScopedDirty`. -/
inductive Event (σ : Type)
  | applyRouteRecords (records : List RouteAdvertisement) (peer : NodeId) (now : MonotonicMs)
      (pairwiseAuthenticated : Bool)
  | handleRouteRequest (request : RouteRequestPayload) (peer : NodeId) (now : MonotonicMs)
  | queueRouteUpdate (neighbor : NodeId) (now : MonotonicMs)
  | queueScopedUpdate (neighbor extra : NodeId) (now : MonotonicMs)
  | queueBroadcastRouteUpdate (now : MonotonicMs)
  | emitUpward (cycle : UpwardCycle) (now : MonotonicMs) (maxFrames : Nat)
  | emitUpwardDirty (parent : NodeId) (now : MonotonicMs)
  | emitUpwardRetractions (parent : NodeId) (now : MonotonicMs)
  | queueOwnRequest (peer : NodeId) (kind : RouteRequestKind) (ttl : UInt8) (target : NodeId)
      (requestId : UInt32) (now : MonotonicMs)
  | scanSelectionChanges (now : MonotonicMs)
  | consider (ad : RouteAdvertisement) (nextHop : NodeId) (link : RouteMetric)
      (now life : MonotonicMs)
  | withdraw (destination nextHop : NodeId) (now : MonotonicMs)
  | invalidateNextHop (nextHop : NodeId) (now : MonotonicMs) (hold : Bool)
  | updateLinkCost (nextHop : NodeId) (cost : RouteMetric) (now : MonotonicMs)
  | noteNextHopBusy (nextHop : NodeId) (since : MonotonicMs)
  | clearNextHopBusy (nextHop : NodeId)
  | evaluate (now : MonotonicMs)
  | expire (now : MonotonicMs)
  | reclaimTombstone
  | markScopedDirty (destination : NodeId)
  | clearScopedDirty
  | environment (scheduler : σ) (neighbors : Pool Neighbor kNeighborCapacity) (relayEnabled : Bool)
      (selfRouteSequence : RouteSequence)
      (routeRequestSeen : Pool RouteRequestSeen kRouteRequestSeenCapacity)

variable (S) in
/-- The node after an event. -/
def apply (n : RouteNode cap σ) : Event σ → RouteNode cap σ
  | .applyRouteRecords records peer now pairwise => n.applyRouteRecords records peer now pairwise
  | .handleRouteRequest request peer now => n.handleRouteRequest S request peer now
  | .queueRouteUpdate neighbor now => (n.queueRouteUpdate S neighbor now).1
  | .queueScopedUpdate neighbor extra now => (n.queueScopedUpdate S neighbor extra now).1
  | .queueBroadcastRouteUpdate now => (n.queueBroadcastRouteUpdate S now).1
  | .emitUpward cycle now maxFrames => (n.emitUpward S cycle now maxFrames).1
  | .emitUpwardDirty parent now => n.emitUpwardDirty S parent now
  | .emitUpwardRetractions parent now => n.emitUpwardRetractions S parent now
  | .queueOwnRequest peer kind ttl target requestId now =>
    (n.queueRouteRequest S peer (n.ownRequest kind ttl target requestId) now).1
  | .scanSelectionChanges now => n.scanSelectionChanges now
  | .consider ad nextHop link now life =>
    { n with routes := (n.routes.consider ad nextHop link now life).1 }
  | .withdraw destination nextHop now =>
    { n with routes := (n.routes.withdraw destination nextHop now).1 }
  | .invalidateNextHop nextHop now hold =>
    { n with routes := n.routes.invalidateNextHop nextHop now hold }
  | .updateLinkCost nextHop cost now =>
    { n with routes := (n.routes.updateLinkCost nextHop cost now).1 }
  | .noteNextHopBusy nextHop since =>
    { n with routes := n.routes.noteNextHopBusy nextHop since }
  | .clearNextHopBusy nextHop => { n with routes := n.routes.clearNextHopBusy nextHop }
  | .evaluate now => { n with routes := n.routes.evaluate now }
  | .expire now => { n with routes := (n.routes.expire now).1 }
  | .reclaimTombstone => { n with routes := n.routes.reclaimTombstone.1 }
  | .markScopedDirty destination => n.markScopedDirty destination
  | .clearScopedDirty => { n with scopedDirty := [], scopedDirtyOverflow := false }
  | .environment scheduler neighbors relayEnabled selfRouteSequence routeRequestSeen =>
    { n with
      scheduler := scheduler
      neighbors := neighbors
      relayEnabled := relayEnabled
      selfRouteSequence := selfRouteSequence
      routeRequestSeen := routeRequestSeen }

/-- When the frames that an event queues are covered. -/
def Ok (n : RouteNode cap σ) : Event σ → Prop
  | .queueRouteUpdate neighbor _ => n.FlatUpdateOk neighbor
  | .handleRouteRequest request peer _ => n.FlatAnswerOk request.target peer
  | _ => True

/-- One event. The queued frames are those of this event alone. -/
def step (S : TxScheduler σ) (n : RouteNode cap σ) (e : Event σ) : RouteNode cap σ :=
  { n with queued := [] }.apply S e

/-- A node from its start with an empty table. Its outputs are the frames that it queues, each with
the table that the queueing call leaves. -/
def announcements (S : TxScheduler σ) :
    Machine (RouteNode cap σ) (Event σ) (RouteFrame × RouteTable cap) where
  Init n := n.routes.entries = Pool.empty ∧ n.scopedDirty = [] ∧ n.queued = []
  Enabled _ _ := True
  next := step S
  out n e := (step S n e).queued

/-- One event from a node with unique table keys and a dirty list without repetition. -/
theorem emits_apply (n : RouteNode cap σ) (e : Event σ) (hu : n.routes.UniqueKeys)
    (hdirty : n.scopedDirty.Nodup) : Emits (n.Ok e) n (n.apply S e) := by
  cases e with
  | applyRouteRecords records peer now pairwise => exact n.emits_applyRouteRecords _ _ _ _
  | handleRouteRequest request peer now => exact n.emits_handleRouteRequest request peer now
  | queueRouteUpdate neighbor now => exact n.emits_queueRouteUpdate neighbor now hu
  | queueScopedUpdate neighbor extra now => exact n.emits_queueScopedUpdate neighbor extra now
  | queueBroadcastRouteUpdate now => exact n.emits_queueBroadcastRouteUpdate now
  | emitUpward cycle now frames => exact n.emits_emitUpward cycle now frames hu
  | emitUpwardDirty parent now => exact n.emits_emitUpwardDirty parent now hdirty
  | emitUpwardRetractions parent now => exact n.emits_emitUpwardRetractions parent now
  | queueOwnRequest peer kind ttl target id now =>
    exact n.emits_queueRouteRequest peer _ now n.good_self
  | scanSelectionChanges now => exact n.emits_scanSelectionChanges now
  | consider ad hop link now life =>
    exact emits_of_quiet rfl (·.consider ad hop link now life) (fun h => h) rfl
  | withdraw d hop now => exact emits_of_quiet rfl (·.withdraw d hop now) (fun h => h) rfl
  | invalidateNextHop hop now hold =>
    exact emits_of_quiet rfl (·.invalidateNextHop hop now hold) (fun h => h) rfl
  | updateLinkCost hop cost now =>
    exact emits_of_quiet rfl (·.updateLinkCost hop cost now) (fun h => h) rfl
  | noteNextHopBusy hop since =>
    exact emits_of_quiet rfl (·.noteNextHopBusy hop since) (fun h => h) rfl
  | clearNextHopBusy hop => exact emits_of_quiet rfl (·.clearNextHopBusy hop) (fun h => h) rfl
  | evaluate now => exact emits_of_quiet rfl (·.evaluate now) (fun h => h) rfl
  | expire now => exact emits_of_quiet rfl (·.expire now) (fun h => h) rfl
  | reclaimTombstone => exact emits_of_quiet rfl (·.reclaimTombstone) (fun h => h) rfl
  | markScopedDirty d => exact n.emits_markScopedDirty d
  | clearScopedDirty => exact emits_of_quiet rfl (fun h => h) (fun _ => nodup_nil) rfl
  | environment => exact emits_of_quiet rfl (fun h => h) (fun h => h) rfl

theorem run_invariant {h : List (RouteFrame × RouteTable cap)}
    (hr : (announcements S).Run n h) : n.routes.UniqueKeys ∧ n.scopedDirty.Nodup := by
  refine hr.invariant (I := fun n _ => n.routes.UniqueKeys ∧ n.scopedDirty.Nodup) ?_ ?_
  · rintro n ⟨hentries, hdirty, _⟩
    rw [hdirty, RouteTable.UniqueKeys, hentries]
    exact ⟨Pool.keyUnique_empty _, nodup_nil⟩
  · rintro n _ e ⟨hu, hdirty⟩ _
    have hemit := emits_apply (S := S) { n with queued := [] } e hu hdirty
    exact ⟨hemit.unique hu, hemit.dirty hdirty⟩

/-- A scheduler with room for every frame. -/
def acceptAll : TxScheduler Unit where
  enqueue _ _ _ := .ok ()
  full _ := false

/-- A fresh flat node 1 with one group root. -/
def freshNode (root : NodeId) : RouteNode 8 Unit where
  config := { node := 1, groupRoots := fun i => if i.val = 0 then root else kInvalidNodeId }
  scheduler := ()

/-- The neighbors 2 and 3, both active. -/
def twoNeighbors : Pool Neighbor kNeighborCapacity :=
  ⟨fun i => if i.val = 0 then some { node := 2, active := true }
    else if i.val = 1 then some { node := 3, active := true } else none⟩

/-- Neighbor 3 announces routes to the given destinations. -/
def learnFrom (destinations : List NodeId) : List (Event Unit) :=
  [.environment () twoNeighbors true 1 Pool.empty,
    .applyRouteRecords (destinations.map fun d => ⟨d, 1, 1, 1⟩) 3 0 true]

/-- The node after neighbor 3 announced the destinations. -/
def taughtNode (root : NodeId) (destinations : List NodeId) : RouteNode 8 Unit :=
  ((announcements acceptAll).exec (freshNode root) [] (learnFrom destinations)).1

theorem run_taughtNode (root : NodeId) (destinations : List NodeId) :
    ∃ h, (announcements acceptAll).Run (taughtNode root destinations) h := by
  have hinit : (announcements acceptAll).Init (freshNode root) := ⟨rfl, rfl, rfl⟩
  exact ⟨_, Machine.run_exec hinit (learnFrom destinations) ⟨trivial, trivial, trivial⟩⟩

/-- A pull for destination 4 that neighbor 2 sends. -/
def pullFour : Event Unit :=
  .handleRouteRequest { kind := .neighbor, ttl := 1, requester := 2, target := 4 } 2 0

end RouteLoom.RouteNode
