import RouteLoom.Routing.Table
import Mathlib.Data.List.OfFn

/-!
# How a node puts route records on the air

The parts of `MeshNode` that queue route records: the flat update with its group-root prefix
(`node_route.cpp`), the gateway-scoped update, the broadcast update, the upward change records, and
the answers to a route request (`route_scale.cpp`).

A queued frame keeps its records as data instead of bytes. The transmit scheduler is a parameter.
Besides the node's own state, `queued` remembers every queued frame together with the route table
as the step that built and queued the frame left it.
-/

namespace RouteLoom

open Lib

def kNeighborCapacity : Nat := 32
def kMaxRouteGateways : Nat := 4
def kMaxRouteRecordsPerFrame : Nat := 7
def kRouteUpdateMaxRecords : Nat := 7
def kBroadcastRouteMaxRecords : Nat := 5
def kScopedDirtyCapacity : Nat := 16
def kRouteRequestSeenCapacity : Nat := 32
def kRouteRequestMaxTtl : UInt8 := kDefaultHopLimit
def kControlLifetimeMs : UInt32 := 1000
def kScopedUpdateLifetimeMs : UInt32 := 1000
def kRouteRequestLifetimeMs : UInt32 := 2000
def kRouteRequestSeenMs : UInt64 := 5000
def kRouteRequestWindowMs : UInt64 := 1000
def kRouteRequestForwardsPerWindow : UInt32 := 8
def kScopedInterestPeriods : UInt64 := 2

structure BroadcastRouteRecord where
  route : RouteAdvertisement := {}
  via : NodeId := kInvalidNodeId
  deriving DecidableEq, Repr

inductive RouteRequestKind
  | neighbor | discover | reply
  deriving DecidableEq, Repr

structure RouteRequestPayload where
  kind : RouteRequestKind := .neighbor
  ttl : UInt8 := 1
  requester : NodeId := kInvalidNodeId
  target : NodeId := kInvalidNodeId
  requestId : UInt32 := 0
  record : RouteAdvertisement := {}
  deriving DecidableEq, Repr

inductive RoutePayload
  | update (records : List RouteAdvertisement)
  | broadcast (records : List BroadcastRouteRecord)
  | request (payload : RouteRequestPayload)
  deriving DecidableEq, Repr

/-- A route-control frame: type, receiving neighbor, lifetime and content. -/
structure RouteFrame where
  type : FrameType
  peer : NodeId
  lifetimeMs : UInt32
  payload : RoutePayload
  deriving DecidableEq, Repr

/-- The route records a frame carries. -/
def RouteFrame.records (frame : RouteFrame) : List RouteAdvertisement :=
  match frame.payload with
  | .update records => records
  | .broadcast records => records.map (·.route)
  | .request payload => [payload.record]

/-- The transmit scheduler as route emission sees it. -/
structure TxScheduler (σ : Type) where
  enqueue : σ → RouteFrame → MonotonicMs → Except Status σ
  full : σ → Bool

structure RouteConfig where
  node : NodeId
  routeGeneration : RouteGeneration := 1
  routeGateways : Fin kMaxRouteGateways → NodeId := fun _ => kInvalidNodeId
  groupRoots : Fin kMaxRouteGateways → NodeId := fun _ => kInvalidNodeId
  routeLifetimeMs : UInt32 := 15000
  routeAdvertisementPeriodMs : UInt32 := 5000

/-- The neighbor record, as far as routing reads it. The two arms of the source's tree-role union
are separate fields; which one is live follows `gatewayScoped`. -/
structure Neighbor where
  node : NodeId := kInvalidNodeId
  childUntilMs : MonotonicMs := 0
  interestUntilMs : MonotonicMs := 0
  pullTarget : NodeId := kInvalidNodeId
  groupChildUntilMs : Fin kMaxRouteGateways → MonotonicMs := fun _ => 0
  generation : RouteGeneration := 0
  metric : RouteMetric := 1
  linkCost : RouteMetric := 1
  routeCursor : UInt8 := 0
  pullAnswerPending : Bool := false
  active : Bool := false
  deriving Inhabited

structure UpwardCycle where
  parent : NodeId := kInvalidNodeId
  cursor : Nat := 0
  active : Bool := false

structure RouteRequestSeen where
  requester : NodeId := kInvalidNodeId
  requestId : UInt32 := 0
  kind : RouteRequestKind := .neighbor
  previousHop : NodeId := kInvalidNodeId
  expiresAtMs : MonotonicMs := 0

/-- The routing state of a node. -/
structure RouteNode (cap : Nat) (σ : Type) where
  config : RouteConfig
  scheduler : σ
  routes : RouteTable cap := {}
  neighbors : Pool Neighbor kNeighborCapacity := Pool.empty
  relayEnabled : Bool := true
  selfRouteSequence : RouteSequence := 1
  scopedDirty : List NodeId := []
  scopedDirtyOverflow : Bool := false
  scopedDownDirty : Bool := false
  routeRequestSeen : Pool RouteRequestSeen kRouteRequestSeenCapacity := Pool.empty
  routeRequestWindowMs : MonotonicMs := 0
  routeRequestWindowCount : UInt32 := 0
  /-- every frame queued so far, with the table its queueing step left -/
  queued : List (RouteFrame × RouteTable cap) := []

namespace RouteNode

variable {cap : Nat} {σ : Type} (S : TxScheduler σ)

/-! ## Predicates -/

variable (n : RouteNode cap σ) (destination : NodeId) (selection : RouteSelection)
  (receiver parent : NodeId) (request : RouteRequestPayload) (peer neighbor : NodeId)
  (records : List RouteAdvertisement) (nowMs : MonotonicMs)

def gatewayScoped : Bool :=
  (List.ofFn n.config.routeGateways).any (· != kInvalidNodeId)

def isRouteGateway : Bool :=
  destination != kInvalidNodeId && (List.ofFn n.config.routeGateways).any (· == destination)

def findNeighbor (node : NodeId) : Option Neighbor :=
  n.neighbors.find (·.node == node)

/-- Change the neighbor record that `find_neighbor` points at. -/
def updateNeighbor (node : NodeId) (f : Neighbor → Neighbor) : RouteNode cap σ :=
  match n.neighbors.findIdx (·.node == node) with
  | none => n
  | some i =>
    match n.neighbors.slots i with
    | none => n
    | some neighbor => { n with neighbors := n.neighbors.set i (f neighbor) }

def neighborIsChild : Bool :=
  (n.findNeighbor neighbor).any fun record => record.active && record.childUntilMs > nowMs

def neighborActive : Bool :=
  (n.findNeighbor neighbor).any (·.active)

/-- The first active next hop toward a gateway that is not `exclude`. -/
def scopedUplink (exclude : NodeId) : NodeId :=
  (((List.ofFn n.config.routeGateways).filter fun gateway =>
      gateway != kInvalidNodeId && gateway != n.config.node &&
        (n.routes.best gateway).valid && (n.routes.best gateway).nextHop != exclude &&
        n.neighborActive (n.routes.best gateway).nextHop).head?).elim kInvalidNodeId fun gateway =>
    (n.routes.best gateway).nextHop

def upwardEligible : Bool :=
  selection.valid && selection.generation != 0 && selection.destination != n.config.node &&
    !n.isRouteGateway selection.destination && selection.nextHop != parent &&
    n.neighborIsChild selection.nextHop nowMs

def selfRecord : RouteAdvertisement :=
  ⟨n.config.node, n.config.routeGeneration, n.selfRouteSequence, 0⟩

/-! ## Queueing -/

/-- Hand a frame to the scheduler. -/
def enqueue (n : RouteNode cap σ) (frame : RouteFrame) (nowMs : MonotonicMs) :
    RouteNode cap σ × Except Status Unit :=
  match S.enqueue n.scheduler frame nowMs with
  | .error status => (n, .error status)
  | .ok scheduler => ({ n with scheduler := scheduler }, .ok ())

/-- Remember a queued frame with the table its step leaves. -/
def noteQueued (frame : RouteFrame) : RouteNode cap σ :=
  { n with queued := n.queued ++ [(frame, n.routes)] }

/-- Queue a frame whose feasible distances were updated before. -/
def enqueueFrame (frame : RouteFrame) (nowMs : MonotonicMs) :
    RouteNode cap σ × Except Status Unit :=
  match n.enqueue S frame nowMs with
  | (n, .error status) => (n, .error status)
  | (n, .ok _) => (n.noteQueued frame, .ok ())

def enqueueRouteRecords : RouteNode cap σ × Except Status Unit :=
  if records.length == 0 || records.length > kRouteUpdateMaxRecords then
    (n, Status.error .invalidArgument "route record count")
  else
    n.enqueueFrame S ⟨.routeUpdate, neighbor, kScopedUpdateLifetimeMs, .update records⟩ nowMs

def queueRouteRequest (payload : RouteRequestPayload) (nowMs : MonotonicMs) :
    RouteNode cap σ × Except Status Unit :=
  n.enqueueFrame S ⟨.routeRequest, peer, kRouteRequestLifetimeMs, .request payload⟩ nowMs

/-- A request that this node originates: a gateway pull, a flat repair pull or a discovery. -/
def ownRequest (kind : RouteRequestKind) (ttl : UInt8) (target : NodeId) (requestId : UInt32) :
    RouteRequestPayload :=
  { kind := kind, ttl := ttl, requester := n.config.node, target := target, requestId := requestId,
    record := n.selfRecord }

def markAdvertised (n : RouteNode cap σ) (destination : NodeId) : RouteNode cap σ :=
  { n with routes := (n.routes.markAdvertised destination).1 }

def setAnnouncedUp (n : RouteNode cap σ) (destination : NodeId) (announced : Bool) :
    RouteNode cap σ :=
  { n with routes := n.routes.setAnnouncedUp destination announced }

/-! ## The flat update -/

/-- The metric a record toward `receiver` carries: poisoned toward the next hop and while relaying
is off. -/
def poisoned : RouteMetric :=
  if !n.relayEnabled || selection.nextHop == receiver then kInfiniteRouteMetric
  else selection.metric

/-- The group-root record that leads a flat update: a placeholder of generation 0 is skipped, a
lost root is announced at infinity. -/
def rootRecord (root : NodeId) : Option RouteAdvertisement :=
  if root == kInvalidNodeId || root == n.config.node then none
  else
    let selected := n.routes.best root
    if selected.valid then
      if selected.generation == 0 then none
      else some ⟨root, selected.generation, selected.sequence, n.poisoned selected neighbor⟩
    else
      (n.routes.lostRoute root).map fun lost =>
        ⟨root, lost.generation, lost.sequence, kInfiniteRouteMetric⟩

/-- The `append` of `queue_route_update`: refuses when the frame is full. -/
def appendRecord (record : RouteAdvertisement) : Option (List RouteAdvertisement) :=
  if records.length ≥ kMaxRouteRecordsPerFrame then none else some (records ++ [record])

/-- The records before the rotating dump. -/
def flatLead : List RouteAdvertisement :=
  let roots :=
    if n.gatewayScoped then []
    else (List.ofFn n.config.groupRoots).filterMap (n.rootRecord neighbor)
  (n.selfRecord :: roots).foldl (fun records record => (appendRecord records record).getD records) []

/-- The running state of the rotating dump. -/
structure Dump where
  records : List RouteAdvertisement
  index : Nat := 0
  advertisedCount : Nat := 0
  finiteRecords : List NodeId := []
  writerFull : Bool := false

def dumpStep (skip : Nat) (dump : Dump) (selection : RouteSelection) : Dump :=
  if selection.destination == n.config.node then dump
  else
    let counted := { dump with index := dump.index + 1 }
    if dump.index < skip || dump.writerFull then counted
    else
      let advertised := n.poisoned selection neighbor
      match appendRecord dump.records
          ⟨selection.destination, selection.generation, selection.sequence, advertised⟩ with
      | none => { counted with writerFull := true }
      | some records =>
        { counted with
          records := records
          advertisedCount := dump.advertisedCount + 1
          finiteRecords :=
            if advertised != kInfiniteRouteMetric then dump.finiteRecords ++ [selection.destination]
            else dump.finiteRecords }

def lostStep (dump : Dump) (lost : RouteTable.LostRoute) : Dump :=
  if dump.writerFull || lost.destination == n.config.node then dump
  else
    match appendRecord dump.records
        ⟨lost.destination, lost.generation, lost.sequence, kInfiniteRouteMetric⟩ with
    | none => { dump with writerFull := true }
    | some records => { dump with records := records }

/-- Where the rotating dump toward `neighbor` starts. -/
def dumpSkip : Nat :=
  (n.findNeighbor neighbor).elim 0 fun record => record.routeCursor.toNat

/-- The dump of the selected routes behind the leading records. -/
def flatDump : Dump :=
  n.routes.forEachSelected.foldl (n.dumpStep neighbor (n.dumpSkip neighbor))
    { records := n.flatLead neighbor }

def queueRouteUpdate : RouteNode cap σ × Except Status Unit :=
  let dump := n.flatDump neighbor
  let next := n.dumpSkip neighbor + dump.advertisedCount
  let nextCursor : UInt8 := if next ≥ dump.index then 0 else UInt8.ofNat next
  let full := n.routes.forEachLost.foldl n.lostStep dump
  let frame : RouteFrame := ⟨.routeUpdate, neighbor, kControlLifetimeMs, .update full.records⟩
  match n.enqueue S frame nowMs with
  | (n, .error status) => (n, .error status)
  | (n, .ok _) =>
    -- a failed admission moves neither the cursor nor the feasible distances
    let advanced := n.updateNeighbor neighbor fun record => { record with routeCursor := nextCursor }
    ((dump.finiteRecords.foldl markAdvertised advanced).noteQueued frame, .ok ())

/-! ## The gateway-scoped updates -/

/-- One record of the scoped profile, with the feasible distance updated first. -/
def scopedRecord : RouteNode cap σ × Option RouteAdvertisement :=
  let selection := n.routes.best destination
  if selection.valid && selection.generation == 0 then (n, none)
  else if selection.valid then
    let metric := n.poisoned selection receiver
    (if metric != kInfiniteRouteMetric then n.markAdvertised destination else n,
      some ⟨destination, selection.generation, selection.sequence, metric⟩)
  else
    (n, (n.routes.lostRoute destination).map fun lost =>
      ⟨destination, lost.generation, lost.sequence, kInfiniteRouteMetric⟩)

/-- The configured gateways other than this node, each once. -/
def baseGateways : List NodeId :=
  ((List.finRange kMaxRouteGateways).filter fun i =>
    let gateway := n.config.routeGateways i
    gateway != kInvalidNodeId && gateway != n.config.node &&
      !(List.finRange kMaxRouteGateways).any fun j =>
        j < i && n.config.routeGateways j == gateway).map n.config.routeGateways

/-- Build a scoped record and add it to the frame under construction. -/
def pushScoped (state : RouteNode cap σ × List RouteAdvertisement) (destination : NodeId) :
    RouteNode cap σ × List RouteAdvertisement :=
  match state.1.scopedRecord destination receiver with
  | (n, some record) => (n, state.2 ++ [record])
  | (n, none) => (n, state.2)

def appendScopedBase : RouteNode cap σ × List RouteAdvertisement :=
  n.baseGateways.foldl (pushScoped receiver) (n, [n.selfRecord])

def queueScopedUpdate (extra : NodeId) (nowMs : MonotonicMs) :
    RouteNode cap σ × Except Status Unit :=
  let base := n.appendScopedBase neighbor
  let (n, records) :=
    if extra != kInvalidNodeId && extra != n.config.node && !n.isRouteGateway extra &&
        base.2.length < kRouteUpdateMaxRecords then pushScoped neighbor base extra
    else base
  n.enqueueRouteRecords S neighbor records nowMs

def reservedNode (node : NodeId) : Bool :=
  node == kInvalidNodeId || node == kBroadcastNodeId

/-- The shape check of `encode_broadcast_route_update`. -/
def validBroadcastRecords (records : List BroadcastRouteRecord) (sender : NodeId) : Bool :=
  match records with
  | [] => false
  | first :: rest =>
    records.length ≤ kBroadcastRouteMaxRecords && !reservedNode sender &&
      first.route.destination == sender && first.route.metric == 0 &&
      first.via == kInvalidNodeId &&
      records.all (fun record =>
        !reservedNode record.route.destination && record.route.generation != 0) &&
      rest.all (fun record =>
        record.route.metric != 0 &&
          (if record.route.metric == kInfiniteRouteMetric then record.via == kInvalidNodeId
          else !reservedNode record.via && record.via != sender &&
            record.via != record.route.destination)) &&
      decide (records.map (·.route.destination)).Nodup

/-- One gateway of `build_broadcast_records`. Once the batch is unbuildable the records are `none`
and the remaining gateways are not visited. -/
def pushBroadcast (state : RouteNode cap σ × Option (List BroadcastRouteRecord))
    (gateway : NodeId) : RouteNode cap σ × Option (List BroadcastRouteRecord) :=
  match state with
  | (n, none) => (n, none)
  | (n, some records) =>
    if records.length ≥ kBroadcastRouteMaxRecords then (n, none)
    else
      let selection := n.routes.best gateway
      if selection.valid && selection.generation == 0 then (n, some records)
      else if !selection.valid then
        match n.routes.lostRoute gateway with
        | none => (n, some records)
        | some lost =>
          (n, some (records ++
            [⟨⟨gateway, lost.generation, lost.sequence, kInfiniteRouteMetric⟩, kInvalidNodeId⟩]))
      else if !n.relayEnabled then
        (n, some (records ++
          [⟨⟨gateway, selection.generation, selection.sequence, kInfiniteRouteMetric⟩,
            kInvalidNodeId⟩]))
      else if selection.nextHop == gateway then (n, none)
      else
        (n.markAdvertised gateway, some (records ++
          [⟨⟨gateway, selection.generation, selection.sequence, selection.metric⟩,
            selection.nextHop⟩]))

def buildBroadcastRecords : RouteNode cap σ × Option (List BroadcastRouteRecord) :=
  n.baseGateways.foldl pushBroadcast (n, some [⟨n.selfRecord, kInvalidNodeId⟩])

def queueBroadcastRouteUpdate : RouteNode cap σ × Except Status Unit :=
  match n.buildBroadcastRecords with
  | (built, none) => (built, Status.error .invalidState "route broadcast not buildable")
  | (built, some records) =>
    if validBroadcastRecords records built.config.node then
      built.enqueueFrame S
        ⟨.routeUpdate, kBroadcastNodeId, kScopedUpdateLifetimeMs, .broadcast records⟩ nowMs
    else (built, Status.error .invalidArgument "broadcast route records")

/-! ## Upward records -/

/-- The page walk of `emit_upward`: eligible rows before the cursor are skipped, rows beyond a full
frame only set `more`. -/
structure Page where
  records : List RouteAdvertisement
  index : Nat := 0
  taken : Nat := 0
  more : Bool := false

def pageStep (cycle : UpwardCycle) (nowMs : MonotonicMs) (page : Page)
    (selection : RouteSelection) : Page :=
  if !n.upwardEligible selection cycle.parent nowMs then page
  else
    let counted := { page with index := page.index + 1 }
    if page.index < cycle.cursor then counted
    else if page.records.length ≥ kRouteUpdateMaxRecords then { counted with more := true }
    else
      { counted with
        records := page.records ++ [⟨selection.destination, selection.generation,
          selection.sequence,
          if n.relayEnabled then selection.metric else kInfiniteRouteMetric⟩]
        taken := page.taken + 1 }

/-- Update the feasible distance of a finite upward record and note whether it was announced. -/
def announce (record : RouteAdvertisement) : RouteNode cap σ :=
  let finite := record.metric != kInfiniteRouteMetric
  let marked := if finite then n.markAdvertised record.destination else n
  marked.setAnnouncedUp record.destination finite

/-- `emit_upward`: the recursion is on the frames still allowed. Returns the node, the cycle and
the number of frames queued. -/
def emitUpward (n : RouteNode cap σ) (cycle : UpwardCycle) (nowMs : MonotonicMs) :
    (maxFrames : Nat) → RouteNode cap σ × UpwardCycle × Nat
  | 0 => (n, cycle, 0)
  | maxFrames + 1 =>
    if !cycle.active || S.full n.scheduler then (n, cycle, 0)
    else
      let (n, base) := n.appendScopedBase cycle.parent
      let page := n.routes.forEachSelected.foldl (n.pageStep cycle nowMs) { records := base }
      let n := (page.records.drop base.length).foldl announce n
      match n.enqueueRouteRecords S cycle.parent page.records nowMs with
      | (n, .error _) => (n, cycle, 0)
      | (n, .ok _) =>
        let (n, cycle, frames) := emitUpward n
          { cycle with
            cursor := cycle.cursor + page.taken
            active := cycle.active && page.more } nowMs maxFrames
        (n, cycle, frames + 1)

def upwardChangeRecord : RouteNode cap σ × Option RouteAdvertisement :=
  let selection := n.routes.best destination
  if n.upwardEligible selection parent nowMs then
    let record : RouteAdvertisement := ⟨destination, selection.generation, selection.sequence,
      if n.relayEnabled then selection.metric else kInfiniteRouteMetric⟩
    (n.announce record, some record)
  else if !n.routes.announcedUp destination then (n, none)
  else if selection.valid then
    (n.setAnnouncedUp destination false,
      some ⟨destination, selection.generation, selection.sequence, kInfiniteRouteMetric⟩)
  else
    (n.setAnnouncedUp destination false, (n.routes.lostRoute destination).map fun lost =>
      ⟨destination, lost.generation, lost.sequence, kInfiniteRouteMetric⟩)

/-- The frames of `emit_upward_dirty` from a frame under construction on. A full frame is queued
when one more dirty destination is left; the last frame is queued at the end. -/
def emitDirty (parent : NodeId) (nowMs : MonotonicMs) :
    List NodeId → RouteNode cap σ → List RouteAdvertisement → RouteNode cap σ
  | [], n, records => (n.enqueueRouteRecords S parent records nowMs).1
  | destination :: rest, n, records =>
    if records.length ≥ kRouteUpdateMaxRecords then
      match n.enqueueRouteRecords S parent records nowMs with
      | (n, .error _) => n
      | (n, .ok _) =>
        if S.full n.scheduler then n
        else
          let (n, base) := n.appendScopedBase parent
          let (n, record) := n.upwardChangeRecord destination parent nowMs
          emitDirty parent nowMs rest n (base ++ record.toList)
    else
      let (n, record) := n.upwardChangeRecord destination parent nowMs
      emitDirty parent nowMs rest n (records ++ record.toList)

def emitUpwardDirty : RouteNode cap σ :=
  if S.full n.scheduler then n
  else
    let (based, base) := n.appendScopedBase parent
    emitDirty S parent nowMs n.scopedDirty based base

/-- The running state of `emit_upward_retractions`. -/
structure Sweep (cap : Nat) (σ : Type) where
  node : RouteNode cap σ
  records : List RouteAdvertisement
  full : Bool := false

/-- One slot of the sweep; the entry is read when its turn comes. -/
def sweepStep (sweep : Sweep cap σ) (i : Fin cap) : Sweep cap σ :=
  match sweep.node.routes.entries.slots i with
  | none => sweep
  | some entry =>
    let selection := entry.select
    if !selection.valid || sweep.full ||
        !sweep.node.routes.announcedUp selection.destination ||
        sweep.node.upwardEligible selection parent nowMs then sweep
    else
      let retraction : RouteAdvertisement :=
        ⟨selection.destination, selection.generation, selection.sequence, kInfiniteRouteMetric⟩
      if sweep.records.length == kRouteUpdateMaxRecords then
        if S.full sweep.node.scheduler then { sweep with full := true }
        else
          match sweep.node.enqueueRouteRecords S parent sweep.records nowMs with
          | (n, .error _) => { sweep with node := n, full := true }
          | (n, .ok _) =>
            let (n, base) := n.appendScopedBase parent
            { sweep with
              node := n.setAnnouncedUp selection.destination false
              records := base ++ [retraction] }
      else
        { sweep with
          node := sweep.node.setAnnouncedUp selection.destination false
          records := sweep.records ++ [retraction] }

def emitUpwardRetractions : RouteNode cap σ :=
  let (based, base) := n.appendScopedBase parent
  let sweep := (List.finRange cap).foldl (sweepStep S parent nowMs)
    { node := based, records := base }
  if !sweep.full && sweep.records.length > base.length && !S.full sweep.node.scheduler then
    (sweep.node.enqueueRouteRecords S parent sweep.records nowMs).1
  else sweep.node

/-! ## Reception -/

/-- `mark_scoped_dirty`, without the trigger timer it arms. -/
def markScopedDirty : RouteNode cap σ :=
  if n.scopedDirty.contains destination then n
  else if n.scopedDirty.length < kScopedDirtyCapacity then
    { n with scopedDirty := n.scopedDirty ++ [destination] }
  else { n with scopedDirtyOverflow := true }

def noteScopedInterest (neighbor : Neighbor) : Neighbor :=
  { neighbor with
    interestUntilMs :=
      nowMs + kScopedInterestPeriods * n.config.routeAdvertisementPeriodMs.toUInt64 }

/-- A waiting pull for `destination` gets its answer with the next flush. -/
def answerPulls : RouteNode cap σ :=
  { n with
    neighbors := n.neighbors.map fun neighbor =>
      if neighbor.active && neighbor.interestUntilMs > nowMs &&
          neighbor.pullTarget == destination then
        { neighbor with pullAnswerPending := true }
      else neighbor }

/-- What a changed next hop means for the tree: a gateway change goes down, a change below a child
or of an announced destination goes up. -/
def noteTreeChange (previous : RouteSelection) (nowMs : MonotonicMs) : RouteNode cap σ :=
  if selection.valid && previous.valid && selection.nextHop == previous.nextHop then n
  else if n.isRouteGateway destination then { n with scopedDownDirty := true }
  else if (selection.valid && n.neighborIsChild selection.nextHop nowMs) ||
      (previous.valid && n.neighborIsChild previous.nextHop nowMs) ||
      n.routes.announcedUp destination then n.markScopedDirty destination
  else n

/-- One reported selection change under the scoped profile. -/
def noteScopedChange (n : RouteNode cap σ) (change : RouteSelection × RouteSelection) :
    RouteNode cap σ :=
  let (selection, previous) := change
  let destination := if selection.valid then selection.destination else previous.destination
  if destination == kInvalidNodeId || destination == n.config.node then n
  else if selection.valid && (!previous.valid || selection.sequence != previous.sequence) then
    (n.answerPulls destination nowMs).noteTreeChange destination selection previous nowMs
  else n.noteTreeChange destination selection previous nowMs

/-- `scan_selection_changes`. In the flat profile a change only arms the trigger timer. -/
def scanSelectionChanges : RouteNode cap σ :=
  let (routes, changes) := n.routes.forEachSelectedChange nowMs
  let scanned := { n with routes := routes }
  if n.gatewayScoped then changes.foldl (noteScopedChange nowMs) scanned else scanned

/-- Tree-role inference from the gateway records of a neighbor. -/
def noteScopedUpdate : RouteNode cap σ :=
  if !n.gatewayScoped then n
  else
    let relevant := records.filter fun record =>
      n.isRouteGateway record.destination && record.destination != peer
    let wasChild := (n.findNeighbor peer).any (·.childUntilMs > nowMs)
    if relevant.any (·.metric == kInfiniteRouteMetric) then
      let leased := n.updateNeighbor peer fun neighbor =>
        { neighbor with childUntilMs := nowMs + n.config.routeLifetimeMs.toUInt64 }
      if wasChild then leased
      else
        let subtree := (leased.routes.forEachSelected.filter fun selection =>
          selection.nextHop == peer && selection.destination != peer).map (·.destination)
        ((peer :: subtree).foldl markScopedDirty leased).updateNeighbor peer fun neighbor =>
          { neighbor with
            pullTarget := if neighbor.pullAnswerPending then neighbor.pullTarget else kInvalidNodeId
            pullAnswerPending := true }
    else if relevant.any (·.metric != kInfiniteRouteMetric) then
      let cleared := n.updateNeighbor peer fun neighbor => { neighbor with childUntilMs := 0 }
      if wasChild then
        ((cleared.routes.forEachSelected.filter fun selection =>
          selection.nextHop == peer && cleared.routes.announcedUp selection.destination).map
            (·.destination)).foldl markScopedDirty cleared
      else cleared
    else n

/-- The per-root child leases of the flat profile. -/
def noteFlatGroupUpdate : RouteNode cap σ :=
  if n.gatewayScoped then n
  else
    n.updateNeighbor peer fun neighbor =>
      { neighbor with
        groupChildUntilMs := fun i =>
          let root := n.config.groupRoots i
          if root == kInvalidNodeId || root == peer then neighbor.groupChildUntilMs i
          else
            let mine := records.filter (·.destination == root)
            if mine.any (·.metric == kInfiniteRouteMetric) then
              nowMs + n.config.routeLifetimeMs.toUInt64
            else if mine.any (·.metric != kInfiniteRouteMetric) then 0
            else neighbor.groupChildUntilMs i }

/-- Hand one received record to the table, unless it is about this node. -/
def considerRecord (linkCost : RouteMetric) (nowMs : MonotonicMs) (n : RouteNode cap σ)
    (record : RouteAdvertisement) : RouteNode cap σ :=
  if record.destination == n.config.node then n
  else
    { n with
      routes := (n.routes.consider record peer linkCost nowMs
        n.config.routeLifetimeMs.toUInt64).1 }

/-- The restart scan: the highest self generation in the records, and whether it is a restart. -/
def noteGeneration (state : RouteGeneration × Bool) (record : RouteAdvertisement) :
    RouteGeneration × Bool :=
  if record.destination == peer && record.generation > state.1 then
    (record.generation, state.1 != 0)
  else state

/-- A restarted neighbor: its routes and child leases are forgotten. -/
def noteRestart (pairwiseAuthenticated : Bool) : RouteNode cap σ :=
  { n with routes := n.routes.invalidateNextHop peer nowMs false }.updateNeighbor peer fun record =>
    { record with
      linkCost := if pairwiseAuthenticated then record.metric else record.linkCost
      groupChildUntilMs := if n.gatewayScoped then record.groupChildUntilMs else fun _ => 0 }

def applyRouteRecords (peer : NodeId) (nowMs : MonotonicMs) (pairwiseAuthenticated : Bool) :
    RouteNode cap σ :=
  match n.findNeighbor peer with
  | none => n
  | some neighbor =>
    if !neighbor.active then n
    else
      let (generation, restarted) :=
        records.foldl (noteGeneration peer) (neighbor.generation, false)
      let n := n.updateNeighbor peer fun record => { record with generation := generation }
      let n := if restarted then n.noteRestart peer nowMs pairwiseAuthenticated else n
      let n := n.noteScopedUpdate peer records nowMs
      let n := n.noteFlatGroupUpdate peer records nowMs
      let linkCost := (n.findNeighbor peer).elim 1 (·.linkCost)
      records.foldl (considerRecord peer linkCost nowMs) n

/-- The Discover forwarding budget. -/
def routeRequestForwardBudget : RouteNode cap σ × Bool :=
  let n :=
    if nowMs - n.routeRequestWindowMs ≥ kRouteRequestWindowMs then
      { n with routeRequestWindowMs := nowMs, routeRequestWindowCount := 0 }
    else n
  if n.routeRequestWindowCount ≥ kRouteRequestForwardsPerWindow then (n, false)
  else ({ n with routeRequestWindowCount := n.routeRequestWindowCount + 1 }, true)

/-- The target record of the flat answer to `peer`, with split horizon. -/
def flatAnswer (target peer : NodeId) : Option RouteAdvertisement :=
  let route := n.routes.best target
  if route.valid && target != n.config.node && route.nextHop != peer && n.relayEnabled then
    some ⟨target, route.generation, route.sequence, route.metric⟩
  else none

/-- The flat answer to a one-hop pull: the self record, and the target record if there is one. -/
def answerFlatRequest : RouteNode cap σ :=
  if request.kind != .neighbor || request.requester != peer || request.ttl != 1 then n
  else
    (n.enqueueRouteRecords S peer (n.selfRecord :: (n.flatAnswer request.target peer).toList)
      nowMs).1

/-- Where a Discover goes on: toward the target if it is known, else toward a gateway. -/
def discoverHop (target peer : NodeId) : NodeId :=
  let toward := n.routes.best target
  if toward.valid && toward.nextHop != peer then toward.nextHop else n.scopedUplink peer

/-- A Discover that reached this node: answer as the target, or pass it on with our own route to
the requester. -/
def handleDiscover : RouteNode cap σ :=
  if request.target == n.config.node then
    (n.queueRouteRequest S peer
      { kind := .reply, ttl := kRouteRequestMaxTtl, requester := request.requester,
        target := n.config.node, requestId := request.requestId, record := n.selfRecord } nowMs).1
  else if request.ttl ≤ 1 then n
  else
    match n.routeRequestForwardBudget nowMs with
    | (n, false) => n
    | (n, true) =>
      let next := n.discoverHop request.target peer
      if next == kInvalidNodeId then n
      else
        let (n, record) := n.scopedRecord request.requester next
        let forward := { request with
          ttl := request.ttl - 1
          record := record.getD ⟨request.requester, request.record.generation,
            request.record.sequence, kInfiniteRouteMetric⟩ }
        (n.queueRouteRequest S next forward nowMs).1

/-- A Reply on its way back to the requester. -/
def handleReply : RouteNode cap σ :=
  if request.requester == n.config.node then n
  else
    match n.routeRequestSeen.find fun seen => seen.requester == request.requester &&
        seen.requestId == request.requestId && seen.kind == .discover with
    | none => n
    | some pointer =>
      if pointer.previousHop == kInvalidNodeId || request.ttl ≤ 1 then n
      else
        match n.scopedRecord request.target pointer.previousHop with
        | (n, none) => n
        | (n, some record) =>
          if record.metric == kInfiniteRouteMetric then n
          else
            (n.queueRouteRequest S pointer.previousHop
              { request with ttl := request.ttl - 1, record := record } nowMs).1

def handleRouteRequest : RouteNode cap σ :=
  match n.findNeighbor peer with
  | none => n
  | some neighbor =>
    if !neighbor.active then n
    else if !n.gatewayScoped then n.answerFlatRequest S request peer nowMs
    else if request.kind == .neighbor then
      if request.requester != peer then n
      else
        (considerRecord peer neighbor.linkCost nowMs n request.record).updateNeighbor peer
          fun record =>
            { n.noteScopedInterest nowMs record with
              pullTarget := request.target, pullAnswerPending := true }
    else if request.requester == n.config.node && request.kind == .discover then n
    else if (n.routeRequestSeen.find fun seen => seen.requester == request.requester &&
        seen.requestId == request.requestId && seen.kind == request.kind).isSome then n
    else
      match n.routeRequestSeen.freeIdx with
      | none => n
      | some i =>
        let n := { n with
          routeRequestSeen := n.routeRequestSeen.set i
            ⟨request.requester, request.requestId, request.kind, peer,
              nowMs + kRouteRequestSeenMs⟩ }
        let n := considerRecord peer neighbor.linkCost nowMs n request.record
        let n := n.scanSelectionChanges nowMs
        if request.kind == .discover then n.handleDiscover S request peer nowMs
        else n.handleReply S request nowMs

end RouteNode

end RouteLoom
