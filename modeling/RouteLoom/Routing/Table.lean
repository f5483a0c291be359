import RouteLoom.Basic
import RouteLoom.Lib.Pool
import RouteLoom.Lib.Serial

/-!
# The route table

`RouteTable` of `routing.hpp` and `routing.cpp`: per destination up to three candidates, the
feasible distance that was last advertised, a committed next hop with its switching discipline, and
a tombstone that keeps the feasible distance after the last candidate is gone.

A pointer into the table is a slot index, and a member function that changes an entry returns the
new one. The capacity `cap` is the profile's `kMaxRouteEntries`.
-/

namespace RouteLoom

open Lib

abbrev RouteMetric := UInt16
abbrev RouteSequence := UInt16
abbrev RouteGeneration := UInt32

def kInfiniteRouteMetric : RouteMetric := 0xFFFF
def kRouteCandidatesPerDestination : Nat := 3
def kRouteTombstoneDwellMs : UInt32 := 60000
def kRouteHoldDownMs : UInt64 := 500
def kImprovementHoldMs : UInt64 := 10000
def kSwitchHoldMs : UInt64 := 5000
def kSevereBusyMs : UInt64 := 2000
def kImprovementAdGapMs : UInt64 := 2000
def kImprovementJitterMs : UInt64 := 2000
def kBusyLinkCapacity : Nat := 32

structure RouteAdvertisement where
  destination : NodeId := kInvalidNodeId
  generation : RouteGeneration := 0
  sequence : RouteSequence := 0
  metric : RouteMetric := kInfiniteRouteMetric
  deriving DecidableEq, Repr, Inhabited

structure RouteCandidate where
  nextHop : NodeId := kInvalidNodeId
  expiresAtMs : MonotonicMs := 0
  sequence : RouteSequence := 0
  metric : RouteMetric := kInfiniteRouteMetric
  /-- the metric the next hop advertised, without our link cost -/
  advertised : RouteMetric := kInfiniteRouteMetric
  feasible : Bool := false
  valid : Bool := false
  deriving DecidableEq, Repr, Inhabited

structure RouteSelection where
  destination : NodeId := kInvalidNodeId
  nextHop : NodeId := kInvalidNodeId
  generation : RouteGeneration := 0
  sequence : RouteSequence := 0
  metric : RouteMetric := kInfiniteRouteMetric
  valid : Bool := false
  deriving DecidableEq, Repr, Inhabited

inductive RouteUpdateResult
  | accepted | updated | withdrawn | infeasible | staleGeneration | heldDown | ignored | noCapacity
  deriving DecidableEq, Repr

/-- The comparison and its `ambiguous` output. -/
def routeSequenceNewer (candidate reference : RouteSequence) : Bool × Bool :=
  (Serial.newer candidate reference, Serial.ambiguous candidate reference)

def routeMetricAdd (advertised linkCost : RouteMetric) : RouteMetric :=
  if advertised == kInfiniteRouteMetric || linkCost == kInfiniteRouteMetric then
    kInfiniteRouteMetric
  else
    let sum : UInt32 := advertised.toUInt32 + linkCost.toUInt32
    if sum ≥ kInfiniteRouteMetric.toUInt32 then kInfiniteRouteMetric else sum.toUInt16

structure FeasibleDistance where
  sequence : RouteSequence := 0
  metric : RouteMetric := kInfiniteRouteMetric
  valid : Bool := false
  deriving DecidableEq, Repr, Inhabited

structure LastSelection where
  nextHop : NodeId := kInvalidNodeId
  sequence : RouteSequence := 0
  metric : RouteMetric := kInfiniteRouteMetric
  valid : Bool := false
  deriving DecidableEq, Repr, Inhabited

def LastSelection.from (selection : RouteSelection) : LastSelection :=
  ⟨selection.nextHop, selection.sequence, selection.metric, selection.valid⟩

structure RouteEntry where
  destination : NodeId := kInvalidNodeId
  candidates : Fin kRouteCandidatesPerDestination → RouteCandidate := fun _ => {}
  lastSelected : LastSelection := {}
  holdNextHop : NodeId := kInvalidNodeId
  holdUntilMs : MonotonicMs := 0
  tombstoneExpiresAtMs : MonotonicMs := 0
  committedNextHop : NodeId := kInvalidNodeId
  improvementNextHop : NodeId := kInvalidNodeId
  improvementSinceMs : MonotonicMs := 0
  switchHoldUntilMs : MonotonicMs := 0
  improvementAdMs : MonotonicMs := 0
  generation : RouteGeneration := 0
  feasible : FeasibleDistance := {}
  sequenceRequestNeeded : Bool := false
  announcedUp : Bool := false
  deriving Inhabited

structure BusyLink where
  nextHop : NodeId := kInvalidNodeId
  sinceMs : MonotonicMs := 0

/-! ## One entry -/

namespace RouteEntry

variable (entry : RouteEntry)

/-- The candidates in array order. -/
def candidateList : List RouteCandidate :=
  (List.finRange kRouteCandidatesPerDestination).map entry.candidates

/-- `RouteTable::feasible`. -/
def isFeasible (sequence : RouteSequence) (metric : RouteMetric) : Bool :=
  if !entry.feasible.valid then metric != kInfiniteRouteMetric
  else
    let (newer, ambiguous) := routeSequenceNewer sequence entry.feasible.sequence
    if newer then true
    else if ambiguous then false
    else sequence == entry.feasible.sequence && metric < entry.feasible.metric

def hasCandidates : Bool :=
  entry.candidateList.any (·.valid)

def armTombstone (tombstoneDwellMs : UInt32) (nowMs : MonotonicMs) : RouteEntry :=
  if !entry.hasCandidates && entry.tombstoneExpiresAtMs == 0 then
    { entry with tombstoneExpiresAtMs := nowMs + tombstoneDwellMs.toUInt64 }
  else entry

/-- One step of the eviction scan over a full, all-feasible candidate array. -/
def worseSlot (worst i : Fin kRouteCandidatesPerDestination) : Fin kRouteCandidatesPerDestination :=
  let candidate := entry.candidates i
  let worstCandidate := entry.candidates worst
  let candidateCommitted := candidate.nextHop == entry.committedNextHop
  let worstCommitted := worstCandidate.nextHop == entry.committedNextHop
  if candidateCommitted && !worstCommitted then worst
  else if !candidateCommitted && worstCommitted then i
  else
    let (candidateNewer, _) := routeSequenceNewer candidate.sequence worstCandidate.sequence
    if !candidateNewer &&
        (candidate.sequence != worstCandidate.sequence || candidate.metric > worstCandidate.metric)
    then i else worst

/-- The slot for a candidate via `nextHop`: its own, a free one, an infeasible one, the worst. -/
def candidateSlot (nextHop : NodeId) : Fin kRouteCandidatesPerDestination :=
  match firstSlot fun i => (entry.candidates i).valid && (entry.candidates i).nextHop == nextHop with
  | some i => i
  | none =>
    match firstSlot fun i => !(entry.candidates i).valid with
    | some i => i
    | none =>
      match firstSlot fun i => !(entry.candidates i).feasible ||
          !entry.isFeasible (entry.candidates i).sequence (entry.candidates i).advertised with
      | some i => i
      | none =>
        (List.finRange kRouteCandidatesPerDestination).foldl entry.worseSlot (⟨0, by decide⟩)

/-- Valid, flagged feasible, finite, and feasible against the current feasible distance. -/
def live (candidate : RouteCandidate) : Bool :=
  candidate.valid && candidate.feasible && candidate.metric != kInfiniteRouteMetric &&
    entry.isFeasible candidate.sequence candidate.advertised

def selectable (hop : NodeId) : Option RouteCandidate :=
  if hop == kInvalidNodeId then none
  else entry.candidateList.find? fun candidate => candidate.nextHop == hop && entry.live candidate

/-- One step of the best-candidate scan: the newer sequence wins, then the smaller metric. -/
def betterOf (selected candidate : RouteCandidate) : RouteCandidate :=
  let (newer, ambiguous) := routeSequenceNewer candidate.sequence selected.sequence
  if newer then candidate
  else if !ambiguous && candidate.sequence == selected.sequence &&
      candidate.metric < selected.metric then candidate
  else selected

def bestCandidate (exclude : NodeId) : Option RouteCandidate :=
  (entry.candidateList.filter fun candidate =>
      candidate.nextHop != exclude && entry.live candidate).foldl
    (fun selected candidate => some (selected.elim candidate (betterOf · candidate))) none

/-- The candidate `select` reads: the committed hop while selectable, else the best one. -/
def chosen : Option RouteCandidate :=
  (entry.selectable entry.committedNextHop).or (entry.bestCandidate kInvalidNodeId)

def select : RouteSelection :=
  match entry.chosen with
  | none => {}
  | some candidate =>
    { destination := entry.destination, nextHop := candidate.nextHop,
      generation := entry.generation, sequence := candidate.sequence,
      metric := candidate.metric, valid := true }

/-- After a candidate loss: ask for a newer sequence when nothing is selectable. -/
def requestIfLost (removed : Bool) : RouteEntry :=
  if removed && !entry.select.valid then { entry with sequenceRequestNeeded := true } else entry

/-- Commit `nextHop` and start the post-switch hold. -/
def switchTo (nextHop : NodeId) (nowMs : MonotonicMs) : RouteEntry :=
  { entry with
    committedNextHop := nextHop
    switchHoldUntilMs := nowMs + kSwitchHoldMs
    improvementNextHop := kInvalidNodeId }

/-- Repair: commit the raw best at once; the hold applies only when a committed hop is replaced. -/
def repair (nowMs : MonotonicMs) : RouteEntry :=
  let wasCommitted := entry.committedNextHop != kInvalidNodeId
  let raw := entry.bestCandidate kInvalidNodeId
  { entry with
    committedNextHop := raw.elim kInvalidNodeId (·.nextHop)
    switchHoldUntilMs :=
      if raw.isSome && wasCommitted then nowMs + kSwitchHoldMs else entry.switchHoldUntilMs
    improvementNextHop := kInvalidNodeId }

/-- Rewrite every valid candidate that `p` accepts; the flag says whether there was one. -/
def rewriteCandidates (p : RouteCandidate → Bool) (f : RouteCandidate → RouteCandidate) :
    RouteEntry × Bool :=
  ({ entry with
      candidates := fun i =>
        if (entry.candidates i).valid && p (entry.candidates i) then f (entry.candidates i)
        else entry.candidates i },
    entry.candidateList.any fun candidate => candidate.valid && p candidate)

end RouteEntry

/-! ## The table -/

structure RouteTable (cap : Nat) where
  entries : Pool RouteEntry cap := Pool.empty
  busyLinks : Pool BusyLink kBusyLinkCapacity := Pool.empty
  selfId : NodeId := kInvalidNodeId
  tombstoneDwellMs : UInt32 := kRouteTombstoneDwellMs

namespace RouteTable

variable {cap : Nat}

variable (table : RouteTable cap) (destination nextHop : NodeId) (nowMs : MonotonicMs)
  (entry : RouteEntry) (advertisement : RouteAdvertisement)

/-- `entries_.find` by destination, as a slot. -/
def findSlot : Option (Fin cap) :=
  table.entries.findIdx fun entry => entry.destination == destination

def find (table : RouteTable cap) (destination : NodeId) : Option RouteEntry :=
  table.entries.find fun entry => entry.destination == destination

/-- The slot and entry for a destination; a new one starts as a default entry with that key. -/
def findOrAllocate : Option (Fin cap × RouteEntry) :=
  if destination == kInvalidNodeId then none
  else
    match table.findSlot destination with
    | some i => (table.entries.slots i).map (i, ·)
    | none => table.entries.freeIdx.map (·, { destination := destination })

def busyLink : Option BusyLink :=
  table.busyLinks.find fun link => link.nextHop == nextHop

def improvementJitter : UInt32 :=
  ((table.selfId * 31 + destination * 17) % (kImprovementJitterMs + 1)).toUInt32

/-- The busy state of a hop has lasted `kSevereBusyMs`. -/
def severelyBusy (link : BusyLink) (nowMs : MonotonicMs) : Bool :=
  nowMs - link.sinceMs ≥ kSevereBusyMs

/-- The improvement gate and hold of `evaluate_entry`, for a raw best that is neither fresher nor
better advertised than the committed candidate. -/
def improve (committed raw : RouteCandidate) (nowMs : MonotonicMs) : RouteEntry :=
  let improvement : Bool :=
    raw.metric.toUInt32 * 5 ≤ committed.metric.toUInt32 * 4 &&
      (committed.metric.toNat : Int) - raw.metric.toNat ≥ 1
  if !improvement then { entry with improvementNextHop := kInvalidNodeId }
  else if entry.improvementNextHop != raw.nextHop then
    { entry with improvementNextHop := raw.nextHop, improvementSinceMs := nowMs }
  else
    let hold := kImprovementHoldMs + (table.improvementJitter entry.destination).toUInt64
    if nowMs - entry.improvementSinceMs ≥ hold && nowMs ≥ entry.switchHoldUntilMs then
      entry.switchTo raw.nextHop nowMs
    else entry

/-- The severe-busy branch: a fresh feasible alternative that is not itself severely busy. -/
def fastRepair (committed : RouteCandidate) (nowMs : MonotonicMs) : RouteEntry :=
  match entry.bestCandidate committed.nextHop with
  | none => entry
  | some alt =>
    if nowMs ≥ entry.switchHoldUntilMs &&
        !(table.busyLink alt.nextHop).any (severelyBusy · nowMs) then
      entry.switchTo alt.nextHop nowMs
    else entry

def evaluateEntry (nowMs : MonotonicMs) : RouteEntry :=
  match entry.selectable entry.committedNextHop with
  | none => entry.repair nowMs
  | some committed =>
    if (table.busyLink committed.nextHop).any (severelyBusy · nowMs) then
      table.fastRepair entry committed nowMs
    else
      match entry.bestCandidate kInvalidNodeId with
      | none => { entry with improvementNextHop := kInvalidNodeId }
      | some raw =>
        if raw.nextHop == committed.nextHop then
          { entry with improvementNextHop := kInvalidNodeId }
        else
          let (newer, ambiguous) := routeSequenceNewer raw.sequence committed.sequence
          if newer || ambiguous then entry.switchTo raw.nextHop nowMs
          else if raw.advertised < committed.advertised then
            if nowMs ≥ entry.switchHoldUntilMs then entry.switchTo raw.nextHop nowMs else entry
          else table.improve entry committed raw nowMs

def evaluate : RouteTable cap :=
  { table with entries := table.entries.map (table.evaluateEntry · nowMs) }

/-- The per-entry work of `update_link_cost`, and whether a candidate was touched. -/
def recost (cost : RouteMetric) (nowMs : MonotonicMs) (entry : RouteEntry) : RouteEntry × Bool :=
  let (rewritten, changed) := entry.rewriteCandidates (·.nextHop == nextHop) fun candidate =>
    let metric := routeMetricAdd candidate.advertised cost
    { candidate with
      metric := metric
      feasible := metric != kInfiniteRouteMetric &&
        entry.isFeasible candidate.sequence candidate.advertised }
  (if changed then table.evaluateEntry rewritten nowMs else rewritten, changed)

def updateLinkCost (cost : RouteMetric) (nowMs : MonotonicMs) : RouteTable cap × Bool :=
  if nextHop == kInvalidNodeId || cost == 0 then (table, false)
  else
    ({ table with entries := table.entries.map fun e => (table.recost nextHop cost nowMs e).1 },
      table.entries.toList.any fun e => (table.recost nextHop cost nowMs e).2)

def noteNextHopBusy (sinceMs : MonotonicMs) : RouteTable cap :=
  if nextHop == kInvalidNodeId then table
  else
    match table.busyLinks.findIdx (·.nextHop == nextHop) with
    | some i => { table with busyLinks := table.busyLinks.set i ⟨nextHop, sinceMs⟩ }
    | none =>
      match table.busyLinks.freeIdx with
      | some i => { table with busyLinks := table.busyLinks.set i ⟨nextHop, sinceMs⟩ }
      | none => table

def clearNextHopBusy : RouteTable cap :=
  match table.busyLinks.findIdx (·.nextHop == nextHop) with
  | some i => { table with busyLinks := table.busyLinks.release i }
  | none => table

/-- What `withdraw` does to the entry of the destination. -/
def withdrawEntry (nextHop : NodeId) (nowMs : MonotonicMs) : RouteEntry × Bool :=
  let (rewritten, removed) := entry.rewriteCandidates (·.nextHop == nextHop) fun candidate =>
    { candidate with
      feasible := false, metric := kInfiniteRouteMetric, advertised := kInfiniteRouteMetric }
  if removed then
    let held := { rewritten with holdNextHop := nextHop, holdUntilMs := nowMs + kRouteHoldDownMs }
    let armed := (held.requestIfLost true).armTombstone table.tombstoneDwellMs nowMs
    (table.evaluateEntry armed nowMs, true)
  else (rewritten, false)

def withdraw : RouteTable cap × Bool :=
  match table.findSlot destination with
  | none => (table, false)
  | some i =>
    match table.entries.slots i with
    | none => (table, false)
    | some entry =>
      let (entry', removed) := table.withdrawEntry entry nextHop nowMs
      ({ table with entries := table.entries.set i entry' }, removed)

/-- The state of an entry after its origin restarted with a higher generation. -/
def restartEntry (generation : RouteGeneration) : RouteEntry :=
  { entry with
    generation := generation
    feasible := {}
    candidates := fun _ => {}
    lastSelected := {}
    holdNextHop := kInvalidNodeId
    holdUntilMs := 0
    tombstoneExpiresAtMs := 0
    sequenceRequestNeeded := false
    committedNextHop := kInvalidNodeId
    improvementNextHop := kInvalidNodeId
    switchHoldUntilMs := 0
    improvementAdMs := 0 }

section

variable (nextHop : NodeId) (linkMetric : RouteMetric)

/-- `consider` from the hold-down check on: learn a finite advertisement of the entry's
generation. -/
def learn (nowMs lifetimeMs : MonotonicMs) : RouteEntry × RouteUpdateResult :=
  if nextHop == entry.holdNextHop && nowMs < entry.holdUntilMs then (entry, .heldDown)
  else
    let total := routeMetricAdd advertisement.metric linkMetric
    let isFeasible := total != kInfiniteRouteMetric &&
      entry.isFeasible advertisement.sequence advertisement.metric
    let slot := entry.candidateSlot nextHop
    let existed := (entry.candidates slot).valid && (entry.candidates slot).nextHop == nextHop
    let candidate : RouteCandidate :=
      { nextHop := nextHop, expiresAtMs := nowMs + lifetimeMs,
        sequence := advertisement.sequence, metric := total, advertised := advertisement.metric,
        feasible := isFeasible, valid := true }
    let stored := { entry with
      candidates := Function.update entry.candidates slot candidate
      tombstoneExpiresAtMs := 0 }
    if isFeasible then
      (table.evaluateEntry { stored with sequenceRequestNeeded := false } nowMs,
        if existed then .updated else .accepted)
    else
      (table.evaluateEntry { stored with sequenceRequestNeeded := !stored.select.valid } nowMs,
        .infeasible)

/-- `consider` after the generation rule: a retraction withdraws, anything finite is learned. -/
def applyAdvertisement (nowMs lifetimeMs : MonotonicMs) : RouteEntry × RouteUpdateResult :=
  if advertisement.metric == kInfiniteRouteMetric then
    let (withdrawn, removed) := table.withdrawEntry entry nextHop nowMs
    (withdrawn, if removed then .withdrawn else .ignored)
  else table.learn entry advertisement nextHop linkMetric nowMs lifetimeMs

/-- `consider` on the entry it works on. A lower generation is stale, a higher one restarts it. -/
def considerEntry (nowMs lifetimeMs : MonotonicMs) : RouteEntry × RouteUpdateResult :=
  if advertisement.generation < entry.generation then (entry, .staleGeneration)
  else if advertisement.generation > entry.generation then
    table.applyAdvertisement (restartEntry entry advertisement.generation) advertisement nextHop
      linkMetric nowMs lifetimeMs
  else table.applyAdvertisement entry advertisement nextHop linkMetric nowMs lifetimeMs

def consider (nowMs lifetimeMs : MonotonicMs) : RouteTable cap × RouteUpdateResult :=
  if advertisement.destination == kInvalidNodeId || nextHop == kInvalidNodeId ||
      linkMetric == 0 || lifetimeMs == 0 then (table, .ignored)
  else
    -- a retraction never allocates
    let found :=
      if advertisement.metric == kInfiniteRouteMetric then
        (table.findSlot advertisement.destination).bind fun i =>
          (table.entries.slots i).map (i, ·)
      else table.findOrAllocate advertisement.destination
    match found with
    | none =>
      (table, if advertisement.metric == kInfiniteRouteMetric then .ignored else .noCapacity)
    | some (i, entry) =>
      let (entry', result) :=
        table.considerEntry entry advertisement nextHop linkMetric nowMs lifetimeMs
      ({ table with entries := table.entries.set i entry' }, result)

end

/-- What `invalidate_next_hop` does to one entry. -/
def invalidateEntry (hold : Bool) (entry : RouteEntry) : RouteEntry :=
  let (rewritten, removed) := entry.rewriteCandidates (·.nextHop == nextHop) fun _ => {}
  let cleared :=
    if !hold && rewritten.holdNextHop == nextHop then
      { rewritten with holdNextHop := kInvalidNodeId, holdUntilMs := 0 }
    else rewritten
  if removed then
    let held :=
      if hold then
        { cleared with holdNextHop := nextHop, holdUntilMs := nowMs + kRouteHoldDownMs }
      else cleared
    let armed := (held.requestIfLost true).armTombstone table.tombstoneDwellMs nowMs
    table.evaluateEntry armed nowMs
  else cleared

def invalidateNextHop (hold : Bool) : RouteTable cap :=
  { table with entries := table.entries.map (table.invalidateEntry nextHop nowMs hold) }

/-- The tombstone of an entry is armed and due. -/
def collectable : Bool :=
  entry.tombstoneExpiresAtMs != 0 && entry.tombstoneExpiresAtMs ≤ nowMs

/-- The lease pass of `expire` on one entry. -/
def expireEntry : RouteEntry :=
  let (rewritten, removed) := entry.rewriteCandidates (·.expiresAtMs ≤ nowMs) fun _ => {}
  let armed := (rewritten.requestIfLost removed).armTombstone table.tombstoneDwellMs nowMs
  if removed then table.evaluateEntry armed nowMs else armed

/-- The tombstone pass, then the lease pass. The source also returns the slots it visited. -/
def expire : RouteTable cap × Nat :=
  ({ table with
      entries := (table.entries.eraseIf (collectable nowMs)).map (table.expireEntry nowMs) },
    2 * cap)

/-- Release the entry whose armed tombstone is due first. -/
def reclaimTombstone : RouteTable cap × Bool :=
  let armed := (List.finRange cap).filterMap fun i =>
    (table.entries.slots i).bind fun entry =>
      if entry.tombstoneExpiresAtMs == 0 then none else some (i, entry.tombstoneExpiresAtMs)
  let oldest := armed.foldl (fun (best : Option (Fin cap × MonotonicMs)) slot =>
    match best with
    | none => some slot
    | some current => if slot.2 < current.2 then some slot else some current) none
  match oldest with
  | none => (table, false)
  | some (i, _) => ({ table with entries := table.entries.release i }, true)

def best : RouteSelection :=
  match table.find destination with
  | none => {}
  | some entry => entry.select

/-- What `mark_advertised` does to an entry with the valid selection `selected`. -/
def markEntry (selected : RouteSelection) : RouteEntry :=
  let (newer, ambiguous) := routeSequenceNewer selected.sequence entry.feasible.sequence
  let feasible :=
    if !entry.feasible.valid then ⟨selected.sequence, selected.metric, true⟩
    else if newer || (!ambiguous && selected.sequence == entry.feasible.sequence &&
        selected.metric < entry.feasible.metric) then
      { entry.feasible with sequence := selected.sequence, metric := selected.metric }
    else entry.feasible
  { entry with feasible := feasible, lastSelected := LastSelection.from selected }

def markAdvertised : RouteTable cap × Bool :=
  match table.findSlot destination with
  | none => (table, false)
  | some i =>
    match table.entries.slots i with
    | none => (table, false)
    | some entry =>
      if entry.select.valid then
        ({ table with entries := table.entries.set i (markEntry entry entry.select) }, true)
      else (table, false)

def setAnnouncedUp (announced : Bool) : RouteTable cap :=
  match table.findSlot destination with
  | none => table
  | some i =>
    match table.entries.slots i with
    | none => table
    | some entry =>
      { table with entries := table.entries.set i { entry with announcedUp := announced } }

def announcedUp (table : RouteTable cap) (destination : NodeId) : Bool :=
  (table.find destination).any (·.announcedUp)

structure LostRoute where
  destination : NodeId := kInvalidNodeId
  generation : RouteGeneration := 0
  sequence : RouteSequence := 0
  deriving DecidableEq, Repr

/-- The retraction data of a remembered destination without a selection. -/
def lostOf : Option LostRoute :=
  if entry.select.valid then none
  else if !entry.hasCandidates && entry.tombstoneExpiresAtMs == 0 then none
  else some ⟨entry.destination, entry.generation,
    if entry.feasible.valid then entry.feasible.sequence else 0⟩

def lostRoute : Option LostRoute :=
  (table.find destination).bind lostOf

/-- The selections that `for_each_selected` visits, in order. -/
def forEachSelected : List RouteSelection :=
  table.entries.toList.filterMap fun entry => if entry.select.valid then some entry.select else none

/-- The retractions that `for_each_lost` visits, in order. -/
def forEachLost : List LostRoute :=
  table.entries.toList.filterMap lostOf

/-- `for_each_selected_change` on one entry: the new entry, and the selection before and after when
the change is reported now. -/
def selectedChange : RouteEntry × Option (RouteSelection × RouteSelection) :=
  let selection := entry.select
  let last := entry.lastSelected
  let changed := selection.valid != last.valid ||
    (selection.valid && (selection.nextHop != last.nextHop ||
      selection.sequence != last.sequence || selection.metric != last.metric))
  if !changed then (entry, none)
  else
    let pureImprovement := selection.valid && last.valid && selection.nextHop == last.nextHop &&
      selection.sequence == last.sequence && selection.metric < last.metric
    if pureImprovement && entry.improvementAdMs != 0 &&
        nowMs - entry.improvementAdMs < kImprovementAdGapMs then (entry, none)
    else
      let previous : RouteSelection :=
        ⟨entry.destination, last.nextHop, entry.generation, last.sequence, last.metric, last.valid⟩
      ({ entry with
          improvementAdMs := if pureImprovement then nowMs else entry.improvementAdMs
          lastSelected := LastSelection.from selection },
        some (selection, previous))

/-- The table after the scan and the reported changes in slot order. -/
def forEachSelectedChange : RouteTable cap × List (RouteSelection × RouteSelection) :=
  ({ table with entries := table.entries.map fun entry => (selectedChange nowMs entry).1 },
    table.entries.toList.filterMap fun entry => (selectedChange nowMs entry).2)

end RouteTable

end RouteLoom
