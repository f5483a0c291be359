import RouteLoom.Node.Delivery
import RouteLoom.Lib.Stateful

/-!
# The power coordinator

Before a node sleeps, the coordinator writes the deliveries that must survive into one of two image
slots, settles the rest and hands the platform a ticket. After a boot it adopts the newest image that
decodes, resumes what it holds and keeps the rest for the next image.

A slot write can land, fail, or be cut by a crash; a write that does not land leaves its slot without
an image. Four fields are for the proofs alone. A record is `owed` from the moment an image with it
lands until its result is reported or its delivery is settled. It is `displaced` while the last image
to land left it out although its delivery was live, and not yet carried. `failures` counts the writes
since the last one that landed in this boot, and `boots` notes what each boot owed and adopted.

* `plan` : the candidate image, from the carried records and the live deliveries
* `commitImage`, `persistImage`, `settleCurrentAttempt`, `runEnter` : the way to sleep
* `newest`, `resumeFlow` : the way back
-/

namespace RouteLoom.Power

open Lib Function
open Mesh (Priority SendOptions Delivery DeliveryTable SleepWorkPolicy sleepTerminal kDeliveryCapacity)

/-! ## Images -/

def kPowerPeerCacheCapacity : Nat := 8
def kPowerPendingCapacity : Nat := 4
def kPowerImageSlots : Nat := 2

structure PowerPeerRecord where
  node : NodeId
  address : List UInt8
  metric : UInt16
  deriving DecidableEq, Repr

structure PendingDeliveryRecord where
  originalId : MessageId
  destination : NodeId
  delivery : DeliveryClass
  priority : Priority
  hopLimit : UInt8
  storedRemainingMs : UInt32
  expiresAtMs : MonotonicMs
  payload : List UInt8
  deriving DecidableEq, Repr

abbrev PendingPool := Pool PendingDeliveryRecord kPowerPendingCapacity

structure PowerImage where
  sequence : UInt32 := 0
  configRevision : UInt32 := 0
  network : NetworkId := 0
  node : NodeId := kInvalidNodeId
  channel : UInt8 := 0
  peers : Pool PowerPeerRecord kPowerPeerCacheCapacity := Pool.empty
  pending : PendingPool := Pool.empty

/-- The deliveries that a pool of records holds. -/
def ids (P : PendingPool) : List MessageId :=
  P.toList.map PendingDeliveryRecord.originalId

namespace PowerImage

def hasPending (image : PowerImage) : Bool :=
  !image.pending.toList.isEmpty

/-- What a slot keeps: the absolute deadline is not written. -/
def serialized (image : PowerImage) : PowerImage :=
  { image with pending := image.pending.map fun r => { r with expiresAtMs := 0 } }

end PowerImage

/-- The image that each slot decodes to, if it does. -/
abbrev Disk := Fin kPowerImageSlots → Option PowerImage

def slotOf (sequence : UInt32) : Fin kPowerImageSlots :=
  ⟨sequence.toNat % 2, Nat.mod_lt _ (by decide)⟩

def newestStep (disk : Disk) (best : Option PowerImage) (slot : Fin kPowerImageSlots) :
    Option PowerImage :=
  match disk slot with
  | none => best
  | some image => if best.all fun b => b.sequence < image.sequence then some image else best

/-- The image with the largest number, in the first slot on a tie. -/
def newest (disk : Disk) : Option PowerImage :=
  (List.finRange kPowerImageSlots).foldl (newestStep disk) none

/-! ## Remaining lifetimes -/

inductive DeadlinePolicy
  | wallElapsedValidity | runningTimeOnly
  deriving DecidableEq, Repr

structure ElapsedInterval where
  lowerMs : UInt64 := 0
  upperMs : UInt64 := 0
  known : Bool := false
  deriving DecidableEq, Repr

def resumeRemainingLifetime (policy : DeadlinePolicy) (storedRemainingMs : UInt32)
    (elapsed : ElapsedInterval) : Except Status UInt32 :=
  if storedRemainingMs == 0 then .error ⟨.expired, "DEADLINE_EXPIRED"⟩
  else if policy == .runningTimeOnly then .ok storedRemainingMs
  else if !elapsed.known || elapsed.upperMs < elapsed.lowerMs then
    .error ⟨.timeUncertain, "TIME_UNCERTAIN"⟩
  else if storedRemainingMs.toUInt64 ≤ elapsed.upperMs then .error ⟨.expired, "DEADLINE_EXPIRED"⟩
  else .ok (storedRemainingMs.toUInt64 - elapsed.upperMs).toUInt32

/-! ## The coordinator -/

inductive PowerState
  | running | draining | persisting | readyToSleep | sleeping | resuming
  deriving DecidableEq, Repr

structure SleepTicket where
  id : UInt32 := 0
  radioGeneration : UInt32 := 0
  configRevision : UInt32 := 0
  pendingGeneration : UInt32 := 0
  issued : Bool := false
  deriving DecidableEq, Repr

inductive CarryPlanKind
  | unused | keep | coveredByFresh | expired
  deriving DecidableEq, Repr

structure PowerConfig where
  drainTimeoutMs : UInt32 := 500
  resumeConfirmMs : UInt32 := 1000
  deadlinePolicy : DeadlinePolicy := .wallElapsedValidity
  network : NetworkId
  node : NodeId

/-- The candidate image and how it was put together: what becomes of each carried record, which
records are of live deliveries, and the carry slot that each of these will take. -/
structure SleepPlan where
  pending : PendingPool := Pool.empty
  carryPlan : Fin kPowerPendingCapacity → CarryPlanKind := fun _ => .unused
  carrySlot : Fin kPowerPendingCapacity → Option (Fin kPowerPendingCapacity) := fun _ => none
  freshLive : Fin kPowerPendingCapacity → Bool := fun _ => false
  saveTarget : Fin kPowerPendingCapacity → Option (Fin kPowerPendingCapacity) := fun _ => none
  savedLive : Fin kPowerPendingCapacity → Bool := fun _ => false

structure PowerCoordinator where
  config : PowerConfig
  state : PowerState := .running
  policy : SleepWorkPolicy := .fail
  ticket : SleepTicket := {}
  image : PowerImage := {}
  imageValid : Bool := false
  sleepImageArmed : Bool := false
  diskPendingPossible : Bool := false
  storageImpaired : Bool := false
  carry : PendingPool := Pool.empty
  plan : SleepPlan := {}
  entering : Bool := false
  imageSequence : UInt32 := 0
  nextTicketId : UInt32 := 1
  radioGeneration : UInt32 := 0
  appEvents : UInt32 := 0
  drainDeadlineMs : MonotonicMs := 0
  resumeDeadlineMs : MonotonicMs := 0
  confirmBaseline : UInt32 := 0
  radioQuiesced : Bool := false
  begun : Bool := false

/-- What the coordinator sees of its node. -/
structure PowerNode where
  deliveries : DeliveryTable := {}
  started : Bool := false
  draining : Bool := false
  quiesced : Bool := true
  workGeneration : UInt32 := 0
  configRevision : UInt32 := 0
  rxGeneration : UInt32 := 0

/-- A delivery with this id has no verdict yet. -/
def PowerNode.live (node : PowerNode) (id : MessageId) : Bool :=
  node.deliveries.records.toList.any fun d => !sleepTerminal d.state && d.id == id

/-- How a slot write ends; `unread` is a write that landed and whose read back failed. -/
inductive WriteOutcome
  | ok
  | fail (status : Status)
  | cut
  | unread (status : Status)
  deriving DecidableEq, Repr

/-- What platform, node and storage answer during one call. -/
structure PowerAnswers where
  prepareSleep : Except Status Unit := .ok ()
  captureCache : Except Status (Pool PowerPeerRecord kPowerPeerCacheCapacity × UInt8) :=
    .ok (Pool.empty, 0)
  quiesceRadio : Except Status Unit := .ok ()
  configureWake : Except Status Unit := .ok ()
  enterSleep : Except Status Unit := .ok ()
  holdsReleased : Bool := true
  resumeDelivery : PendingDeliveryRecord → UInt32 → DeliveryTable → Except Status DeliveryTable :=
    fun _ _ T => .ok T
  matchesContext : PowerImage → NetworkId → Bool := fun image network => image.network == network
  unreadable : Fin kPowerImageSlots → Option Status := fun _ => none
  writes : List WriteOutcome := []

/-- What a boot found. -/
structure BootNote where
  owed : List MessageId
  adopted : List MessageId
  displaced : List MessageId
  failures : Nat
  deriving DecidableEq, Repr

structure PowerSystem where
  coordinator : PowerCoordinator
  node : PowerNode := {}
  disk : Disk := fun _ => none
  writes : List WriteOutcome := []
  results : List (MessageId × Option StatusCode) := []
  owed : List MessageId := []
  displaced : List MessageId := []
  failures : Nat := 0
  boots : List BootNote := []

variable (answers : PowerAnswers) (ticket : SleepTicket) (elapsed : ElapsedInterval)
  (now : MonotonicMs) (carry : PendingPool) (image : PowerImage) (s : PowerSystem)

/-- The deliveries in the newest image. -/
def PowerSystem.stored : List MessageId :=
  (newest s.disk).elim [] fun image => ids image.pending

/-- The end of a call by a crash. -/
inductive PowerCut
  | cut
  deriving DecidableEq, Repr

abbrev PowerOp (α : Type) := Op PowerSystem PowerCut α

/-- The node no longer owes these deliveries. -/
def PowerSystem.settled (ended : MessageId → Bool) (s : PowerSystem) : PowerSystem :=
  { s with owed := s.owed.filter (!ended ·), displaced := s.displaced.filter (!ended ·) }

/-- `on_pending_result`, with no code for success. -/
def PowerSystem.notifyPendingResult (record : PendingDeliveryRecord) (code : Option StatusCode)
    (s : PowerSystem) : PowerSystem :=
  { s.settled (· == record.originalId) with results := s.results ++ [(record.originalId, code)] }

def PowerSystem.onCoordinator (f : PowerCoordinator → PowerCoordinator) (s : PowerSystem) :
    PowerSystem :=
  { s with coordinator := f s.coordinator }

def modifySystem (f : PowerSystem → PowerSystem) : PowerOp Unit := do
  let s ← Op.get
  Op.set (f s)

/-! ## Writing an image -/

namespace PowerCoordinator

def nextImageSequence (c : PowerCoordinator) : Option UInt32 :=
  if c.imageSequence == 0xFFFFFFFF then none else some (c.imageSequence + 1)

def pendingGeneration (c : PowerCoordinator) (node : PowerNode) : UInt32 :=
  node.workGeneration + c.appEvents

def imageUsable (answers : PowerAnswers) (c : PowerCoordinator) (image : PowerImage) : Bool :=
  image.node == c.config.node && answers.matchesContext image c.config.network

def ticketValid (answers : PowerAnswers) (node : PowerNode) (ticket : SleepTicket)
    (c : PowerCoordinator) : Bool :=
  ticket.issued && c.ticket.issued && ticket.id == c.ticket.id &&
    ticket.radioGeneration == c.radioGeneration && ticket.configRevision == node.configRevision &&
    ticket.pendingGeneration == c.pendingGeneration node && c.imageUsable answers c.image

def abortToRunning (c : PowerCoordinator) : PowerCoordinator :=
  { c with
    ticket := {}, sleepImageArmed := false
    radioGeneration := if c.radioQuiesced then c.radioGeneration + 1 else c.radioGeneration
    radioQuiesced := false, state := .running }

end PowerCoordinator

namespace PowerSystem

def abortToRunning (s : PowerSystem) : PowerSystem :=
  { s with
    coordinator := s.coordinator.abortToRunning, node := { s.node with draining := false } }

/-- The image landed in its slot. -/
def landed (image : PowerImage) (s : PowerSystem) : PowerSystem :=
  { s with
    disk := update s.disk (slotOf image.sequence) (some image.serialized)
    writes := s.writes.tail, owed := s.owed ++ ids image.pending, failures := 0
    displaced := s.owed.filter fun id =>
      s.node.live id && !(ids image.pending).contains id && !(ids s.coordinator.carry).contains id
    coordinator := { s.coordinator with imageSequence := image.sequence } }

/-- The slot of the image was left without one. -/
def torn (image : PowerImage) (s : PowerSystem) : PowerSystem :=
  { s with
    disk := update s.disk (slotOf image.sequence) none
    writes := s.writes.tail, failures := s.failures + 1
    coordinator :=
      { s.coordinator with imageSequence := image.sequence, diskPendingPossible := true } }

end PowerSystem

def commitImage : PowerOp (Except Status Unit) := do
  let s ← Op.get
  if s.coordinator.storageImpaired then
    pure (.error ⟨.recoveryRequired, "SLEEP_IMAGE_READ_REQUIRED"⟩)
  else
    match s.writes.headD .ok with
    | .ok =>
      Op.set ((s.landed image).onCoordinator fun c => { c with imageValid := true })
      pure (.ok ())
    | .fail status =>
      -- the number is consumed, so the next image goes to the other slot
      Op.set (s.torn image)
      pure (.error status)
    | .cut =>
      Op.set (s.torn image)
      Op.throw .cut
    | .unread status =>
      Op.set ((s.landed image).onCoordinator fun c =>
        { c with diskPendingPossible := true, storageImpaired := true })
      pure (.error status)

/-! ## The candidate -/

def remainingMs (r : PendingDeliveryRecord) : UInt32 :=
  if now < r.expiresAtMs then (r.expiresAtMs - now).toUInt32 else 0

def PendingDeliveryRecord.refreshed (r : PendingDeliveryRecord) : PendingDeliveryRecord :=
  { r with storedRemainingMs := remainingMs now r }

def freshRecord (d : Delivery) : PendingDeliveryRecord where
  originalId := d.id
  destination := d.destination
  delivery := d.options.delivery
  priority := d.options.priority
  hopLimit := d.options.hopLimit
  expiresAtMs := d.expiresAtMs
  storedRemainingMs := (d.expiresAtMs - now).toUInt32
  payload := d.payload

namespace SleepPlan

/-- Carried records come first and are never displaced by live work. -/
def placeCarry (carry : PendingPool) (now : MonotonicMs) (p : SleepPlan)
    (j : Fin kPowerPendingCapacity) : SleepPlan :=
  match carry.slots j with
  | none => p
  | some r =>
    if r.expiresAtMs ≤ now then { p with carryPlan := update p.carryPlan j .expired }
    else
      match p.pending.freeIdx with
      | none => { p with carryPlan := update p.carryPlan j .keep }
      | some i =>
        { p with
          pending := p.pending.set i (r.refreshed now)
          carrySlot := update p.carrySlot i (some j)
          carryPlan := update p.carryPlan j .keep }

def fillSlot (i : Fin kPowerPendingCapacity) (now : MonotonicMs) (d : Delivery) (p : SleepPlan) :
    SleepPlan :=
  { p with
    pending := p.pending.set i (freshRecord now d), freshLive := update p.freshLive i true }

/-- A live delivery replaces the carried record of its own id, or takes a free slot. -/
def placeFresh (now : MonotonicMs) (p : SleepPlan) (d : Delivery) : SleepPlan :=
  if d.expiresAtMs ≤ now then p
  else
    match firstSlot fun i => !p.freshLive i && (p.pending.slots i).any (·.originalId == d.id) with
    | some i =>
      match p.carrySlot i with
      | none => p.fillSlot i now d
      | some j =>
        { p.fillSlot i now d with
          carryPlan := update p.carryPlan j .coveredByFresh
          saveTarget := update p.saveTarget i (some j) }
    | none =>
      match p.pending.freeIdx with
      | none => p
      | some i => p.fillSlot i now d

/-- Each other record of a live delivery gets a carry slot of its own. -/
def assignTarget (carry : PendingPool) (p : SleepPlan) (i : Fin kPowerPendingCapacity) : SleepPlan :=
  if !p.freshLive i || (p.saveTarget i).isSome then p
  else
    match firstSlot fun j =>
        ((carry.slots j).isNone || p.carryPlan j == .expired) &&
          (List.finRange kPowerPendingCapacity).all fun k => p.saveTarget k != some j with
    | none => p
    | some j => { p with saveTarget := update p.saveTarget i (some j) }

end SleepPlan

/-- The deliveries offered to an image. -/
def snapshotForSleep (policy : SleepWorkPolicy) (T : DeliveryTable) : List Delivery :=
  T.records.toList.filter fun d =>
    !sleepTerminal d.state && (d.options.persistAcrossSleep || policy == .save)

def planOf (offered : List Delivery) (now : MonotonicMs) : SleepPlan :=
  let carried := (List.finRange kPowerPendingCapacity).foldl (SleepPlan.placeCarry carry now) {}
  let filled := offered.foldl (SleepPlan.placeFresh now) carried
  (List.finRange kPowerPendingCapacity).foldl (SleepPlan.assignTarget carry) filled

def planSleepImage : PowerSystem :=
  let c := s.coordinator
  let p := planOf c.carry (snapshotForSleep c.policy s.node.deliveries) now
  s.onCoordinator fun c =>
    { c with
      plan := p
      image := { c.image with
        pending := p.pending, network := c.config.network, node := c.config.node } }

/-! ## Persisting -/

/-- A candidate record goes into the room that the carried records leave. -/
def stageFresh (P : PendingPool) (r : PendingDeliveryRecord) : PendingPool :=
  if (ids P).contains r.originalId then P
  else
    match P.freeIdx with
    | none => P
    | some i => P.set i r

/-- The image of the first of two writes: every carried record, expired or not, and as many
candidates as fit. -/
def stagedPending (candidate : PendingPool) (now : MonotonicMs) : PendingPool :=
  candidate.toList.foldl stageFresh (carry.map (·.refreshed now))

def sequenceExhausted : PowerOp (Except Status Unit) := do
  modifySystem fun s => s.onCoordinator fun c => { c with diskPendingPossible := true }
  pure (.error ⟨.counterExhausted, "SLEEP_SEQUENCE_EXHAUSTED"⟩)

/-- The write of the candidate itself. -/
def commitFinal : PowerOp (Except Status Unit) := do
  let s ← Op.get
  match s.coordinator.nextImageSequence with
  | none => sequenceExhausted
  | some sequence =>
    let image := { s.coordinator.image with sequence := sequence }
    Op.set (s.onCoordinator fun c => { c with image := image })
    match ← commitImage image with
    | .error status => pure (.error status)
    | .ok () =>
      modifySystem fun s => s.onCoordinator fun c => { c with diskPendingPossible := image.hasPending }
      pure (.ok ())

def persistImage : PowerOp (Except Status Unit) := do
  let s ← Op.get
  match s.coordinator.nextImageSequence with
  | none => sequenceExhausted
  | some sequence =>
    match answers.captureCache with
    | .error status => pure (.error status)
    | .ok (peers, channel) =>
      let image := { s.coordinator.image with
        sequence := sequence, configRevision := s.node.configRevision, peers := peers
        channel := channel }
      Op.set (s.onCoordinator fun c => { c with image := image })
      if s.coordinator.diskPendingPossible then
        let staged := { image with pending := stagedPending s.coordinator.carry image.pending now }
        match ← commitImage staged with
        | .error status => pure (.error status)
        | .ok () => commitFinal
      else commitFinal

/-! ## Settlement -/

namespace PowerCoordinator

/-- Durable ownership of a saved delivery moves to the coordinator. -/
def claimSaved (id : MessageId) (c : PowerCoordinator) : Option PowerCoordinator :=
  match firstSlot fun i => c.plan.freshLive i && (c.image.pending.slots i).any (·.originalId == id) with
  | none => none
  | some i =>
    match c.plan.saveTarget i, c.image.pending.slots i with
    | some j, some r =>
      some { c with
        carry := c.carry.set j r
        plan := { c.plan with
          carryPlan := update c.plan.carryPlan j .keep
          savedLive := update c.plan.savedLive i true } }
    | _, _ => none

def sleepBooksConsistent (c : PowerCoordinator) : Bool :=
  ((List.finRange kPowerPendingCapacity).all fun j => c.plan.carryPlan j != .expired) &&
    (ids c.carry).all (fun id => (ids c.image.pending).contains id) &&
    (List.finRange kPowerPendingCapacity).all fun i => !c.plan.freshLive i || c.plan.savedLive i

def issueTicket (node : PowerNode) (c : PowerCoordinator) : PowerCoordinator :=
  { c with
    ticket := ⟨c.nextTicketId, c.radioGeneration, node.configRevision, c.pendingGeneration node, true⟩
    nextTicketId := c.nextTicketId + 1 }

end PowerCoordinator

namespace PowerSystem

/-- Drop a carried record and report it as expired. -/
def settleCarry (expired : Fin kPowerPendingCapacity → Bool) (s : PowerSystem)
    (j : Fin kPowerPendingCapacity) : PowerSystem :=
  match s.coordinator.carry.slots j with
  | none => s
  | some r =>
    if expired j then
      (s.onCoordinator fun c =>
        { c with
          carry := c.carry.release j
          plan := { c.plan with carryPlan := update c.plan.carryPlan j .unused } }).notifyPendingResult
        r (some .expired)
    else s

def settleExpired (expired : Fin kPowerPendingCapacity → Bool) (s : PowerSystem) : PowerSystem :=
  (List.finRange kPowerPendingCapacity).foldl (settleCarry expired) s

/-- Settle one live delivery: as saved if it is claimed, and otherwise for good. -/
def settleOne (s : PowerSystem) : PowerSystem :=
  match s.node.deliveries.records.find fun d => !sleepTerminal d.state with
  | none => s
  | some d =>
    let c := s.coordinator
    let claimed :=
      if d.options.persistAcrossSleep || c.policy == .save then c.claimSaved d.id else none
    { if claimed.isSome then s else s.settled (· == d.id) with
      coordinator := claimed.getD c
      node := { s.node with
        deliveries := s.node.deliveries.settleOneSleepDelivery c.policy fun _ => claimed.isSome } }

end PowerSystem

/-- Drain, persist, settle and ask the radio to stop; then issue a ticket. -/
def settleCurrentAttempt : PowerOp Unit := do
  modifySystem fun s =>
    planSleepImage now (s.onCoordinator fun c => { c with state := .persisting })
  match ← persistImage answers now with
  | .error _ => modifySystem PowerSystem.abortToRunning
  | .ok () =>
    modifySystem fun s => s.settleExpired fun j => s.coordinator.plan.carryPlan j == .expired
    modifySystem fun s => PowerSystem.settleOne^[kDeliveryCapacity] s
    if !answers.holdsReleased then modifySystem PowerSystem.abortToRunning
    else
      match answers.quiesceRadio with
      | .error _ => modifySystem PowerSystem.abortToRunning
      | .ok () =>
        modifySystem fun s => s.onCoordinator fun c =>
          { c with radioQuiesced := true, radioGeneration := c.radioGeneration + 1 }
        let s ← Op.get
        if !s.coordinator.sleepBooksConsistent then modifySystem PowerSystem.abortToRunning
        else
          modifySystem fun s => s.onCoordinator fun c =>
            { c.issueTicket s.node with sleepImageArmed := true, state := .readyToSleep }

/-! ## Calls -/

def sleepPrepare (policy : SleepWorkPolicy) (now : MonotonicMs) (s : PowerSystem) :
    Except Status Unit × PowerSystem :=
  let c := s.coordinator
  if c.storageImpaired then (.error ⟨.recoveryRequired, "SLEEP_IMAGE_READ_REQUIRED"⟩, s)
  else if !c.begun || !s.node.started then (.error ⟨.invalidState, "not running"⟩, s)
  else if c.state != .running then (.error ⟨.invalidState, "not running"⟩, s)
  else if c.imageSequence == 0xFFFFFFFF then
    (.error ⟨.counterExhausted, "SLEEP_SEQUENCE_EXHAUSTED"⟩, s)
  else
    (.ok (), { s with
      node := { s.node with draining := true }
      coordinator := { c with
        policy := policy, sleepImageArmed := false, state := .draining
        drainDeadlineMs :=
          if 0xFFFFFFFFFFFFFFFF - c.config.drainTimeoutMs.toUInt64 < now then 0xFFFFFFFFFFFFFFFF
          else now + c.config.drainTimeoutMs.toUInt64 } })

def PowerCoordinator.sleepAttemptActive (c : PowerCoordinator) : Bool :=
  c.state == .draining || c.state == .persisting || c.state == .readyToSleep || c.entering

def sleepAbort : Except Status Unit × PowerSystem :=
  if !s.coordinator.sleepAttemptActive then (.error ⟨.invalidState, "no sleep in progress"⟩, s)
  else (.ok (), s.abortToRunning)

/-- An application event or a radio reset ends an attempt in progress. -/
def notifyAppEvent : PowerSystem :=
  let s := s.onCoordinator fun c => { c with appEvents := c.appEvents + 1 }
  if s.coordinator.sleepAttemptActive then s.abortToRunning else s

def notifyRadioReset : PowerSystem :=
  let s := s.onCoordinator fun c => { c with radioGeneration := c.radioGeneration + 1 }
  if s.coordinator.sleepAttemptActive then s.abortToRunning else s

def validateEnter (handoff : Bool) (s : PowerSystem) : Bool :=
  let c := s.coordinator
  (if handoff then c.state == .sleeping && c.entering else c.state == .readyToSleep) &&
    ticket.issued && c.ticket.issued && ticket.id == c.ticket.id &&
    ticket.radioGeneration == c.radioGeneration && ticket.configRevision == s.node.configRevision &&
    ticket.pendingGeneration == c.pendingGeneration s.node && c.imageValid && c.sleepImageArmed &&
    c.imageUsable answers c.image &&
    ((List.finRange kPowerPendingCapacity).all fun j => c.plan.carryPlan j != .expired) &&
    s.node.draining && c.radioQuiesced

def expiredBy (j : Fin kPowerPendingCapacity) : Bool :=
  (carry.slots j).any fun r => r.expiresAtMs ≤ now

/-- Time passed since the image was written changed what it should say. -/
def refreshNeeded : Bool :=
  carry.toList.any fun r => r.expiresAtMs ≤ now || remainingMs now r != r.storedRemainingMs

/-- Write one of the two refreshed images. -/
def commitRefresh (pending : PendingPool) : PowerOp (Except Status Unit) := do
  let s ← Op.get
  match s.coordinator.nextImageSequence with
  | none =>
    modifySystem fun s => s.onCoordinator fun c =>
      { c with ticket := {}, sleepImageArmed := false, diskPendingPossible := true }
    pure (.error ⟨.counterExhausted, "SLEEP_SEQUENCE_EXHAUSTED"⟩)
  | some sequence =>
    match ← commitImage { s.coordinator.image with pending := pending, sequence := sequence } with
    | .error status =>
      modifySystem fun s => s.onCoordinator fun c => { c with ticket := {}, sleepImageArmed := false }
      pure (.error status)
    | .ok () => pure (.ok ())

/-- Refresh the lifetimes on both slots. The first image keeps what expired meanwhile, so that its
expiry is reported even if the second one does not land. -/
def refreshImage : PowerOp (Except Status Unit) := do
  let s ← Op.get
  let carry := s.coordinator.carry
  if !refreshNeeded now carry then pure (.ok ())
  else
    let all := carry.map (·.refreshed now)
    let live := all.eraseIf fun r => r.expiresAtMs ≤ now
    match ← commitRefresh all with
    | .error status => pure (.error status)
    | .ok () =>
      match ← commitRefresh live with
      | .error status => pure (.error status)
      | .ok () =>
        modifySystem fun s => s.onCoordinator fun c =>
          { c with
            diskPendingPossible := !live.toList.isEmpty
            carry := c.carry.map fun r => if r.expiresAtMs ≤ now then r else r.refreshed now }
        pure (.ok ())

/-- Hand over to the platform. -/
def handOver : PowerOp (Except Status Unit) := do
  modifySystem fun s => s.onCoordinator fun c => { c with entering := true, state := .sleeping }
  let s ← Op.get
  if !validateEnter answers ticket true s then
    modifySystem fun s => (s.onCoordinator fun c => { c with entering := false }).abortToRunning
    pure (.error ⟨.invalidState, "SLEEP_TICKET_INVALID"⟩)
  else
    match answers.configureWake with
    | .error status =>
      modifySystem fun s => (s.onCoordinator fun c => { c with entering := false }).abortToRunning
      pure (.error status)
    | .ok () =>
      modifySystem fun s => s.onCoordinator fun c =>
        { c with ticket := {}, sleepImageArmed := false, entering := false }
      match answers.enterSleep with
      | .error status =>
        modifySystem PowerSystem.abortToRunning
        pure (.error status)
      | .ok () => pure (.ok ())

def sleepEnter :
    PowerOp (Except Status Unit) := do
  let s ← Op.get
  if !validateEnter answers ticket false s then
    let c := s.coordinator
    pure (.error ⟨.invalidState,
      if c.state != .readyToSleep then "not ready to sleep"
      else if !c.imageValid || !c.sleepImageArmed then "SLEEP_IMAGE_MISSING"
      else "SLEEP_TICKET_INVALID"⟩)
  else
    match ← refreshImage now with
    | .error status =>
      modifySystem PowerSystem.abortToRunning
      pure (.error status)
    | .ok () =>
      modifySystem fun s => s.settleExpired (expiredBy now s.coordinator.carry)
      let s ← Op.get
      if !validateEnter answers ticket false s then
        modifySystem PowerSystem.abortToRunning
        pure (.error ⟨.invalidState, "SLEEP_TICKET_INVALID"⟩)
      else handOver answers ticket

/-- What the coordinator does when its turn comes; the node's own work precedes it. -/
def poll : PowerOp Unit := do
  let s ← Op.get
  let c := s.coordinator
  match c.state with
  | .running => pure ()
  | .draining =>
    if s.node.quiesced || c.drainDeadlineMs ≤ now then
      match answers.prepareSleep with
      | .ok () => settleCurrentAttempt answers now
      | .error status =>
        if status.code != .busy || c.drainDeadlineMs ≤ now then
          modifySystem PowerSystem.abortToRunning
        else pure ()
    else pure ()
  | .readyToSleep =>
    if !c.ticketValid answers s.node c.ticket then modifySystem PowerSystem.abortToRunning
    else pure ()
  | .resuming =>
    if s.node.rxGeneration != c.confirmBaseline || c.resumeDeadlineMs ≤ now then
      modifySystem fun s => s.onCoordinator fun c => { c with state := .running }
    else pure ()
  | .persisting => pure ()
  | .sleeping => pure ()

/-! ## Resuming -/

/-- Re-inject one record of the image. Only one that the node refuses is retained. -/
def restoreRecord (acc : PowerSystem × PendingPool) (i : Fin kPowerPendingCapacity) :
    PowerSystem × PendingPool :=
  match image.pending.slots i with
  | none => acc
  | some r =>
    let (s, retained) := acc
    match resumeRemainingLifetime s.coordinator.config.deadlinePolicy r.storedRemainingMs elapsed with
    | .error status => (s.notifyPendingResult r (some status.code), retained.release i)
    | .ok remaining =>
      match answers.resumeDelivery r remaining s.node.deliveries with
      | .ok T =>
        ({ s with node := { s.node with deliveries := T } }.notifyPendingResult r none,
          retained.release i)
      | .error status =>
        (s.notifyPendingResult r (some status.code), retained.set i
          { r with storedRemainingMs := remaining, expiresAtMs := now + remaining.toUInt64 })

def restorePending : PowerSystem × PendingPool :=
  (List.finRange kPowerPendingCapacity).foldl (restoreRecord answers elapsed now image)
    (s, image.pending)

/-- The platform's own record of a peer replaces a saved one. -/
def mergePeer (P : Pool PowerPeerRecord kPowerPeerCacheCapacity) (peer : PowerPeerRecord) :
    Pool PowerPeerRecord kPowerPeerCacheCapacity :=
  if (P.find fun q => q.node == peer.node).isSome then
    P.map fun q => if q.node == peer.node then peer else q
  else
    match P.freeIdx with
    | none => P
    | some i => P.set i peer

def mergedImage (stored : Option PowerImage) : PowerImage :=
  let (peers, channel) := match answers.captureCache with
    | .ok platform => platform
    | .error _ => (Pool.empty, 0)
  let base := stored.getD {}
  { base with
    peers := peers.toList.foldl mergePeer base.peers
    channel := if stored.any fun image => image.channel != 0 then base.channel else channel }

def PowerSystem.resetForResume : PowerSystem :=
  s.onCoordinator fun c =>
    { c with
      radioQuiesced := false, imageValid := false, sleepImageArmed := false, carry := Pool.empty
      plan := { c.plan with carryPlan := fun _ => .unused } }

/-- `load_image`: what the readable slots say of the newest image and of pending records. What is
owed and not adopted is noted as such and not counted again at later boots. -/
def PowerSystem.loadImage : PowerSystem :=
  { s with
    boots := s.boots ++ [⟨s.owed, s.stored, s.displaced, s.failures⟩]
    owed := s.owed.filter s.stored.contains
    displaced := []
    failures := 0
    coordinator := { s.coordinator with
      imageSequence := (newest s.disk).elim s.coordinator.imageSequence PowerImage.sequence
      diskPendingPossible :=
        (List.finRange kPowerImageSlots).any fun slot => (s.disk slot).any PowerImage.hasPending } }

/-- Write what is still to be retained, if the image held anything. -/
def commitRetained (stored : PowerImage) (merged : PowerImage) : PowerOp PowerImage := do
  let s ← Op.get
  if !stored.hasPending then pure merged
  else
    match s.coordinator.nextImageSequence with
    | none => pure merged
    | some sequence =>
      let merged := { merged with sequence := sequence }
      let _ ← commitImage merged
      pure merged

/-- Resume what the adopted image holds, and keep the rest. -/
def resumeStored (stored : Option PowerImage) : PowerOp Unit := do
  let merged := mergedImage answers stored
  modifySystem fun s =>
    { s with
      node := { s.node with started := true, draining := false }
      coordinator := { s.coordinator with radioGeneration := s.coordinator.radioGeneration + 1 } }
  match stored with
  | none => modifySystem fun s => s.onCoordinator fun c => { c with image := merged }
  | some image =>
    let s ← Op.get
    let (s, retained) := restorePending answers elapsed now image s
    Op.set s
    let merged ← commitRetained image { merged with pending := retained }
    modifySystem fun s => s.onCoordinator fun c =>
      { c with image := merged, carry := merged.pending }
  modifySystem fun s => s.onCoordinator fun c =>
    if c.image.peers.toList.isEmpty then { c with state := .running }
    else
      { c with
        confirmBaseline := s.node.rxGeneration
        resumeDeadlineMs :=
          if 0xFFFFFFFFFFFFFFFF - c.config.resumeConfirmMs.toUInt64 < now then 0xFFFFFFFFFFFFFFFF
          else now + c.config.resumeConfirmMs.toUInt64 }

def resumeFlow :
    PowerOp Unit := do
  modifySystem PowerSystem.resetForResume
  let s ← Op.get
  if (List.finRange kPowerImageSlots).any fun slot => (answers.unreadable slot).isSome then
    -- an unread slot may own work that must survive: nothing is adopted or overwritten
    Op.set { s with
      node := { s.node with started := true, draining := false }
      coordinator := { s.coordinator with
        storageImpaired := true, diskPendingPossible := true, state := .running } }
  else
    Op.set s.loadImage
    resumeStored answers elapsed now ((newest s.disk).filter (s.coordinator.imageUsable answers))

def recoveryRequired : PowerOp (Except Status Unit) := do
  let s ← Op.get
  pure (if s.coordinator.storageImpaired then
    .error ⟨.recoveryRequired, "SLEEP_IMAGE_READ_REQUIRED"⟩ else .ok ())

def begin :
    PowerOp (Except Status Unit) := do
  let s ← Op.get
  if s.coordinator.begun then pure (.error ⟨.alreadyExists, "coordinator already begun"⟩)
  else
    Op.set (s.onCoordinator fun c => { c with begun := true, state := .resuming })
    resumeFlow answers elapsed now
    recoveryRequired

def wake :
    PowerOp (Except Status Unit) := do
  let s ← Op.get
  if s.coordinator.state != .sleeping then pure (.error ⟨.invalidState, "not sleeping"⟩)
  else
    Op.set (s.onCoordinator fun c => { c with state := .resuming })
    resumeFlow answers elapsed now
    recoveryRequired

end RouteLoom.Power
