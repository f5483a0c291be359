import RouteLoom.Lib.Pool
import RouteLoom.Object.Assembler
import RouteLoom.Object.Wire

/-!
# The object endpoint

One endpoint sends at most one object at a time and receives objects of several peers. The sender
repeats its manifest and its chunks until they are acknowledged. The receiver reserves a record for each
object it takes on, reports the object once it is complete, and answers repetitions from the record. A
floor for each peer outlives the records: an object below it is never taken on again.

What the security provider, the node and the application answer during a call is in `ObjectEnv`. What
the call sends and reports is collected in `out`.

* `AppObject.send`, `cancel`, `registerBuffer`, `onConfigFrame`, `onConfigJobDone`, `poll`
-/

namespace RouteLoom.Object

open Lib Function

def kManifest : UInt8 := 255
def kNoProgressMs : UInt64 := 10000
def kRecordSlackMs : UInt64 := 30000
def kRecords : Nat := 12
def kBitmapBytes : Nat := 8
def kTxFrameFixedCostBytes : Nat := 96

def allBits (chunks : UInt8) : UInt64 := (1 <<< chunks.toUInt64) - 1

def hasBit (bitmap : UInt64) (index : UInt8) : Bool := bitmap &&& (1 <<< index.toUInt64) != 0

def retryDelay (sends : UInt8) (id : ObjectId) : UInt64 :=
  (1000 <<< (min (sends.toUInt32 - 1).toNat 2).toUInt64) * (90 + id % 21).toUInt64 / 100

/-! ## Frames and reports -/

inductive ObjectFrameType
  | start | chunk | ack
  deriving DecidableEq, Repr

structure ObjectFrame where
  type : ObjectFrameType
  origin : NodeId
  destination : NodeId
  session : UInt32
  endEpoch : UInt32
  endProtected : Bool := true
  originalLifetimeMs : UInt32
  remainingDeadlineMs : UInt32
  payload : List UInt8
  deriving DecidableEq, Repr

inductive ObjectState
  | delivered | expired | cancelledBeforeTx | indeterminate | failed | unsupported
  deriving DecidableEq, Repr

/-- A verdict; success has no code. -/
structure ObjectResult where
  id : ObjectId
  state : ObjectState
  reason : Option StatusCode
  deriving DecidableEq, Repr

structure ObjectRxInfo where
  source : NodeId
  id : ObjectId
  sourceBoot : UInt32
  endContext : UInt32
  appTag : UInt16
  contentEncoding : UInt8
  deriving DecidableEq, Repr

inductive ObjectOutput
  | frame (frame : ObjectFrame)
  | onObject (info : ObjectRxInfo) (data : List UInt8)
  | onObjectResult (result : ObjectResult)
  deriving DecidableEq, Repr

/-- What provider, node and application answer during one call. -/
structure ObjectEnv where
  txEpoch : NodeId → Option UInt32
  currentRxEpoch : NodeId → Option UInt32
  contextUsable : NodeId → Bool
  sendTyped : ObjectFrame → Option MessageId
  receiveReady : Bool := true
  receiveSlots : Nat := 2

/-! ## State -/

structure ObjectConfig where
  node : NodeId
  network : NetworkId
  messageSession : UInt32
  deriving DecidableEq, Repr

structure ObjectOptions where
  deadlineMs : UInt32 := 30000
  appTag : UInt16 := 0
  contentEncoding : UInt8 := 0
  deriving DecidableEq, Repr

structure Key where
  peer : NodeId
  network : NetworkId
  self : NodeId
  boot : UInt32
  epoch : UInt32
  id : ObjectId
  selfBoot : UInt32
  deriving DecidableEq, Repr

/-- A receive slot; its buffer is empty until one is registered. -/
structure Rx where
  storage : List UInt8 := []
  assembler : ObjectAssembler := {}
  progressMs : MonotonicMs := 0
  record : Fin kRecords := ⟨0, by decide⟩

structure Record where
  key : Key
  digest : Digest
  untilMs : MonotonicMs
  bitmap : UInt64
  total : UInt16
  appTag : UInt16
  chunks : UInt8
  encoding : UInt8
  status : AckStatus
  ackPending : Bool
  deriving DecidableEq

structure Floor where
  peer : NodeId
  epoch : UInt32
  highest : ObjectId
  boot : UInt32
  deriving DecidableEq, Repr

structure Flight where
  job : MessageId := {}
  sentMs : MonotonicMs := 0
  index : UInt8
  sends : UInt8 := 0
  queued : Bool := false
  deriving DecidableEq, Repr

/-- The object being sent, with at most one frame of it in flight. -/
structure Tx where
  data : List UInt8
  destination : NodeId
  start : Start
  deadlineMs : MonotonicMs
  progressMs : MonotonicMs
  retryAfterMs : MonotonicMs := 0
  txEpoch : UInt32
  rxEpoch : UInt32
  destinationBoot : UInt32 := 0
  selfBoot : UInt32
  self : NodeId
  network : NetworkId
  acked : UInt64 := 0
  emitted : UInt64 := 0
  flight : Option Flight := none
  busyRetries : Nat := 0
  manifestAcked : Bool := false
  everSent : Bool := false

/-- An endpoint with `r` receive slots and `n` floors. -/
structure AppObject (r n : Nat) where
  config : ObjectConfig
  rx : Fin r → Rx := fun _ => {}
  records : Pool Record kRecords := Pool.empty
  floors : Pool Floor n := Pool.empty
  tx : Option Tx := none
  result : Option ObjectResult := none
  nextId : ObjectId := 1
  sendAfterMs : MonotonicMs := 0
  out : List ObjectOutput := []

namespace AppObject

variable {r n : Nat}

/-- An endpoint at the start of a boot. -/
def booted (config : ObjectConfig) : AppObject r n := { config := config }

variable (i : Fin r) (env : ObjectEnv) (k : Key) (t : Tx) (frame : ObjectFrame) (id : ObjectId)
  (now : MonotonicMs) (o : AppObject r n)

def key : Key where
  peer := frame.origin
  network := o.config.network
  self := o.config.node
  boot := frame.session
  epoch := frame.endEpoch
  id := id
  selfBoot := o.config.messageSession

def live : Bool :=
  k.self == o.config.node && k.selfBoot == o.config.messageSession && k.network == o.config.network &&
    env.currentRxEpoch k.peer == some k.epoch && env.contextUsable k.peer

def liveTx : Bool :=
  t.self == o.config.node && t.network == o.config.network && t.selfBoot == o.config.messageSession &&
    env.txEpoch t.destination == some t.txEpoch && env.currentRxEpoch t.destination == some t.rxEpoch &&
    env.contextUsable t.destination

def bits (rx : Rx) : UInt64 :=
  (List.range (8 * kBitmapBytes)).foldl (fun acc i =>
    if rx.assembler.bit i then acc ||| (1 <<< i.toUInt64) else acc) 0

/-- The record of an active receive slot. -/
def recordOf : Option Record :=
  if (o.rx i).assembler.active then o.records.slots (o.rx i).record else none

def updateRecord (i : Fin kRecords) (f : Record → Record) (o : AppObject r n) : AppObject r n :=
  { o with records := o.records.modify i f }

/-! ## Sending a frame -/

def sendFrame (type : ObjectFrameType) (peer : NodeId) (payload : List UInt8) (now : MonotonicMs)
    (lifetimeMs : UInt32) (o : AppObject r n) : Option MessageId × AppObject r n :=
  if now < o.sendAfterMs then (none, o)
  else
    match env.txEpoch peer with
    | none => (none, o)
    | some epoch =>
      let frame := {
        type := type, origin := o.config.node, destination := peer, session := o.config.messageSession
        endEpoch := epoch, originalLifetimeMs := lifetimeMs, remainingDeadlineMs := lifetimeMs
        payload := payload }
      match env.sendTyped frame with
      | none => (none, o)
      | some id =>
        let costUs := (payload.length + 88 + 32 + kTxFrameFixedCostBytes) * 32
        (some id, { o with
          sendAfterMs := now + ((costUs + 49) / 50).toUInt64, out := o.out ++ [.frame frame] })

def queueAck (peer : NodeId) (ack : Ack) (now : MonotonicMs) (o : AppObject r n) : AppObject r n :=
  match ack.encode kAckBytes with
  | .error _ => o
  | .ok bytes => (o.sendFrame env .ack peer bytes now 4000).2

/-! ## The application's calls -/

def registerBuffer (buffer : List UInt8) (o : AppObject r n) : Except Status Unit × AppObject r n :=
  if buffer.length < kMaxBytes then
    (.error ⟨.invalidArgument, "object receive buffer requires 4096 bytes"⟩, o)
  else
    match firstSlot fun i => (o.rx i).storage.isEmpty with
    | none => (.error ⟨.busy, "object receive slots full"⟩, o)
    | some i =>
      (.ok (), { o with rx := update o.rx i { o.rx i with storage := buffer } })

def startOf (data : List UInt8) (options : ObjectOptions) : Start where
  id := id
  total := data.length.toUInt16
  chunks := ((data.length + kChunkBytes - 1) / kChunkBytes).toUInt8
  appTag := options.appTag
  encoding := options.contentEncoding
  digest := digestOf (Sha256.digest data)
  lifetimeMs := options.deadlineMs

def send (env : ObjectEnv) (destination : NodeId) (data : List UInt8) (options : ObjectOptions)
    (now : MonotonicMs) (o : AppObject r n) : Except Status ObjectId × AppObject r n :=
  if o.tx.isSome || o.result.isSome then (.error ⟨.busy, "object sender busy"⟩, o)
  else if kMaxBytes < data.length then (.error ⟨.tooLarge, "object exceeds 4096 bytes"⟩, o)
  else if destination == 0 || destination == o.config.node || data.isEmpty || options.deadlineMs == 0 ||
      120000 < options.deadlineMs then
    (.error ⟨.invalidArgument, "object send bounds"⟩, o)
  else if o.nextId == 0 then (.error ⟨.counterExhausted, "object ids exhausted"⟩, o)
  else
    match env.txEpoch destination, env.currentRxEpoch destination with
    | some txEpoch, some rxEpoch =>
      if !env.contextUsable destination then
        (.error ⟨.authRequired, "object requires established end session"⟩, o)
      else
        (.ok o.nextId, { o with
          nextId := o.nextId + 1
          tx := some {
            data, destination, txEpoch, rxEpoch, start := startOf o.nextId data options
            deadlineMs := now + options.deadlineMs.toUInt64, progressMs := now
            self := o.config.node, network := o.config.network
            selfBoot := o.config.messageSession } })
    | _, _ => (.error ⟨.authRequired, "object requires established end session"⟩, o)

def finishTx (state : ObjectState) (reason : Option StatusCode) (t : Tx) (o : AppObject r n) :
    AppObject r n :=
  { o with result := some ⟨t.start.id, state, reason⟩, tx := none }

def cancel : Except Status Unit × AppObject r n :=
  match o.tx with
  | none => (.error ⟨.notFound, "object not active"⟩, o)
  | some t =>
    if t.start.id != id then (.error ⟨.notFound, "object not active"⟩, o)
    else (.ok (), o.finishTx (if t.everSent then .indeterminate else .cancelledBeforeTx) none t)

/-! ## Receiving -/

def finishRx (status : AckStatus) (o : AppObject r n) : AppObject r n :=
  { o.updateRecord (o.rx i).record fun record =>
      { record with status := status, bitmap := bits (o.rx i), ackPending := true } with
    rx := update o.rx i { o.rx i with assembler := (o.rx i).assembler.reset } }

/-- Finish the active slots whose object `p` accepts. -/
def finishWhere (p : Key → Bool) (status : AckStatus) (o : AppObject r n) : AppObject r n :=
  (List.finRange r).foldl (fun o i =>
    if (o.recordOf i).any fun record => p record.key then o.finishRx i status else o) o

/-- The floors whose context has been retired are released. -/
def retireFloors : AppObject r n :=
  { o with floors := o.floors.eraseIf fun f => env.currentRxEpoch f.peer != some f.epoch }

def floorIdx : Option (Fin n) :=
  o.floors.findIdx fun f => f.peer == k.peer && f.epoch == k.epoch

def belowFloor (f : Floor) : Bool :=
  k.boot < f.boot || k.boot == f.boot && k.id ≤ f.highest

/-- A newer boot of the peer retires what its former boot had begun. -/
def newBoot : AppObject r n :=
  match o.floorIdx k with
  | none => o
  | some j =>
    if (o.floors.slots j).any fun f => f.boot < k.boot then
      let o := o.finishWhere (·.peer == k.peer) .failed
      { o with floors := o.floors.modify j fun f => { f with boot := k.boot, highest := 0 } }
    else o

def activeCount : Nat :=
  (List.finRange r).countP fun i => (o.rx i).assembler.active

/-- The last slot with a buffer and no object. -/
def vacantSlot : Option (Fin r) :=
  (List.finRange r).reverse.find? fun i => !(o.rx i).storage.isEmpty && !(o.rx i).assembler.active

/-- Take the object on, in the slots that were found for it. -/
def admitObject (start : Start) (frame : ObjectFrame) (now : MonotonicMs) (slot : Fin r)
    (recordIndex : Fin kRecords) (floor : Fin n) (o : AppObject r n) : AppObject r n :=
  let elapsed := frame.originalLifetimeMs - frame.remainingDeadlineMs
  let deadline := now + start.lifetimeMs.toUInt64 - elapsed.toUInt64
  match (o.rx slot).assembler.begin (o.rx slot).storage kBitmapBytes start.total.toNat kChunkBytes
      deadline with
  | .error _ => o
  | .ok assembler =>
    { o with
      floors := o.floors.modify floor fun f => { f with highest := start.id, boot := k.boot }
      rx := update o.rx slot
        { o.rx slot with assembler := assembler, progressMs := now, record := recordIndex }
      records := o.records.set recordIndex {
        key := k, digest := start.digest, untilMs := deadline + kRecordSlackMs, bitmap := 0
        total := start.total, appTag := start.appTag, chunks := start.chunks
        encoding := start.encoding, status := .incomplete, ackPending := true } }

/-- A manifest without a record. -/
def offerObject (start : Start) (frame : ObjectFrame) (now : MonotonicMs) (o : AppObject r n) :
    AppObject r n :=
  let answer (status : AckStatus) (o : AppObject r n) := o.queueAck env k.peer ⟨k.id, status, 0, 0⟩ now
  let o := o.retireFloors env
  if ((o.floorIdx k).bind o.floors.slots).any (belowFloor k) then answer .expired o
  else
    let o := o.newBoot k
    if !env.receiveReady || env.receiveSlots ≤ o.activeCount then answer .busy o
    else if (List.finRange r).any fun i => (o.recordOf i).any fun record => record.key.peer == k.peer then
      answer .busy o
    else
      match o.vacantSlot, o.records.freeIdx, (o.floorIdx k).or o.floors.freeIdx with
      | some slot, some recordIndex, some floor =>
        let o := if (o.floorIdx k).isSome then o
          else { o with floors := o.floors.set floor ⟨k.peer, k.epoch, 0, k.boot⟩ }
        if start.lifetimeMs ≤ frame.originalLifetimeMs - frame.remainingDeadlineMs then answer .expired o
        else o.admitObject k start frame now slot recordIndex floor
      | _, _, _ =>
        answer (if (List.finRange r).any fun i => !(o.rx i).storage.isEmpty then .busy else .noBuffer) o

/-- The record is of another object with the same id. -/
def Record.conflicts (record : Record) (start : Start) : Bool :=
  record.total != start.total || record.chunks != start.chunks || record.appTag != start.appTag ||
    record.encoding != start.encoding || record.digest != start.digest

def startRx : AppObject r n :=
  match decodeStart frame.payload with
  | .error _ => o
  | .ok start =>
    let k := o.key frame start.id
    match o.records.findIdx (·.key == k) with
    | none => o.offerObject env k start frame now
    | some j =>
      if (o.records.slots j).any fun record => Record.conflicts record start then
        (o.finishWhere (· == k) .conflict).queueAck env k.peer ⟨k.id, .conflict, 0, 0⟩ now
      else o.updateRecord j fun record => { record with ackPending := true }

/-- A chunk of the object in slot `i`. -/
def chunkArrived (chunk : Chunk) (now : MonotonicMs) (o : AppObject r n) : AppObject r n :=
  let rx := o.rx i
  if rx.assembler.expired now || kNoProgressMs ≤ now - rx.progressMs then o.finishRx i .expired
  else
    match rx.assembler.insert (chunk.index.toNat * kChunkBytes) chunk.data now with
    | .error _ => o.finishRx i .conflict
    | .ok assembler =>
      let rx := { rx with
        assembler := assembler
        progressMs := if assembler.received != rx.assembler.received then now else rx.progressMs }
      let o := { o with rx := update o.rx i rx }.updateRecord rx.record fun record =>
        { record with bitmap := bits rx, ackPending := true }
      if assembler.complete && (o.records.slots rx.record).any fun record =>
          (assembler.verify record.digest.toList).toBool == false then
        o.finishRx i .failed
      else o

def chunkRx : AppObject r n :=
  match decodeChunk frame.payload with
  | .error _ => o
  | .ok chunk =>
    let k := o.key frame chunk.id
    match firstSlot fun i => (o.recordOf i).any fun record => record.key == k with
    | some i => o.chunkArrived i chunk now
    | none =>
      match o.records.findIdx (·.key == k) with
      | some j => o.updateRecord j fun record => { record with ackPending := true }
      | none => o.queueAck env k.peer ⟨k.id, .expired, 0, 0⟩ now

/-- The sender is told why the object is refused. -/
def refusalReason : AckStatus → StatusCode
  | .noBuffer => .noCapacity
  | .expired => .expired
  | .unsupported => .unsupported
  | _ => .protocolError

/-- What an acknowledgement from the right peer does to the transfer. -/
def ackArrived (ack : Ack) (now : MonotonicMs) (t : Tx) (o : AppObject r n) : AppObject r n :=
  match ack.status with
  | .complete =>
    if ack.bitmap == allBits t.start.chunks then o.finishTx .delivered none t else { o with tx := some t }
  | .busy =>
    if t.manifestAcked then { o with tx := some t }
    else
      let retries := min (t.busyRetries + 1) 3
      { o with tx := some { t with
        busyRetries := retries, retryAfterMs := now + retryDelay retries.toUInt8 t.start.id
        progressMs := now, flight := none } }
  | .incomplete =>
    let acked := t.acked ||| ack.bitmap
    { o with tx := some { t with
      progressMs := if !t.manifestAcked || ack.bitmap &&& ~~~t.acked != 0 then now else t.progressMs
      manifestAcked := true, acked := acked
      flight := t.flight.filter fun f => !(f.index == kManifest || hasBit acked f.index) } }
  | status =>
    o.finishTx (if status == .unsupported then .unsupported else .failed) (some (refusalReason status)) t

def ackRx : AppObject r n :=
  match decodeAck frame.payload, o.tx with
  | .ok ack, some t =>
    if frame.origin != t.destination || frame.endEpoch != t.rxEpoch || ack.id != t.start.id ||
        t.deadlineMs ≤ now || ack.bitmap &&& ~~~t.emitted != 0 then o
    else if !o.liveTx env t then o.finishTx .failed (some .authRequired) t
    else if kNoProgressMs ≤ now - t.progressMs then o
    else if t.destinationBoot != 0 && t.destinationBoot != frame.session then
      o.finishTx .failed (some .authRequired) t
    else o.ackArrived ack now { t with destinationBoot := frame.session }
  | _, _ => o

def onConfigFrame : AppObject r n :=
  if !frame.endProtected || frame.destination != o.config.node then o
  else if !o.live env (o.key frame 0) then o
  else
    match frame.type with
    | .start => o.startRx env frame now
    | .chunk => o.chunkRx env frame now
    | .ack => o.ackRx env frame now

/-! ## Pumping -/

/-- The job of the frame in flight is over. -/
def onConfigJobDone (id : MessageId) (accepted : Bool) (unsupported : Bool) (now : MonotonicMs)
    (o : AppObject r n) : AppObject r n :=
  match o.tx with
  | none => o
  | some t =>
    match t.flight with
    | none => o
    | some f =>
      if f.job != id then o
      else if !accepted && unsupported then o.finishTx .unsupported (some .unsupported) t
      else { o with tx := some { t with
        flight := some { f with queued := false, sentMs := now }, everSent := t.everSent || accepted } }

def payloadOf (index : UInt8) : List UInt8 :=
  let encoded :=
    if index == kManifest then
      Start.encode kMaxApplicationPayload { t.start with lifetimeMs := (t.deadlineMs - now).toUInt32 }
    else
      Chunk.encode kMaxApplicationPayload
        ⟨t.start.id, index, Lib.segment t.data (index.toNat * kChunkBytes) kChunkBytes⟩
  match encoded with
  | .ok bytes => bytes
  | .error _ => []

/-- Send the frame in flight again. -/
def resend (f : Flight) (now : MonotonicMs) (o : AppObject r n) : AppObject r n :=
  let type := if f.index == kManifest then .start else .chunk
  let lifetime := (min 4000 (t.deadlineMs - now)).toUInt32
  match o.sendFrame env type t.destination (payloadOf t now f.index) now lifetime with
  | (none, o) => o
  | (some job, o) =>
    { o with tx := some { t with
      flight := some { f with job := job, queued := true, sends := f.sends + 1 }
      everSent := true
      emitted := if f.index == kManifest then t.emitted
        else t.emitted ||| (1 <<< f.index.toUInt64) } }

/-- What to send next: the manifest until it is acknowledged, then each chunk that is not, and the
manifest again when only the completion is outstanding. -/
def nextFlight : Option Flight :=
  if !t.manifestAcked then some { index := kManifest }
  else
    match (List.range t.start.chunks.toNat).find? fun i => !hasBit t.acked i.toUInt8 with
    | some i => some { index := i.toUInt8 }
    | none => if t.acked == allBits t.start.chunks then some { index := kManifest } else none

def pump : AppObject r n :=
  if now < t.retryAfterMs then o
  else
    match t.flight with
    | none => { o with tx := some { t with flight := nextFlight t } }
    | some f =>
      if f.queued || f.sentMs != 0 && now - f.sentMs < retryDelay f.sends t.start.id then o
      else if 5 ≤ f.sends then o.finishTx .failed (some .expired) t
      else o.resend env t f now

/-! ## Polling -/

def infoOf (record : Record) : ObjectRxInfo where
  source := record.key.peer
  id := record.key.id
  sourceBoot := record.key.boot
  endContext := record.key.epoch
  appTag := record.appTag
  contentEncoding := record.encoding

def pollRx (i : Fin r) : AppObject r n :=
  match o.recordOf i with
  | none => o
  | some record =>
    let rx := o.rx i
    if !o.live env record.key then o.finishRx i .failed
    else if rx.assembler.expired now || kNoProgressMs ≤ now - rx.progressMs then o.finishRx i .expired
    else if rx.assembler.complete && env.receiveReady then
      { o with out := o.out ++ [ObjectOutput.onObject (infoOf record) rx.assembler.data] }.finishRx i .complete
    else o

def missing (record : Record) : Nat :=
  ((List.range record.chunks.toNat).takeWhile fun i => hasBit record.bitmap i.toUInt8).length

def pollRecord (j : Fin kRecords) : AppObject r n :=
  match o.records.slots j with
  | none => o
  | some record =>
    if record.untilMs ≤ now || !o.live env record.key then { o with records := o.records.release j }
    else if !record.ackPending || now < o.sendAfterMs then o
    else
      match Ack.encode kAckBytes ⟨record.key.id, record.status, (missing record).toUInt8, record.bitmap⟩ with
      | .error _ => o
      | .ok bytes =>
        match o.sendFrame env .ack record.key.peer bytes now 4000 with
        | (none, o) => o
        | (some _, o) => o.updateRecord j fun record => { record with ackPending := false }

def pollTx : AppObject r n :=
  match o.tx with
  | none => o
  | some t =>
    if !o.liveTx env t then o.finishTx .failed (some .authRequired) t
    else if t.deadlineMs ≤ now || kNoProgressMs ≤ now - t.progressMs then
      o.finishTx .expired (some .expired) t
    else o.pump env t now

def pollResult : AppObject r n :=
  match o.result with
  | none => o
  | some result => { o with out := o.out ++ [.onObjectResult result], result := none }

def poll : AppObject r n :=
  let o := (List.finRange r).foldl (pollRx env now) o
  let o := (List.finRange kRecords).foldl (pollRecord env now) o
  (o.pollTx env now).pollResult

end AppObject

end RouteLoom.Object
