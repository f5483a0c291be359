import RouteLoom.Basic
import RouteLoom.Lib.Durable
import RouteLoom.Lib.SlidingWindow

/-!
# Persisted receive-side replay state

`ReplayGuard` of `replay.cpp`. For each peer pair the store holds an epoch floor and one window
record with a ceiling; the 64-bit window itself lives in memory. `acceptFrame` makes a ceiling
durable before it reports a counter above the old one as accepted.

The diagnostic counter of foreign fingerprints is left out: no other function reads it.
-/

namespace RouteLoom

open Lib

def kReplayRecordLayout : UInt8 := 2

structure ReplayWindowRecord where
  contextFingerprint : UInt64 := 0
  acceptedCeiling : UInt64 := 0
  legacyBitmap : UInt64 := 0
  generation : UInt32 := 0
  initialized : UInt8 := 0
  layout : UInt8 := 0
  reserved : Vector UInt8 6 := .replicate 6 0
  crc : UInt32 := 0
  deriving DecidableEq

structure ReplayFloorRecord where
  peerFingerprint : UInt64 := 0
  generation : UInt32 := 0
  minimumEpoch : UInt32 := 0
  initialized : UInt8 := 0
  layout : UInt8 := 0
  reserved : Vector UInt8 2 := .replicate 2 0
  crc : UInt32 := 0
  deriving DecidableEq

/-- The contents of the store. -/
structure ReplayStore where
  windows : UInt32 → Option ReplayWindowRecord := fun _ => none
  floors : UInt32 → Option ReplayFloorRecord := fun _ => none

def ReplayStore.setWindow (store : ReplayStore) (slot : UInt32) (record : ReplayWindowRecord) :
    ReplayStore :=
  { store with windows := Function.update store.windows slot (some record) }

def ReplayStore.setFloor (store : ReplayStore) (slot : UInt32) (record : ReplayFloorRecord) :
    ReplayStore :=
  { store with floors := Function.update store.floors slot (some record) }

/-! ## Fingerprints and slots -/

def kFnvOffset : UInt64 := 1469598103934665603
def kFnvPrime : UInt64 := 1099511628211

def fnvAdd (hash value : UInt64) : UInt64 :=
  (littleEndian 8 value).foldl (fun hash byte => (hash ^^^ byte.toUInt64) * kFnvPrime) hash

def fold (fingerprint : UInt64) : UInt32 := (fingerprint ^^^ (fingerprint >>> 32)).toUInt32

/-- The hash of the peer pair, which both fingerprints extend. -/
def replayPairHash (context : SecurityContext) : UInt64 :=
  fnvAdd (fnvAdd (fnvAdd (fnvAdd kFnvOffset context.scope.code.toUInt64) context.network)
    context.sender) context.receiver

def replayContextFingerprint (context : SecurityContext) : UInt64 :=
  fnvAdd (replayPairHash context) context.epoch.toUInt64

def replayPeerFingerprint (context : SecurityContext) : UInt64 :=
  fnvAdd (replayPairHash context) 0x524c50454c4f4f52

def windowCrc (record : ReplayWindowRecord) : UInt32 :=
  crc32IsoHdlc (littleEndian 8 record.contextFingerprint ++ littleEndian 8 record.acceptedCeiling ++
    littleEndian 8 record.legacyBitmap ++ littleEndian 4 record.generation.toUInt64 ++
    [record.initialized, record.layout] ++ record.reserved.toList)

def floorCrc (record : ReplayFloorRecord) : UInt32 :=
  crc32IsoHdlc (littleEndian 8 record.peerFingerprint ++ littleEndian 4 record.generation.toUInt64 ++
    littleEndian 4 record.minimumEpoch.toUInt64 ++ [record.initialized, record.layout] ++
    record.reserved.toList)

/-- CRC, initialization mark and layout of a floor. -/
def ReplayFloorRecord.intact (floor : ReplayFloorRecord) : Bool :=
  floor.crc == floorCrc floor && floor.initialized != 0 && floor.layout == kReplayRecordLayout

/-- CRC, initialization mark and layout of a window record; layout 0 is the older format. -/
def ReplayWindowRecord.intact (record : ReplayWindowRecord) : Bool :=
  record.crc == windowCrc record && record.initialized != 0 &&
    (record.layout == 0 || record.layout == kReplayRecordLayout)

namespace ReplayGuard

variable (slot reservationAhead : UInt32) (context : SecurityContext) (record : ReplayWindowRecord)
  (floor : Option ReplayFloorRecord)

/-- The slot of the floor and of the window record of a peer pair. -/
def floorSlot : UInt32 := fold (replayPeerFingerprint context)

/-- In-memory replay state of one context. -/
structure Window where
  record : ReplayWindowRecord := {}
  maximumCounter : UInt64 := 0
  bitmap : UInt64 := 0
  live : Bool := false
  slot : UInt32 := 0
  epoch : UInt32 := 0
  isOpen : Bool := false
  peerFingerprint : UInt64 := 0
  deriving DecidableEq

def Window.sliding (window : Window) : SlidingWindow := ⟨window.maximumCounter, window.bitmap⟩

/-- A guard method that works on a window. -/
abbrev Guarded (α : Type) := Method ReplayStore Window Status α

def loadWindow : Guarded (Option ReplayWindowRecord) := do
  let store ← Method.load
  pure (store.windows slot)

def loadFloor : Guarded (Option ReplayFloorRecord) := do
  let store ← Method.load
  pure (store.floors slot)

def commitWindow : Guarded Unit :=
  Method.commit (·.setWindow slot record)

def commitFloor (record : ReplayFloorRecord) : Guarded Unit :=
  Method.commit (·.setFloor slot record)

/-- The checks on a loaded floor that must belong to `peerFingerprint`. -/
def checkFloorRecord (floor : ReplayFloorRecord) (peerFingerprint : UInt64) : Except Status Unit :=
  if floor.intact && floor.peerFingerprint != peerFingerprint then
    Status.error .integrityError "replay floor foreign fingerprint"
  else if !floor.intact || floor.peerFingerprint != peerFingerprint then
    Status.error .integrityError "replay epoch floor corrupt"
  else .ok ()

def floorState : Guarded (Option ReplayFloorRecord) := do
  let found ← loadFloor (floorSlot context)
  match found with
  | none => pure none
  | some floor =>
    Method.ofExcept (checkFloorRecord floor (replayPeerFingerprint context))
    pure (some floor)

/-- The floor record that admits the epoch of `context`. -/
def nextFloor : ReplayFloorRecord :=
  let next : ReplayFloorRecord :=
    { peerFingerprint := replayPeerFingerprint context
      minimumEpoch := context.epoch
      initialized := 1
      layout := kReplayRecordLayout
      generation := floor.elim 1 (·.generation + 1) }
  { next with crc := floorCrc next }

def ratchetFloor : Guarded Unit :=
  if floor.any (context.epoch ≤ ·.minimumEpoch) then pure ()
  else commitFloor (floorSlot context) (nextFloor context floor)

def stale (epoch : UInt32) (floor : Option ReplayFloorRecord) : Except Status Unit :=
  if floor.any (epoch < ·.minimumEpoch) then Status.error .replayRejected "REPLAY_EPOCH_STALE"
  else .ok ()

def checkFloor : Guarded Unit := do
  let floor ← floorState context
  Method.ofExcept (stale context.epoch floor)
  ratchetFloor context floor

/-- The record a context starts from: its own, or a blank one in place of an older epoch's. -/
def openRecord (found : Option ReplayWindowRecord) : Except Status ReplayWindowRecord :=
  match found with
  | some record =>
    if !record.intact then Status.error .integrityError "replay window corrupt"
    else if record.contextFingerprint != replayContextFingerprint context then
      if floor.any (context.epoch ≤ ·.minimumEpoch) then
        Status.error .replayRejected "REPLAY_STATE_LOST"
      else .ok { contextFingerprint := replayContextFingerprint context }
    else .ok record
  | none =>
    if floor.any (context.epoch == ·.minimumEpoch) then
      Status.error .replayRejected "REPLAY_STATE_LOST"
    else .ok { contextFingerprint := replayContextFingerprint context }

/-- The window of an opened context. Over a stored record it starts at the ceiling with every bit
set. -/
def openedWindow : Window :=
  { record := record
    maximumCounter := if record.initialized != 0 then record.acceptedCeiling else 0
    bitmap := if record.initialized != 0 then 0xFFFFFFFFFFFFFFFF else 0
    live := record.initialized != 0
    slot := floorSlot context
    epoch := context.epoch
    isOpen := true
    peerFingerprint := replayPeerFingerprint context }

def openContext : Guarded Unit := do
  Method.set {}
  let floor ← floorState context
  Method.ofExcept (stale context.epoch floor)
  let found ← loadWindow (floorSlot context)
  let record ← Method.ofExcept (openRecord context floor found)
  ratchetFloor context floor
  Method.set (openedWindow context record)

def checkWindowFloor : Guarded Unit := do
  let window ← Method.get
  let found ← loadFloor window.slot
  match found with
  | none => Method.throw ⟨.replayRejected, "REPLAY_STATE_LOST"⟩
  | some floor =>
    Method.ofExcept (checkFloorRecord floor window.peerFingerprint)
    Method.ofExcept (stale window.epoch (some floor))

/-- The compare part of the compare-and-swap: only the last writer may go on, and a fresh window only
over another context's record. -/
def notSuperseded (window : Window) (persisted : Option ReplayWindowRecord) : Bool :=
  if window.record.initialized != 0 then persisted == some window.record
  else !persisted.any (·.contextFingerprint == window.record.contextFingerprint)

/-- The record that carries a new ceiling. -/
def nextRecord (ceiling : UInt64) : ReplayWindowRecord :=
  let next := { record with
    acceptedCeiling := ceiling
    legacyBitmap := 0
    initialized := 1
    layout := kReplayRecordLayout
    reserved := .replicate 6 0
    generation := record.generation + 1 }
  { next with crc := windowCrc next }

def commitCeiling (ceiling : UInt64) : Guarded Unit := do
  let window ← Method.get
  let persisted ← loadWindow window.slot
  if notSuperseded window persisted then do
    commitWindow window.slot (nextRecord window.record ceiling)
    Method.set { window with record := nextRecord window.record ceiling }
  else Method.throw ⟨.replayRejected, "REPLAY_WINDOW_SUPERSEDED"⟩

/-- The sliding-window part of `accept`: the window with the counter recorded. -/
def slide (window : Window) (counter : UInt64) : Except Status SlidingWindow :=
  if !window.live then .ok ⟨counter, 1⟩
  else if counter > window.maximumCounter then
    let delta := counter - window.maximumCounter
    .ok ⟨counter, if delta ≥ 64 then 1 else (window.bitmap <<< delta) ||| 1⟩
  else
    let delta := window.maximumCounter - counter
    if delta ≥ 64 || (window.bitmap &&& (1 <<< delta)) != 0 then
      Status.error .replayRejected "replayed security counter"
    else .ok ⟨window.maximumCounter, window.bitmap ||| (1 <<< delta)⟩

/-- The ceiling that covers `maximum` and the reservation, up to the largest counter. -/
def raisedCeiling (maximum : UInt64) : UInt64 :=
  if maximum > 0xFFFFFFFFFFFFFFFF - reservationAhead.toUInt64 then 0xFFFFFFFFFFFFFFFF
  else maximum + reservationAhead.toUInt64

/-- Make a ceiling durable that covers `maximum`, unless the window's record does already. -/
def coverMaximum (maximum : UInt64) : Guarded Unit := do
  let window ← Method.get
  if window.record.initialized == 0 || maximum > window.record.acceptedCeiling then
    commitCeiling (raisedCeiling reservationAhead maximum)
  else pure ()

/-- `accept`. -/
def acceptFrame (counter : UInt64) : Guarded Unit := do
  let window ← Method.get
  if !window.isOpen then Method.throw ⟨.invalidState, "replay window not open"⟩
  else do
    checkWindowFloor
    let slid ← Method.ofExcept (slide window counter)
    coverMaximum reservationAhead slid.maximum
    let window ← Method.get
    Method.set { window with maximumCounter := slid.maximum, bitmap := slid.bitmap, live := true }

/-- The window has reserved counters that it did not use. -/
def tightens (window : Window) : Bool :=
  window.isOpen && window.live && window.record.initialized != 0 &&
    window.maximumCounter < window.record.acceptedCeiling

def closeContext : Guarded Unit :=
  Method.andFinally (do
    let window ← Method.get
    if tightens window then do
      checkWindowFloor
      commitCeiling window.maximumCounter
    else pure ()) {}

end ReplayGuard

end RouteLoom
