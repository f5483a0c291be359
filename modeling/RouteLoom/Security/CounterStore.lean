import RouteLoom.Basic
import RouteLoom.Lib.Durable
import RouteLoom.Lib.Fallible
import RouteLoom.Lib.Pool

/-!
# Leases on transmit counters

`CounterLease` and `CounterCheckpointCache` of `counter_store.cpp`. A lease reserves a block of
counters by committing its end before it issues the first of them. The unissued rest of a block can
be parked as a checkpoint when the lease is dropped, and taken up again by another lease.

A lease keeps its half-open block in the source fields `cursor_` and `end_`; the second is
`endExclusive` here.
-/

namespace RouteLoom

open Lib

def kCounterRecordLayout : UInt8 := 2

structure CounterRecord where
  contextId : UInt32 := 0
  keyEpoch : UInt32 := 0
  direction : UInt8 := 0
  layout : UInt8 := 0
  reserved : Vector UInt8 6 := .replicate 6 0
  highWaterExclusive : UInt64 := 0
  generation : UInt32 := 0
  crc : UInt32 := 0
  deriving DecidableEq

/-- The contents of the store, by slot. -/
abbrev CounterStore := UInt32 → Option CounterRecord

def counterRecordCrc (record : CounterRecord) : UInt32 :=
  crc32IsoHdlc (littleEndian 4 record.contextId.toUInt64 ++ littleEndian 4 record.keyEpoch.toUInt64 ++
    [record.direction, record.layout] ++ record.reserved.toList ++
    littleEndian 8 record.highWaterExclusive ++ littleEndian 4 record.generation.toUInt64)

/-- Where a dropped lease stood: its identity and the unissued rest of its block. -/
structure CounterLeaseCheckpoint where
  slot : UInt32 := 0
  contextId : UInt32 := 0
  keyEpoch : UInt32 := 0
  direction : UInt8 := 0
  cursor : UInt64 := 0
  endExclusive : UInt64 := 0
  generation : UInt32 := 0
  deriving DecidableEq

def sameLeaseIdentity (left right : CounterLeaseCheckpoint) : Bool :=
  left.slot == right.slot && left.contextId == right.contextId && left.keyEpoch == right.keyEpoch &&
    left.direction == right.direction

structure CounterLease where
  slot : UInt32
  contextId : UInt32
  keyEpoch : UInt32
  direction : UInt8
  blockSize : UInt32 := 256
  cursor : UInt64 := 0
  endExclusive : UInt64 := 0
  generation : UInt32 := 0
  initialized : Bool := false
  deriving DecidableEq

namespace CounterLease

/-- A method of a lease. -/
abbrev Leased (α : Type) := Method CounterStore CounterLease Status α

def loadRecord (slot : UInt32) : Leased (Option CounterRecord) := do
  let store ← Method.load
  pure (store slot)

def commitRecord (slot : UInt32) (record : CounterRecord) : Leased Unit :=
  Method.commit fun store => Function.update store slot (some record)

/-- CRC and layout, in the order and with the texts in which every reader checks them. -/
def checkRecord (record : CounterRecord) : Except Status Unit := do
  refuse (record.crc != counterRecordCrc record)
    ⟨.integrityError, "counter record integrity check failed"⟩
  refuse (record.layout != kCounterRecordLayout)
    ⟨.integrityError, "counter record layout is not Wire v2"⟩

variable (lease : CounterLease)

/-- The lease over the record found in its slot. -/
def initializedOver (found : Option CounterRecord) : Except Status CounterLease :=
  match found with
  | none => .ok { lease with initialized := true }
  | some record => do
    checkRecord record
    refuse (record.contextId != lease.contextId || record.direction != lease.direction)
      ⟨.conflict, "counter store context mismatch"⟩
    refuse (record.keyEpoch > lease.keyEpoch) ⟨.conflict, "counter store epoch regression"⟩
    if record.keyEpoch == lease.keyEpoch then
      .ok { lease with
        cursor := record.highWaterExclusive
        endExclusive := record.highWaterExclusive
        generation := record.generation
        initialized := true }
    else .ok { lease with generation := record.generation, initialized := true }

/-- `initialize`. -/
def initializeLease : Leased Unit := do
  let lease ← Method.get
  if lease.blockSize == 0 then Method.throw ⟨.invalidArgument, "counter block size is zero"⟩
  else do
    let found ← loadRecord lease.slot
    let lease ← Method.ofExcept (lease.initializedOver found)
    Method.set lease

def checkpoint : CounterLeaseCheckpoint :=
  { slot := lease.slot
    contextId := lease.contextId
    keyEpoch := lease.keyEpoch
    direction := lease.direction
    cursor := lease.cursor
    endExclusive := lease.endExclusive
    generation := lease.generation }

/-- The block of the checkpoint is still the newest reservation. -/
def continues (checkpoint : CounterLeaseCheckpoint) : Bool :=
  sameLeaseIdentity lease.checkpoint checkpoint && checkpoint.cursor < checkpoint.endExclusive &&
    lease.endExclusive != 0 && lease.endExclusive == checkpoint.endExclusive &&
    lease.generation == checkpoint.generation

def resume (checkpoint : CounterLeaseCheckpoint) : Leased Unit := do
  initializeLease
  let lease ← Method.get
  if lease.continues checkpoint then Method.set { lease with cursor := checkpoint.cursor }
  else pure ()

/-- The check of the persisted record before a reservation: a higher mark of the same epoch is
adopted, a lower one or a newer epoch is refused. -/
def adopt (found : Option CounterRecord) : Except Status CounterLease :=
  match found with
  | none => .ok lease
  | some persisted => do
    checkRecord persisted
    refuse (persisted.keyEpoch > lease.keyEpoch)
      ⟨.conflict, "counter slot superseded by newer epoch"⟩
    if persisted.keyEpoch == lease.keyEpoch &&
        persisted.highWaterExclusive > lease.endExclusive then
      .ok { lease with
        cursor := persisted.highWaterExclusive
        endExclusive := persisted.highWaterExclusive
        generation := persisted.generation }
    else if persisted.keyEpoch == lease.keyEpoch &&
        persisted.highWaterExclusive < lease.endExclusive then
      Status.error .integrityError "counter record rewound"
    else .ok lease

/-- The record that reserves the next block. -/
def nextRecord : CounterRecord :=
  let next : CounterRecord :=
    { contextId := lease.contextId
      keyEpoch := lease.keyEpoch
      direction := lease.direction
      layout := kCounterRecordLayout
      highWaterExclusive := lease.endExclusive + lease.blockSize.toUInt64
      generation := lease.generation + 1 }
  { next with crc := counterRecordCrc next }

/-- The lease after its next block is reserved. -/
def advanced : CounterLease :=
  { lease with
    cursor := lease.endExclusive
    endExclusive := lease.nextRecord.highWaterExclusive
    generation := lease.nextRecord.generation }

def reserveBlock : Leased Unit := do
  let lease ← Method.get
  if !lease.initialized then Method.throw ⟨.invalidState, "counter lease is not initialized"⟩
  else do
    let found ← loadRecord lease.slot
    let lease ← Method.ofExcept (lease.adopt found)
    Method.set lease
    if lease.endExclusive > kMaxCryptoCounter + 1 - lease.blockSize.toUInt64 then
      Method.throw ⟨.counterExhausted, "counter range exhausted"⟩
    else do
      commitRecord lease.slot lease.nextRecord
      Method.set lease.advanced

/-- Reserve a block when the current one is used up. -/
def refill : Leased Unit := do
  let lease ← Method.get
  if lease.cursor == lease.endExclusive then reserveBlock else pure ()

def next : Leased UInt64 := do
  let lease ← Method.get
  if !lease.initialized then Method.throw ⟨.invalidState, "counter lease is not initialized"⟩
  else do
    refill
    let lease ← Method.get
    Method.set { lease with cursor := lease.cursor + 1 }
    pure lease.cursor

end CounterLease

/-! ## Parked checkpoints -/

namespace CounterCheckpointCache

structure Entry where
  checkpoint : CounterLeaseCheckpoint := {}
  stamp : UInt64 := 0
  deriving DecidableEq

end CounterCheckpointCache

structure CounterCheckpointCache (capacity : Nat) where
  entries : Pool CounterCheckpointCache.Entry capacity := .empty
  stamp : UInt64 := 0

namespace CounterCheckpointCache

variable {capacity : Nat}

/-- The first of the entries with the lowest stamp. -/
def oldest (cache : CounterCheckpointCache capacity) : Option (Fin capacity) :=
  (List.finRange capacity).foldl (fun oldest i =>
    match cache.entries.slots i with
    | none => oldest
    | some value =>
      match oldest.bind cache.entries.slots with
      | none => some i
      | some best => if value.stamp < best.stamp then some i else oldest) none

variable (cache : CounterCheckpointCache capacity)

/-- Store a checkpoint in entry `i` with the next stamp. -/
def write (i : Fin capacity) (checkpoint : CounterLeaseCheckpoint) :
    CounterCheckpointCache capacity :=
  { entries := cache.entries.set i ⟨checkpoint, cache.stamp + 1⟩
    stamp := cache.stamp + 1 }

/-- Store a checkpoint in the first free entry, if there is one. -/
def writeFree (checkpoint : CounterLeaseCheckpoint) : CounterCheckpointCache capacity :=
  match cache.entries.freeIdx with
  | none => cache
  | some i => cache.write i checkpoint

def park (checkpoint : CounterLeaseCheckpoint) : CounterCheckpointCache capacity :=
  if checkpoint.cursor ≥ checkpoint.endExclusive then cache
  else
    match cache.entries.findIdx (sameLeaseIdentity ·.checkpoint checkpoint) with
    | some i => cache.write i checkpoint
    | none =>
      if cache.entries.freeIdx.isSome then cache.writeFree checkpoint
      else
        match cache.oldest with
        | none => cache
        | some i => { cache with entries := cache.entries.release i }.writeFree checkpoint

/-- The checkpoint of the given identity, and the cache without it. -/
def take (identity : CounterLeaseCheckpoint) :
    Option (CounterLeaseCheckpoint × CounterCheckpointCache capacity) := do
  let i ← cache.entries.findIdx (sameLeaseIdentity ·.checkpoint identity)
  let entry ← cache.entries.slots i
  pure (entry.checkpoint, { cache with entries := cache.entries.release i })

def clear : CounterCheckpointCache capacity :=
  { cache with entries := .empty }

end CounterCheckpointCache

end RouteLoom
