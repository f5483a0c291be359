import Mathlib.Data.Fin.VecNotation
import RouteLoom.Lib.Durable
import RouteLoom.Lib.Segment
import RouteLoom.Lib.Sha256
import RouteLoom.Wire.Bytes

/-!
# Sealed records in two slots

`SealedSlotPair` of `sdkv1_store.cpp`: a record is written to one of two slots first with a pending seal
and then with its committed seal, and read back. At start the pair classifies both slots and adopts the
record with the higher sequence number.

The caller prepares a record in the scratch buffer and passes its length; here the prepared bytes are an
argument. A slot is the whole view that `RecordSlotStorage::read` fills: what `write` lands, and erased
bytes behind it.
-/

namespace RouteLoom.Storage

open Lib

def kSealPending : UInt32 := 0
def kRecordFormat : UInt16 := 1
def kRecordSchema : UInt32 := 1
def kSequencedHeadSize : Nat := 20
def kRecordSealOffset : Nat := 12
def kRecordSeqOffset : Nat := 16

/-! ## Fields of a record -/

def be32 (raw : List UInt8) (offset : Nat) : UInt32 := (bigEndianValue (segment raw offset 4)).toUInt32

def be16 (raw : List UInt8) (offset : Nat) : UInt16 := (bigEndianValue (segment raw offset 2)).toUInt16

def putBe32 (raw : List UInt8) (offset : Nat) (value : UInt32) : List UInt8 :=
  patch raw offset (bigEndian 4 value.toUInt64)

/-- Set the seal and close the record with its checksum. -/
def reseal (record : List UInt8) (mark : UInt32) : List UInt8 :=
  let sealed := putBe32 record kRecordSealOffset mark
  putBe32 sealed (record.length - 4) (crc32IsoHdlc (sealed.take (record.length - 4)))

def isErased : List UInt8 → Bool
  | [] => false
  | fill :: data => (fill == 0x00 || fill == 0xFF) && data.all (· == fill)

/-- One kind of record. `structural` and `semantic` are the two parses that the classifier runs. -/
structure SealedRecordFormat where
  magic : UInt32
  sealCommitted : UInt32
  slotBytes : Nat
  minLen : Nat
  maxLen : Nat
  sequenced : Bool
  structural : List UInt8 → Except Status Unit
  semantic : List UInt8 → Except Status Unit
  schemaMax : UInt32 := kRecordSchema
  sealCommitted_ne : sealCommitted ≠ kSealPending
  head_le : kSequencedHeadSize + 4 ≤ minLen

inductive SlotContent
  | empty | pending | corrupt | unsupported | valid
  deriving DecidableEq, Repr, Inhabited

/-- What `classify` reports of a slot. -/
structure Classified where
  content : SlotContent := .empty
  seq : UInt32 := 0
  seqProven : Bool := false
  digest : List UInt8 := []
  deriving DecidableEq, Repr, Inhabited

/-- The two slots. -/
abbrev Flash := Fin 2 → List UInt8

structure SealedSlotPair where
  /-- Why a slot must not be written, if it must not. -/
  slotReserved : Fin 2 → Option StatusCode := fun _ => none
  slotUnreadable : Fin 2 → Bool := fun _ => false
  activeSeq : UInt32 := 0
  seqFloor : UInt32 := 0
  activeSlot : Fin 2 := 0
  hasActive : Bool := false
  initialized : Bool := false
  quarantined : Bool := false
  uncertain : Bool := false
  staleSibling : Bool := false

/-- A pair before its start. -/
instance : Inhabited SealedSlotPair := ⟨{}⟩

/-- A method of a pair. -/
abbrev PairOp (α : Type) := Method Flash SealedSlotPair Status α

variable (format : SealedRecordFormat)

/-! ## Classification -/

/-- The part of a slot that its length field covers. -/
def recordOf (raw : List UInt8) : List UInt8 := raw.take (be16 raw 6).toNat

def classify (raw : List UInt8) : Classified :=
  if isErased raw then {}
  else
    let usedLen := (be16 raw 6).toNat
    let schema := be32 raw 8
    let mark := be32 raw kRecordSealOffset
    let record := recordOf raw
    if be32 raw 0 != format.magic || be16 raw 4 != kRecordFormat || usedLen < format.minLen ||
        format.maxLen < usedLen then { content := .corrupt }
    else if mark != format.sealCommitted then
      -- a well-formed pending record never committed
      { content := if mark == kSealPending then .pending else .corrupt }
    else if !(format.structural record).isOk then { content := .corrupt }
    else
      let seq := if format.sequenced then be32 raw kRecordSeqOffset else 0
      let found := { seq, seqProven := format.sequenced : Classified }
      if crc32IsoHdlc (raw.take (usedLen - 4)) != be32 raw (usedLen - 4) then
        -- the sequence number still bounds the floor
        { found with content := .corrupt }
      else if schema < kRecordSchema || format.schemaMax < schema then
        { found with content := .unsupported }
      else if !(format.semantic record).isOk then { found with content := .corrupt }
      else { found with content := .valid, digest := Sha256.digest record }

variable (scan : Except Status Classified)

/-- What the loop of `initialize` knows of a slot; an unreadable one counts as empty. -/
def found : Classified :=
  match scan with
  | .ok classified => classified
  | .error _ => {}

def unreadable : Bool :=
  match scan with
  | .ok _ => false
  | .error _ => true

def provablyAbsent : Bool :=
  !unreadable scan && ((found scan).content == .empty || (found scan).content == .pending)

def provenSeq : UInt32 :=
  if (found scan).seqProven then (found scan).seq else 0

/-- The first read error. -/
def readError (scan : Fin 2 → Except Status Classified) : Status :=
  match scan 0, scan 1 with
  | .error e, _ => e
  | .ok _, .error e => e
  | .ok _, .ok _ => ⟨.storageFailure, "record slots unreadable"⟩

namespace SealedSlotPair

/-- The pair after both slots have been looked at. -/
def observed (scan : Fin 2 → Except Status Classified) : SealedSlotPair :=
  { slotReserved := fun slot => if (found (scan slot)).content == .unsupported then some .unsupported else none
    slotUnreadable := fun slot => unreadable (scan slot)
    seqFloor := max (provenSeq (scan 0)) (provenSeq (scan 1)) }

variable (pair : SealedSlotPair) (slot : Fin 2) (record : List UInt8) (seq : UInt32)

def quarantine : SealedSlotPair :=
  { pair with quarantined := true, initialized := true, hasActive := false }

def adopt : SealedSlotPair :=
  { pair with activeSlot := slot, activeSeq := seq, hasActive := true, initialized := true }

/-- The verdict of `initialize` on the two slots. -/
def conclude (scan : Fin 2 → Except Status Classified) : Except Status Unit × SealedSlotPair :=
  let pair := observed scan
  let content slot := (found (scan slot)).content
  let seq slot := (found (scan slot)).seq
  if unreadable (scan 0) && unreadable (scan 1) then (.error (readError scan), pair)
  else if content 0 == .valid && content 1 == .valid then
    if format.sequenced && seq 0 != seq 1 then
      let slot := if seq 0 < seq 1 then 1 else 0
      (.ok (), { pair.adopt slot (seq slot) with staleSibling := true })
    else if (found (scan 0)).digest != (found (scan 1)).digest then
      (Status.error .integrityError "record slots diverge", pair.quarantine)
    else (.ok (), pair.adopt 0 (seq 0))
  else if content 0 == .valid || content 1 == .valid then
    let slot := if content 0 == .valid then 0 else 1
    let sibling := slot + 1
    if !provablyAbsent (scan sibling) then
      -- the lost sibling may have held a newer record
      (Status.error .integrityError "record sibling state unproven",
        { pair.adopt slot (seq slot) with uncertain := true })
    else (.ok (), { pair.adopt slot (seq slot) with staleSibling := content sibling == .pending })
  else if unreadable (scan 0) || unreadable (scan 1) then (.error (readError scan), pair)
  else if content 0 == .unsupported || content 1 == .unsupported then
    (Status.error .unsupported "record schema unsupported", pair.quarantine)
  else if content 0 == .corrupt || content 1 == .corrupt then
    (Status.error .integrityError "record slots corrupt", pair.quarantine)
  else (.ok (), { pair with initialized := true })

/-! ## Methods -/

def readSlot : PairOp (List UInt8) := do
  let flash ← Method.load
  pure (flash slot)

/-- A slot after `data` was written to it. -/
def landed (data : List UInt8) : List UInt8 :=
  data ++ List.replicate (format.slotBytes - data.length) 0xFF

def storeSlot (data : List UInt8) : PairOp Unit :=
  Method.commit fun flash => Function.update flash slot (landed format data)

/-- `initialize`. -/
def initializePair : PairOp Unit := do
  Method.set {}
  let read₀ ← Method.tryLoad
  let read₁ ← Method.tryLoad
  let scan : Fin 2 → Except Status Classified :=
    ![read₀.map fun flash => classify format (flash 0), read₁.map fun flash => classify format (flash 1)]
  let (status, pair) := conclude format scan
  Method.set pair
  Method.ofExcept status

/-- The adopted record, read again. -/
def loadActive : PairOp (List UInt8) := do
  let pair ← Method.get
  Method.ofExcept (refuse (!pair.hasActive) ⟨.notFound, "no active record"⟩)
  let raw ← readSlot pair.activeSlot
  let usedLen := (be16 raw 6).toNat
  Method.ofExcept (refuse (usedLen < format.minLen || format.maxLen < usedLen)
    ⟨.integrityError, "active record changed"⟩)
  pure (recordOf raw)

def nextSeq : Except Status UInt32 := do
  refuse (pair.seqFloor == 0xFFFFFFFF) ⟨.recoveryRequired, "record sequence exhausted"⟩
  .ok (pair.seqFloor + 1)

/-- The prepared record with its sequence number, if the format has one. -/
def numbered : List UInt8 :=
  if format.sequenced then putBe32 record kRecordSeqOffset seq else record

/-- The record of the first phase of a write. -/
def pendingRecord : List UInt8 :=
  reseal (numbered format record seq) kSealPending

/-- The record that a write commits. -/
def committedRecord : List UInt8 :=
  reseal (pendingRecord format record seq) format.sealCommitted

/-- Pending seal, committed seal, read back. The result is what the scratch buffer then holds. -/
def writeSlot : PairOp (List UInt8) := do
  storeSlot format slot (pendingRecord format record seq)
  let committed := committedRecord format record seq
  storeSlot format slot committed
  let raw ← readSlot slot
  Method.ofExcept (refuse (Sha256.digest (raw.take record.length) != Sha256.digest committed)
    ⟨.storageFailure, "record readback mismatch"⟩)
  pure (raw.take record.length)

/-- The error for a slot that other data owns. -/
def checkReserved : Except Status Unit :=
  match pair.slotReserved slot with
  | none => .ok ()
  | some code => .error ⟨code, "record slot owned by other data"⟩

def checkLength : Except Status Unit :=
  refuse (record.length < format.minLen || format.maxLen < record.length)
    ⟨.invalidArgument, "record length"⟩

def target : Fin 2 := if pair.hasActive then pair.activeSlot + 1 else 0

def checkCommit : Except Status Unit := do
  refuse (!pair.initialized) ⟨.invalidState, "record store not initialized"⟩
  refuse pair.quarantined ⟨.integrityError, "record store quarantined"⟩
  refuse pair.uncertain ⟨.recoveryRequired, "record store storage uncertain"⟩
  checkLength format record

/-- The twin form of `commit_prepared`, for a format without sequence numbers. -/
def commitUnsequenced : PairOp Unit := do
  let pair ← Method.get
  Method.ofExcept (pair.checkReserved 0)
  Method.ofExcept (pair.checkReserved 1)
  let record ← writeSlot format 0 record 0
  let _ ← writeSlot format 1 record 0
  Method.set { pair with activeSlot := 0, hasActive := true }

/-- The alternating form of `commit_prepared`. -/
def commitSequenced : PairOp Unit := do
  let pair ← Method.get
  Method.ofExcept (pair.checkReserved pair.target)
  let seq ← Method.ofExcept pair.nextSeq
  let _ ← writeSlot format pair.target record seq
  Method.set { pair with activeSlot := pair.target, activeSeq := seq, seqFloor := seq, hasActive := true }

def commitPrepared : PairOp Unit := do
  let pair ← Method.get
  Method.ofExcept (pair.checkCommit format record)
  if format.sequenced then commitSequenced format record else commitUnsequenced format record

/-- The sequence number that a twin commit uses. -/
def twinSeq : Except Status UInt32 :=
  if format.sequenced then pair.nextSeq else .ok 0

def commitTwinPrepared : PairOp Unit := do
  let pair ← Method.get
  Method.ofExcept (refuse (!pair.initialized) ⟨.invalidState, "record store not initialized"⟩)
  Method.ofExcept (checkLength format record)
  let seq ← Method.ofExcept (pair.twinSeq format)
  let record ← writeSlot format 0 record seq
  let pair := if format.sequenced then { pair with seqFloor := seq } else pair
  Method.set pair
  let _ ← writeSlot format 1 record seq
  Method.set
    { pair with
      slotReserved := fun _ => none
      activeSlot := 0
      activeSeq := seq
      hasActive := true
      quarantined := false
      uncertain := false
      staleSibling := false }

def eraseSlot : PairOp (Except Status Unit) :=
  Method.tryCommit fun flash => Function.update flash slot (List.replicate format.slotBytes 0xFF)

/-- Both slots are attempted even when the first fails. -/
def eraseAll : PairOp Unit := do
  let first ← eraseSlot format 0
  let second ← eraseSlot format 1
  Method.ofExcept first
  Method.ofExcept second
  initializePair format

/-! ## Two records and a twin -/

/-- Records with one sequence number have one digest. -/
def Coherent (slots : Fin 2 → Option (UInt32 × List UInt8)) : Prop :=
  ∀ a b, slots 0 = some a → slots 1 = some b → a.1 = b.1 → Sha256.digest a.2 = Sha256.digest b.2

/-- The pair after `commit_twin_prepared`. -/
def twinned : SealedSlotPair :=
  { pair with
    slotReserved := fun _ => none
    activeSlot := 0
    activeSeq := pair.seqFloor + 1
    seqFloor := pair.seqFloor + 1
    hasActive := true
    quarantined := false
    uncertain := false
    staleSibling := false }

end SealedSlotPair

end RouteLoom.Storage
