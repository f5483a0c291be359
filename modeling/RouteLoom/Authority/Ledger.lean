import RouteLoom.Lib.Stateful
import RouteLoom.Wire.Bytes

/-!
# The authority ledger

`SingleAuthority` keeps its state in two slots. A record is written unsealed first and then sealed, so a
slot that was cut short reads as pending and is ignored. A boot takes the newest record of a consistent
pair, or the one that is valid; if no record can be trusted it quarantines the ledger, and an operator
starts a new generation with `recover`.

* `decodeRecord_pending`, `decodeRecord_committed` : what a slot reads as between and after the two writes
* `SingleAuthority.initializeFrom`, `recover`, `validate`
-/

namespace RouteLoom.Authority

open Lib

def kLedgerMagic : UInt32 := 0x524C4131
def kLedgerFormat : UInt16 := 1
def kSealPending : UInt32 := 0
def kSealCommitted : UInt32 := 0x5A3CC3A5
def kAuthorityLedgerSchemaVersion : UInt32 := 1
def kAuthorityLedgerRecordSize : Nat := 156
def kCrcOffset : Nat := kAuthorityLedgerRecordSize - 4

abbrev Digest256 := Vector UInt8 32

def zeroDigest : Digest256 := Vector.replicate 32 0

def digest256Of (bytes : List UInt8) : Digest256 := Vector.ofFn fun i => bytes.getD i.val 0

structure AuthorityRecord where
  network : NetworkId := 0
  authority : NodeId := kInvalidNodeId
  generation : UInt32 := 0
  appliedSequence : UInt64 := 0
  stateHash : Digest256 := zeroDigest
  deriving DecidableEq

structure ParsedRecord where
  revision : UInt64 := 0
  state : AuthorityRecord := {}
  previousStateHash : Digest256 := zeroDigest
  operationHash : Digest256 := zeroDigest
  deriving DecidableEq

inductive SlotContent
  | empty | pending | corrupt | unsupported | foreign | valid
  deriving DecidableEq, Repr

/-! ## Records -/

structure LedgerHead where
  magic : UInt32
  format : UInt16
  length : UInt16
  schema : UInt32
  mark : UInt32
  deriving DecidableEq, Repr

def LedgerHead.layout (h : LedgerHead) : List UInt8 :=
  bigEndian 4 h.magic.toUInt64 ++ (bigEndian 2 h.format.toUInt64 ++ (bigEndian 2 h.length.toUInt64 ++
    (bigEndian 4 h.schema.toUInt64 ++ bigEndian 4 h.mark.toUInt64)))

def ParsedRecord.layout (reserved : UInt32) (r : ParsedRecord) : List UInt8 :=
  bigEndian 8 r.revision ++ (bigEndian 8 r.state.network ++ (bigEndian 8 r.state.authority ++
    (bigEndian 4 r.state.generation.toUInt64 ++ (bigEndian 4 reserved.toUInt64 ++
      (bigEndian 8 r.state.appliedSequence ++ (r.state.stateHash.toList ++
        (r.previousStateHash.toList ++ r.operationHash.toList)))))))

/-- The head of the records that this version writes. -/
def ledgerHead (mark : UInt32) : LedgerHead :=
  ⟨kLedgerMagic, kLedgerFormat, kAuthorityLedgerRecordSize.toUInt16, kAuthorityLedgerSchemaVersion, mark⟩

def encodeRecord (mark : UInt32) (record : ParsedRecord) : List UInt8 :=
  let front := (ledgerHead mark).layout ++ record.layout 0
  front ++ bigEndian 4 (crc32IsoHdlc front).toUInt64

def isErased (data : List UInt8) : Bool :=
  let fill := data.getD 0 0
  (fill == 0x00 || fill == 0xFF) && data.all (· == fill)

def readHead : ReadOp LedgerHead := do
  let magic ← readU32
  let format ← readU16
  let length ← readU16
  let schema ← readU32
  let mark ← readU32
  pure ⟨magic, format, length, schema, mark⟩

def readBody : ReadOp (UInt32 × ParsedRecord × UInt32) := do
  let revision ← readU64
  let network ← readU64
  let authority ← readU64
  let generation ← readU32
  let reserved ← readU32
  let appliedSequence ← readU64
  let stateHash ← readBytes 32
  let previousStateHash ← readBytes 32
  let operationHash ← readBytes 32
  let crc ← readU32
  pure (reserved, {
    revision, previousStateHash := digest256Of previousStateHash, operationHash := digest256Of operationHash
    state := { network, authority, generation, appliedSequence, stateHash := digest256Of stateHash } }, crc)

/-- What a slot holds. The fields of a sealed record are known even if its checksum is wrong. -/
structure Decoded where
  content : SlotContent
  parsed : ParsedRecord := {}
  committedFields : Bool := false
  deriving DecidableEq

def decodeRecord (network : NetworkId) (authority : NodeId) (raw : List UInt8) : Decoded :=
  if raw.length != kAuthorityLedgerRecordSize then { content := .corrupt }
  else if isErased raw then { content := .empty }
  else
    match readHead raw with
    | (.error _, _) => { content := .corrupt }
    | (.ok head, rest) =>
      if head.magic != kLedgerMagic || head.format != kLedgerFormat ||
          head.length.toNat != kAuthorityLedgerRecordSize then
        { content := .corrupt }
      else if head.mark == kSealPending then { content := .pending }
      else if head.mark != kSealCommitted then { content := .corrupt }
      else
        match (readBody rest).1 with
        | .error _ => { content := .corrupt }
        | .ok (_, parsed, crc) =>
          if crc32IsoHdlc (raw.take kCrcOffset) != crc then
            { content := .corrupt, parsed := parsed, committedFields := true }
          else if head.schema != kAuthorityLedgerSchemaVersion then
            { content := .unsupported, parsed := parsed, committedFields := true }
          else if parsed.state.network != network || parsed.state.authority != authority then
            { content := .foreign, parsed := parsed, committedFields := true }
          else { content := .valid, parsed := parsed, committedFields := true }

/-! ## The slots during the two writes -/

theorem digest256Of_toList (d : Digest256) : digest256Of d.toList = d := by
  ext i hi
  simp [digest256Of]

theorem readHead_eq_ok {source rest : List UInt8} {head : LedgerHead} :
    readHead source = (.ok head, rest) ↔ source = head.layout ++ rest := by
  simp only [readHead, Op.bind_eq_ok, readU32_eq_ok, readU16_eq_ok, Op.pure_eq_ok, LedgerHead.layout,
    List.append_assoc]
  constructor
  · rintro ⟨_, _, rfl, _, _, rfl, _, _, rfl, _, _, rfl, _, _, rfl, rfl, rfl⟩
    rfl
  · rintro rfl
    exact ⟨_, _, rfl, _, _, rfl, _, _, rfl, _, _, rfl, _, _, rfl, rfl, rfl⟩

theorem readBody_layout (reserved crc : UInt32) (record : ParsedRecord) :
    readBody (record.layout reserved ++ bigEndian 4 crc.toUInt64) = (.ok (reserved, record, crc), []) := by
  simp only [readBody, Op.bind_eq_ok, readU64_eq_ok, readU32_eq_ok, readBytes_eq_ok, Op.pure_eq_ok,
    ParsedRecord.layout, List.append_assoc]
  refine ⟨_, _, rfl, _, _, rfl, _, _, rfl, _, _, rfl, _, _, rfl, _, _, rfl, _, _, ⟨rfl, by simp⟩, _, _,
    ⟨rfl, by simp⟩, _, _, ⟨rfl, by simp⟩, _, _, (List.append_nil _).symm, ?_, rfl⟩
  simp only [digest256Of_toList]

theorem length_encodeRecord (mark : UInt32) (record : ParsedRecord) :
    (encodeRecord mark record).length = kAuthorityLedgerRecordSize := by
  simp [encodeRecord, LedgerHead.layout, ParsedRecord.layout, kAuthorityLedgerRecordSize]

theorem encodeRecord_not_erased (mark : UInt32) (record : ParsedRecord) :
    isErased (encodeRecord mark record) = false := by
  have hfirst : (encodeRecord mark record).getD 0 0 = 0x52 := by
    simp only [encodeRecord, LedgerHead.layout, ledgerHead, List.append_assoc]
    rfl
  unfold isErased
  rw [hfirst]
  rfl

theorem readHead_encodeRecord (mark : UInt32) (record : ParsedRecord) :
    readHead (encodeRecord mark record) = (.ok (ledgerHead mark), record.layout 0 ++ bigEndian 4
        (crc32IsoHdlc ((ledgerHead mark).layout ++ record.layout 0)).toUInt64) :=
  readHead_eq_ok.mpr (List.append_assoc ..)

variable {network : NetworkId} {authority : NodeId} {record : ParsedRecord}

theorem decodeRecord_pending :
    decodeRecord network authority (encodeRecord kSealPending record) = { content := .pending } := by
  unfold decodeRecord
  rw [if_neg (by simp [length_encodeRecord]), encodeRecord_not_erased, if_neg Bool.false_ne_true,
    readHead_encodeRecord]
  rfl

theorem decodeRecord_committed (hnetwork : record.state.network = network)
    (hauthority : record.state.authority = authority) :
    decodeRecord network authority (encodeRecord kSealCommitted record) =
      { content := .valid, parsed := record, committedFields := true } := by
  have hfront : (encodeRecord kSealCommitted record).take kCrcOffset =
      (ledgerHead kSealCommitted).layout ++ record.layout 0 := by
    refine List.take_left' ?_
    simp [LedgerHead.layout, ParsedRecord.layout, kCrcOffset, kAuthorityLedgerRecordSize]
  unfold decodeRecord
  rw [if_neg (by simp [length_encodeRecord]), encodeRecord_not_erased, if_neg Bool.false_ne_true,
    readHead_encodeRecord]
  dsimp only
  rw [if_neg (by decide), if_neg (by decide), if_neg (by decide), readBody_layout]
  dsimp only
  rw [hfront, if_neg (by simp), if_neg (by decide), if_neg (by simp [hnetwork, hauthority])]

/-! ## The authority -/

def first : Fin 2 := ⟨0, by decide⟩
def second : Fin 2 := ⟨1, by decide⟩

structure SingleAuthority where
  network : NetworkId
  authority : NodeId
  state : AuthorityRecord := {}
  lastOperationHash : Digest256 := zeroDigest
  revision : UInt64 := 0
  recoveryFloor : UInt64 := 0
  maxGenerationSeen : UInt32 := 1
  slotReserved : Fin 2 → Option StatusCode := fun _ => none
  activeSlot : Fin 2 := first
  hasActive : Bool := false
  initialized : Bool := false
  quarantined : Bool := false

structure AuthorityOperation where
  network : NetworkId := 0
  authority : NodeId := kInvalidNodeId
  generation : UInt32 := 0
  sequence : UInt64 := 0
  previousStateHash : Digest256 := zeroDigest
  operationHash : Digest256 := zeroDigest
  deriving DecidableEq

namespace SingleAuthority

/-- The first record of a generation. -/
def genesis (generation : UInt32) (a : SingleAuthority) : AuthorityRecord :=
  ⟨a.network, a.authority, generation, 0, zeroDigest⟩

/-- A record proves how far the ledger had advanced. -/
def raiseFloors (p : ParsedRecord) (a : SingleAuthority) : SingleAuthority :=
  { a with
    recoveryFloor := if a.recoveryFloor < p.revision then p.revision else a.recoveryFloor
    maxGenerationSeen :=
      if a.maxGenerationSeen < p.state.generation then p.state.generation else a.maxGenerationSeen }

def reserve (slot : Fin 2) (code : Option StatusCode) (a : SingleAuthority) : SingleAuthority :=
  { a with slotReserved := Function.update a.slotReserved slot code }

/-- One slot of the scan; `none` if it could not be read. -/
def scanSlot (slot : Fin 2) (d : Option Decoded) (a : SingleAuthority) : SingleAuthority :=
  match d with
  | none => a.reserve slot none
  | some d =>
    match d.content with
    | .valid => (a.reserve slot none).raiseFloors d.parsed
    | .foreign => a.reserve slot (some .conflict)
    | .unsupported => (a.reserve slot (some .unsupported)).raiseFloors d.parsed
    | .corrupt =>
      if d.committedFields then (a.reserve slot none).raiseFloors d.parsed else a.reserve slot none
    | .empty | .pending => a.reserve slot none

/-- The newer record follows the older one, or both are the same. -/
def consistentPair (newer older : ParsedRecord) : Bool :=
  newer.revision == older.revision + 1 && newer.previousStateHash == older.state.stateHash ||
    newer.revision == older.revision && newer.state.appliedSequence == older.state.appliedSequence &&
      newer.state.stateHash == older.state.stateHash && newer.state.generation == older.state.generation &&
      newer.previousStateHash == older.previousStateHash && newer.operationHash == older.operationHash

/-- What a boot makes of the two slots. -/
inductive Verdict
  | active (slot : Fin 2) (record : ParsedRecord)
  | unwritten
  | quarantine (code : StatusCode) (detail : String)
  | refused (status : Status)

def judge (d₀ d₁ : Option Decoded) (readError : Status) : Verdict :=
  match d₀, d₁ with
  | some d₀, some d₁ =>
    if d₀.content == .valid && d₁.content == .valid then
      let newer : Bool := d₀.parsed.revision ≤ d₁.parsed.revision
      let (slot, new, old) : Fin 2 × ParsedRecord × ParsedRecord :=
        if newer then (second, d₁.parsed, d₀.parsed) else (first, d₀.parsed, d₁.parsed)
      if consistentPair new old then .active slot new
      else .quarantine .integrityError "authority ledger chain inconsistent"
    else if d₀.content == .valid then .active first d₀.parsed
    else if d₁.content == .valid then .active second d₁.parsed
    else if d₀.content == .foreign || d₁.content == .foreign then
      .refused ⟨.conflict, "authority ledger identity mismatch"⟩
    else if d₀.content == .unsupported || d₁.content == .unsupported then
      .quarantine .unsupported "authority ledger schema unsupported"
    else if d₀.content == .corrupt || d₁.content == .corrupt then
      .quarantine .integrityError "authority ledger corrupt"
    else .unwritten
  | _, _ => .refused readError

/-- The first slot that could not be read. -/
def firstError (reads : Fin 2 → Except Status (List UInt8)) : Status :=
  match reads first, reads second with
  | .error e, _ => e
  | .ok _, .error e => e
  | .ok _, .ok _ => ⟨.storageFailure, "authority ledger unreadable"⟩

def settle (verdict : Verdict) (a : SingleAuthority) : Except Status Unit × SingleAuthority :=
  match verdict with
  | .active slot record =>
    (.ok (), { a with
      state := record.state, lastOperationHash := record.operationHash, revision := record.revision
      activeSlot := slot, hasActive := true, initialized := true })
  | .unwritten =>
    (.ok (), { a with
      state := a.genesis 1, lastOperationHash := zeroDigest, revision := 0, hasActive := false
      initialized := true })
  | .quarantine code detail =>
    (.error ⟨code, detail⟩, { a with
      quarantined := true, initialized := true, hasActive := false, state := a.genesis 1
      lastOperationHash := zeroDigest, revision := a.recoveryFloor })
  | .refused status => (.error status, a)

def initializeFrom (reads : Fin 2 → Except Status (List UInt8)) (a : SingleAuthority) :
    Except Status Unit × SingleAuthority :=
  if a.network == 0 || a.authority == kInvalidNodeId || a.authority == kBroadcastNodeId then
    (.error ⟨.invalidArgument, "invalid authority identity"⟩, a)
  else
    let decoded (slot : Fin 2) : Option Decoded :=
      (reads slot).toOption.map (decodeRecord a.network a.authority)
    let d₀ := decoded first
    let d₁ := decoded second
    settle (judge d₀ d₁ (firstError reads)) ((a.scanSlot first d₀).scanSlot second d₁)

def validate (operation : AuthorityOperation) (verified : Bool) (a : SingleAuthority) :
    Except Status Unit :=
  if !a.initialized then .error ⟨.invalidState, "authority not initialized"⟩
  else if a.quarantined then .error ⟨.integrityError, "authority ledger quarantined"⟩
  else if !verified then .error ⟨.authenticationFailed, "authority signature not verified"⟩
  else if operation.network != a.state.network || operation.authority != a.state.authority ||
      operation.generation != a.state.generation then
    .error ⟨.authorizationFailed, "authority scope mismatch"⟩
  else if operation.sequence != a.state.appliedSequence + 1 then
    if operation.sequence ≤ a.state.appliedSequence then
      .error ⟨.conflict, "authority operation replayed"⟩
    else .error ⟨.invalidState, "authority operation has a gap"⟩
  else if operation.previousStateHash != a.state.stateHash then
    .error ⟨.conflict, "authority previous-state hash mismatch"⟩
  else .ok ()

end SingleAuthority

/-! ## Recovery -/

/-- The two slots, and how many more writes land before the power is lost. -/
structure LedgerStorage where
  slots : Fin 2 → List UInt8
  writesLeft : Option Nat := none

abbrev LedgerOp (α : Type) := Op LedgerStorage Status α

def writeSlot (slot : Fin 2) (data : List UInt8) : LedgerOp Unit := fun s =>
  match s.writesLeft with
  | some 0 => (.error ⟨.storageFailure, "authority ledger write"⟩, s)
  | some (k + 1) => (.ok (), ⟨Function.update s.slots slot data, some k⟩)
  | none => (.ok (), ⟨Function.update s.slots slot data, none⟩)

def readSlot (slot : Fin 2) : LedgerOp (List UInt8) := fun s => (.ok (s.slots slot), s)

def storeRecord (slot : Fin 2) (record : ParsedRecord) : LedgerOp Unit := do
  -- the record is not used before the second write has sealed it
  writeSlot slot (encodeRecord kSealPending record)
  writeSlot slot (encodeRecord kSealCommitted record)
  let verify ← readSlot slot
  Op.check (refuse (verify != encodeRecord kSealCommitted record)
    ⟨.storageFailure, "authority ledger readback mismatch"⟩)

namespace SingleAuthority

/-- The record that both slots get, so that no stale record breaks the chain. -/
def recoveryRecord (newGeneration : UInt32) (a : SingleAuthority) : ParsedRecord :=
  { revision := a.recoveryFloor + 1, state := a.genesis newGeneration }

def recover (newGeneration : UInt32) (a : SingleAuthority) : LedgerOp SingleAuthority := do
  Op.check (refuse (!a.initialized) ⟨.invalidState, "authority not initialized"⟩)
  Op.check (refuse (!a.quarantined) ⟨.invalidState, "authority not quarantined"⟩)
  Op.check (refuse (newGeneration ≤ a.maxGenerationSeen)
    ⟨.invalidArgument, "recovery generation must exceed the proven floor"⟩)
  storeRecord first (a.recoveryRecord newGeneration)
  storeRecord second (a.recoveryRecord newGeneration)
  pure { a with
    slotReserved := fun _ => none, state := a.genesis newGeneration, lastOperationHash := zeroDigest
    revision := a.recoveryFloor + 1, activeSlot := first, hasActive := true
    quarantined := false }

end SingleAuthority

end RouteLoom.Authority
