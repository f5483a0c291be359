import RouteLoom.Storage.RevocationSet

/-!
# The record of a removal

The local revocation record (RLV1) of `sdkv1_records.cpp`: the durable evidence that this node was removed
from a site.

* `localRevocationRecordDecode_committed` : a committed record decodes to what was encoded
* `prepared_localRevocation` : what is encoded is a complete record
-/

namespace RouteLoom.Storage

open Lib SealedSlotPair

def kLocalRevocationMagic : UInt32 := 0x524C5631
def kLocalRevocationSealCommitted : UInt32 := 0x72564B31
def kLocalRevocationSlotBytes : Nat := 108
def kLocalRevocationRecordLen : Nat := 108
def kLocalRevocationSchema : UInt32 := 2
def kLocalRevocationHoldoffMs : UInt32 := 600000
def kLocalRevocationHoldoffMinMs : UInt32 := 60000
def kLocalRevocationHoldoffMaxMs : UInt32 := 3600000

inductive LocalRevocationState
  | blocked | cleaned
  deriving DecidableEq, Repr, Inhabited

inductive LocalRevocationCause
  | rrs | notice | localMaintenance
  deriving DecidableEq, Repr, Inhabited

namespace LocalRevocationState

def code : LocalRevocationState → UInt8
  | blocked => 1
  | cleaned => 2

def ofCode (code : UInt8) : Option LocalRevocationState :=
  if code == 1 then some blocked else if code == 2 then some cleaned else none

theorem ofCode_code (state : LocalRevocationState) : ofCode state.code = some state := by
  cases state <;> rfl

end LocalRevocationState

namespace LocalRevocationCause

def code : LocalRevocationCause → UInt8
  | rrs => 1
  | notice => 2
  | localMaintenance => 3

def ofCode (code : UInt8) : Option LocalRevocationCause :=
  if code == 1 then some rrs else if code == 2 then some notice
  else if code == 3 then some localMaintenance else none

theorem ofCode_code (cause : LocalRevocationCause) : ofCode cause.code = some cause := by
  cases cause <;> rfl

end LocalRevocationCause

structure LocalRevocationRecord where
  state : LocalRevocationState := .blocked
  cause : LocalRevocationCause := .rrs
  localNode : NodeId := kInvalidNodeId
  siteId : UInt64 := 0
  network : NetworkId := 0
  removedGeneration : UInt32 := 0
  rsEpochFloor : UInt32 := 0
  siteEpochFloor : UInt32 := 0
  evidenceDigest : Vector UInt8 32 := Vector.replicate 32 0
  rlsCommitSeq : UInt32 := 0
  bootWitness : UInt32 := 0
  holdoffMs : UInt32 := kLocalRevocationHoldoffMs
  deriving DecidableEq, Repr

/-- The states and causes that the source refuses here have no value in this model. -/
def localRevocationValidate (record : LocalRevocationRecord) : Except Status Unit :=
  refuse (!idValid record.localNode || record.siteId == 0 || record.network == 0 ||
    record.removedGeneration == 0 || record.evidenceDigest.toList.all (· == 0) ||
    record.holdoffMs < kLocalRevocationHoldoffMinMs || record.holdoffMs > kLocalRevocationHoldoffMaxMs)
    ⟨.invalidArgument, "rlv1 fields"⟩

/-! ## Codec -/

def localRevocationBody (record : LocalRevocationRecord) : List UInt8 :=
  bigEndian 8 record.localNode ++ (bigEndian 8 record.siteId ++ (bigEndian 8 record.network ++
    (bigEndian 4 record.removedGeneration.toUInt64 ++ (bigEndian 4 record.rsEpochFloor.toUInt64 ++
      (bigEndian 4 record.siteEpochFloor.toUInt64 ++ (bigEndian 1 record.state.code.toUInt64 ++
        (bigEndian 1 record.cause.code.toUInt64 ++ (bigEndian 2 (0 : UInt16).toUInt64 ++
          (record.evidenceDigest.toList ++ (bigEndian 4 record.rlsCommitSeq.toUInt64 ++
            (bigEndian 4 record.bootWitness.toUInt64 ++ bigEndian 4 record.holdoffMs.toUInt64)))))))))))

def localRevocationRecordEncode (record : LocalRevocationRecord) (mark seq : UInt32) :
    Except Status (List UInt8) := do
  localRevocationValidate record
  refuse (mark != kSealPending && mark != kLocalRevocationSealCommitted)
    ⟨.invalidArgument, "rlv1 seal value"⟩
  .ok (sealedRecord kLocalRevocationMagic mark kLocalRevocationSchema seq (localRevocationBody record))

/-- The fields as they are read, before the checks. -/
structure LocalRevocationFields where
  record : LocalRevocationRecord
  state : UInt8
  cause : UInt8
  reserved : UInt16

def readLocalRevocation : ReadOp LocalRevocationFields := do
  let localNode ← readU64
  let siteId ← readU64
  let network ← readU64
  let removedGeneration ← readU32
  let rsEpochFloor ← readU32
  let siteEpochFloor ← readU32
  let state ← readU8
  let cause ← readU8
  let reserved ← readU16
  let digest ← readBytes 32
  let rlsCommitSeq ← readU32
  let bootWitness ← readU32
  let holdoffMs ← readU32
  pure
    { record :=
        { localNode, siteId, network, removedGeneration, rsEpochFloor, siteEpochFloor
          evidenceDigest := Vector.ofFn fun i => digest.getD i 0
          rlsCommitSeq, bootWitness, holdoffMs }
      state, cause, reserved }

/-- The checked record, with its state and cause. -/
def LocalRevocationFields.checked (fields : LocalRevocationFields) : Except Status LocalRevocationRecord :=
  match LocalRevocationState.ofCode fields.state, LocalRevocationCause.ofCode fields.cause with
  | some state, some cause =>
    match localRevocationValidate { fields.record with state, cause } with
    | .ok () => .ok { fields.record with state, cause }
    | .error invalid => .error ⟨.protocolError, invalid.detail⟩
  | _, _ => .error ⟨.protocolError, "rlv1 fields"⟩

def localRevocationRecordDecode (record : List UInt8) : Except Status LocalRevocationRecord := do
  refuse (record.length != kLocalRevocationRecordLen) ⟨.protocolError, "rlv1 size"⟩
  readHead record kLocalRevocationMagic kLocalRevocationSealCommitted kLocalRevocationRecordLen
    kLocalRevocationRecordLen kLocalRevocationSchema
  let fields ← (readLocalRevocation (record.drop kSequencedHeadSize)).1
  refuse (crc32IsoHdlc (record.take (kLocalRevocationRecordLen - 4)) !=
    be32 record (kLocalRevocationRecordLen - 4)) ⟨.integrityError, "rlv1 crc"⟩
  refuse (record.getD 11 0 == kRecordSchema.toUInt8 && fields.record.holdoffMs != kLocalRevocationHoldoffMs)
    ⟨.protocolError, "rlv1 schema 1 holdoff"⟩
  refuse (fields.reserved != 0) ⟨.protocolError, "rlv1 reserved"⟩
  fields.checked

def localRevocationRecordStructure (record : List UInt8) : Except Status Unit := do
  structureHead record kLocalRevocationMagic kLocalRevocationRecordLen kLocalRevocationRecordLen
  refuse (record.getD 58 0 != 0 || record.getD 59 0 != 0) ⟨.protocolError, "rlv1 reserved"⟩

def localRevocationFormat : SealedRecordFormat :=
  { magic := kLocalRevocationMagic
    sealCommitted := kLocalRevocationSealCommitted
    slotBytes := kLocalRevocationSlotBytes
    minLen := kLocalRevocationRecordLen
    maxLen := kLocalRevocationRecordLen
    sequenced := true
    structural := localRevocationRecordStructure
    semantic := fun record => do
      let _ ← localRevocationRecordDecode record
      .ok ()
    schemaMax := kLocalRevocationSchema
    sealCommitted_ne := by decide
    head_le := by decide }

/-! ## Round trip -/

theorem length_localRevocationBody (record : LocalRevocationRecord) :
    (localRevocationBody record).length = 84 := by
  simp [localRevocationBody]

theorem readLocalRevocation_body (record : LocalRevocationRecord) (rest : List UInt8) :
    readLocalRevocation (localRevocationBody record ++ rest) =
      (.ok ⟨{ record with state := .blocked, cause := .rrs }, record.state.code, record.cause.code, 0⟩,
        rest) := by
  have hdigest : Vector.ofFn (fun i : Fin 32 => record.evidenceDigest.toList.getD i 0) =
      record.evidenceDigest := by
    ext i hi
    simp [List.getD_eq_getElem?_getD]
  unfold readLocalRevocation localRevocationBody
  simp only [List.append_assoc, Op.bind_eq_ok]
  refine ⟨_, _, readU64_eq_ok.mpr rfl, _, _, readU64_eq_ok.mpr rfl, _, _, readU64_eq_ok.mpr rfl,
    _, _, readU32_eq_ok.mpr rfl, _, _, readU32_eq_ok.mpr rfl, _, _, readU32_eq_ok.mpr rfl,
    _, _, readU8_eq_ok.mpr rfl, _, _, readU8_eq_ok.mpr rfl, _, _, readU16_eq_ok.mpr rfl,
    _, _, readBytes_eq_ok.mpr ⟨rfl, by simp⟩, _, _, readU32_eq_ok.mpr rfl, _, _, readU32_eq_ok.mpr rfl,
    _, _, readU32_eq_ok.mpr rfl, ?_⟩
  rw [hdigest]
  rfl

variable {record : LocalRevocationRecord}

/-- The record that a store encodes. -/
def localRecordFor (record : LocalRevocationRecord) : List UInt8 :=
  sealedRecord kLocalRevocationMagic kSealPending kLocalRevocationSchema 0 (localRevocationBody record)

theorem localRevocationRecordEncode_eq (h : localRevocationValidate record = .ok ()) :
    localRevocationRecordEncode record kSealPending 0 = .ok (localRecordFor record) := by
  unfold localRevocationRecordEncode
  rw [h]
  rfl

theorem encoded_localRecordFor (record : LocalRevocationRecord) :
    Encoded kLocalRevocationMagic kLocalRevocationSchema (localRevocationBody record)
      (localRecordFor record) := by
  refine encoded_sealedRecord ?_
  rw [length_localRevocationBody]
  decide

theorem length_localRecordFor (record : LocalRevocationRecord) :
    (localRecordFor record).length = kLocalRevocationRecordLen := by
  rw [(encoded_localRecordFor record).length, length_localRevocationBody]
  rfl

theorem checked_fields (h : localRevocationValidate record = .ok ()) :
    LocalRevocationFields.checked
      ⟨{ record with state := .blocked, cause := .rrs }, record.state.code, record.cause.code, 0⟩ =
        .ok record := by
  unfold LocalRevocationFields.checked
  simp only [LocalRevocationState.ofCode_code, LocalRevocationCause.ofCode_code]
  rw [h]

theorem segment_of_be32 {raw : List UInt8} {offset : Nat} (h : offset + 4 ≤ raw.length) :
    segment raw offset 4 = bigEndian 4 (be32 raw offset).toUInt64 := by
  have hlength : (segment raw offset 4).length = 4 := segment_length h
  have hlt : (bigEndianValue (segment raw offset 4)).toNat < 256 ^ (segment raw offset 4).length :=
    toNat_bigEndianValue_lt (by omega)
  rw [hlength] at hlt
  have hvalue : (be32 raw offset).toUInt64 = bigEndianValue (segment raw offset 4) := by
    apply UInt64.toNat_inj.mp
    rw [be32, UInt32.toNat_toUInt64, UInt64.toNat_toUInt32]
    exact Nat.mod_eq_of_lt hlt
  have hback : bigEndian (segment raw offset 4).length (bigEndianValue (segment raw offset 4)) =
      segment raw offset 4 := bigEndian_bigEndianValue (by omega)
  rw [hlength] at hback
  rw [hvalue, hback]

theorem getD_of_segment {l : List UInt8} {start i : Nat} (n : Nat) (h : i < n) (d : UInt8) :
    l.getD (start + i) d = (segment l start n).getD i d := by
  unfold Lib.segment
  rw [List.getD_eq_getElem?_getD, List.getD_eq_getElem?_getD, List.getElem?_take_of_lt h, List.getElem?_drop]

theorem localRevocationRecordDecode_committed (h : localRevocationValidate record = .ok ()) (seq : UInt32) :
    localRevocationRecordDecode (committedRecord localRevocationFormat (localRecordFor record) seq) =
      .ok record := by
  have hencoded := encoded_localRecordFor record
  have hcommitted := hencoded.committed localRevocationFormat seq
  have hlength : (committedRecord localRevocationFormat (localRecordFor record) seq).length =
      kLocalRevocationRecordLen :=
    (length_committedRecord localRevocationFormat seq hencoded.long).trans (length_localRecordFor record)
  have hhead : readHead (committedRecord localRevocationFormat (localRecordFor record) seq)
      kLocalRevocationMagic kLocalRevocationSealCommitted kLocalRevocationRecordLen
      kLocalRevocationRecordLen kLocalRevocationSchema = .ok () :=
    hencoded.committed_readHead (length_localRecordFor record).ge (length_localRecordFor record).le
      (by decide) (UInt32.le_refl _)
  set bytes := committedRecord localRevocationFormat (localRecordFor record) seq
  have hbody : bytes.drop kSequencedHeadSize =
      localRevocationBody record ++ (bytes.drop kSequencedHeadSize).drop 84 := by
    have hsegment := hcommitted.body
    rw [length_localRevocationBody] at hsegment
    rw [← hsegment, Lib.segment, List.take_append_drop]
  have hschema : bytes.getD 11 0 = 2 := by
    rw [show 11 = 8 + 3 from rfl, getD_of_segment 4 (by decide),
      segment_of_be32 (by rw [hlength]; decide), hcommitted.schema]
    rfl
  have hcrc : crc32IsoHdlc (bytes.take (kLocalRevocationRecordLen - 4)) =
      be32 bytes (kLocalRevocationRecordLen - 4) := by
    have hread := hhead
    unfold readHead at hread
    rw [refuse_bind_eq_ok, refuse_bind_eq_ok, refuse_bind_eq_ok, hlength] at hread
    simpa using hread.2.2.1
  unfold localRevocationRecordDecode
  rw [refuse_bind_eq_ok, hlength]
  refine ⟨by decide, ?_⟩
  refine bind_eq_ok.mpr ⟨(), hhead, bind_eq_ok.mpr ⟨_, by rw [hbody, readLocalRevocation_body], ?_⟩⟩
  rw [refuse_bind_eq_ok, refuse_bind_eq_ok, refuse_bind_eq_ok, hcrc, hschema]
  exact ⟨by simp, by simp [kRecordSchema], by simp, checked_fields h⟩

theorem prepared_localRevocation (h : localRevocationValidate record = .ok ()) (seq : UInt32) :
    Prepared localRevocationFormat (localRecordFor record) seq := by
  have hencoded := encoded_localRecordFor record
  have hcommitted := hencoded.committed localRevocationFormat seq
  refine ⟨hencoded.magic, hencoded.recordFormat, hencoded.usedLen, ?_, ?_, ?_, ?_⟩
  · rw [hencoded.schema]
    decide
  · rw [hencoded.schema]
    exact UInt32.le_refl _
  · have hstructure : structureHead (committedRecord localRevocationFormat (localRecordFor record) seq)
        kLocalRevocationMagic kLocalRevocationRecordLen kLocalRevocationRecordLen = .ok () :=
      hencoded.committed_structureHead (length_localRecordFor record).ge (length_localRecordFor record).le
    have hsegment := hcommitted.body
    rw [length_localRevocationBody] at hsegment
    show localRevocationRecordStructure _ = .ok ()
    unfold localRevocationRecordStructure
    rw [hstructure, show 58 = kSequencedHeadSize + 38 from rfl, show 59 = kSequencedHeadSize + 39 from rfl,
      getD_of_segment 84 (by decide), getD_of_segment 84 (by decide), hsegment]
    simp only [localRevocationBody, List.getD_eq_getElem?_getD]
    simp [bind, Except.bind]
    decide
  · exact bind_eq_ok.mpr ⟨_, localRevocationRecordDecode_committed h seq, rfl⟩

end RouteLoom.Storage
