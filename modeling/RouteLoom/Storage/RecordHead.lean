import RouteLoom.Storage.Sealing

/-!
# The head and the checksum of a record

The parts that every record codec of `sdkv1_records.cpp` shares: the sealed head that `write_head`
writes and `read_head` and `structure_head` check, and the checksum at the end.

* `Encoded` : the fields of an encoded record
* `Encoded.committed_structureHead`, `Encoded.committed_readHead` : both checks pass on what a write of an
  encoded record commits
-/

namespace RouteLoom.Storage

open Lib SealedSlotPair List

def writeHead (magic : UInt32) (usedLen : Nat) (mark schema : UInt32) : List UInt8 :=
  bigEndian 4 magic.toUInt64 ++ (bigEndian 2 kRecordFormat.toUInt64 ++
    (bigEndian 2 usedLen.toUInt16.toUInt64 ++ (bigEndian 4 schema.toUInt64 ++ bigEndian 4 mark.toUInt64)))

def finishCrc (front : List UInt8) : List UInt8 := front ++ bigEndian 4 (crc32IsoHdlc front).toUInt64

/-- A sequenced record with the given body. -/
def sealedRecord (magic mark schema seq : UInt32) (body : List UInt8) : List UInt8 :=
  finishCrc (writeHead magic (kSequencedHeadSize + body.length + 4) mark schema ++
    (bigEndian 4 seq.toUInt64 ++ body))

def readHead (record : List UInt8) (magic sealCommitted : UInt32) (minLen maxLen : Nat)
    (schemaMax : UInt32) : Except Status Unit := do
  let usedLen := (be16 record 6).toNat
  let schema := be32 record 8
  refuse (record.length < 16 || be32 record 0 != magic || be16 record 4 != kRecordFormat ||
    usedLen < minLen || maxLen < usedLen || usedLen != record.length) ⟨.protocolError, "record head"⟩
  refuse (be32 record kRecordSealOffset != sealCommitted) ⟨.protocolError, "record uncommitted"⟩
  refuse (crc32IsoHdlc (record.take (record.length - 4)) != be32 record (record.length - 4))
    ⟨.integrityError, "record crc"⟩
  refuse (schema < kRecordSchema || schemaMax < schema) ⟨.unsupported, "record schema"⟩

def structureHead (record : List UInt8) (magic : UInt32) (minLen maxLen : Nat) : Except Status Unit := do
  refuse (record.length < minLen || maxLen < record.length) ⟨.protocolError, "record bounds"⟩
  refuse (record.length < 8 || be32 record 0 != magic || be16 record 4 != kRecordFormat ||
    (be16 record 6).toNat != record.length) ⟨.protocolError, "record head"⟩

/-! ## Encoded records -/

theorem toUInt32_bigEndian (value : UInt32) :
    (bigEndianValue (bigEndian 4 value.toUInt64)).toUInt32 = value := by
  have hlt : value.toUInt64.toNat < 256 ^ 4 := value.toNat_lt
  rw [bigEndianValue_bigEndian (by decide) hlt, UInt32.toUInt32_toUInt64]

theorem toUInt16_bigEndian (value : UInt16) :
    (bigEndianValue (bigEndian 2 value.toUInt64)).toUInt16 = value := by
  have hlt : value.toUInt64.toNat < 256 ^ 2 := value.toNat_lt
  rw [bigEndianValue_bigEndian (by decide) hlt, UInt16.toUInt16_toUInt64]

/-- A record with the given head and body. -/
structure Encoded (magic schema : UInt32) (body record : List UInt8) : Prop where
  length : record.length = kSequencedHeadSize + body.length + 4
  magic : be32 record 0 = magic
  recordFormat : be16 record 4 = kRecordFormat
  usedLen : (be16 record 6).toNat = record.length
  schema : be32 record 8 = schema
  body : segment record kSequencedHeadSize body.length = body

theorem encoded_sealedRecord {magic mark schema seq : UInt32} {body : List UInt8}
    (hbody : kSequencedHeadSize + body.length + 4 < 65536) :
    Encoded magic schema body (sealedRecord magic mark schema seq body) := by
  have hlength : (sealedRecord magic mark schema seq body).length = kSequencedHeadSize + body.length + 4 := by
    simp [sealedRecord, finishCrc, writeHead, kSequencedHeadSize]
    omega
  have hused : (kSequencedHeadSize + body.length + 4).toUInt16.toNat = kSequencedHeadSize + body.length + 4 :=
    UInt16.toNat_ofNat_of_lt' hbody
  refine ⟨hlength, ?_, ?_, ?_, ?_, ?_⟩
  · unfold be32 sealedRecord finishCrc writeHead
    simp only [append_assoc]
    rw [segment_front (length_bigEndian _ _), toUInt32_bigEndian]
  · unfold be16 sealedRecord finishCrc writeHead
    simp only [append_assoc]
    rw [segment_skip (i := 0) (length_bigEndian 4 _), segment_front (length_bigEndian _ _),
      toUInt16_bigEndian]
  · rw [hlength]
    unfold be16 sealedRecord finishCrc writeHead
    simp only [append_assoc]
    rw [segment_skip (i := 2) (length_bigEndian 4 _), segment_skip (i := 0) (length_bigEndian 2 _),
      segment_front (length_bigEndian _ _), toUInt16_bigEndian, hused]
  · unfold be32 sealedRecord finishCrc writeHead
    simp only [append_assoc]
    rw [segment_skip (i := 4) (length_bigEndian 4 _), segment_skip (i := 2) (length_bigEndian 2 _),
      segment_skip (i := 0) (length_bigEndian 2 _), segment_front (length_bigEndian _ _), toUInt32_bigEndian]
  · unfold sealedRecord finishCrc writeHead kSequencedHeadSize
    simp only [append_assoc]
    rw [segment_skip (i := 16) (length_bigEndian 4 _), segment_skip (i := 14) (length_bigEndian 2 _),
      segment_skip (i := 12) (length_bigEndian 2 _), segment_skip (i := 8) (length_bigEndian 4 _),
      segment_skip (i := 4) (length_bigEndian 4 _), segment_skip (i := 0) (length_bigEndian 4 _),
      segment_front rfl]

section Committed

variable {format : SealedRecordFormat} {magic schema seq : UInt32} {body record : List UInt8}

theorem Encoded.long (h : Encoded magic schema body record) : 24 ≤ record.length := by
  rw [h.length, kSequencedHeadSize]
  omega

/-- A write changes the seal, the sequence number and the checksum. -/
theorem Encoded.committed (h : Encoded magic schema body record) (format : SealedRecordFormat) (seq : UInt32) :
    Encoded magic schema body (committedRecord format record seq) := by
  have hlength := length_committedRecord format seq h.long
  have hhead : ∀ {i count}, i + count ≤ 12 →
      segment (committedRecord format record seq) i count = segment record i count :=
    fun hi => segment_committedRecord_head format seq h.long hi
  refine ⟨hlength.trans h.length, ?_, ?_, ?_, ?_, ?_⟩
  · rw [be32_congr (hhead (by decide)), h.magic]
  · rw [be16_congr (hhead (by decide)), h.recordFormat]
  · rw [be16_congr (hhead (by decide)), h.usedLen, hlength]
  · rw [be32_congr (hhead (by decide)), h.schema]
  · have hbody := h.body
    rw [kSequencedHeadSize] at hbody ⊢
    rw [segment_committedRecord_body format seq h.long (Nat.le_refl _)
      (by rw [h.length, kSequencedHeadSize]; omega), hbody]

theorem Encoded.committed_structureHead {minLen maxLen : Nat} (h : Encoded magic schema body record)
    (hmin : minLen ≤ record.length) (hmax : record.length ≤ maxLen) :
    structureHead (committedRecord format record seq) magic minLen maxLen = .ok () := by
  have hcommitted := h.committed format seq
  have hlength := length_committedRecord format seq h.long
  have hlong := h.long
  unfold structureHead
  rw [refuse_bind_eq_ok, refuse_eq_ok, hcommitted.magic, hcommitted.recordFormat, hcommitted.usedLen, hlength]
  simp
  omega

theorem Encoded.committed_readHead {minLen maxLen : Nat} {schemaMax : UInt32}
    (h : Encoded magic schema body record) (hmin : minLen ≤ record.length) (hmax : record.length ≤ maxLen)
    (hschema : kRecordSchema ≤ schema) (hschema' : schema ≤ schemaMax) :
    readHead (committedRecord format record seq) magic format.sealCommitted minLen maxLen schemaMax = .ok () := by
  have hcommitted := h.committed format seq
  have hpending := length_pendingRecord format seq h.long
  have hlength := length_committedRecord format seq h.long
  have hlong := h.long
  have hcrc := @crc_reseal (pendingRecord format record seq) format.sealCommitted (by omega)
  have hmark : be32 (committedRecord format record seq) kRecordSealOffset = format.sealCommitted :=
    be32_reseal_mark (by omega)
  rw [hpending] at hcrc
  unfold readHead
  rw [refuse_bind_eq_ok, refuse_bind_eq_ok, refuse_bind_eq_ok, refuse_eq_ok, hcommitted.magic,
    hcommitted.recordFormat, hcommitted.usedLen, hcommitted.schema, hlength, hmark]
  refine ⟨by simp; omega, by simp, ?_, ?_⟩
  · rw [bne_eq_false_iff_eq]
    exact hcrc
  · simpa using ⟨hschema, hschema'⟩

end Committed

end RouteLoom.Storage
