import Mathlib.Tactic.IntervalCases
import RouteLoom.Lib.TwoSlot
import RouteLoom.Storage.SealedSlotPair

/-!
# What a write leaves in a slot

A prepared record is classified as pending after the first phase of `write_slot` and as valid after the
second, with the sequence number it was given.

* `Prepared` : the record a caller may commit
* `classify_pending`, `classify_committed` : the slot after each phase
-/

namespace RouteLoom.Storage

open Lib List

/-! ## Fields -/

section Fields

variable {raw record : List UInt8} {offset i count : Nat}

variable {value : UInt32}

@[simp] theorem length_putBe32 (h : offset + 4 ≤ raw.length) :
    (putBe32 raw offset value).length = raw.length :=
  length_patch (by rwa [length_bigEndian])

theorem be32_putBe32 (h : offset ≤ raw.length) : be32 (putBe32 raw offset value) offset = value := by
  have hself := segment_patch_self (bigEndian 4 value.toUInt64) h
  rw [length_bigEndian] at hself
  have hlt : value.toUInt64.toNat < 256 ^ 4 := value.toNat_lt
  unfold be32 putBe32
  rw [hself, bigEndianValue_bigEndian (by decide) hlt, UInt32.toUInt32_toUInt64]

theorem segment_putBe32_below (h : offset ≤ raw.length) (hi : i + count ≤ offset) :
    segment (putBe32 raw offset value) i count = segment raw i count :=
  segment_patch_below h hi

theorem segment_putBe32_above (h : offset ≤ raw.length) (hi : offset + 4 ≤ i) :
    segment (putBe32 raw offset value) i count = segment raw i count :=
  segment_patch_above h (by rwa [length_bigEndian])

theorem be32_congr {raw' : List UInt8} (h : segment raw offset 4 = segment raw' offset 4) :
    be32 raw offset = be32 raw' offset := by
  unfold be32
  rw [h]

theorem be16_congr {raw' : List UInt8} (h : segment raw offset 2 = segment raw' offset 2) :
    be16 raw offset = be16 raw' offset := by
  unfold be16
  rw [h]

end Fields

/-! ## Sealing -/

section Sealing

variable {record : List UInt8} {mark : UInt32} {i count : Nat}

theorem length_marked (mark : UInt32) (h : 24 ≤ record.length) :
    (putBe32 record kRecordSealOffset mark).length = record.length :=
  length_putBe32 (by rw [kRecordSealOffset]; omega)

theorem length_reseal (h : 24 ≤ record.length) : (reseal record mark).length = record.length := by
  have hmarked := length_marked mark h
  unfold reseal
  rw [length_putBe32 (by omega), hmarked]

theorem segment_reseal_head (h : 24 ≤ record.length) (hi : i + count ≤ 12) :
    segment (reseal record mark) i count = segment record i count := by
  have hmarked := length_marked mark h
  unfold reseal
  rw [segment_putBe32_below (by omega) (by omega),
    segment_putBe32_below (by rw [kRecordSealOffset]; omega) (by rw [kRecordSealOffset]; exact hi)]

/-- Sealing leaves what stands between the seal and the checksum. -/
theorem segment_reseal_body (h : 24 ≤ record.length) (hi : 16 ≤ i) (hcount : i + count ≤ record.length - 4) :
    segment (reseal record mark) i count = segment record i count := by
  have hmarked := length_marked mark h
  unfold reseal
  rw [segment_putBe32_below (by omega) hcount,
    segment_putBe32_above (by rw [kRecordSealOffset]; omega) (by rw [kRecordSealOffset]; exact hi)]

theorem be32_reseal_mark (h : 24 ≤ record.length) : be32 (reseal record mark) kRecordSealOffset = mark := by
  have hmarked := length_marked mark h
  unfold reseal
  rw [be32_congr (segment_putBe32_below (by omega) (by rw [kRecordSealOffset]; omega)),
    be32_putBe32 (by rw [kRecordSealOffset]; omega)]

theorem crc_reseal (h : 24 ≤ record.length) :
    crc32IsoHdlc ((reseal record mark).take (record.length - 4)) =
      be32 (reseal record mark) (record.length - 4) := by
  have hmarked := length_marked mark h
  unfold reseal
  rw [be32_putBe32 (by omega)]
  congr 1
  exact take_patch (by omega) (Nat.le_refl _)

variable (format : SealedRecordFormat) (seq : UInt32)

open SealedSlotPair

section

variable (h : 24 ≤ record.length)
include h

theorem length_numbered : (numbered format record seq).length = record.length := by
  unfold numbered
  split
  · exact length_putBe32 (by rw [kRecordSeqOffset]; omega)
  · rfl

theorem length_pendingRecord : (pendingRecord format record seq).length = record.length := by
  have hnumbered := length_numbered format seq h
  unfold pendingRecord
  rw [length_reseal (by omega), hnumbered]

theorem length_committedRecord : (committedRecord format record seq).length = record.length := by
  have hpending := length_pendingRecord format seq h
  unfold committedRecord
  rw [length_reseal (by omega), hpending]

theorem segment_pendingRecord_head (hi : i + count ≤ 12) :
    segment (pendingRecord format record seq) i count = segment record i count := by
  have hnumbered := length_numbered format seq h
  unfold pendingRecord
  rw [segment_reseal_head (by omega) hi]
  unfold numbered
  split
  · exact segment_putBe32_below (by rw [kRecordSeqOffset]; omega) (by rw [kRecordSeqOffset]; omega)
  · rfl

theorem segment_committedRecord_head (hi : i + count ≤ 12) :
    segment (committedRecord format record seq) i count = segment record i count := by
  have hpending := length_pendingRecord format seq h
  unfold committedRecord
  rw [segment_reseal_head (by omega) hi, segment_pendingRecord_head format seq h hi]

/-- What stands behind the sequence number is the caller's. -/
theorem segment_committedRecord_body (hi : 20 ≤ i) (hcount : i + count ≤ record.length - 4) :
    segment (committedRecord format record seq) i count = segment record i count := by
  have hnumbered := length_numbered format seq h
  have hpending := length_pendingRecord format seq h
  unfold committedRecord
  rw [segment_reseal_body (by omega) (by omega) (by omega)]
  unfold pendingRecord
  rw [segment_reseal_body (by omega) (by omega) (by omega)]
  unfold numbered
  split
  · exact segment_putBe32_above (by rw [kRecordSeqOffset]; omega) (by rw [kRecordSeqOffset]; omega)
  · rfl

theorem reseal_eq :
    reseal record mark =
      (segment record 0 12 ++ (bigEndian 4 mark.toUInt64 ++ segment record 16 (record.length - 20))) ++
        bigEndian 4 (crc32IsoHdlc (segment record 0 12 ++
          (bigEndian 4 mark.toUInt64 ++ segment record 16 (record.length - 20)))).toUInt64 := by
  have hmarked := length_marked mark h
  have hfront : (putBe32 record kRecordSealOffset mark).take (record.length - 4) =
      segment record 0 12 ++ (bigEndian 4 mark.toUInt64 ++ segment record 16 (record.length - 20)) := by
    have hlength : (record.take 12).length = 12 := length_take_of_le (by omega)
    have htake : (record.take 12).take (record.length - 4) = record.take 12 :=
      take_of_length_le (by omega)
    have hmark : (bigEndian 4 mark.toUInt64).take (record.length - 4 - 12) = bigEndian 4 mark.toUInt64 :=
      take_of_length_le (by rw [length_bigEndian]; omega)
    unfold putBe32 patch kRecordSealOffset
    rw [segment_zero, take_append, htake, hlength, take_append, hmark, length_bigEndian,
      show record.length - 4 - 12 - 4 = record.length - 20 by omega]
    rfl
  show patch (putBe32 record kRecordSealOffset mark) (record.length - 4) (bigEndian 4 (crc32IsoHdlc
    ((putBe32 record kRecordSealOffset mark).take (record.length - 4))).toUInt64) = _
  unfold patch
  rw [hfront, length_bigEndian, drop_eq_nil_of_le (by omega), append_nil]

theorem reseal_congr {record' : List UInt8} (hlength : record.length = record'.length)
    (hhead : segment record 0 12 = segment record' 0 12)
    (hbody : segment record 16 (record.length - 20) = segment record' 16 (record.length - 20)) :
    reseal record mark = reseal record' mark := by
  rw [reseal_eq h, reseal_eq (hlength ▸ h), hhead, hbody, hlength]

theorem segment_numbered (hsequenced : format.sequenced = true) :
    segment (numbered format record seq) 16 (record.length - 20) =
      bigEndian 4 seq.toUInt64 ++ segment record 20 (record.length - 24) := by
  unfold numbered putBe32
  rw [if_pos hsequenced, kRecordSeqOffset, segment_patch_from (by omega) (by rw [length_bigEndian]; omega),
    length_bigEndian]
  rfl

/-- Committing what was read back writes the same record again. -/
theorem committedRecord_idem (hsequenced : format.sequenced = true) :
    committedRecord format (committedRecord format record seq) seq = committedRecord format record seq := by
  have hlength := length_committedRecord format seq h
  have hlong : 24 ≤ (committedRecord format record seq).length := by omega
  have hnumbered := length_numbered format seq h
  have hnumbered' := length_numbered format seq hlong
  have hpending := length_pendingRecord format seq h
  have hpending' := length_pendingRecord format seq hlong
  refine reseal_congr (by omega) (by omega) ?_ ?_
  · rw [segment_pendingRecord_head format seq hlong (by decide),
      segment_committedRecord_head format seq h (by decide), segment_pendingRecord_head format seq h (by decide)]
  · rw [hpending', hlength]
    unfold pendingRecord
    rw [segment_reseal_body (by omega) (by decide) (by omega), segment_reseal_body (by omega) (by decide) (by omega)]
    have hbody := segment_numbered format seq hlong hsequenced
    rw [hlength] at hbody
    rw [hbody, segment_numbered format seq h hsequenced,
      segment_committedRecord_body format seq h (by decide) (by omega)]

theorem be32_committedRecord_seq (hsequenced : format.sequenced = true) :
    be32 (committedRecord format record seq) kRecordSeqOffset = seq := by
  have hnumbered := length_numbered format seq h
  have hpending := length_pendingRecord format seq h
  unfold committedRecord
  rw [be32_congr (segment_reseal_body (by omega) (by decide) (by rw [kRecordSeqOffset]; omega))]
  unfold pendingRecord
  rw [be32_congr (segment_reseal_body (by omega) (by decide) (by rw [kRecordSeqOffset]; omega))]
  unfold numbered
  rw [if_pos hsequenced, be32_putBe32 (by rw [kRecordSeqOffset]; omega)]

end

end Sealing

/-! ## Classification -/

section Classification

open SealedSlotPair

variable {format : SealedRecordFormat} {raw record : List UInt8} {seq : UInt32} {i count : Nat}

theorem all_eq_of_isErased (h : isErased raw = true) :
    ∃ fill : UInt8, (fill = 0x00 ∨ fill = 0xFF) ∧ ∀ byte ∈ raw, byte = fill := by
  cases raw with
  | nil => cases h
  | cons fill data =>
    simp only [isErased, Bool.and_eq_true, Bool.or_eq_true, beq_iff_eq, all_eq_true] at h
    exact ⟨fill, h.1, forall_mem_cons.mpr ⟨rfl, h.2⟩⟩

theorem not_isErased (h : be16 raw 4 = kRecordFormat) : isErased raw = false := by
  by_contra herased
  obtain ⟨fill, hfill, hall⟩ := all_eq_of_isErased (by simpa using herased)
  have hseg : segment raw 4 2 = List.replicate (segment raw 4 2).length fill :=
    eq_replicate_of_mem fun byte hbyte =>
      hall byte (mem_of_mem_drop (mem_of_mem_take hbyte))
  have hlength : (segment raw 4 2).length ≤ 2 := length_take_le _ _
  unfold be16 at h
  rw [hseg] at h
  generalize (segment raw 4 2).length = n at h hlength
  interval_cases n <;> rcases hfill with rfl | rfl <;> revert h <;> decide

theorem segment_landed (h : i + count ≤ record.length) :
    segment (landed format record) i count = segment record i count :=
  segment_append h

theorem recordOf_landed (h : (be16 (landed format record) 6).toNat = record.length) :
    recordOf (landed format record) = record := by
  unfold recordOf
  rw [h]
  exact take_left

/-- What a valid slot is known to hold. -/
structure HoldsRecord (format : SealedRecordFormat) (raw : List UInt8) : Prop where
  seq : (classify format raw).seq = if format.sequenced then be32 raw kRecordSeqOffset else 0
  seqProven : (classify format raw).seqProven = format.sequenced
  digest : (classify format raw).digest = Sha256.digest (recordOf raw)
  minLen : format.minLen ≤ (be16 raw 6).toNat
  maxLen : (be16 raw 6).toNat ≤ format.maxLen
  semantic : (format.semantic (recordOf raw)).isOk = true

theorem holdsRecord (h : (classify format raw).content = .valid) : HoldsRecord format raw := by
  unfold classify at h
  simp only at h
  split at h
  · cases h
  split at h
  · cases h
  split at h
  · split at h <;> cases h
  split at h
  · cases h
  split at h
  · cases h
  split at h
  · cases h
  split at h
  · cases h
  rename_i herased hhead hmark hstructural hcrc hschema hsemantic
  have heq : classify format raw =
      { content := .valid, seq := if format.sequenced then be32 raw kRecordSeqOffset else 0
        seqProven := format.sequenced, digest := Sha256.digest (recordOf raw) } := by
    unfold classify
    simp only [herased, hhead, hmark, hstructural, hcrc, hschema, hsemantic, Bool.false_eq_true, if_false]
  simp only [Bool.or_eq_true, decide_eq_true_eq, not_or, Nat.not_lt] at hhead
  refine ⟨by rw [heq], by rw [heq], by rw [heq], hhead.1.2, hhead.2, ?_⟩
  simpa using hsemantic

/-- A record that a caller may commit with the sequence number `seq`: complete in the sense of its
format, up to the seal, the sequence number and the checksum. -/
structure Prepared (format : SealedRecordFormat) (record : List UInt8) (seq : UInt32) : Prop where
  magic : be32 record 0 = format.magic
  recordFormat : be16 record 4 = kRecordFormat
  usedLen : (be16 record 6).toNat = record.length
  schema_ge : kRecordSchema ≤ be32 record 8
  schema_le : be32 record 8 ≤ format.schemaMax
  structural : format.structural (committedRecord format record seq) = .ok ()
  semantic : format.semantic (committedRecord format record seq) = .ok ()

theorem length_ge_of_minLen (h : format.minLen ≤ record.length) : 24 ≤ record.length :=
  le_trans format.head_le h

theorem Prepared.head (h : Prepared format record seq) (raw : List UInt8)
    (hhead : ∀ {i count}, i + count ≤ 12 → segment raw i count = segment record i count) :
    be16 raw 4 = kRecordFormat ∧ be32 raw 0 = format.magic ∧ (be16 raw 6).toNat = record.length ∧
      be32 raw 8 = be32 record 8 := by
  refine ⟨?_, ?_, ?_, be32_congr (hhead (by decide))⟩
  · rw [be16_congr (hhead (by decide)), h.recordFormat]
  · rw [be32_congr (hhead (by decide)), h.magic]
  · rw [be16_congr (hhead (by decide)), h.usedLen]

theorem classify_pending (h : Prepared format record seq) (hmin : format.minLen ≤ record.length)
    (hmax : record.length ≤ format.maxLen) :
    classify format (landed format (pendingRecord format record seq)) = { content := .pending } := by
  have hlong := length_ge_of_minLen hmin
  have hlength := length_pendingRecord format seq hlong
  obtain ⟨hformat, hmagic, hused, -⟩ := h.head (landed format (pendingRecord format record seq))
    fun hi => by rw [segment_landed (by omega), segment_pendingRecord_head format seq hlong hi]
  have hmark : be32 (landed format (pendingRecord format record seq)) kRecordSealOffset = kSealPending := by
    rw [be32_congr (segment_landed (by rw [kRecordSealOffset]; omega))]
    exact be32_reseal_mark (by rw [length_numbered format seq hlong]; exact hlong)
  unfold classify
  simp only [not_isErased hformat, hmark, hformat, hmagic, hused, bne_self_eq_false, Bool.or_false,
    decide_eq_false (Nat.not_lt.mpr hmin), decide_eq_false (Nat.not_lt.mpr hmax),
    Bool.false_eq_true, if_false, bne_iff_ne, ne_eq, format.sealCommitted_ne.symm, not_false_eq_true,
    if_true, beq_self_eq_true]

theorem classify_committed (h : Prepared format record seq) (hmin : format.minLen ≤ record.length)
    (hmax : record.length ≤ format.maxLen) (hsequenced : format.sequenced = true) :
    classify format (landed format (committedRecord format record seq)) =
        { content := .valid, seq, seqProven := true
          digest := Sha256.digest (committedRecord format record seq) } ∧
      recordOf (landed format (committedRecord format record seq)) = committedRecord format record seq := by
  have hlong := length_ge_of_minLen hmin
  have hpending := length_pendingRecord format seq hlong
  have hlength := length_committedRecord format seq hlong
  obtain ⟨hformat, hmagic, hused, hschema⟩ := h.head
    (landed format (committedRecord format record seq))
    fun hi => by rw [segment_landed (by omega), segment_committedRecord_head format seq hlong hi]
  have hmark : be32 (landed format (committedRecord format record seq)) kRecordSealOffset =
      format.sealCommitted := by
    rw [be32_congr (segment_landed (by rw [kRecordSealOffset]; omega))]
    exact be32_reseal_mark (by omega)
  have hseq : be32 (landed format (committedRecord format record seq)) kRecordSeqOffset = seq := by
    rw [be32_congr (segment_landed (by rw [kRecordSeqOffset]; omega))]
    exact be32_committedRecord_seq format seq hlong hsequenced
  have hrecord : recordOf (landed format (committedRecord format record seq)) =
      committedRecord format record seq := recordOf_landed (by rw [hused, hlength])
  have hcrc : crc32IsoHdlc ((landed format (committedRecord format record seq)).take (record.length - 4)) =
      be32 (landed format (committedRecord format record seq)) (record.length - 4) := by
    have hsealed := @crc_reseal (pendingRecord format record seq) format.sealCommitted (by omega)
    rw [hpending] at hsealed
    rw [be32_congr (segment_landed (by omega))]
    unfold landed
    rw [take_append_of_le_length (by omega)]
    exact hsealed
  refine ⟨?_, hrecord⟩
  unfold classify
  simp only [not_isErased hformat, hmark, hformat, hmagic, hused, hschema, hseq, hrecord, hcrc,
    h.structural, h.semantic, hsequenced, bne_self_eq_false, Bool.or_false,
    decide_eq_false (Nat.not_lt.mpr hmin), decide_eq_false (Nat.not_lt.mpr hmax),
    decide_eq_false (UInt32.not_lt.mpr h.schema_ge), decide_eq_false (UInt32.not_lt.mpr h.schema_le),
    Bool.false_eq_true, if_false, if_true, Except.isOk, Except.toBool, Bool.not_true]

end Classification

end RouteLoom.Storage
