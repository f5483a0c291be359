import RouteLoom.Storage.RecordHead

/-!
# Revocation sets

The signed revocation object (RRS1) of `sdkv1_records.cpp`: its payload inside a COSE envelope, the
storage record around it, and what a set rejects. The signature check is a parameter.

* `rejects_of_covers` : a set that covers another one rejects at least as much
* `prepared_revocationRecord` : what the store encodes is a complete record
-/

namespace RouteLoom.Storage

open Lib

def kRevocationVersion : UInt8 := 2
def kRevocationVersionV1 : UInt8 := 1
def kRevocationEntryMax : Nat := 32
def kRevocationHeadSize : Nat := 28
def kRevocationEntrySize : Nat := 17
def kRevocationEntrySizeV1 : Nat := 16
def kRevocationPayloadMax : Nat := kRevocationHeadSize + kRevocationEntryMax * kRevocationEntrySize
def kRevocationObjectMax : Nat := 7 + 3 + kRevocationPayloadMax + 2 + 64
def kRevocationMagic : UInt32 := 0x52525331
def kRevocationSealCommitted : UInt32 := 0x2E5E7C0D
def kRevocationSlotBytes : Nat := 672
def kRevocationRecordMin : Nat := kSequencedHeadSize + 4
def kRevocationRecordMax : Nat := kSequencedHeadSize + kRevocationObjectMax + 4
def kEs256SignatureSize : Nat := 64

/-- "RouteLoom/revocation-set/v1" with its terminator. -/
def kRevocationDomain : List UInt8 :=
  [0x52, 0x6F, 0x75, 0x74, 0x65, 0x4C, 0x6F, 0x6F, 0x6D, 0x2F, 0x72, 0x65, 0x76, 0x6F, 0x63, 0x61, 0x74,
    0x69, 0x6F, 0x6E, 0x2D, 0x73, 0x65, 0x74, 0x2F, 0x76, 0x31, 0x00]

/-- A reason as the payload carries it; 1 to 4 are known. -/
structure RevocationReason where
  code : UInt8 := 1
  deriving DecidableEq, Repr, Inhabited

namespace RevocationReason

def removed : RevocationReason := ⟨1⟩
def blocked : RevocationReason := ⟨4⟩

end RevocationReason

structure RevocationEntry where
  nodeId : NodeId := kInvalidNodeId
  minGeneration : UInt32 := 0
  reason : RevocationReason := .removed
  readmitGkEpoch : UInt32 := 0
  deriving DecidableEq, Repr, Inhabited

structure RevocationSet where
  siteId : UInt64 := 0
  network : NetworkId := 0
  rsEpoch : UInt32 := 0
  siteEpochFloor : UInt32 := 0
  entries : List RevocationEntry := []
  deriving DecidableEq, Repr, Inhabited

def idValid (id : UInt64) : Bool := id != 0 && id != 0xFFFFFFFFFFFFFFFF

/-- The entries behind one for `last`. -/
def validateEntries : Option NodeId → List RevocationEntry → Except Status Unit
  | _, [] => .ok ()
  | last, entry :: entries => do
    refuse (!idValid entry.nodeId || entry.minGeneration == 0 ||
      entry.reason.code < RevocationReason.removed.code || entry.reason.code > RevocationReason.blocked.code)
      ⟨.invalidArgument, "rrs1 entry"⟩
    refuse (last.any (entry.nodeId ≤ ·)) ⟨.invalidArgument, "rrs1 entries not ascending"⟩
    validateEntries (some entry.nodeId) entries

def revocationValidate (set : RevocationSet) : Except Status Unit := do
  refuse (!idValid set.siteId || set.network == 0 || set.network &&& 0xFFFFFFFF == 0 || set.rsEpoch == 0 ||
    set.entries.length > kRevocationEntryMax || set.siteEpochFloor > (set.network >>> 32).toUInt32)
    ⟨.invalidArgument, "rrs1 head"⟩
  validateEntries none set.entries

/-! ## Payload -/

def readZeros (what : String) : Nat → ReadOp Unit
  | 0 => pure ()
  | count + 1 => do
    let byte ← readU8
    Op.check (refuse (byte != 0) ⟨.protocolError, what⟩)
    readZeros what count

/-- The last field of an entry, which version 1 does not have. -/
def readReadmit (version : UInt8) : ReadOp UInt32 :=
  if version == kRevocationVersionV1 then do
    readZeros "rrs1 entry reserved" 3
    pure 0
  else readU32

def readEntry (version : UInt8) : ReadOp RevocationEntry := do
  let nodeId ← readU64
  let minGeneration ← readU32
  let reason ← readU8
  let readmitGkEpoch ← readReadmit version
  pure { nodeId, minGeneration, reason := ⟨reason⟩, readmitGkEpoch }

def readEntries (version : UInt8) : Nat → ReadOp (List RevocationEntry)
  | 0 => pure []
  | count + 1 => do
    let entry ← readEntry version
    let entries ← readEntries version count
    pure (entry :: entries)

def revocationPayloadSize (count : Nat) (version : UInt8) : Nat :=
  kRevocationHeadSize +
    count * (if version == kRevocationVersionV1 then kRevocationEntrySizeV1 else kRevocationEntrySize)

def readPayload (size : Nat) : ReadOp RevocationSet := do
  let version ← readU8
  let flags ← readU8
  let count ← readU16
  let siteId ← readU64
  let network ← readU64
  let rsEpoch ← readU32
  let siteEpochFloor ← readU32
  Op.check (refuse (version != kRevocationVersion && version != kRevocationVersionV1)
    ⟨.unsupported, "rrs1 version"⟩)
  Op.check (refuse (flags != 0 || count.toNat > kRevocationEntryMax ||
    size != revocationPayloadSize count.toNat version) ⟨.protocolError, "rrs1 payload shape"⟩)
  let entries ← readEntries version count.toNat
  pure { siteId, network, rsEpoch, siteEpochFloor, entries }

def revocationPayloadDecode (payload : List UInt8) : Except Status RevocationSet := do
  refuse (payload.length < kRevocationHeadSize || payload.length > kRevocationPayloadMax)
    ⟨.protocolError, "rrs1 payload bounds"⟩
  let set ← (readPayload payload.length payload).1
  match revocationValidate set with
  | .ok () => .ok set
  | .error invalid => .error ⟨.protocolError, invalid.detail⟩

/-! ## The signed object -/

/-- Tag 18, array of four, protected header with ES256, empty unprotected map. -/
def kSign1Head : List UInt8 := [0xD2, 0x84, 0x43, 0xA1, 0x01, 0x26, 0xA0]

structure CoseEs256Parts where
  payload : List UInt8
  signature : List UInt8
  deriving DecidableEq, Repr

/-- The shortest form is the only one accepted. -/
def bstrLength (what : String) : List UInt8 → Except Status (Nat × List UInt8)
  | [] => .error ⟨.protocolError, what⟩
  | head :: rest =>
    if 0x40 ≤ head && head ≤ 0x57 then .ok ((head - 0x40).toNat, rest)
    else if head == 0x58 then
      match rest with
      | size :: rest => if size ≤ 23 then .error ⟨.protocolError, what⟩ else .ok (size.toNat, rest)
      | [] => .error ⟨.protocolError, what⟩
    else if head == 0x59 then
      match rest with
      | high :: low :: rest =>
        if high.toNat * 256 + low.toNat ≤ 0xFF then .error ⟨.protocolError, what⟩
        else .ok (high.toNat * 256 + low.toNat, rest)
      | _ => .error ⟨.protocolError, what⟩
    else .error ⟨.protocolError, what⟩

def readBstr (what : String) (body : List UInt8) : Except Status (List UInt8 × List UInt8) := do
  let (size, rest) ← bstrLength what body
  refuse (rest.length < size) ⟨.protocolError, what⟩
  .ok (rest.take size, rest.drop size)

def coseEs256Parse (object : List UInt8) (payloadMin payloadMax objectMax : Nat) :
    Except Status CoseEs256Parts := do
  refuse (object.length > objectMax) ⟨.protocolError, "cose object bounds"⟩
  refuse (object.take kSign1Head.length != kSign1Head) ⟨.protocolError, "cose sign1 head"⟩
  let (payload, rest) ← readBstr "cose payload" (object.drop kSign1Head.length)
  let (signature, rest) ← readBstr "cose signature" rest
  refuse (payload.length < payloadMin || payload.length > payloadMax ||
    signature.length != kEs256SignatureSize || rest != []) ⟨.protocolError, "cose shape"⟩
  .ok { payload, signature }

/-- The bytes that a signature covers besides the payload. -/
def revocationAad (network : NetworkId) : List UInt8 := kRevocationDomain ++ bigEndian 8 network

def revocationObjectDecode (object : List UInt8) : Except Status RevocationSet := do
  let parts ← coseEs256Parse object kRevocationHeadSize kRevocationPayloadMax kRevocationObjectMax
  revocationPayloadDecode parts.payload

/-- `cose_es256_verify` with the key of the site: payload, additional data and signature. -/
abbrev Es256Verify := List UInt8 → List UInt8 → List UInt8 → Except Status Bool

/-- The decoded set, and whether it is authentic for the expected site and network. -/
def revocationObjectVerify (verify : Es256Verify) (object : List UInt8) (expectedSiteId : UInt64)
    (expectedNetwork : NetworkId) : Except Status (RevocationSet × Bool) := do
  let parts ← coseEs256Parse object kRevocationHeadSize kRevocationPayloadMax kRevocationObjectMax
  let set ← revocationPayloadDecode parts.payload
  if set.siteId != expectedSiteId || set.network != expectedNetwork then .ok (set, false)
  else do
    let verified ← verify parts.payload (revocationAad expectedNetwork) parts.signature
    .ok (set, verified)

variable {object : List UInt8} {set : RevocationSet}

theorem decode_of_verify {verify : Es256Verify} {siteId : UInt64} {network : NetworkId}
    (h : revocationObjectVerify verify object siteId network = .ok (set, true)) :
    revocationObjectDecode object = .ok set ∧ set.siteId = siteId ∧ set.network = network := by
  unfold revocationObjectVerify at h
  obtain ⟨parts, hparts, h₁⟩ := bind_eq_ok.mp h
  obtain ⟨set', hset, h₂⟩ := bind_eq_ok.mp h₁
  split at h₂
  · cases h₂
  · rename_i hsame
    obtain ⟨verified, _, h₃⟩ := bind_eq_ok.mp h₂
    simp only [Except.ok.injEq, Prod.mk.injEq] at h₃
    obtain ⟨rfl, _⟩ := h₃
    simp only [Bool.or_eq_true, bne_iff_ne, not_or, not_not] at hsame
    exact ⟨bind_eq_ok.mpr ⟨parts, hparts, hset⟩, hsame⟩

/-! ## The storage record -/

/-- The record around an object; an empty object is the tombstone of a cleared set. -/
def revocationRecordEncode (object : List UInt8) (mark seq : UInt32) : Except Status (List UInt8) := do
  refuse (mark != kSealPending && mark != kRevocationSealCommitted) ⟨.invalidArgument, "rrs1 seal value"⟩
  if object != [] then do
    let _ ← revocationObjectDecode object
    .ok (sealedRecord kRevocationMagic mark kRecordSchema seq object)
  else .ok (sealedRecord kRevocationMagic mark kRecordSchema seq object)

/-- The set and the object of a committed record. -/
def revocationRecordDecode (record : List UInt8) : Except Status (RevocationSet × List UInt8) := do
  readHead record kRevocationMagic kRevocationSealCommitted kRevocationRecordMin kRevocationRecordMax
    kRecordSchema
  let body := segment record kSequencedHeadSize (record.length - kSequencedHeadSize - 4)
  if body != [] then do
    let set ← revocationObjectDecode body
    .ok (set, body)
  else .ok ({}, [])

def revocationRecordStructure (record : List UInt8) : Except Status Unit :=
  structureHead record kRevocationMagic kRevocationRecordMin kRevocationRecordMax

def revocationFormat : SealedRecordFormat :=
  { magic := kRevocationMagic
    sealCommitted := kRevocationSealCommitted
    slotBytes := kRevocationSlotBytes
    minLen := kRevocationRecordMin
    maxLen := kRevocationRecordMax
    sequenced := true
    structural := revocationRecordStructure
    semantic := fun record => do
      let _ ← revocationRecordDecode record
      .ok ()
    sealCommitted_ne := by decide
    head_le := by decide }

/-- An object that a store can hold: a set, or none. -/
def ObjectOf (object : List UInt8) (set : RevocationSet) : Prop :=
  object = [] ∧ set = {} ∨ object ≠ [] ∧ revocationObjectDecode object = .ok set

theorem length_le_of_decode (h : revocationObjectDecode object = .ok set) :
    object.length ≤ kRevocationObjectMax := by
  obtain ⟨parts, hparts, _⟩ := bind_eq_ok.mp h
  unfold coseEs256Parse at hparts
  simpa using (refuse_bind_eq_ok.mp hparts).1

theorem ObjectOf.length_le (h : ObjectOf object set) : object.length ≤ kRevocationObjectMax := by
  rcases h with ⟨rfl, _⟩ | ⟨_, hdecode⟩
  · exact Nat.zero_le _
  · exact length_le_of_decode hdecode

theorem revocationRecordEncode_eq (h : ObjectOf object set) (seq : UInt32) :
    revocationRecordEncode object kSealPending seq =
      .ok (sealedRecord kRevocationMagic kSealPending kRecordSchema seq object) := by
  unfold revocationRecordEncode
  rw [refuse_bind_eq_ok]
  refine ⟨by decide, ?_⟩
  rcases h with ⟨rfl, _⟩ | ⟨hne, hdecode⟩
  · rfl
  · rw [if_pos (by simpa using hne), hdecode]
    rfl

theorem encoded_revocationRecord (h : ObjectOf object set) (seq : UInt32) :
    Encoded kRevocationMagic kRecordSchema object
      (sealedRecord kRevocationMagic kSealPending kRecordSchema seq object) := by
  have hlength := h.length_le
  refine encoded_sealedRecord ?_
  rw [show kRevocationObjectMax = 648 from rfl] at hlength
  rw [kSequencedHeadSize]
  omega

theorem revocationRecordDecode_committed (h : ObjectOf object set) (seq seq' : UInt32) :
    revocationRecordDecode (SealedSlotPair.committedRecord revocationFormat
      (sealedRecord kRevocationMagic kSealPending kRecordSchema seq object) seq') = .ok (set, object) := by
  have hencoded := encoded_revocationRecord h seq
  have hcommitted := hencoded.committed revocationFormat seq'
  have hlength := h.length_le
  have hhead : readHead (SealedSlotPair.committedRecord revocationFormat
      (sealedRecord kRevocationMagic kSealPending kRecordSchema seq object) seq') kRevocationMagic
      kRevocationSealCommitted kRevocationRecordMin kRevocationRecordMax kRecordSchema = .ok () :=
    hencoded.committed_readHead
      (by rw [hencoded.length]; exact Nat.add_le_add_right (Nat.le_add_right _ _) _)
      (by rw [hencoded.length]; exact Nat.add_le_add_right (Nat.add_le_add_left hlength _) _)
      (UInt32.le_refl _) (UInt32.le_refl _)
  have hbody : segment (SealedSlotPair.committedRecord revocationFormat
      (sealedRecord kRevocationMagic kSealPending kRecordSchema seq object) seq') kSequencedHeadSize
      ((SealedSlotPair.committedRecord revocationFormat
        (sealedRecord kRevocationMagic kSealPending kRecordSchema seq object) seq').length -
          kSequencedHeadSize - 4) = object := by
    rw [hcommitted.length, show kSequencedHeadSize + object.length + 4 - kSequencedHeadSize - 4 =
      object.length by omega, hcommitted.body]
  unfold revocationRecordDecode
  rw [bind_eq_ok]
  refine ⟨(), hhead, ?_⟩
  simp only [hbody]
  rcases h with ⟨rfl, rfl⟩ | ⟨hne, hdecode⟩
  · rfl
  · rw [if_pos (by simpa using hne), hdecode]
    rfl

theorem prepared_revocationRecord (h : ObjectOf object set) (seq seq' : UInt32) :
    Prepared revocationFormat (sealedRecord kRevocationMagic kSealPending kRecordSchema seq object) seq' := by
  have hencoded := encoded_revocationRecord h seq
  have hlength := h.length_le
  refine ⟨hencoded.magic, hencoded.recordFormat, hencoded.usedLen, ?_, ?_, ?_, ?_⟩
  · rw [hencoded.schema]
    exact UInt32.le_refl _
  · rw [hencoded.schema]
    exact UInt32.le_refl _
  · exact hencoded.committed_structureHead
      (by rw [hencoded.length]; exact Nat.add_le_add_right (Nat.le_add_right _ _) _)
      (by rw [hencoded.length]; exact Nat.add_le_add_right (Nat.add_le_add_left hlength _) _)
  · exact bind_eq_ok.mpr ⟨_, revocationRecordDecode_committed h seq seq', rfl⟩

/-! ## Rejection -/

/-- A member certificate is rejected below the site epoch floor or below the generation of its entry. -/
def revocationRejects (set : RevocationSet) (node : NodeId) (generation siteEpoch : UInt32) : Bool :=
  if siteEpoch < set.siteEpochFloor then true
  else
    match set.entries.find? (·.nodeId == node) with
    | some entry => generation < entry.minGeneration
    | none => false

/-- Every entry of the old set is kept, with a generation that did not decrease. -/
def revocationCovers (old next : RevocationSet) : Bool :=
  old.entries.all fun entry =>
    match next.entries.find? (·.nodeId == entry.nodeId) with
    | some kept => entry.minGeneration ≤ kept.minGeneration
    | none => false

/-- `next` rejects everything that `old` rejects. -/
def Stronger (old next : RevocationSet) : Prop :=
  ∀ node generation siteEpoch, revocationRejects old node generation siteEpoch = true →
    revocationRejects next node generation siteEpoch = true

theorem Stronger.refl (set : RevocationSet) : Stronger set set := fun _ _ _ h => h

theorem Stronger.trans {a b c : RevocationSet} (hab : Stronger a b) (hbc : Stronger b c) : Stronger a c :=
  fun node generation siteEpoch h => hbc node generation siteEpoch (hab node generation siteEpoch h)

theorem rejects_of_covers {old next : RevocationSet} (hcovers : revocationCovers old next = true)
    (hfloor : old.siteEpochFloor ≤ next.siteEpochFloor) : Stronger old next := by
  intro node generation siteEpoch h
  unfold revocationRejects at h ⊢
  split at h
  · rename_i hlt
    rw [if_pos (UInt32.lt_of_lt_of_le hlt hfloor)]
  · split
    · rfl
    · cases hfind : old.entries.find? (·.nodeId == node) with
      | none =>
        rw [hfind] at h
        cases h
      | some entry =>
        rw [hfind] at h
        have hnode : entry.nodeId = node := by simpa using List.find?_some hfind
        have hkept := List.all_eq_true.mp hcovers entry (List.mem_of_find?_eq_some hfind)
        rw [hnode] at hkept
        cases hnext : next.entries.find? (·.nodeId == node) with
        | none =>
          rw [hnext] at hkept
          cases hkept
        | some kept =>
          rw [hnext] at hkept
          exact decide_eq_true (UInt32.lt_of_lt_of_le (of_decide_eq_true h) (of_decide_eq_true hkept))

end RouteLoom.Storage
