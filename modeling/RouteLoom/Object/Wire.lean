import RouteLoom.Wire.Bytes

/-!
# Object frames

The payloads of the three frame types of an object transfer: the manifest, a chunk and an
acknowledgement.

* `decodeStart_eq_ok`, `decodeChunk_eq_ok`, `decodeAck_eq_ok` : exactly the encodings of valid values
  are accepted, each as the value it encodes
-/

namespace RouteLoom.Object

open Lib

def kMaxBytes : Nat := 4096
def kChunkBytes : Nat := 121
def kMaxChunks : Nat := (kMaxBytes + kChunkBytes - 1) / kChunkBytes
def kVersion : UInt8 := 1
def kStartBytes : Nat := 31
def kChunkHeadBytes : Nat := 7
def kAckBytes : Nat := 15

abbrev ObjectId := UInt32
abbrev Digest := Vector UInt8 16

/-- The first bytes of a hash. -/
def digestOf (bytes : List UInt8) : Digest :=
  Vector.ofFn fun i => bytes.getD i.val 0

inductive AckStatus
  | incomplete | complete | busy | noBuffer | conflict | expired | cancelled | unsupported | failed
  deriving DecidableEq, Repr

def AckStatus.toByte : AckStatus → UInt8
  | .incomplete => 0
  | .complete => 1
  | .busy => 2
  | .noBuffer => 3
  | .conflict => 4
  | .expired => 5
  | .cancelled => 6
  | .unsupported => 7
  | .failed => 8

def AckStatus.ofByte? (byte : UInt8) : Option AckStatus :=
  [incomplete, complete, busy, noBuffer, conflict, expired, cancelled, unsupported, failed].find?
    fun status => status.toByte == byte

structure Start where
  id : ObjectId := 0
  total : UInt16 := 0
  chunks : UInt8 := 0
  appTag : UInt16 := 0
  encoding : UInt8 := 0
  digest : Digest := Vector.replicate 16 0
  lifetimeMs : UInt32 := 30000
  deriving DecidableEq

structure Chunk where
  id : ObjectId
  index : UInt8
  data : List UInt8
  deriving DecidableEq

structure Ack where
  id : ObjectId
  status : AckStatus
  missing : UInt8
  bitmap : UInt64
  deriving DecidableEq, Repr

def invalid : Status := ⟨.protocolError, "object wire bounds"⟩

/-! ## Layouts -/

namespace Start

def valid (v : Start) : Bool :=
  v.id != 0 && 0 < v.total.toNat && v.total.toNat ≤ kMaxBytes &&
    v.chunks.toNat == (v.total.toNat + kChunkBytes - 1) / kChunkBytes &&
    0 < v.lifetimeMs && v.lifetimeMs ≤ 120000

def layout (version : UInt8) (v : Start) : List UInt8 :=
  bigEndian 1 version.toUInt64 ++ (bigEndian 4 v.id.toUInt64 ++ (bigEndian 2 v.total.toUInt64 ++
    (bigEndian 1 v.chunks.toUInt64 ++ (bigEndian 2 v.appTag.toUInt64 ++
      (bigEndian 1 v.encoding.toUInt64 ++ (v.digest.toList ++ bigEndian 4 v.lifetimeMs.toUInt64))))))

def encode (capacity : Nat) (v : Start) : Except Status (List UInt8) :=
  if !v.valid || capacity < kStartBytes then .error invalid else .ok (v.layout kVersion)

end Start

namespace Chunk

def valid (v : Chunk) : Bool :=
  v.id != 0 && v.index.toNat < kMaxChunks && 0 < v.data.length && v.data.length ≤ kChunkBytes

def layout (version : UInt8) (v : Chunk) : List UInt8 :=
  bigEndian 1 version.toUInt64 ++ (bigEndian 4 v.id.toUInt64 ++ (bigEndian 1 v.index.toUInt64 ++
    (bigEndian 1 v.data.length.toUInt8.toUInt64 ++ v.data)))

def encode (capacity : Nat) (v : Chunk) : Except Status (List UInt8) :=
  if !v.valid || capacity < kChunkHeadBytes + v.data.length then .error invalid
  else .ok (v.layout kVersion)

end Chunk

namespace Ack

def valid (v : Ack) : Bool :=
  v.id != 0 && v.missing.toNat ≤ kMaxChunks && v.bitmap.toNat / 2 ^ kMaxChunks == 0

def layout (version : UInt8) (v : Ack) : List UInt8 :=
  bigEndian 1 version.toUInt64 ++ (bigEndian 4 v.id.toUInt64 ++
    (bigEndian 1 v.status.toByte.toUInt64 ++ (bigEndian 1 v.missing.toUInt64 ++ bigEndian 8 v.bitmap)))

def encode (capacity : Nat) (v : Ack) : Except Status (List UInt8) :=
  if !v.valid || capacity < kAckBytes then .error invalid else .ok (v.layout kVersion)

end Ack

/-! ## Readers -/

/-- Take what was read if the version is known and the value is valid. -/
def accept {α : Type} (valid : α → Bool) : Except Status (UInt8 × α) → Except Status α
  | .error _ => .error invalid
  | .ok (version, v) => if version != kVersion || !valid v then .error invalid else .ok v

def readStart : ReadOp (UInt8 × Start) := do
  let version ← readU8
  let id ← readU32
  let total ← readU16
  let chunks ← readU8
  let appTag ← readU16
  let encoding ← readU8
  let digest ← readBytes 16
  let lifetimeMs ← readU32
  pure (version, { id, total, chunks, appTag, encoding, digest := digestOf digest, lifetimeMs })

def decodeStart (bytes : List UInt8) : Except Status Start :=
  if bytes.length != kStartBytes then .error invalid else accept Start.valid (readStart bytes).1

def readChunk : ReadOp (UInt8 × Chunk) := do
  let version ← readU8
  let id ← readU32
  let index ← readU8
  let length ← readU8
  let data ← Op.get
  Op.check (refuse (length.toNat != data.length) invalid)
  Op.set []
  pure (version, { id, index, data })

def decodeChunk (bytes : List UInt8) : Except Status Chunk :=
  if bytes.length ≤ kChunkHeadBytes || kChunkHeadBytes + kChunkBytes < bytes.length then .error invalid
  else accept Chunk.valid (readChunk bytes).1

def readAck : ReadOp (UInt8 × Ack) := do
  let version ← readU8
  let id ← readU32
  let status ← readU8
  let missing ← readU8
  let bitmap ← readU64
  match AckStatus.ofByte? status with
  | none => Op.throw invalid
  | some status => pure (version, { id, status, missing, bitmap })

def decodeAck (bytes : List UInt8) : Except Status Ack :=
  if bytes.length != kAckBytes then .error invalid else accept Ack.valid (readAck bytes).1

/-! ## Round trips -/

theorem digestOf_toList (d : Digest) : digestOf d.toList = d := by
  ext i hi
  simp [digestOf]

variable {bytes : List UInt8} {v : Chunk}

theorem toList_digestOf (h : bytes.length = 16) : (digestOf bytes).toList = bytes := by
  refine List.ext_getElem (by simp [h]) fun i hi hi' => ?_
  simp [digestOf, hi']

theorem AckStatus.ofByte?_toByte (status : AckStatus) : ofByte? status.toByte = some status := by
  cases status <;> rfl

theorem AckStatus.toByte_of_ofByte? {byte : UInt8} {status : AckStatus} (h : ofByte? byte = some status) :
    status.toByte = byte := by
  have := List.find?_some h
  simpa using this

theorem readStart_eq_ok {source rest : List UInt8} {version : UInt8} {v : Start} :
    readStart source = (.ok (version, v), rest) ↔ source = v.layout version ++ rest := by
  simp only [readStart, Op.bind_eq_ok, readU8_eq_ok, readU32_eq_ok, readU16_eq_ok, readBytes_eq_ok,
    Op.pure_eq_ok, Start.layout, List.append_assoc]
  constructor
  · rintro ⟨_, _, rfl, _, _, rfl, _, _, rfl, _, _, rfl, _, _, rfl, _, _, rfl, digest, _, ⟨rfl, hd⟩, _, _,
      rfl, hv, rfl⟩
    obtain ⟨rfl, rfl⟩ := Prod.mk.injEq .. ▸ hv
    rw [toList_digestOf hd]
  · rintro rfl
    exact ⟨_, _, rfl, _, _, rfl, _, _, rfl, _, _, rfl, _, _, rfl, _, _, rfl, _, _,
      ⟨rfl, by simp⟩, _, _, rfl, by rw [digestOf_toList], rfl⟩

theorem readChunk_eq_ok {source rest : List UInt8} {version : UInt8} (hlength : v.data.length < 256) :
    readChunk source = (.ok (version, v), rest) ↔ source = v.layout version ∧ rest = [] := by
  have hback : v.data.length.toUInt8.toNat = v.data.length := Nat.mod_eq_of_lt hlength
  simp only [readChunk, Op.bind_eq_ok, readU8_eq_ok, readU32_eq_ok, Op.pure_eq_ok, Op.check_eq_ok,
    Chunk.layout]
  constructor
  · rintro ⟨_, _, rfl, _, _, rfl, _, _, rfl, length, data, rfl, _, _, hget, _, _, ⟨hcheck, rfl⟩, _, _, hset,
      hv, rfl⟩
    cases hget
    cases hset
    obtain ⟨rfl, rfl⟩ := Prod.mk.injEq .. ▸ hv
    dsimp only at hback ⊢
    have hsame : length.toNat = data.length := by simpa using refuse_eq_ok.mp hcheck
    rw [← UInt8.toNat_inj.mp (hsame.trans hback.symm)]
    exact ⟨rfl, rfl⟩
  · rintro ⟨rfl, rfl⟩
    refine ⟨_, _, rfl, _, _, rfl, _, _, rfl, _, _, rfl, _, _, rfl, (), _, ⟨?_, rfl⟩, (), _, rfl, rfl, rfl⟩
    exact refuse_eq_ok.mpr (by simpa using hback)

theorem readAck_eq_ok {source rest : List UInt8} {version : UInt8} {v : Ack} :
    readAck source = (.ok (version, v), rest) ↔ source = v.layout version ++ rest := by
  simp only [readAck, Op.bind_eq_ok, readU8_eq_ok, readU32_eq_ok, readU64_eq_ok, Ack.layout,
    List.append_assoc]
  constructor
  · rintro ⟨_, _, rfl, _, _, rfl, status, _, rfl, _, _, rfl, _, _, rfl, h⟩
    cases hstatus : AckStatus.ofByte? status with
    | none =>
      rw [hstatus] at h
      cases h
    | some status' =>
      rw [hstatus] at h
      obtain ⟨hv, rfl⟩ := Op.pure_eq_ok.mp h
      obtain ⟨rfl, rfl⟩ := Prod.mk.injEq .. ▸ hv
      rw [AckStatus.toByte_of_ofByte? hstatus]
  · rintro rfl
    refine ⟨_, _, rfl, _, _, rfl, _, _, rfl, _, _, rfl, _, _, rfl, ?_⟩
    rw [AckStatus.ofByte?_toByte]
    rfl

theorem accept_eq_ok {α : Type} {valid : α → Bool} {r : Except Status (UInt8 × α)} {v : α} :
    accept valid r = .ok v ↔ r = .ok (kVersion, v) ∧ valid v = true := by
  unfold accept
  split
  · simp
  · next version w =>
    simp only [Bool.or_eq_true, bne_iff_ne, ne_eq, Bool.not_eq_true', Except.ok.injEq, Prod.mk.injEq]
    split
    · next h =>
      simp only [reduceCtorEq, false_iff, not_and]
      rintro ⟨rfl, rfl⟩
      simpa using h
    · next h =>
      simp only [not_or, Decidable.not_not, Bool.not_eq_false] at h
      simp only [Except.ok.injEq]
      exact ⟨fun hw => hw ▸ ⟨⟨h.1, rfl⟩, h.2⟩, fun hw => hw.1.2⟩

/-- A reader of values of one size accepts exactly the encodings of the valid ones. -/
theorem fixed_eq_ok {α : Type} {valid : α → Bool} {read : ReadOp (UInt8 × α)}
    {layout : UInt8 → α → List UInt8} {size : Nat} (hlength : ∀ version v, (layout version v).length = size)
    (hread : ∀ {source rest version v},
      read source = (.ok (version, v), rest) ↔ source = layout version v ++ rest) {v : α} :
    (if bytes.length != size then .error invalid else accept valid (read bytes).1) = .ok v ↔
      valid v = true ∧ bytes = layout kVersion v := by
  constructor
  · intro h
    split at h
    · cases h
    next hsize =>
    rcases hx : read bytes with ⟨r, rest⟩
    rw [hx] at h
    obtain ⟨rfl, hvalid⟩ := accept_eq_ok.mp h
    have hsource := hread.mp hx
    have hrest : rest.length = 0 := by
      simp only [hsource, List.length_append, hlength, bne_iff_ne, ne_eq, Decidable.not_not] at hsize
      omega
    rw [List.eq_nil_of_length_eq_zero hrest, List.append_nil] at hsource
    exact ⟨hvalid, hsource⟩
  · rintro ⟨hvalid, rfl⟩
    rw [if_neg (by simp [hlength]), hread.mpr (List.append_nil _).symm]
    exact accept_eq_ok.mpr ⟨rfl, hvalid⟩

theorem decodeStart_eq_ok {v : Start} :
    decodeStart bytes = .ok v ↔ v.valid = true ∧ bytes = v.layout kVersion :=
  fixed_eq_ok (fun _ _ => by simp [Start.layout, kStartBytes]) readStart_eq_ok

theorem Chunk.length_lt_of_valid (h : v.valid = true) : v.data.length < 256 := by
  simp only [Chunk.valid, Bool.and_eq_true, decide_eq_true_eq] at h
  exact Nat.lt_of_le_of_lt h.2 (by decide)

/-- Exactly the encodings of valid chunks are accepted. -/
theorem decodeChunk_eq_ok : decodeChunk bytes = .ok v ↔ v.valid = true ∧ bytes = v.layout kVersion := by
  unfold decodeChunk
  constructor
  · intro h
    split at h
    · cases h
    obtain ⟨hread, hvalid⟩ := accept_eq_ok.mp h
    exact ⟨hvalid, ((readChunk_eq_ok (Chunk.length_lt_of_valid hvalid)).mp (Prod.ext hread rfl)).1⟩
  · rintro ⟨hvalid, rfl⟩
    have hdata := hvalid
    simp only [Chunk.valid, Bool.and_eq_true, decide_eq_true_eq] at hdata
    have hlength : (v.layout kVersion).length = kChunkHeadBytes + v.data.length := by
      simp only [Chunk.layout, List.length_append, length_bigEndian, kChunkHeadBytes]
      omega
    have hread : readChunk (v.layout kVersion) = (.ok (kVersion, v), []) :=
      (readChunk_eq_ok (Chunk.length_lt_of_valid hvalid)).mpr ⟨rfl, rfl⟩
    rw [if_neg (by simp only [hlength, Bool.or_eq_true, decide_eq_true_eq]; omega), hread]
    exact accept_eq_ok.mpr ⟨rfl, hvalid⟩

theorem decodeAck_eq_ok {v : Ack} : decodeAck bytes = .ok v ↔ v.valid = true ∧ bytes = v.layout kVersion :=
  fixed_eq_ok (fun _ _ => by simp [Ack.layout, kAckBytes]) readAck_eq_ok

theorem decodeStart_encode {capacity : Nat} {v : Start} (h : v.encode capacity = .ok bytes) :
    decodeStart bytes = .ok v := by
  unfold Start.encode at h
  split at h
  · cases h
  · next hvalid =>
    cases h
    rw [Bool.or_eq_true, not_or, Bool.not_eq_true', Bool.not_eq_false] at hvalid
    exact decodeStart_eq_ok.mpr ⟨hvalid.1, rfl⟩

theorem decodeChunk_encode {capacity : Nat} (h : v.encode capacity = .ok bytes) :
    decodeChunk bytes = .ok v := by
  unfold Chunk.encode at h
  split at h
  · cases h
  · next hvalid =>
    cases h
    rw [Bool.or_eq_true, not_or, Bool.not_eq_true', Bool.not_eq_false] at hvalid
    exact decodeChunk_eq_ok.mpr ⟨hvalid.1, rfl⟩

theorem decodeAck_encode {capacity : Nat} {v : Ack} (h : v.encode capacity = .ok bytes) :
    decodeAck bytes = .ok v := by
  unfold Ack.encode at h
  split at h
  · cases h
  · next hvalid =>
    cases h
    rw [Bool.or_eq_true, not_or, Bool.not_eq_true', Bool.not_eq_false] at hvalid
    exact decodeAck_eq_ok.mpr ⟨hvalid.1, rfl⟩

end RouteLoom.Object
