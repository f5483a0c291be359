import Mathlib.Data.List.Induction
import RouteLoom.Basic
import RouteLoom.Lib.Stateful

/-!
# Reading and writing integers

`ByteReader` of `byte_io.cpp` is an operation on the bytes that are left, and an integer is written as
`bigEndian`. The writers of the source check the room in their buffer; every buffer here is as large as
what is written to it, so only `writeU48` can fail.

* `bigEndianValue_bigEndian`, `bigEndian_bigEndianValue` : the two directions of the byte order
* `readU8_eq_ok` and its companions : a read succeeds exactly on what the writer wrote
-/

namespace RouteLoom

open Lib List

/-! ## Byte order -/

/-- The integer that bytes stand for, most significant first. -/
def bigEndianValue (bytes : List UInt8) : UInt64 :=
  bytes.foldl (fun value byte => (value <<< 8) ||| byte.toUInt64) 0

theorem bigEndianValue_concat (bytes : List UInt8) (byte : UInt8) :
    bigEndianValue (bytes ++ [byte]) = (bigEndianValue bytes <<< 8) ||| byte.toUInt64 := by
  unfold bigEndianValue
  rw [foldl_append]
  rfl

@[simp] theorem length_bigEndian (size : Nat) (value : UInt64) : (bigEndian size value).length = size := by
  unfold bigEndian
  rw [length_map, length_range]

variable {value : UInt64} {bytes rest source : List UInt8}

theorem toNat_shift_byte {byte : UInt8} (h : value.toNat < 2 ^ 56) :
    ((value <<< 8) ||| byte.toUInt64).toNat = value.toNat * 256 + byte.toNat := by
  have hbyte : byte.toNat < 2 ^ 8 := byte.toNat_lt
  have hshift : (value <<< 8).toNat = value.toNat <<< 8 := by
    rw [UInt64.toNat_shiftLeft, show (8 : UInt64).toNat % 64 = 8 from rfl, Nat.shiftLeft_eq]
    exact Nat.mod_eq_of_lt (by omega)
  rw [UInt64.toNat_or, hshift, UInt8.toNat_toUInt64, ← Nat.shiftLeft_add_eq_or_of_lt hbyte, Nat.shiftLeft_eq]

theorem toNat_shiftRight_byte (value : UInt64) : (value >>> 8).toNat = value.toNat / 256 := by
  rw [UInt64.toNat_shiftRight, show (8 : UInt64).toNat % 64 = 8 from rfl, Nat.shiftRight_eq_div_pow]

theorem shiftRight_bytes {n : Nat} (hn : n < 7) :
    value >>> (8 * (n + 1)).toUInt64 = (value >>> 8) >>> (8 * n).toUInt64 := by
  have htoNat : ∀ m, m < 8 → (8 * m).toUInt64.toNat % 64 = 8 * m := by
    intro m hm
    rw [show (8 * m).toUInt64.toNat = (8 * m) % 2 ^ 64 from rfl]
    omega
  apply UInt64.toNat_inj.mp
  rw [UInt64.toNat_shiftRight, UInt64.toNat_shiftRight, htoNat _ (by omega), htoNat _ (by omega),
    UInt64.toNat_shiftRight, show (8 : UInt64).toNat % 64 = 8 from rfl, ← Nat.shiftRight_add]
  congr 1
  omega

theorem bigEndian_succ {size : Nat} (hsize : size < 8) (value : UInt64) :
    bigEndian (size + 1) value = bigEndian size (value >>> 8) ++ [value.toUInt8] := by
  unfold bigEndian
  rw [range_succ, map_append]
  congr 1
  · refine map_congr_left fun i hi => ?_
    have hlt : i < size := mem_range.mp hi
    rw [show size + 1 - 1 - i = (size - 1 - i) + 1 by omega, shiftRight_bytes (by omega)]
  · simp

theorem bigEndianValue_bigEndian {size : Nat} (hsize : size ≤ 8) (hvalue : value.toNat < 256 ^ size) :
    bigEndianValue (bigEndian size value) = value := by
  induction size generalizing value with
  | zero =>
    apply UInt64.toNat_inj.mp
    rw [pow_zero] at hvalue
    show 0 = value.toNat
    omega
  | succ size ih =>
    have hdiv : (value >>> 8).toNat < 256 ^ size := by
      rw [toNat_shiftRight_byte]
      rw [pow_succ] at hvalue
      exact Nat.div_lt_of_lt_mul (by rwa [Nat.mul_comm] at hvalue)
    rw [bigEndian_succ (by omega), bigEndianValue_concat, ih (by omega) hdiv]
    have hlt := value.toNat_lt
    apply UInt64.toNat_inj.mp
    rw [toNat_shift_byte (by rw [toNat_shiftRight_byte]; omega), toNat_shiftRight_byte, UInt64.toNat_toUInt8]
    omega

theorem toNat_bigEndianValue_lt (hlength : bytes.length ≤ 8) :
    (bigEndianValue bytes).toNat < 256 ^ bytes.length := by
  induction bytes using List.reverseRecOn with
  | nil => decide
  | append_singleton bytes byte ih =>
    rw [length_append, length_singleton] at hlength ⊢
    have hlt := ih (by omega)
    have hpow : 256 ^ bytes.length ≤ 256 ^ 7 := Nat.pow_le_pow_right (by decide) (by omega)
    have hbyte : byte.toNat < 2 ^ 8 := byte.toNat_lt
    rw [bigEndianValue_concat, toNat_shift_byte (by omega), pow_succ]
    omega

theorem bigEndian_bigEndianValue (hlength : bytes.length ≤ 8) :
    bigEndian bytes.length (bigEndianValue bytes) = bytes := by
  induction bytes using List.reverseRecOn with
  | nil => rfl
  | append_singleton bytes byte ih =>
    rw [length_append, length_singleton] at hlength ⊢
    have hlt : (bigEndianValue bytes).toNat < 256 ^ bytes.length :=
      toNat_bigEndianValue_lt (by omega)
    have hpow : 256 ^ bytes.length ≤ 256 ^ 7 := Nat.pow_le_pow_right (by decide) (by omega)
    have hbyte : byte.toNat < 2 ^ 8 := byte.toNat_lt
    have hvalue : ((bigEndianValue bytes <<< 8) ||| byte.toUInt64).toNat =
        (bigEndianValue bytes).toNat * 256 + byte.toNat := toNat_shift_byte (by omega)
    rw [bigEndianValue_concat, bigEndian_succ (by omega)]
    congr 1
    · rw [show ((bigEndianValue bytes <<< 8) ||| byte.toUInt64) >>> 8 = bigEndianValue bytes from ?_]
      · exact ih (by omega)
      · apply UInt64.toNat_inj.mp
        rw [toNat_shiftRight_byte, hvalue]
        omega
    · congr 1
      apply UInt8.toNat_inj.mp
      rw [UInt64.toNat_toUInt8, hvalue]
      omega

/-! ## The reader -/

/-- An operation on the bytes that are left. -/
abbrev ReadOp (α : Type) := Op (List UInt8) Status α

def readBytes (count : Nat) : ReadOp (List UInt8) := do
  let source ← Op.get
  Op.check (refuse (source.length < count) ⟨.protocolError, "truncated input"⟩)
  Op.set (source.drop count)
  pure (source.take count)

def readU8 : ReadOp UInt8 := do
  let bytes ← readBytes 1
  pure (bigEndianValue bytes).toUInt8

def readU16 : ReadOp UInt16 := do
  let bytes ← readBytes 2
  pure (bigEndianValue bytes).toUInt16

def readU32 : ReadOp UInt32 := do
  let bytes ← readBytes 4
  pure (bigEndianValue bytes).toUInt32

def readU48 : ReadOp UInt64 := do
  let bytes ← readBytes 6
  pure (bigEndianValue bytes)

def readU64 : ReadOp UInt64 := do
  let bytes ← readBytes 8
  pure (bigEndianValue bytes)

/-- The one writer with a range of its own. -/
def writeU48 (value : UInt64) : Except Status (List UInt8) := do
  refuse (value > 0xFFFFFFFFFFFF) ⟨.invalidArgument, "value exceeds 48 bits"⟩
  .ok (bigEndian 6 value)

theorem readBytes_eq_ok {count : Nat} :
    readBytes count source = (.ok bytes, rest) ↔ source = bytes ++ rest ∧ bytes.length = count := by
  simp only [readBytes, bind, Op.get, Op.check, Op.set, pure]
  by_cases hshort : source.length < count
  · rw [show refuse (decide (source.length < count)) (⟨.protocolError, "truncated input"⟩ : Status) =
      .error ⟨.protocolError, "truncated input"⟩ by rw [decide_eq_true hshort]; rfl]
    refine ⟨fun h => (by cases h), ?_⟩
    rintro ⟨rfl, hlength⟩
    rw [length_append] at hshort
    omega
  · rw [show refuse (decide (source.length < count)) (⟨.protocolError, "truncated input"⟩ : Status) =
      .ok () by rw [decide_eq_false hshort]; rfl]
    constructor
    · intro h
      cases h
      refine ⟨(take_append_drop count source).symm, ?_⟩
      rw [length_take]
      omega
    · rintro ⟨rfl, rfl⟩
      rw [take_left, drop_left]

/-- A number of `size` bytes is read exactly where it was written. -/
theorem readNumber_eq_ok {α : Type} {size : Nat} (conv : UInt64 → α) (back : α → UInt64)
    (hsize : size ≤ 8) (hback : ∀ a, (back a).toNat < 256 ^ size) (hconv : ∀ a, conv (back a) = a)
    (hfits : ∀ v : UInt64, v.toNat < 256 ^ size → back (conv v) = v) {a : α} :
    (do
      let bytes ← readBytes size
      pure (conv (bigEndianValue bytes)) : ReadOp α) source = (.ok a, rest) ↔
      source = bigEndian size (back a) ++ rest := by
  rw [Op.bind_eq_ok]
  constructor
  · rintro ⟨bytes, s₁, hread, hpure⟩
    obtain ⟨rfl, rfl⟩ := readBytes_eq_ok.mp hread
    cases hpure
    rw [hfits _ (toNat_bigEndianValue_lt hsize), bigEndian_bigEndianValue hsize]
  · rintro rfl
    refine ⟨bigEndian size (back a), rest, readBytes_eq_ok.mpr ⟨rfl, length_bigEndian _ _⟩, ?_⟩
    rw [bigEndianValue_bigEndian hsize (hback a), hconv]
    rfl

theorem readU8_eq_ok {value : UInt8} :
    readU8 source = (.ok value, rest) ↔ source = bigEndian 1 value.toUInt64 ++ rest := by
  refine readNumber_eq_ok UInt64.toUInt8 UInt8.toUInt64 (by decide) (fun a => ?_) (fun a => ?_) fun v hv => ?_
  · exact a.toNat_lt
  · exact UInt8.toUInt8_toUInt64 a
  · apply UInt64.toNat_inj.mp
    rw [UInt8.toNat_toUInt64, UInt64.toNat_toUInt8]
    exact Nat.mod_eq_of_lt hv

theorem readU16_eq_ok {value : UInt16} :
    readU16 source = (.ok value, rest) ↔ source = bigEndian 2 value.toUInt64 ++ rest := by
  refine readNumber_eq_ok UInt64.toUInt16 UInt16.toUInt64 (by decide) (fun a => ?_) (fun a => ?_) fun v hv => ?_
  · exact a.toNat_lt
  · exact UInt16.toUInt16_toUInt64 a
  · apply UInt64.toNat_inj.mp
    rw [UInt16.toNat_toUInt64, UInt64.toNat_toUInt16]
    exact Nat.mod_eq_of_lt hv

theorem readU32_eq_ok {value : UInt32} :
    readU32 source = (.ok value, rest) ↔ source = bigEndian 4 value.toUInt64 ++ rest := by
  refine readNumber_eq_ok UInt64.toUInt32 UInt32.toUInt64 (by decide) (fun a => ?_) (fun a => ?_) fun v hv => ?_
  · exact a.toNat_lt
  · exact UInt32.toUInt32_toUInt64 a
  · apply UInt64.toNat_inj.mp
    rw [UInt32.toNat_toUInt64, UInt64.toNat_toUInt32]
    exact Nat.mod_eq_of_lt hv

theorem readU64_eq_ok : readU64 source = (.ok value, rest) ↔ source = bigEndian 8 value ++ rest :=
  readNumber_eq_ok id id (by decide) (fun a => a.toNat_lt) (fun _ => rfl) fun _ _ => rfl

theorem readU48_eq_ok :
    readU48 source = (.ok value, rest) ↔ source = bigEndian 6 value ++ rest ∧ value ≤ kMaxCryptoCounter := by
  have hle : ∀ v : UInt64, v ≤ kMaxCryptoCounter ↔ v.toNat < 256 ^ 6 := by
    intro v
    show v.toNat ≤ kMaxCryptoCounter.toNat ↔ _
    rw [show kMaxCryptoCounter.toNat = 256 ^ 6 - 1 by decide]
    omega
  rw [readU48, Op.bind_eq_ok, hle]
  constructor
  · rintro ⟨bytes, s₁, hread, hpure⟩
    obtain ⟨rfl, hlength⟩ := readBytes_eq_ok.mp hread
    cases hpure
    have hlt := toNat_bigEndianValue_lt (show bytes.length ≤ 8 by omega)
    have hback := bigEndian_bigEndianValue (show bytes.length ≤ 8 by omega)
    rw [hlength] at hlt hback
    exact ⟨by rw [hback], hlt⟩
  · rintro ⟨rfl, hlt⟩
    refine ⟨bigEndian 6 value, rest, readBytes_eq_ok.mpr ⟨rfl, length_bigEndian _ _⟩, ?_⟩
    rw [bigEndianValue_bigEndian (by decide) hlt]
    rfl

theorem writeU48_eq_ok :
    writeU48 value = .ok bytes ↔ value ≤ kMaxCryptoCounter ∧ bytes = bigEndian 6 value := by
  unfold writeU48
  rw [refuse_bind_eq_ok, decide_eq_false_iff_not]
  constructor
  · rintro ⟨hle, h⟩
    cases h
    exact ⟨UInt64.not_lt.mp hle, rfl⟩
  · rintro ⟨hle, rfl⟩
    exact ⟨UInt64.not_lt.mpr hle, rfl⟩

end RouteLoom
