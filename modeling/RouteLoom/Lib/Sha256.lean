import Mathlib.Data.List.Basic

/-!
# SHA-256 and HMAC

The hash and the keyed hash as functions on byte lists. Blocks of 64 bytes are absorbed one after
another after the message is padded with its length.

* `Sha256.digest` : SHA-256
* `Sha256.hmac` : HMAC with SHA-256
-/

namespace Lib.Sha256

def rotr (value bits : UInt32) : UInt32 := (value >>> bits) ||| (value <<< (32 - bits))

def roundConstants : List UInt32 :=
  [0x428a2f98, 0x71374491, 0xb5c0fbcf, 0xe9b5dba5, 0x3956c25b, 0x59f111f1, 0x923f82a4, 0xab1c5ed5,
    0xd807aa98, 0x12835b01, 0x243185be, 0x550c7dc3, 0x72be5d74, 0x80deb1fe, 0x9bdc06a7, 0xc19bf174,
    0xe49b69c1, 0xefbe4786, 0x0fc19dc6, 0x240ca1cc, 0x2de92c6f, 0x4a7484aa, 0x5cb0a9dc, 0x76f988da,
    0x983e5152, 0xa831c66d, 0xb00327c8, 0xbf597fc7, 0xc6e00bf3, 0xd5a79147, 0x06ca6351, 0x14292967,
    0x27b70a85, 0x2e1b2138, 0x4d2c6dfc, 0x53380d13, 0x650a7354, 0x766a0abb, 0x81c2c92e, 0x92722c85,
    0xa2bfe8a1, 0xa81a664b, 0xc24b8b70, 0xc76c51a3, 0xd192e819, 0xd6990624, 0xf40e3585, 0x106aa070,
    0x19a4c116, 0x1e376c08, 0x2748774c, 0x34b0bcb5, 0x391c0cb3, 0x4ed8aa4a, 0x5b9cca4f, 0x682e6ff3,
    0x748f82ee, 0x78a5636f, 0x84c87814, 0x8cc70208, 0x90befffa, 0xa4506ceb, 0xbef9a3f7, 0xc67178f2]

/-- The eight working words. -/
structure State where
  a : UInt32
  b : UInt32
  c : UInt32
  d : UInt32
  e : UInt32
  f : UInt32
  g : UInt32
  h : UInt32

def initial : State :=
  ⟨0x6a09e667, 0xbb67ae85, 0x3c6ef372, 0xa54ff53a, 0x510e527f, 0x9b05688c, 0x1f83d9ab, 0x5be0cd19⟩

/-- The big-endian words of a block. -/
def words : List UInt8 → List UInt32
  | a :: b :: c :: d :: rest =>
    ((a.toUInt32 <<< 24) ||| (b.toUInt32 <<< 16) ||| (c.toUInt32 <<< 8) ||| d.toUInt32) :: words rest
  | _ => []

/-- The next word of the schedule, from the words before it, newest first. -/
def scheduleWord (w : List UInt32) : UInt32 :=
  let s0 := rotr (w.getD 14 0) 7 ^^^ rotr (w.getD 14 0) 18 ^^^ (w.getD 14 0 >>> 3)
  let s1 := rotr (w.getD 1 0) 17 ^^^ rotr (w.getD 1 0) 19 ^^^ (w.getD 1 0 >>> 10)
  w.getD 15 0 + s0 + w.getD 6 0 + s1

/-- `n` more words of the schedule, newest first. -/
def extendSchedule : Nat → List UInt32 → List UInt32
  | 0, w => w
  | n + 1, w => extendSchedule n (scheduleWord w :: w)

def round (s : State) (constant word : UInt32) : State :=
  let s1 := rotr s.e 6 ^^^ rotr s.e 11 ^^^ rotr s.e 25
  let ch := (s.e &&& s.f) ^^^ (~~~s.e &&& s.g)
  let t1 := s.h + s1 + ch + constant + word
  let s0 := rotr s.a 2 ^^^ rotr s.a 13 ^^^ rotr s.a 22
  let maj := (s.a &&& s.b) ^^^ (s.a &&& s.c) ^^^ (s.b &&& s.c)
  ⟨t1 + (s0 + maj), s.a, s.b, s.c, s.d + t1, s.e, s.f, s.g⟩

/-- Absorb one block. -/
def block (s : State) (data : List UInt8) : State :=
  let w := (extendSchedule 48 (words data).reverse).reverse
  let r := (roundConstants.zip w).foldl (fun s kw => round s kw.1 kw.2) s
  ⟨s.a + r.a, s.b + r.b, s.c + r.c, s.d + r.d, s.e + r.e, s.f + r.f, s.g + r.g, s.h + r.h⟩

/-- Absorb `n` blocks. -/
def blocks : Nat → State → List UInt8 → State
  | 0, s, _ => s
  | n + 1, s, data => blocks n (block s (data.take 64)) (data.drop 64)

def lengthBytes (bitLength : UInt64) : List UInt8 :=
  (List.range 8).map fun i => (bitLength >>> (56 - 8 * i).toUInt64).toUInt8

/-- A one bit, zeros up to eight bytes before the end of a block, and the length. -/
def pad (data : List UInt8) : List UInt8 :=
  data ++ [0x80] ++ List.replicate ((119 - data.length % 64) % 64) 0 ++
    lengthBytes (data.length.toUInt64 * 8)

def wordBytes (w : UInt32) : List UInt8 :=
  [(w >>> 24).toUInt8, (w >>> 16).toUInt8, (w >>> 8).toUInt8, w.toUInt8]

def digest (data : List UInt8) : List UInt8 :=
  let s := blocks ((pad data).length / 64) initial (pad data)
  [s.a, s.b, s.c, s.d, s.e, s.f, s.g, s.h].flatMap wordBytes

example : digest [0x61, 0x62, 0x63] =
    [0xba, 0x78, 0x16, 0xbf, 0x8f, 0x01, 0xcf, 0xea, 0x41, 0x41, 0x40, 0xde, 0x5d, 0xae, 0x22, 0x23,
      0xb0, 0x03, 0x61, 0xa3, 0x96, 0x17, 0x7a, 0x9c, 0xb4, 0x10, 0xff, 0x61, 0xf2, 0x00, 0x15, 0xad] := by
  decide +kernel

/-- A key longer than a block is hashed first. -/
def padKey (key : List UInt8) : List UInt8 :=
  let key := if key.length > 64 then digest key else key
  key ++ List.replicate (64 - key.length) 0

def hmac (key message : List UInt8) : List UInt8 :=
  let inner := digest ((padKey key).map (· ^^^ 0x36) ++ message)
  digest ((padKey key).map (· ^^^ 0x5c) ++ inner)

end Lib.Sha256
