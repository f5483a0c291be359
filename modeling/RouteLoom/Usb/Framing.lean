import RouteLoom.Lib.Cobs
import RouteLoom.Lib.Segment
import RouteLoom.Wire.Bytes

/-!
# Frames on the USB link

A frame is a header, a body and a checksum, sent as a zero-free codeword and one zero byte. The
receiver decodes a codeword into another buffer or over its own bytes.

* `cobsEncode`, `cobsDecode` : the zero-free coding, `cobsDecode` with either buffer
* `cobsDecode_inPlace` : decoding in place reads no byte it has overwritten
* `encodeFrame`, `encodeFrameInplace`, `decodeFrame` : frames as bytes
* `encodeFrame_spec` : **what is sent decodes to the frame, in place or not**
-/

namespace RouteLoom.Usb

open Lib List

/-! ## Zero-free coding -/

/-- The output of `cobsEncode`: complete blocks, the open block behind its slot for the code byte,
and the code it would get now. -/
structure CobsOutput where
  done : List UInt8 := []
  block : List UInt8 := []
  code : UInt8 := 1

def CobsOutput.close (s : CobsOutput) : List UInt8 :=
  s.done ++ s.code :: s.block

def cobsEncodeByte (s : CobsOutput) (byte : UInt8) : CobsOutput :=
  if byte == 0 then { done := s.close }
  else
    let s := { s with block := s.block ++ [byte], code := s.code + 1 }
    if s.code == 0xFF then { done := s.close } else s

def cobsEncode (input : List UInt8) (outSize : Nat) : Except Status (List UInt8) := do
  refuse (outSize < input.length + input.length / 254 + 1) ⟨.noCapacity, "cobs output too small"⟩
  .ok (input.foldl cobsEncodeByte {}).close

/-- Where `cobsDecode` reads: bytes that nothing writes, or the front of its own output buffer. -/
inductive CobsInput
  | separate (bytes : List UInt8)
  | inPlace (size : Nat)

namespace CobsInput

def size : CobsInput → Nat
  | separate bytes => bytes.length
  | inPlace size => size

/-- What can be read while the output buffer holds `out`. -/
def view (out : List UInt8) : CobsInput → List UInt8
  | separate bytes => bytes
  | inPlace size => out.take size

end CobsInput

structure CobsState where
  out : List UInt8
  index : Nat := 0
  written : Nat := 0

/-- One block: its bytes are moved to the output, with a zero unless it is full or the last one. -/
def cobsDecodeBlock (input : CobsInput) (outSize : Nat) (s : CobsState) : Except Status CobsState := do
  let view := input.view s.out
  let code := view.getD s.index 0
  refuse (code == 0) ⟨.protocolError, "INVALID_COBS"⟩
  let index := s.index + 1
  let next := index + code.toNat - 1
  refuse (input.size < next) ⟨.protocolError, "INVALID_COBS"⟩
  let implicitZero := code != 0xFF && next < input.size
  let decoded := segment view index (next - index) ++ (if implicitZero then [0] else [])
  refuse (outSize < s.written + decoded.length) ⟨.noCapacity, "cobs decode overflow"⟩
  .ok ⟨patch s.out s.written decoded, next, s.written + decoded.length⟩

/-- The loop over the blocks; each one moves the index, so as many rounds as bytes are enough. -/
def cobsDecodeBlocks (input : CobsInput) (outSize : Nat) : Nat → CobsState → Except Status CobsState
  | 0, s => .ok s
  | rounds + 1, s =>
    if s.index < input.size then do
      let s ← cobsDecodeBlock input outSize s
      cobsDecodeBlocks input outSize rounds s
    else .ok s

/-- The decoded bytes, which are the front of the output buffer. -/
def cobsDecode (input : CobsInput) (out : List UInt8) (outSize : Nat) : Except Status (List UInt8) := do
  refuse ((input.view out).contains 0) ⟨.protocolError, "INVALID_COBS"⟩
  let s ← cobsDecodeBlocks input outSize input.size { out := out }
  .ok (s.out.take s.written)

/-! ## Frames -/

def kHeaderSize : Nat := 26
def kCrcSize : Nat := 4
def kMaxDecodedFrame : Nat := 4096
def kMaxBodySize : Nat := kMaxDecodedFrame - kHeaderSize - kCrcSize
def encodedFrameBound (decoded : Nat) : Nat := decoded + decoded / 254 + 2
def kMagic : UInt32 := 0x524C5531
def kProtocolVersion : UInt8 := 2

inductive FrameKind
  | hello | helloAck | dataToMesh | dataFromMesh | deliveryEvent | hostOps | credit | diagnostic
  | error | keepAlive
  deriving DecidableEq, Repr

namespace FrameKind

def code : FrameKind → UInt8
  | hello => 1
  | helloAck => 2
  | dataToMesh => 16
  | dataFromMesh => 17
  | deliveryEvent => 18
  | hostOps => 19
  | credit => 32
  | diagnostic => 33
  | error => 34
  | keepAlive => 35

def all : List FrameKind :=
  [hello, helloAck, dataToMesh, dataFromMesh, deliveryEvent, hostOps, credit, diagnostic, error,
    keepAlive]

/-- The kind of a received code. -/
def ofCode (code : UInt8) : Option FrameKind :=
  all.find? fun kind => kind.code == code

theorem ofCode_code (kind : FrameKind) : ofCode kind.code = some kind := by
  cases kind <;> rfl

end FrameKind

structure UsbFrame where
  kind : FrameKind
  flags : UInt16
  session : UInt64
  request : UInt64
  body : List UInt8
  deriving DecidableEq, Repr

namespace UsbFrame

def head (f : UsbFrame) : List UInt8 :=
  bigEndian 4 kMagic.toUInt64 ++ (bigEndian 1 kProtocolVersion.toUInt64 ++
    (bigEndian 1 f.kind.code.toUInt64 ++ (bigEndian 2 f.flags.toUInt64 ++ (bigEndian 8 f.session ++
      (bigEndian 8 f.request ++ (bigEndian 2 (UInt16.ofNat f.body.length).toUInt64 ++ f.body))))))

/-- Header, body and checksum. -/
def decoded (f : UsbFrame) : List UInt8 :=
  f.head ++ bigEndian 4 (crc32IsoHdlc f.head).toUInt64

end UsbFrame

/-- The frame is staged in `scratch`, coded into `out` and closed with a zero. -/
def encodeFrame (f : UsbFrame) (scratchSize outSize : Nat) : Except Status (List UInt8) := do
  refuse (kMaxBodySize < f.body.length || 0xFFFF < f.body.length)
    ⟨.invalidArgument, "FRAME_TOO_LARGE"⟩
  let need := kHeaderSize + f.body.length + kCrcSize
  refuse (outSize < encodedFrameBound need) ⟨.noCapacity, "frame output too small"⟩
  refuse (scratchSize < need) ⟨.noCapacity, "frame scratch too small"⟩
  let encoded ← cobsEncode f.decoded outSize
  .ok (encoded ++ [0])

/-- The header alone. -/
def header (kind : FrameKind) (flags : UInt16) (session request : UInt64) (bodySize : Nat) :
    List UInt8 :=
  bigEndian 4 kMagic.toUInt64 ++ bigEndian 1 kProtocolVersion.toUInt64 ++
    bigEndian 1 kind.code.toUInt64 ++ bigEndian 2 flags.toUInt64 ++ bigEndian 8 session ++
    bigEndian 8 request ++ bigEndian 2 (UInt16.ofNat bodySize).toUInt64

def field (decoded : List UInt8) (start count : Nat) : UInt64 :=
  bigEndianValue (segment decoded start count)

def decodeFrame (decoded : List UInt8) : Except Status UsbFrame := do
  refuse (decoded.length < kHeaderSize + kCrcSize) ⟨.protocolError, "FRAME_TOO_SHORT"⟩
  refuse (kMaxDecodedFrame < decoded.length) ⟨.protocolError, "FRAME_TOO_LARGE"⟩
  refuse ((field decoded 0 4).toUInt32 != kMagic) ⟨.protocolError, "INVALID_MAGIC"⟩
  refuse ((field decoded 4 1).toUInt8 != kProtocolVersion) ⟨.unsupported, "UNSUPPORTED_VERSION"⟩
  match FrameKind.ofCode (field decoded 5 1).toUInt8 with
  | none => .error ⟨.protocolError, "UNKNOWN_KIND"⟩
  | some kind =>
    let bodyLen := (field decoded 24 2).toUInt16.toNat
    refuse (decoded.length != kHeaderSize + bodyLen + kCrcSize) ⟨.protocolError, "INVALID_LENGTH"⟩
    let crcOffset := decoded.length - kCrcSize
    refuse (crc32IsoHdlc (decoded.take crcOffset) != (field decoded crcOffset kCrcSize).toUInt32)
      ⟨.integrityError, "CRC_MISMATCH"⟩
    .ok ⟨kind, (field decoded 6 2).toUInt16, field decoded 8 8, field decoded 16 8,
      segment decoded kHeaderSize bodyLen⟩

/-! ## Encoding -/

/-- What the encoder holds after some bytes: the blocks they are cut into. -/
structure Encoding (bytes : List UInt8) (s : CobsOutput) (blocks : List (List UInt8)) : Prop where
  cutting : Cobs.Cutting bytes blocks s.block
  done : s.done = blocks.flatMap Cobs.coded
  code : s.code = Cobs.code s.block

theorem Encoding.close {bytes : List UInt8} {s : CobsOutput} {blocks : List (List UInt8)}
    (h : Encoding bytes s blocks) : s.close = Cobs.wire blocks s.block := by
  rw [CobsOutput.close, h.done, h.code]
  rfl

theorem flatMap_coded_concat (blocks : List (List UInt8)) (b : List UInt8) :
    (blocks ++ [b]).flatMap Cobs.coded = Cobs.wire blocks b := by
  simp [Cobs.wire]

theorem code_concat (b : List UInt8) (byte : UInt8) : Cobs.code (b ++ [byte]) = Cobs.code b + 1 := by
  unfold Cobs.code
  rw [length_append, length_singleton, UInt8.ofNat_add (b.length + 1) 1]
  rfl

theorem Encoding.step {bytes : List UInt8} {s : CobsOutput} {blocks : List (List UInt8)}
    (h : Encoding bytes s blocks) (byte : UInt8) :
    ∃ blocks', Encoding (bytes ++ [byte]) (cobsEncodeByte s byte) blocks' := by
  unfold cobsEncodeByte
  by_cases hbyte : byte = 0
  · subst hbyte
    refine ⟨blocks ++ [s.block], h.cutting.zero, ?_, rfl⟩
    rw [flatMap_coded_concat]
    exact h.close
  · rw [if_neg (by simpa using hbyte)]
    have hcode : s.code + 1 = Cobs.code (s.block ++ [byte]) := by rw [code_concat, h.code]
    have hclose : CobsOutput.close ⟨s.done, s.block ++ [byte], s.code + 1⟩ =
        Cobs.wire blocks (s.block ++ [byte]) := by
      rw [CobsOutput.close, h.done, hcode]
      rfl
    have hfull : s.code + 1 = 0xFF ↔ s.block.length + 1 = Cobs.maxBlock := by
      rw [hcode, (h.cutting.block_concat hbyte).code_eq_max, length_append, length_singleton]
    dsimp only
    split
    · next hff =>
      refine ⟨blocks ++ [s.block ++ [byte]], h.cutting.fill hbyte (hfull.mp (beq_iff_eq.mp hff)), ?_, rfl⟩
      rw [flatMap_coded_concat]
      exact hclose
    · next hff =>
      have hroom : s.block.length + 1 ≠ Cobs.maxBlock := fun heq => hff (beq_iff_eq.mpr (hfull.mpr heq))
      exact ⟨blocks, h.cutting.extend hbyte hroom, h.done, hcode⟩

theorem encoding_foldl (bytes : List UInt8) :
    ∃ blocks, Encoding bytes (bytes.foldl cobsEncodeByte {}) blocks := by
  induction bytes using List.reverseRecOn with
  | nil => exact ⟨[], Cobs.Cutting.nil, rfl, rfl⟩
  | append_singleton bytes byte ih =>
    obtain ⟨blocks, h⟩ := ih
    rw [foldl_append]
    exact h.step byte

variable {outSize : Nat}

/-- **The codeword is the blocks the input is cut into.** -/
theorem cobsEncode_spec {input encoded : List UInt8} (h : cobsEncode input outSize = .ok encoded) :
    ∃ blocks last, Cobs.Cutting input blocks last ∧ encoded = Cobs.wire blocks last := by
  obtain ⟨_, h⟩ := refuse_bind_eq_ok.mp h
  cases h
  obtain ⟨blocks, hb⟩ := encoding_foldl input
  exact ⟨blocks, _, hb.cutting, hb.close⟩

/-! ## Decoding a codeword -/

theorem cobsDecodeBlock_coded (pre : List UInt8) {b : List UInt8} (post out : List UInt8) {w : Nat}
    (hb : Cobs.Block b) {zero : List UInt8} (hzero : zero = if post = [] then [] else Cobs.implicitZero b)
    (hsize : w + (b ++ zero).length ≤ outSize) :
    cobsDecodeBlock (.separate (pre ++ (Cobs.coded b ++ post))) outSize ⟨out, pre.length, w⟩ =
      .ok ⟨patch out w (b ++ zero), (pre ++ Cobs.coded b).length, w + (b ++ zero).length⟩ := by
  have hcode : (pre ++ (Cobs.coded b ++ post)).getD pre.length 0 = Cobs.code b := by
    simp [Cobs.coded]
  have hnext : pre.length + 1 + (Cobs.code b).toNat - 1 = (pre ++ Cobs.coded b).length := by
    rw [hb.toNat_code, length_append, Cobs.length_coded]
    omega
  have htotal : (pre ++ (Cobs.coded b ++ post)).length = (pre ++ Cobs.coded b).length + post.length := by
    simp only [length_append]
    omega
  have hchunk : segment (pre ++ (Cobs.coded b ++ post)) (pre.length + 1) b.length = b := by
    rw [segment_skip rfl, Cobs.coded, cons_append]
    exact segment_front rfl
  have hz : (if Cobs.code b != 0xFF && (pre ++ Cobs.coded b).length <
      (pre ++ (Cobs.coded b ++ post)).length then [(0 : UInt8)] else []) = zero := by
    rw [hzero, htotal, Cobs.implicitZero]
    by_cases hfull : b.length = Cobs.maxBlock
    · rw [hb.code_eq_max.mpr hfull]
      simp [hfull]
    · have hne : Cobs.code b ≠ 0xFF := fun h => hfull (hb.code_eq_max.mp h)
      cases post with
      | nil => simp
      | cons a post => simp [hne, hfull]
  have hcount : (pre ++ Cobs.coded b).length - (pre.length + 1) = b.length := by
    rw [length_append, Cobs.length_coded]
    omega
  unfold cobsDecodeBlock
  simp only [CobsInput.view, CobsInput.size, hcode, hnext, hz, hcount, hchunk]
  rw [refuse_bind_eq_ok, refuse_bind_eq_ok, refuse_bind_eq_ok]
  refine ⟨by simpa using hb.code_ne_zero, ?_, by simpa using hsize, rfl⟩
  rw [htotal]
  simp

/-- **The loop decodes every codeword** that stands for no more bytes than the output holds. -/
theorem cobsDecodeBlocks_wire (blocks : List (List UInt8)) {last : List UInt8}
    (pre out : List UInt8) (w : Nat) (rounds : Nat) (hblocks : ∀ b ∈ blocks, Cobs.Block b)
    (hlast : Cobs.Block last) (hrounds : blocks.length < rounds) (hw : w ≤ out.length)
    (hsize : w + (Cobs.plain blocks last).length ≤ outSize) :
    ∃ s, cobsDecodeBlocks (.separate (pre ++ Cobs.wire blocks last)) outSize rounds
        ⟨out, pre.length, w⟩ = .ok s ∧ s.out.take s.written = out.take w ++ Cobs.plain blocks last := by
  induction blocks generalizing pre out w rounds with
  | nil =>
    obtain _ | rounds := rounds
    · omega
    have hlast' : w + (last ++ []).length ≤ outSize := by simpa [Cobs.plain] using hsize
    have hstep := cobsDecodeBlock_coded pre [] out hlast (if_pos rfl).symm hlast'
    rw [append_nil] at hstep
    have hwire : Cobs.wire [] last = Cobs.coded last := by simp [Cobs.wire]
    refine ⟨⟨patch out w (last ++ []), (pre ++ Cobs.coded last).length, w + (last ++ []).length⟩, ?_, ?_⟩
    · rw [cobsDecodeBlocks, hwire, if_pos (by simp [CobsInput.size]), bind_eq_ok]
      refine ⟨_, hstep, ?_⟩
      cases rounds with
      | zero => rfl
      | succ rounds =>
        rw [cobsDecodeBlocks, if_neg (by simp [CobsInput.size])]
    · rw [take_patch_self _ hw, append_nil]
      simp [Cobs.plain]
  | cons b blocks ih =>
    obtain _ | rounds := rounds
    · omega
    rw [Cobs.plain_cons, length_append] at hsize
    have hroom : w + (b ++ Cobs.implicitZero b).length ≤ outSize := by omega
    have hstep := cobsDecodeBlock_coded pre (Cobs.wire blocks last) out
      (hblocks b mem_cons_self) (if_neg Cobs.wire_ne_nil).symm hroom
    obtain ⟨s, hrun, htake⟩ := ih (pre ++ Cobs.coded b) (patch out w (b ++ Cobs.implicitZero b))
      (w + (b ++ Cobs.implicitZero b).length) rounds
      (fun c hc => hblocks c (mem_cons_of_mem _ hc))
      (by rw [length_cons] at hrounds; omega) (length_patch_ge _ hw) (by omega)
    refine ⟨s, ?_, ?_⟩
    · have hmore : pre.length < (pre ++ (Cobs.coded b ++ Cobs.wire blocks last)).length := by
        simp only [length_append, Cobs.length_coded]
        omega
      rw [Cobs.wire_cons, cobsDecodeBlocks]
      refine (if_pos hmore).trans (bind_eq_ok.mpr ?_)
      rw [append_assoc] at hrun
      exact ⟨_, hstep, hrun⟩
    · rw [htake, take_patch_self _ hw, Cobs.plain_cons, append_assoc]

theorem length_le_length_flatMap_coded (blocks : List (List UInt8)) :
    blocks.length ≤ (blocks.flatMap Cobs.coded).length := by
  induction blocks with
  | nil => exact Nat.le_refl 0
  | cons b blocks ih =>
    rw [flatMap_cons, length_append, length_cons, Cobs.length_coded]
    omega

theorem cobsDecode_wire {input : List UInt8} {blocks : List (List UInt8)} {last : List UInt8}
    (h : Cobs.Cutting input blocks last) (out : List UInt8) (hsize : input.length ≤ outSize) :
    cobsDecode (.separate (Cobs.wire blocks last)) out outSize = .ok input := by
  have hzero : ((CobsInput.separate (Cobs.wire blocks last)).view out).contains 0 = false := by
    rw [CobsInput.view, ← Bool.not_eq_true, contains_iff_mem]
    exact Cobs.zero_notMem_wire h.complete h.open_block
  have hrounds : blocks.length < (Cobs.wire blocks last).length := by
    have := length_le_length_flatMap_coded blocks
    rw [Cobs.wire, length_append, Cobs.length_coded]
    omega
  have hroom : 0 + (Cobs.plain blocks last).length ≤ outSize := by
    rw [h.stands]
    omega
  obtain ⟨s, hrun, htake⟩ := cobsDecodeBlocks_wire blocks [] out 0 (Cobs.wire blocks last).length
    h.complete h.open_block hrounds (Nat.zero_le _) hroom
  rw [cobsDecode, hzero]
  refine bind_eq_ok.mpr ⟨(), rfl, bind_eq_ok.mpr ⟨s, hrun, ?_⟩⟩
  rw [htake, h.stands]
  rfl

/-! ## Decoding in place -/

/-- Decoding over the own bytes, next to decoding into another buffer: the part not yet read is
untouched, because the output never passes the input. -/
structure Alongside (buffer : List UInt8) (s s' : CobsState) : Prop where
  index : s.index = s'.index
  written : s.written = s'.written
  behind : s.written ≤ s.index
  length : s.out.length = buffer.length
  unread : s.out.drop s.index = buffer.drop s.index
  decoded : s.out.take s.written = s'.out.take s'.written
  room : s'.written ≤ s'.out.length

variable {buffer : List UInt8} {size : Nat} {s s' : CobsState}

theorem Alongside.segment (h : Alongside buffer s s') {start count : Nat} (hstart : s.index ≤ start)
    (hend : start + count ≤ size) :
    Lib.segment (s.out.take size) start count = Lib.segment (buffer.take size) start count := by
  have hdrop : s.out.drop start = buffer.drop start := by
    rw [← Nat.add_sub_cancel' hstart, ← drop_drop, h.unread, drop_drop]
  rw [segment_take hend, segment_take hend, Lib.segment, hdrop, Lib.segment]

theorem Alongside.code (h : Alongside buffer s s') (size : Nat) :
    (s.out.take size).getD s.index 0 = (buffer.take size).getD s'.index 0 := by
  have hget : s.out[s.index]? = buffer[s.index]? := by
    rw [← head?_drop, h.unread, head?_drop]
  rw [getD_eq_getElem?_getD, getD_eq_getElem?_getD, getElem?_take, getElem?_take, hget, h.index]

/-- The bytes of one block go to the same place in both buffers. -/
theorem Alongside.write (h : Alongside buffer s s') (next : Nat) (new : List UInt8)
    (hnext : s.index + new.length ≤ next) (hlength : next ≤ buffer.length) :
    Alongside buffer ⟨patch s.out s.written new, next, s.written + new.length⟩
      ⟨patch s'.out s'.written new, next, s'.written + new.length⟩ := by
  have hbehind := h.behind
  have hsize := h.length
  have hw : s.written ≤ s.out.length := by omega
  refine ⟨rfl, by rw [h.written], by dsimp only; omega, ?_, ?_, ?_, length_patch_ge _ h.room⟩
  · exact (length_patch (by omega)).trans hsize
  · dsimp only
    rw [drop_patch hw (by omega), ← Nat.add_sub_cancel' (show s.index ≤ next by omega),
      ← drop_drop, h.unread, drop_drop]
  · dsimp only
    rw [take_patch_self _ hw, take_patch_self _ h.room, h.decoded]

/-- Both fail alike, or both succeed and stay alongside. -/
def Agree (buffer : List UInt8) (r r' : Except Status CobsState) : Prop :=
  (∃ e, r = .error e ∧ r' = .error e) ∨ ∃ s s', r = .ok s ∧ r' = .ok s' ∧ Alongside buffer s s'

theorem Agree.refuse {bad : Bool} {e : Status} {f f' : Unit → Except Status CobsState}
    (h : bad = false → Agree buffer (f ()) (f' ())) :
    Agree buffer (Lib.refuse bad e >>= f) (Lib.refuse bad e >>= f') := by
  cases bad with
  | true => exact .inl ⟨e, rfl, rfl⟩
  | false => exact h rfl

theorem Alongside.block (h : Alongside buffer s s') (hsize : size ≤ buffer.length) (outSize : Nat) :
    Agree buffer (cobsDecodeBlock (.inPlace size) outSize s)
      (cobsDecodeBlock (.separate (buffer.take size)) outSize s') := by
  have hlength : (buffer.take size).length = size := length_take_of_le hsize
  unfold cobsDecodeBlock
  simp only [CobsInput.view, CobsInput.size, hlength, h.code size, ← h.index, ← h.written]
  generalize (buffer.take size).getD s.index 0 = code
  refine .refuse fun hzero => .refuse fun hnext => ?_
  have hcode : 0 < code.toNat := by
    rw [Nat.pos_iff_ne_zero]
    intro hz
    exact absurd (UInt8.toNat_inj.mp hz) (by simpa using hzero)
  have hnext : s.index + 1 + code.toNat - 1 ≤ size := by simpa using hnext
  rw [h.segment (by omega) (by omega)]
  refine .refuse fun _ => .inr ⟨_, _, rfl, rfl, ?_⟩
  have hw := h.write (s.index + 1 + code.toNat - 1)
    (Lib.segment (buffer.take size) (s.index + 1) (s.index + 1 + code.toNat - 1 - (s.index + 1)) ++
      if (code != 255 && decide (s.index + 1 + code.toNat - 1 < size)) = true then [0] else [])
    ?_ (Nat.le_trans hnext hsize)
  · rw [← h.written] at hw
    exact hw
  · rw [length_append, segment_length (by omega)]
    split
    · rw [length_singleton]
      omega
    · rw [length_nil]
      omega

theorem Alongside.blocks (h : Alongside buffer s s') (hsize : size ≤ buffer.length) (outSize rounds : Nat) :
    Agree buffer (cobsDecodeBlocks (.inPlace size) outSize rounds s)
      (cobsDecodeBlocks (.separate (buffer.take size)) outSize rounds s') := by
  have hlength : (buffer.take size).length = size := length_take_of_le hsize
  induction rounds generalizing s s' with
  | zero => exact .inr ⟨s, s', rfl, rfl, h⟩
  | succ rounds ih =>
    have hiff : s'.index < (CobsInput.separate (buffer.take size)).size ↔
        s.index < (CobsInput.inPlace size).size := by
      rw [CobsInput.size, CobsInput.size, hlength, h.index]
    rw [cobsDecodeBlocks, cobsDecodeBlocks]
    by_cases hmore : s.index < (CobsInput.inPlace size).size
    · rw [if_pos hmore, if_pos (hiff.mpr hmore)]
      rcases h.block hsize outSize with ⟨e, he, he'⟩ | ⟨t, t', ht, ht', hnext⟩
      · rw [he, he']
        exact .inl ⟨e, rfl, rfl⟩
      · rw [ht, ht']
        exact ih hnext
    · rw [if_neg hmore, if_neg (mt hiff.mp hmore)]
      exact .inr ⟨s, s', rfl, rfl, h⟩

/-- **Decoding in place gives what decoding into another buffer gives**, errors included. -/
theorem cobsDecode_inPlace (hsize : size ≤ buffer.length) (out : List UInt8) (outSize : Nat) :
    cobsDecode (.inPlace size) buffer outSize = cobsDecode (.separate (buffer.take size)) out outSize := by
  have hlength : (buffer.take size).length = size := length_take_of_le hsize
  have hstart : Alongside buffer { out := buffer } { out := out } :=
    ⟨rfl, rfl, Nat.le_refl _, rfl, rfl, rfl, Nat.zero_le _⟩
  unfold cobsDecode
  simp only [CobsInput.view, CobsInput.size, hlength]
  cases (buffer.take size).contains 0 with
  | true => rfl
  | false =>
    rcases hstart.blocks hsize outSize size with ⟨e, he, he'⟩ | ⟨s, s', hs, hs', hnext⟩
    · rw [he, he']
    · rw [hs, hs']
      exact congrArg Except.ok hnext.decoded

/-! ## Frames as bytes -/

theorem segment_bigEndian (size : Nat) (value : UInt64) (rest : List UInt8) :
    segment (bigEndian size value ++ rest) 0 size = bigEndian size value :=
  segment_front (length_bigEndian size value)

theorem segment_behind_bigEndian (size : Nat) (value : UInt64) (rest : List UInt8) (i count : Nat) :
    segment (bigEndian size value ++ rest) (size + i) count = segment rest i count :=
  segment_skip (length_bigEndian size value)

namespace UsbFrame

theorem length_head (f : UsbFrame) : f.head.length = kHeaderSize + f.body.length := by
  simp only [head, length_append, length_bigEndian, kHeaderSize]
  omega

theorem length_decoded (f : UsbFrame) : f.decoded.length = kHeaderSize + f.body.length + kCrcSize := by
  rw [decoded, length_append, length_head, length_bigEndian]
  rfl

theorem decoded_fields (f : UsbFrame) :
    field f.decoded 0 4 = kMagic.toUInt64 ∧ field f.decoded 4 1 = kProtocolVersion.toUInt64 ∧
      field f.decoded 5 1 = f.kind.code.toUInt64 ∧ field f.decoded 6 2 = f.flags.toUInt64 ∧
      field f.decoded 8 8 = f.session ∧ field f.decoded 16 8 = f.request ∧
      field f.decoded 24 2 = (UInt16.ofNat f.body.length).toUInt64 := by
  have hfront : ∀ start count, start + count ≤ kHeaderSize →
      field f.decoded start count = field f.head start count := by
    intro start count hle
    have hlength := f.length_head
    exact congrArg bigEndianValue (segment_append (by omega))
  have hvalue : ∀ (size : Nat) (value : UInt64), size ≤ 8 → value.toNat < 256 ^ size →
      ∀ rest, field (bigEndian size value ++ rest) 0 size = value := by
    intro size value hsize hlt rest
    rw [field, segment_bigEndian, bigEndianValue_bigEndian hsize hlt]
  have hskip : ∀ size value rest i count,
      field (bigEndian size value ++ rest) (size + i) count = field rest i count := by
    intro size value rest i count
    rw [field, segment_behind_bigEndian, field]
  have h8 : ∀ v : UInt8, v.toUInt64.toNat < 256 ^ 1 := fun v => v.toNat_lt
  have h16 : ∀ v : UInt16, v.toUInt64.toNat < 256 ^ 2 := fun v => v.toNat_lt
  have h64 : ∀ v : UInt64, v.toNat < 256 ^ 8 := fun v => v.toNat_lt
  refine ⟨?_, ?_, ?_, ?_, ?_, ?_, ?_⟩
  · rw [hfront 0 4 (by decide)]
    exact hvalue 4 _ (by decide) (by decide) _
  · rw [hfront 4 1 (by decide), head]
    exact (hskip 4 _ _ 0 1).trans (hvalue 1 _ (by decide) (h8 _) _)
  · rw [hfront 5 1 (by decide), head]
    exact (hskip 4 _ _ 1 1).trans ((hskip 1 _ _ 0 1).trans (hvalue 1 _ (by decide) (h8 _) _))
  · rw [hfront 6 2 (by decide), head]
    exact (hskip 4 _ _ 2 2).trans ((hskip 1 _ _ 1 2).trans ((hskip 1 _ _ 0 2).trans
      (hvalue 2 _ (by decide) (h16 _) _)))
  · rw [hfront 8 8 (by decide), head]
    exact (hskip 4 _ _ 4 8).trans ((hskip 1 _ _ 3 8).trans ((hskip 1 _ _ 2 8).trans
      ((hskip 2 _ _ 0 8).trans (hvalue 8 _ (by decide) (h64 _) _))))
  · rw [hfront 16 8 (by decide), head]
    exact (hskip 4 _ _ 12 8).trans ((hskip 1 _ _ 11 8).trans ((hskip 1 _ _ 10 8).trans
      ((hskip 2 _ _ 8 8).trans ((hskip 8 _ _ 0 8).trans (hvalue 8 _ (by decide) (h64 _) _)))))
  · rw [hfront 24 2 (by decide), head]
    exact (hskip 4 _ _ 20 2).trans ((hskip 1 _ _ 19 2).trans ((hskip 1 _ _ 18 2).trans
      ((hskip 2 _ _ 16 2).trans ((hskip 8 _ _ 8 2).trans ((hskip 8 _ _ 0 2).trans
        (hvalue 2 _ (by decide) (h16 _) _))))))

theorem decoded_body (f : UsbFrame) : segment f.decoded kHeaderSize f.body.length = f.body := by
  have hlength := f.length_head
  rw [decoded, segment_append (by omega), head]
  refine (segment_behind_bigEndian 4 _ _ 22 _).trans ((segment_behind_bigEndian 1 _ _ 21 _).trans
    ((segment_behind_bigEndian 1 _ _ 20 _).trans ((segment_behind_bigEndian 2 _ _ 18 _).trans
      ((segment_behind_bigEndian 8 _ _ 10 _).trans ((segment_behind_bigEndian 8 _ _ 2 _).trans
        ((segment_behind_bigEndian 2 _ _ 0 _).trans ?_))))))
  exact take_length

theorem decoded_crc (f : UsbFrame) :
    f.decoded.take (kHeaderSize + f.body.length) = f.head ∧
      field f.decoded (kHeaderSize + f.body.length) kCrcSize = (crc32IsoHdlc f.head).toUInt64 := by
  rw [← f.length_head, decoded]
  refine ⟨take_left, ?_⟩
  have hlt : (crc32IsoHdlc f.head).toUInt64.toNat < 256 ^ 4 := (crc32IsoHdlc f.head).toNat_lt
  have hskip : Lib.segment (f.head ++ bigEndian 4 (crc32IsoHdlc f.head).toUInt64)
      (f.head.length + 0) kCrcSize =
      Lib.segment (bigEndian 4 (crc32IsoHdlc f.head).toUInt64) 0 kCrcSize := segment_skip rfl
  have hfull := segment_bigEndian 4 (crc32IsoHdlc f.head).toUInt64 []
  rw [append_nil] at hfull
  rw [field, ← Nat.add_zero f.head.length, hskip, show kCrcSize = 4 from rfl, hfull,
    bigEndianValue_bigEndian (by decide) hlt]

end UsbFrame

theorem decodeFrame_decoded {f : UsbFrame} (hbody : f.body.length ≤ kMaxBodySize) :
    decodeFrame f.decoded = .ok f := by
  obtain ⟨hmagic, hversion, hkind, hflags, hsession, hrequest, hlength⟩ := f.decoded_fields
  obtain ⟨hfront, hcrc⟩ := f.decoded_crc
  have htotal := f.length_decoded
  have hmax : kMaxBodySize = 4066 := rfl
  have hlen : (field f.decoded 24 2).toUInt16.toNat = f.body.length := by
    rw [hlength, UInt16.toUInt16_toUInt64]
    exact UInt16.toNat_ofNat_of_lt' (by simp only [UInt16.size]; omega)
  unfold decodeFrame
  rw [hkind, UInt8.toUInt8_toUInt64, FrameKind.ofCode_code]
  dsimp only
  simp only [hlen, htotal, Nat.add_sub_cancel, hfront, hcrc, hmagic, hversion, hflags, hsession,
    hrequest, UInt32.toUInt32_toUInt64, UInt8.toUInt8_toUInt64, UInt16.toUInt16_toUInt64,
    f.decoded_body, refuse_bind_eq_ok, bne_self_eq_false, true_and]
  have hshort : ¬ kHeaderSize + f.body.length + kCrcSize < kHeaderSize + kCrcSize := by omega
  have hlong : ¬ kMaxDecodedFrame < kHeaderSize + f.body.length + kCrcSize := by
    simp only [kMaxDecodedFrame, kHeaderSize, kCrcSize]
    omega
  exact ⟨decide_eq_false hshort, decide_eq_false hlong, trivial⟩

/-! ## What is sent is received -/

/-- Some buffers are large enough to send `f` as `wire`. -/
def Encodes (f : UsbFrame) (wire : List UInt8) : Prop :=
  ∃ scratchSize outSize, encodeFrame f scratchSize outSize = .ok wire

/-- What the receiver relies on: a zero-free codeword of bounded length that decodes to the frame. -/
structure Codeword (f : UsbFrame) (encoded : List UInt8) : Prop where
  zero_notMem : 0 ∉ encoded
  ne_nil : encoded ≠ []
  length_le : encoded.length < encodedFrameBound kMaxDecodedFrame
  decodes : ∀ out, cobsDecode (.separate encoded) out kMaxDecodedFrame = .ok f.decoded
  frame : decodeFrame f.decoded = .ok f

/-- **A frame is sent as a codeword of its own and a zero.** -/
theorem encodeFrame_spec {f : UsbFrame} {wire : List UInt8} (h : Encodes f wire) :
    ∃ encoded, wire = encoded ++ [0] ∧ Codeword f encoded := by
  obtain ⟨scratchSize, outSize, h⟩ := h
  obtain ⟨hbody, h⟩ := refuse_bind_eq_ok.mp h
  obtain ⟨_, h⟩ := refuse_bind_eq_ok.mp h
  obtain ⟨_, h⟩ := refuse_bind_eq_ok.mp h
  obtain ⟨encoded, hencoded, h⟩ := bind_eq_ok.mp h
  cases h
  have hbody : f.body.length ≤ kMaxBodySize := by
    simpa using (Bool.or_eq_false_iff.mp hbody).1
  have hdecoded : f.decoded.length ≤ kMaxDecodedFrame := by
    have hmax : kMaxBodySize = 4066 := rfl
    rw [f.length_decoded]
    simp only [kMaxDecodedFrame, kHeaderSize, kCrcSize]
    omega
  obtain ⟨blocks, last, hcut, rfl⟩ := cobsEncode_spec hencoded
  refine ⟨_, rfl, Cobs.zero_notMem_wire hcut.complete hcut.open_block, Cobs.wire_ne_nil, ?_,
    fun out => cobsDecode_wire hcut out hdecoded, decodeFrame_decoded hbody⟩
  have hle := Cobs.length_wire_le blocks last
  rw [hcut.stands] at hle
  have hdiv : f.decoded.length / Cobs.maxBlock ≤ kMaxDecodedFrame / Cobs.maxBlock :=
    Nat.div_le_div_right hdecoded
  simp only [encodedFrameBound, kMaxDecodedFrame, Cobs.maxBlock] at hle hdiv hdecoded ⊢
  omega

/-- A codeword at the front of a buffer, decoded over its own bytes. -/
theorem Codeword.inPlace {f : UsbFrame} {encoded : List UInt8} (h : Codeword f encoded) (rest : List UInt8) :
    cobsDecode (.inPlace encoded.length) (encoded ++ rest) kMaxDecodedFrame = .ok f.decoded := by
  rw [cobsDecode_inPlace (by simp) [], take_left]
  exact h.decodes []

end RouteLoom.Usb
