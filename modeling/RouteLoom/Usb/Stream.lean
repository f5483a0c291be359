import RouteLoom.Usb.Framing

/-!
# The stream decoder

Bytes arrive in pieces of any size. The decoder collects them up to a zero, decodes what it has and
starts again; a segment that is too long is reported once and skipped up to its zero, and a segment
that stalls is dropped by `poll`.

* `StreamDecoder.push`, `poll` : the two calls
* `StreamDecoder.feed` : the bytes alone, without calls and time
* `StreamDecoder.run_eq_feed` : pieces do not matter as long as no segment stalls
* `frames_delivered` : **round trip, independence of the pieces and resynchronisation**
-/

namespace RouteLoom.Usb

open Lib List

def kMaxPendingEncoded : Nat := kMaxDecodedFrame + 64
def kPartialFrameTimeoutMs : MonotonicMs := 1000

/-- What the sink is told. -/
inductive StreamEvent
  | frame (f : UsbFrame)
  | error (status : Status)
  deriving DecidableEq, Repr

structure StreamDecoder where
  pending : List UInt8 := []
  lastByteMs : MonotonicMs := 0
  discarding : Bool := false
  deriving DecidableEq, Repr

/-- A segment is decoded over its own bytes. -/
def finishSegment (pending : List UInt8) : StreamEvent :=
  match cobsDecode (.inPlace pending.length) pending kMaxDecodedFrame with
  | .error status => .error status
  | .ok decoded =>
    match decodeFrame decoded with
    | .error status => .error status
    | .ok f => .frame f

namespace StreamDecoder

def pushByte (now : MonotonicMs) (d : StreamDecoder) (byte : UInt8) :
    StreamDecoder × List StreamEvent :=
  let d := { d with lastByteMs := now }
  if byte == 0 then
    if d.discarding then ({ d with discarding := false }, [])
    else if d.pending.isEmpty then (d, [])
    else ({ d with pending := [] }, [finishSegment d.pending])
  else if d.discarding then (d, [])
  else if kMaxPendingEncoded ≤ d.pending.length then
    ({ d with pending := [], discarding := true }, [.error ⟨.protocolError, "FRAME_TOO_LARGE"⟩])
  else ({ d with pending := d.pending ++ [byte] }, [])

def push (now : MonotonicMs) : List UInt8 → StreamDecoder → StreamDecoder × List StreamEvent
  | [], d => (d, [])
  | byte :: bytes, d =>
    let (d, events) := d.pushByte now byte
    let (d, more) := d.push now bytes
    (d, events ++ more)

/-- Nothing has arrived for so long that an open segment is given up. -/
def stalled (now : MonotonicMs) (d : StreamDecoder) : Bool :=
  !(d.pending.isEmpty && !d.discarding) && kPartialFrameTimeoutMs ≤ now - d.lastByteMs

def poll (now : MonotonicMs) (d : StreamDecoder) : StreamDecoder × List StreamEvent :=
  if d.stalled now then
    ({ d with pending := [], discarding := false },
      if d.pending.isEmpty then [] else [.error ⟨.protocolError, "PARTIAL_FRAME_TIMEOUT"⟩])
  else (d, [])

end StreamDecoder

inductive StreamCall
  | push (bytes : List UInt8) (now : MonotonicMs)
  | poll (now : MonotonicMs)

namespace StreamCall

/-- What a call adds to the stream. -/
def bytes : StreamCall → List UInt8
  | push bytes _ => bytes
  | poll _ => []

def apply (d : StreamDecoder) : StreamCall → StreamDecoder × List StreamEvent
  | push bytes now => d.push now bytes
  | poll now => d.poll now

/-- A push, or a poll that finds no stalled segment. -/
def Timely (d : StreamDecoder) : StreamCall → Prop
  | push _ _ => True
  | poll now => d.stalled now = false

instance (d : StreamDecoder) : ∀ call, Decidable (Timely d call)
  | push _ _ => inferInstanceAs (Decidable True)
  | poll now => inferInstanceAs (Decidable (d.stalled now = false))

end StreamCall

variable {d : StreamDecoder}

namespace StreamDecoder

def run : List StreamCall → StreamDecoder → StreamDecoder × List StreamEvent
  | [], d => (d, [])
  | call :: calls, d =>
    let (d, events) := call.apply d
    let (d, more) := d.run calls
    (d, events ++ more)

/-- Every call is timely when its turn comes. -/
def AllTimely : List StreamCall → StreamDecoder → Prop
  | [], _ => True
  | call :: calls, d => call.Timely d ∧ AllTimely calls (call.apply d).1

instance decidableAllTimely : ∀ calls d, Decidable (AllTimely calls d)
  | [], _ => isTrue trivial
  | call :: calls, d =>
    have := decidableAllTimely calls (call.apply d).1
    inferInstanceAs (Decidable (call.Timely d ∧ AllTimely calls (call.apply d).1))

/-! ## Pieces do not matter -/

/-- The events of a stream of bytes, whose arrival times play no part in them. -/
def feed (bytes : List UInt8) (d : StreamDecoder) : List StreamEvent :=
  (d.push 0 bytes).2

/-- The same segment, whenever its bytes arrived. -/
def Same (d d' : StreamDecoder) : Prop :=
  d.pending = d'.pending ∧ d.discarding = d'.discarding

theorem Same.refl (d : StreamDecoder) : Same d d := ⟨rfl, rfl⟩

theorem Same.pushByte {d' : StreamDecoder} (h : Same d d') (now now' : MonotonicMs) (byte : UInt8) :
    Same (d.pushByte now byte).1 (d'.pushByte now' byte).1 ∧
      (d.pushByte now byte).2 = (d'.pushByte now' byte).2 := by
  obtain ⟨pending, last, discarding⟩ := d
  obtain ⟨pending', last', discarding'⟩ := d'
  obtain ⟨rfl, rfl⟩ := h
  unfold StreamDecoder.pushByte
  dsimp only
  repeat' split
  all_goals exact ⟨⟨rfl, rfl⟩, rfl⟩

theorem Same.push {d' : StreamDecoder} (h : Same d d') (now now' : MonotonicMs) (bytes : List UInt8) :
    Same (d.push now bytes).1 (d'.push now' bytes).1 ∧ (d.push now bytes).2 = (d'.push now' bytes).2 := by
  induction bytes generalizing d d' with
  | nil => exact ⟨h, rfl⟩
  | cons byte bytes ih =>
    obtain ⟨hsame, hevents⟩ := h.pushByte now now' byte
    obtain ⟨hsame', hevents'⟩ := ih hsame
    exact ⟨hsame', by simp only [StreamDecoder.push, hevents, hevents']⟩

theorem push_append (now : MonotonicMs) (a b : List UInt8) (d : StreamDecoder) :
    d.push now (a ++ b) =
      (((d.push now a).1.push now b).1, (d.push now a).2 ++ ((d.push now a).1.push now b).2) := by
  induction a generalizing d with
  | nil => rfl
  | cons byte a ih => simp only [cons_append, push, ih, append_assoc]

theorem feed_append (a b : List UInt8) (d : StreamDecoder) :
    d.feed (a ++ b) = d.feed a ++ (d.push 0 a).1.feed b := by
  rw [feed, push_append]
  rfl

theorem Same.feed {d' : StreamDecoder} (h : Same d d') (bytes : List UInt8) : d.feed bytes = d'.feed bytes :=
  (h.push 0 0 bytes).2

theorem poll_of_timely {now : MonotonicMs} (h : d.stalled now = false) : d.poll now = (d, []) := by
  rw [poll, h]
  rfl

/-- **Only the bytes count**: however a stream is cut into calls, the sink is told the same. -/
theorem run_eq_feed {calls : List StreamCall} (h : AllTimely calls d) :
    (d.run calls).2 = d.feed (calls.flatMap StreamCall.bytes) := by
  induction calls generalizing d with
  | nil => rfl
  | cons call calls ih =>
    obtain ⟨htimely, hrest⟩ := h
    rw [flatMap_cons, feed_append, run]
    have hih := ih hrest
    cases call with
    | push bytes now =>
      obtain ⟨hsame, hevents⟩ := (Same.refl d).push now 0 bytes
      show (d.push now bytes).2 ++ ((d.push now bytes).1.run calls).2 = _
      rw [hevents]
      exact congrArg _ (hih.trans (hsame.feed _))
    | poll now =>
      simp only [StreamCall.apply, poll_of_timely htimely] at hih ⊢
      exact hih

/-! ## Resynchronisation -/

/-- A decoder that skips a segment holds none of it. -/
def Sound (d : StreamDecoder) : Prop :=
  d.discarding = true → d.pending = []

theorem Sound.pushByte (h : d.Sound) (now : MonotonicMs) (byte : UInt8) : (d.pushByte now byte).1.Sound := by
  unfold StreamDecoder.pushByte
  dsimp only
  split
  · split
    · exact nofun
    · split
      · exact h
      · exact fun _ => rfl
  · split
    · exact h
    · next hopen =>
      split
      · exact fun _ => rfl
      · exact fun hd => absurd hd hopen

theorem Sound.push (h : d.Sound) (now : MonotonicMs) (bytes : List UInt8) : (d.push now bytes).1.Sound := by
  induction bytes generalizing d with
  | nil => exact h
  | cons byte bytes ih => exact ih (h.pushByte now byte)

theorem Sound.run (h : d.Sound) (calls : List StreamCall) : (d.run calls).1.Sound := by
  induction calls generalizing d with
  | nil => exact h
  | cons call calls ih =>
    refine ih ?_
    cases call with
    | push bytes now => exact h.push now bytes
    | poll now =>
      show (d.poll now).1.Sound
      unfold StreamDecoder.poll
      split
      · exact nofun
      · exact h

theorem Sound.zero (h : d.Sound) (now : MonotonicMs) : Same (d.pushByte now 0).1 {} := by
  unfold StreamDecoder.pushByte
  rw [if_pos (by rfl)]
  dsimp only
  split
  · next hd => exact ⟨h hd, rfl⟩
  · next hd =>
    have hd : d.discarding = false := by simpa using hd
    split
    · next hempty => exact ⟨List.isEmpty_iff.mp hempty, hd⟩
    · exact ⟨rfl, hd⟩

theorem Sound.push_zero (h : d.Sound) (garbage : List UInt8) : Same (d.push 0 (garbage ++ [0])).1 {} := by
  rw [push_append]
  exact (h.push 0 garbage).zero 0

/-- Bytes without a zero are collected as long as there is room for them. -/
theorem push_collects (now : MonotonicMs) {bytes : List UInt8} (hz : 0 ∉ bytes)
    (hd : d.discarding = false) (hroom : d.pending.length + bytes.length ≤ kMaxPendingEncoded) :
    Same (d.push now bytes).1 { pending := d.pending ++ bytes } ∧ (d.push now bytes).2 = [] := by
  induction bytes generalizing d with
  | nil => exact ⟨⟨(append_nil _).symm, hd⟩, rfl⟩
  | cons byte bytes ih =>
    rw [mem_cons, not_or] at hz
    rw [length_cons] at hroom
    have hstep : d.pushByte now byte =
        ({ d with pending := d.pending ++ [byte], lastByteMs := now }, []) := by
      unfold pushByte
      rw [if_neg (by simpa using fun h => hz.1 h.symm)]
      simp only [hd, Bool.false_eq_true, if_false]
      rw [if_neg (by omega)]
    obtain ⟨hsame, hevents⟩ := ih (d := { d with pending := d.pending ++ [byte], lastByteMs := now })
      hz.2 hd (by rw [length_append, length_singleton]; omega)
    rw [push, hstep]
    refine ⟨⟨?_, hsame.2⟩, hevents⟩
    rw [hsame.1, append_assoc]
    rfl

end StreamDecoder

theorem Codeword.finishSegment {f : UsbFrame} {encoded : List UInt8} (h : Codeword f encoded) :
    finishSegment encoded = .frame f := by
  have hdecoded := h.inPlace []
  rw [append_nil] at hdecoded
  rw [Usb.finishSegment, hdecoded]
  dsimp only
  rw [h.frame]

namespace StreamDecoder

theorem push_frame {f : UsbFrame} {wire : List UInt8} (h : Encodes f wire) (hd : Same d {}) :
    Same (d.push 0 wire).1 {} ∧ d.feed wire = [.frame f] := by
  obtain ⟨encoded, rfl, hword⟩ := encodeFrame_spec h
  have hlength : d.pending.length + encoded.length ≤ kMaxPendingEncoded := by
    have hle := hword.length_le
    have hbound : encodedFrameBound kMaxDecodedFrame ≤ kMaxPendingEncoded := by decide
    rw [hd.1]
    simp only [length_nil]
    omega
  obtain ⟨hsame, hevents⟩ := push_collects 0 hword.zero_notMem hd.2 hlength
  rw [hd.1, nil_append] at hsame
  have hend : ((d.push 0 encoded).1.pushByte 0 0).2 = [.frame f] := by
    rw [(hsame.pushByte 0 0 0).2]
    simp [pushByte, hword.ne_nil, hword.finishSegment]
  refine ⟨?_, ?_⟩
  · rw [push_append]
    have hsound : (d.push 0 encoded).1.Sound := fun hdisc => by
      rw [hsame.2] at hdisc
      cases hdisc
    exact hsound.zero 0
  · rw [feed, push_append, hevents]
    simp only [nil_append, push, append_nil]
    exact hend

theorem push_frames {frames : List (UsbFrame × List UInt8)} (h : ∀ p ∈ frames, Encodes p.1 p.2)
    (hd : Same d {}) :
    Same (d.push 0 (frames.flatMap Prod.snd)).1 {} ∧
      d.feed (frames.flatMap Prod.snd) = frames.map fun p => .frame p.1 := by
  induction frames generalizing d with
  | nil => exact ⟨hd, rfl⟩
  | cons p frames ih =>
    obtain ⟨hsame, hevents⟩ := push_frame (h p mem_cons_self) hd
    obtain ⟨hsame', hevents'⟩ := ih (fun q hq => h q (mem_cons_of_mem _ hq)) hsame
    rw [flatMap_cons, push_append, feed_append, hevents, hevents']
    exact ⟨hsame', rfl⟩

end StreamDecoder

/-- **Frames arrive as they were sent**. What `encodeFrame` sends decodes to the frame, into any
buffer and over its own bytes. However a stream is cut into calls, as long as no poll finds a
stalled segment, the sink is told what the bytes alone determine. And whatever happened before, once
a zero has come the frames behind it are all delivered. -/
theorem frames_delivered :
    (∀ f wire, Encodes f wire → ∃ encoded, wire = encoded ++ [0] ∧
      (∀ out, (cobsDecode (.separate encoded) out kMaxDecodedFrame >>= decodeFrame) = .ok f) ∧
      ∀ rest, (cobsDecode (.inPlace encoded.length) (encoded ++ rest) kMaxDecodedFrame >>=
        decodeFrame) = .ok f) ∧
    (∀ (calls : List StreamCall) (d : StreamDecoder), StreamDecoder.AllTimely calls d →
      (d.run calls).2 = d.feed (calls.flatMap StreamCall.bytes)) ∧
    ∀ (before : List StreamCall) (garbage rest : List UInt8)
      (frames : List (UsbFrame × List UInt8)), (∀ p ∈ frames, Encodes p.1 p.2) →
      (StreamDecoder.run before {}).1.feed (garbage ++ [0] ++ frames.flatMap Prod.snd ++ rest) =
        (StreamDecoder.run before {}).1.feed (garbage ++ [0]) ++ (frames.map fun p => .frame p.1) ++
          StreamDecoder.feed rest {} := by
  refine ⟨fun f wire h => ?_, fun calls d h => StreamDecoder.run_eq_feed h,
    fun before garbage rest frames h => ?_⟩
  · obtain ⟨encoded, rfl, hword⟩ := encodeFrame_spec h
    exact ⟨encoded, rfl, fun out => bind_eq_ok.mpr ⟨_, hword.decodes out, hword.frame⟩,
      fun rest => bind_eq_ok.mpr ⟨_, hword.inPlace rest, hword.frame⟩⟩
  · have hsound : (StreamDecoder.run before {}).1.Sound := StreamDecoder.Sound.run (d := {}) nofun before
    have hclean := hsound.push_zero garbage
    obtain ⟨hsame, hevents⟩ := StreamDecoder.push_frames h hclean
    rw [StreamDecoder.feed_append, StreamDecoder.feed_append, hevents, StreamDecoder.push_append]
    exact congrArg _ (hsame.feed rest)

def sampleFrame : UsbFrame := ⟨.dataToMesh, 0, 7, 9, [0, 1]⟩

def sampleWire : List UInt8 := (encodeFrame sampleFrame 64 64).toOption.getD []

theorem encodes_sample : Encodes sampleFrame sampleWire := ⟨64, 64, by decide +kernel⟩

/-- A byte of garbage and a zero, then a frame that arrives in two pieces. -/
theorem frames_delivered_sample :
    (StreamDecoder.run [.push ([5, 0] ++ sampleWire.take 9) 0, .poll 999,
      .push (sampleWire.drop 9) 1500] {}).2 =
      [.error ⟨.protocolError, "INVALID_COBS"⟩, .frame sampleFrame] := by
  obtain ⟨_, hpieces, hresync⟩ := frames_delivered
  have hmem : ∀ p ∈ [(sampleFrame, sampleWire)], Encodes p.1 p.2 := by
    intro p hp
    rw [mem_singleton.mp hp]
    exact encodes_sample
  have hbytes : [StreamCall.push ([5, 0] ++ sampleWire.take 9) 0, .poll 999,
      .push (sampleWire.drop 9) 1500].flatMap StreamCall.bytes =
      [5] ++ [0] ++ [(sampleFrame, sampleWire)].flatMap Prod.snd ++ [] := by decide +kernel
  rw [hpieces _ _ (by decide +kernel), hbytes]
  refine (hresync [] [5] [] _ hmem).trans ?_
  decide +kernel

/-- The same bytes in one piece and in two, with a poll a second after the first one. -/
theorem stalled_segment_dropped :
    (StreamDecoder.run [.push sampleWire 0] {}).2 = [.frame sampleFrame] ∧
      (StreamDecoder.run [.push (sampleWire.take 9) 0, .poll 1000, .push (sampleWire.drop 9) 1000]
        {}).2 = [.error ⟨.protocolError, "PARTIAL_FRAME_TIMEOUT"⟩,
          .error ⟨.protocolError, "FRAME_TOO_SHORT"⟩] := by
  decide +kernel

end RouteLoom.Usb
