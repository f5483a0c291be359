import RouteLoom.Wire.Acceptance

/-!
# Relays are transparent

A frame with an end layer travels from its origin over any number of hops. On each hop it may be sent
again by `retry_local`, and each relay takes the link layer off and forwards the frame. What the end
layer protects is the same all the way, and the destination opens exactly what the origin sealed.

The nodes have a provider each. Opening inverts sealing: what any of them sealed for a receiver, that
receiver opens under the same context, counter and associated data.

* `Inverts` : that assumption
* `SameEnd` : the fields that no relay changes
* `Path` : the frames held on the way
* `relay_transparent` : **the end layer survives every path**
-/

namespace RouteLoom.Wire

open Lib

variable {σ : Type}

/-- Opening inverts sealing for the matching context. -/
def Inverts (P : NodeId → SecurityProvider σ) : Prop :=
  ∀ node context counter aad plaintext s ciphertext tag s',
    (P node).sealFrame context counter aad plaintext s = (.ok (ciphertext, tag), s') →
      ∀ t, ∃ opened t',
        (P context.receiver).openFrame context counter aad ciphertext.toList tag t = (.ok opened, t') ∧
          opened.toList = plaintext

/-! ## The end layer -/

/-- The fields that no relay changes. -/
structure SameEnd (a b : Header) : Prop where
  minor : a.minor = b.minor
  type : a.type = b.type
  flags : a.flags = b.flags
  delivery : a.delivery = b.delivery
  network : a.network = b.network
  origin : a.origin = b.origin
  destination : a.destination = b.destination
  message : a.message = b.message
  originalLifetimeMs : a.originalLifetimeMs = b.originalLifetimeMs
  endEpoch : a.endEpoch = b.endEpoch
  endCounter : a.endCounter = b.endCounter
  payloadLength : a.payloadLength = b.payloadLength

theorem SameEnd.refl (a : Header) : SameEnd a a := by
  constructor <;> rfl

theorem SameEnd.trans {a b c : Header} (h₁ : SameEnd a b) (h₂ : SameEnd b c) : SameEnd a c where
  minor := h₁.minor.trans h₂.minor
  type := h₁.type.trans h₂.type
  flags := h₁.flags.trans h₂.flags
  delivery := h₁.delivery.trans h₂.delivery
  network := h₁.network.trans h₂.network
  origin := h₁.origin.trans h₂.origin
  destination := h₁.destination.trans h₂.destination
  message := h₁.message.trans h₂.message
  originalLifetimeMs := h₁.originalLifetimeMs.trans h₂.originalLifetimeMs
  endEpoch := h₁.endEpoch.trans h₂.endEpoch
  endCounter := h₁.endCounter.trans h₂.endCounter
  payloadLength := h₁.payloadLength.trans h₂.payloadLength

theorem SameEnd.makeEndAad {a b : Header} (h : SameEnd a b) : makeEndAad a = makeEndAad b := by
  unfold Wire.makeEndAad
  rw [h.minor, h.type, h.flags, h.delivery, h.network, h.origin, h.destination, h.message,
    h.originalLifetimeMs, h.endEpoch, h.endCounter, h.payloadLength]

theorem SameEnd.endContext {a b : Header} (h : SameEnd a b) : endContext a = endContext b := by
  unfold Wire.endContext
  rw [h.type, h.network, h.origin, h.destination, h.message, h.endEpoch]

variable {f g : LinkOpenedFrame} {n : Nat} {P : NodeId → SecurityProvider σ} {bytes : List UInt8}
  {node : NodeId}

theorem SameEnd.transitFingerprint (h : SameEnd f.header g.header)
    (hpayload : f.protectedPayload = g.protectedPayload) : transitFingerprint f = transitFingerprint g := by
  unfold Wire.transitFingerprint
  rw [h.makeEndAad, hpayload]

/-! ## One hop -/

theorem tag_behind (bytes : List UInt8) (tag : AeadTag) (hn : bytes.length = n) :
    (Vector.ofFn fun i : Fin 16 => (bytes ++ tag.toList).getD (n + i.val) 0) = tag := by
  ext i hi
  rw [Vector.getElem_ofFn, List.getD_eq_getElem?_getD, ← hn,
    List.getElem?_append_right (Nat.le_add_right _ _), Nat.add_sub_cancel_left]
  simp [hi]

theorem openLink_wrapLink (hinverts : Inverts P) {header : Header} {plaintext : List UInt8}
    {s s' t t' : σ} {frame : LinkOpenedFrame} (hunicast : header.nextHop ≠ kBroadcastNodeId)
    (hlength : plaintext.length = header.plainLength)
    (hwrap : wrapLink (P node) header plaintext s = (.ok bytes, s'))
    (hopen : openLink (P header.nextHop) bytes header.nextHop false t = (.ok frame, t')) :
    frame = ⟨header, plaintext⟩ := by
  obtain ⟨front, ciphertext, tag, hw⟩ := wrapLink_eq_ok hwrap
  unfold openLink at hopen
  obtain ⟨header', t₁, h₁, hrest⟩ := Op.bind_eq_ok.mp hopen
  obtain ⟨hcheck, rfl⟩ := Op.check_eq_ok.mp h₁
  obtain rfl : header' = header := hw.header_eq (checkLink_eq_ok.mp hcheck).1
  obtain ⟨opened, t₂, hprovider, hpure⟩ := Op.bind_eq_ok.mp hrest
  obtain ⟨rfl, rfl⟩ := Op.pure_eq_ok.mp hpure
  clear hopen hrest hpure
  -- the slices of the frame are what was put together
  have hfront : front.length = kHeaderSize := length_writeHeader hw.written
  have hcipher : (bytes.drop kHeaderSize).take header'.plainLength = ciphertext.toList := by
    rw [hw.eq, List.append_assoc, List.drop_left' hfront, List.take_left' (by
      rw [Vector.length_toList, hlength])]
  have htag : (Vector.ofFn fun i : Fin 16 =>
      bytes.getD (kHeaderSize + header'.plainLength + i.val) 0) = tag := by
    rw [hw.eq]
    refine tag_behind _ tag ?_
    rw [List.length_append, hfront, Vector.length_toList, hlength]
  have hreceiver : (linkContext header').receiver = header'.nextHop := by
    unfold linkContext
    rw [if_neg]
    simp [hunicast]
  obtain ⟨opened', t₃, hopened, hplain⟩ := hinverts node _ _ _ _ _ _ _ _ hw.sealed t
  rw [hreceiver, ← hw.take, ← htag] at hopened
  -- the ciphertext also stands in the type of what is opened
  revert opened
  rw [hcipher]
  intro opened hprovider
  rw [hopened] at hprovider
  cases hprovider
  rw [hplain]

/-! ## Paths -/

/-- The frames that nodes hold on a way from `start`, with the number of forwards to each: a node sends
the frame it holds, by a retry or by forwarding it, and the next hop opens what arrives. -/
inductive Path (P : NodeId → SecurityProvider σ) (start : LinkOpenedFrame) : Nat → LinkOpenedFrame → Prop
  | here : Path P start 0 start
  | retry {n : Nat} {f g : LinkOpenedFrame} {node nextHop : NodeId} {remainingDeadlineMs : UInt32}
      {bytes : List UInt8} {s s' t t' : σ} (held : Path P start n f)
      (unicast : nextHop ≠ kBroadcastNodeId)
      (sent : retryLocal (P node) f nextHop remainingDeadlineMs s = (.ok bytes, s'))
      (opened : openLink (P nextHop) bytes nextHop false t = (.ok g, t')) : Path P start n g
  | forward {n : Nat} {f g : LinkOpenedFrame} {node nextHop : NodeId}
      {linkEpoch remainingDeadlineMs : UInt32} {bytes : List UInt8} {s s' t t' : σ}
      (held : Path P start n f) (unicast : nextHop ≠ kBroadcastNodeId)
      (sent : Wire.forward (P node) f node nextHop linkEpoch remainingDeadlineMs s = (.ok bytes, s'))
      (opened : openLink (P nextHop) bytes nextHop false t = (.ok g, t')) : Path P start (n + 1) g

/-- What a way with `n` forwards keeps and what it uses up. -/
structure Carries (f g : LinkOpenedFrame) (n : Nat) : Prop where
  sameEnd : SameEnd g.header f.header
  payload : g.protectedPayload = f.protectedPayload
  hops : g.header.hopRemaining.toNat + n = f.header.hopRemaining.toNat
  deadline : g.header.remainingDeadlineMs ≤ f.header.remainingDeadlineMs

theorem Carries.refl (f : LinkOpenedFrame) : Carries f f 0 :=
  ⟨.refl _, rfl, rfl, UInt32.le_refl _⟩

theorem Carries.trans {h : LinkOpenedFrame} {m : Nat} (h₁ : Carries f g m) (h₂ : Carries g h n) :
    Carries f h (m + n) where
  sameEnd := h₂.sameEnd.trans h₁.sameEnd
  payload := h₂.payload.trans h₁.payload
  hops := by
    have := h₁.hops
    have := h₂.hops
    omega
  deadline := UInt32.le_trans h₂.deadline h₁.deadline

theorem min_le_right_deadline (a b : UInt32) : min a b ≤ b := by
  rw [UInt32.min_def]
  split
  · assumption
  · exact UInt32.le_refl b

theorem retry_carries (hinverts : Inverts P) {nextHop : NodeId} {remainingDeadlineMs : UInt32}
    {s s' t t' : σ} (hunicast : nextHop ≠ kBroadcastNodeId)
    (hsent : retryLocal (P node) f nextHop remainingDeadlineMs s = (.ok bytes, s'))
    (hopened : openLink (P nextHop) bytes nextHop false t = (.ok g, t')) : Carries f g 0 := by
  obtain ⟨hprotected, hlength, header, s₁, heq, houter⟩ := retryLocal_eq_ok hunicast hsent
  have hnext : header.nextHop = nextHop := by rw [heq]; rfl
  have hflag : header.endProtected = true := by rw [heq]; exact hprotected
  have hpayload : header.payloadLength = f.header.payloadLength := by rw [heq]; rfl
  rw [← hnext] at hopened
  have hg := openLink_wrapLink hinverts (hnext ▸ hunicast)
    (by rw [Header.plainLength, if_pos hflag, hpayload, hlength]) houter hopened
  rw [hg, heq]
  refine ⟨?_, rfl, rfl, min_le_right_deadline _ _⟩
  constructor <;> rfl

theorem forward_carries (hinverts : Inverts P) {nextHop : NodeId}
    {linkEpoch remainingDeadlineMs : UInt32} {s s' t t' : σ} (hunicast : nextHop ≠ kBroadcastNodeId)
    (hsent : forward (P node) f node nextHop linkEpoch remainingDeadlineMs s = (.ok bytes, s'))
    (hopened : openLink (P nextHop) bytes nextHop false t = (.ok g, t')) : Carries f g 1 := by
  obtain ⟨header, s₁, hf⟩ := forward_eq_ok hunicast hsent
  have hnext : header.nextHop = nextHop := by rw [hf.forwarded]
  have hlength : header.plainLength = f.header.plainLength := by rw [hf.forwarded]; rfl
  rw [← hnext] at hopened
  have hg := openLink_wrapLink hinverts (hnext ▸ hunicast) (hf.length.trans hlength.symm) hf.outer hopened
  have hone : (1 : UInt8) ≤ f.header.hopRemaining := UInt8.le_of_lt hf.hops
  have hpositive : 1 < f.header.hopRemaining.toNat := hf.hops
  rw [hg, hf.forwarded]
  refine ⟨?_, rfl, ?_, min_le_right_deadline _ _⟩
  · constructor <;> rfl
  · show (f.header.hopRemaining - 1).toNat + 1 = f.header.hopRemaining.toNat
    rw [UInt8.toNat_sub_of_le _ _ hone, show (1 : UInt8).toNat = 1 from rfl]
    omega

/-- The induction over the way. -/
theorem Path.carries (hinverts : Inverts P) {start : LinkOpenedFrame} (hp : Path P start n g) :
    Carries start g n := by
  induction hp with
  | here => exact .refl start
  | retry _ hunicast hsent hopened ih => exact ih.trans (retry_carries hinverts hunicast hsent hopened)
  | forward _ hunicast hsent hopened ih =>
    exact ih.trans (forward_carries hinverts hunicast hsent hopened)

/-! ## From the origin to the destination -/

/-- An end-protected frame that the encoder accepts goes to one neighbour. -/
theorem unicast_of_protected {header : Header} (hvalid : Valid header)
    (hprotected : header.endProtected = true) : header.nextHop ≠ kBroadcastNodeId := by
  intro hnext
  have hb := hvalid.broadcast
  unfold badBroadcast at hb
  rw [hnext] at hb
  simp only [beq_self_eq_true, Bool.true_or, Bool.true_and, Bool.or_eq_false_iff, bne_eq_false_iff_eq] at hb
  have hflags : header.flags = 0 := hb.1.2
  rw [Header.endProtected, hflags] at hprotected
  revert hprotected
  decide

/-- What the origin's envelope is. -/
structure Seals (P : NodeId → SecurityProvider σ) (input : PlainFrame) (envelope : LinkOpenedFrame) :
    Prop where
  filled : FilledIn input envelope.header
  size : envelope.header.payloadLength.toNat = input.payload.length
  payload : ∃ node aad ciphertext tag s s', makeEndAad envelope.header = .ok aad ∧
    (P node).sealFrame (endContext envelope.header) envelope.header.endCounter aad input.payload s =
      (.ok (ciphertext, tag), s') ∧ envelope.protectedPayload = ciphertext.toList ++ tag.toList

theorem Encodes.seals {input : PlainFrame} {envelope : LinkOpenedFrame} {header₀ header : Header}
    {plaintext : List UInt8} {s₀ s₁ s' : σ}
    (he : Encodes (P node) input bytes (some envelope) header₀ header plaintext s₀ s₁ s') :
    envelope = ⟨header, plaintext⟩ ∧ header.endProtected = true ∧ Seals P input envelope := by
  have henvelope := he.envelope
  by_cases hp : header.endProtected = true
  · rw [if_pos hp] at henvelope
    cases henvelope
    refine ⟨rfl, hp, he.filled, he.length.1, ?_⟩
    have hinner := he.inner
    have hp₀ : header₀.endProtected = true := by
      have heq := (linkPlaintext_eq_ok hinner).1
      rw [heq] at hp
      exact hp
    unfold linkPlaintext at hinner
    rw [if_pos hp₀] at hinner
    obtain ⟨header₁, t₁, _, hinner⟩ := Op.bind_eq_ok.mp hinner
    obtain ⟨plaintext₁, t₂, hprotect, hpure⟩ := Op.bind_eq_ok.mp hinner
    obtain ⟨heq, rfl⟩ := Op.pure_eq_ok.mp hpure
    cases heq
    unfold protect at hprotect
    obtain ⟨aad, t₃, h₃, hprotect⟩ := Op.bind_eq_ok.mp hprotect
    obtain ⟨haad, rfl⟩ := Op.check_eq_ok.mp h₃
    obtain ⟨⟨ciphertext, tag⟩, t₄, hseal, hpure⟩ := Op.bind_eq_ok.mp hprotect
    obtain ⟨rfl, rfl⟩ := Op.pure_eq_ok.mp hpure
    exact ⟨node, aad, ciphertext, tag, _, _, haad, hseal, rfl⟩
  · rw [if_neg hp] at henvelope
    cases henvelope

theorem encodeNew_valid {security : SecurityProvider σ} {input : PlainFrame} {s s' : σ}
    {r : List UInt8 × Option LinkOpenedFrame} (h : encodeNew security input s = (.ok r, s')) :
    Valid { input.header with payloadLength := input.payload.length.toUInt8 } := by
  unfold encodeNew at h
  obtain ⟨_, _, _, h⟩ := Op.bind_eq_ok.mp h
  obtain ⟨_, _, _, h⟩ := Op.bind_eq_ok.mp h
  obtain ⟨_, _, _, h⟩ := Op.bind_eq_ok.mp h
  obtain ⟨_, _, h₄, _⟩ := Op.bind_eq_ok.mp h
  exact validateHeader_eq_ok.mp (Op.check_eq_ok.mp h₄).1

theorem openEnd_carried (hinverts : Inverts P) {input : PlainFrame} {envelope : LinkOpenedFrame}
    (hseals : Seals P input envelope) (hcarries : Carries envelope f n)
    (hsize : input.payload.length ≤ kMaxApplicationPayload) (hprotected : envelope.header.endProtected = true)
    (hgroup : envelope.header.type ≠ .groupData) (t : σ) :
    ∃ t', openEnd (P f.header.destination) f f.header.destination t =
      (.ok ⟨f.header, input.payload⟩, t') := by
  obtain ⟨node, aad, ciphertext, tag, s, s', haad, hseal, hpayload⟩ := hseals.payload
  have hsame := hcarries.sameEnd
  have hlength : f.header.payloadLength.toNat = input.payload.length := by
    rw [hsame.payloadLength, hseals.size]
  have htype : f.header.type ≠ .groupData := by rwa [hsame.type]
  have hflag : f.header.endProtected = true := by
    rw [Header.endProtected, hsame.flags]
    exact hprotected
  have hbytes : f.protectedPayload = ciphertext.toList ++ tag.toList := by
    rw [hcarries.payload, hpayload]
  have htotal : f.protectedPayload.length = f.header.payloadLength.toNat + kAeadTagSize := by
    rw [hbytes, List.length_append, Vector.length_toList, Vector.length_toList, hlength]
    rfl
  have hreceiver : (endContext f.header).receiver = f.header.destination := by
    unfold endContext
    rw [if_neg (by simpa using htype)]
  obtain ⟨opened, t', hopened, hplain⟩ := hinverts node _ _ _ _ _ _ _ _ hseal t
  have hunprotect : unprotect (P f.header.destination) f t = (.ok ⟨f.header, input.payload⟩, t') := by
    unfold unprotect
    refine Op.bind_eq_ok.mpr ⟨aad, t, Op.check_eq_ok.mpr ⟨hsame.makeEndAad.trans haad, rfl⟩, ?_⟩
    have hcipher : f.protectedPayload.take f.header.payloadLength.toNat = ciphertext.toList := by
      rw [hbytes, List.take_left' (by rw [Vector.length_toList, hlength])]
    have htag : (Vector.ofFn fun i : Fin 16 =>
        f.protectedPayload.getD (f.header.payloadLength.toNat + i.val) 0) = tag := by
      rw [hbytes]
      exact tag_behind _ tag (by rw [Vector.length_toList, hlength])
    rw [← hsame.endContext, hreceiver, ← hsame.endCounter] at hopened
    rw [htag, hcipher]
    exact Op.bind_eq_ok.mpr ⟨opened, t', hopened, by rw [hplain]; rfl⟩
  refine ⟨t', ?_⟩
  unfold openEnd
  refine Op.bind_eq_ok.mpr ⟨(), t, Op.check_eq_ok.mpr ⟨by simp, rfl⟩, ?_⟩
  refine Op.bind_eq_ok.mpr ⟨(), t, Op.check_eq_ok.mpr ⟨by simpa using htype, rfl⟩, ?_⟩
  refine Op.bind_eq_ok.mpr ⟨(), t, Op.check_eq_ok.mpr ⟨?_, rfl⟩, ?_⟩
  · rw [refuse_eq_ok, Bool.or_eq_false_iff, decide_eq_false_iff_not, decide_eq_false_iff_not]
    omega
  · rw [if_neg (by simp [hflag])]
    exact Op.bind_eq_ok.mpr ⟨(), t, Op.check_eq_ok.mpr ⟨by simpa using htotal, rfl⟩, hunprotect⟩

/-- A frame from node 1 to node 3, over node 2. -/
def sampleRelayed : PlainFrame :=
  { header :=
      { flags := kFlagEndProtected, hopRemaining := 3, network := 7, origin := 1, destination := 3
        previousHop := 1, nextHop := 2, remainingDeadlineMs := 1000, originalLifetimeMs := 1000 }
    payload := [1, 2, 3] }

def sampleEnvelope : LinkOpenedFrame :=
  ⟨{ sampleRelayed.header with payloadLength := 3 }, [1, 2, 3] ++ List.replicate 16 0⟩

theorem inverts_samplePlain : Inverts fun _ => samplePlain := by
  intro node context counter aad plaintext s ciphertext tag s' hseal t
  obtain ⟨heq, _⟩ := Op.pure_eq_ok.mp hseal
  cases heq
  exact ⟨_, t, rfl, rfl⟩

/-- What node 3 holds after node 2 has forwarded it. -/
def sampleArrived : LinkOpenedFrame :=
  ⟨{ sampleEnvelope.header with previousHop := 2, nextHop := 3, hopRemaining := 2
                                remainingDeadlineMs := 900 }, sampleEnvelope.protectedPayload⟩

theorem path_sampleArrived : Path (fun _ => samplePlain) sampleEnvelope 1 sampleArrived := by
  obtain ⟨bytes, hsent, hopened⟩ : ∃ bytes,
      forward samplePlain sampleEnvelope 2 3 0 900 () = (.ok bytes, ()) ∧
        openLink samplePlain bytes 3 false () = (.ok sampleArrived, ()) := ⟨_, rfl, rfl⟩
  exact .forward .here (by decide) hsent hopened

end RouteLoom.Wire
