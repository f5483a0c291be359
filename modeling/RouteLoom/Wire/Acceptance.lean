import RouteLoom.Wire.Frame

/-!
# What is sent is accepted

Everything the codec sends to one neighbour passes the checks of `open_link` there, and the header read
equals the header written. New and forwarded frames always do: what changes after validation keeps the
header valid. `retry_local` sends a kept envelope to a hop of its caller's choice without validating the
header again, so its frame is accepted exactly when the header is valid for that hop; an envelope
without a hop left may only go to the destination.

* `wrapLink_accepted` : a valid header around a plaintext of the announced length is accepted
* `emitted_accepted` : **new and forwarded frames are accepted, and retries exactly when valid**
-/

namespace RouteLoom.Wire

open Lib

variable {σ : Type} {security : SecurityProvider σ} {s s' : σ}

/-- The frame was written with this header, and the next hop reads it and finds nothing wrong. -/
structure Accepted (bytes : List UInt8) (header : Header) : Prop where
  written : writeHeader header = .ok (bytes.take kHeaderSize)
  read : readHeader bytes = .ok header
  checked : checkLink bytes header.nextHop false = .ok header

/-! ## The link layer -/

/-- What a successful `wrap_link` did. -/
structure Wraps (security : SecurityProvider σ) (header : Header) (plaintext bytes : List UInt8)
    (s s' : σ) (front : List UInt8) (ciphertext : Vector UInt8 plaintext.length) (tag : AeadTag) :
    Prop where
  written : writeHeader header = .ok front
  sealed : security.sealFrame (linkContext header) header.linkCounter front plaintext s =
    (.ok (ciphertext, tag), s')
  eq : bytes = front ++ ciphertext.toList ++ tag.toList

variable {localNode : NodeId} {encoded bytes : List UInt8} {header : Header}

theorem wrapLink_eq_ok {plaintext : List UInt8} (h : wrapLink security header plaintext s = (.ok bytes, s')) :
    ∃ front ciphertext tag, Wraps security header plaintext bytes s s' front ciphertext tag := by
  unfold wrapLink at h
  obtain ⟨_, s₁, hroom, h⟩ := Op.bind_eq_ok.mp h
  obtain ⟨_, rfl⟩ := Op.check_eq_ok.mp hroom
  obtain ⟨front, s₂, hcheck, h⟩ := Op.bind_eq_ok.mp h
  obtain ⟨hfront, rfl⟩ := Op.check_eq_ok.mp hcheck
  obtain ⟨⟨ciphertext, tag⟩, s₃, hseal, h⟩ := Op.bind_eq_ok.mp h
  obtain ⟨rfl, rfl⟩ := Op.pure_eq_ok.mp h
  exact ⟨front, ciphertext, tag, hfront, hseal, rfl⟩

variable {header' : Header} {envelope : Option LinkOpenedFrame} {input : PlainFrame}
  {frame : LinkOpenedFrame} {nextHop : NodeId} {remainingDeadlineMs : UInt32}

section Wraps

variable {header : Header} {plaintext bytes front : List UInt8}
  {ciphertext : Vector UInt8 plaintext.length} {tag : AeadTag}

section

variable (hw : Wraps security header plaintext bytes s s' front ciphertext tag)
include hw

theorem Wraps.take : bytes.take kHeaderSize = front := by
  rw [hw.eq, List.append_assoc, List.take_left' (length_writeHeader hw.written)]

theorem Wraps.length : bytes.length = kHeaderSize + plaintext.length + kAeadTagSize := by
  rw [hw.eq, List.length_append, List.length_append, length_writeHeader hw.written,
    Vector.length_toList, Vector.length_toList]
  rfl

theorem Wraps.read (hvalid : Valid header) : readHeader bytes = .ok header := by
  rw [hw.eq, List.append_assoc]
  refine readHeader_writeHeader hw.written hvalid ?_
  rw [List.length_append, Vector.length_toList, Vector.length_toList]
  exact Nat.le_add_left _ _

/-- A header that is read from the frame is the one it was written with. -/
theorem Wraps.header_eq (hread : readHeader bytes = .ok header') : header' = header := by
  obtain ⟨hnetwork, hlink, hend, hfront⟩ := writeHeader_eq_ok.mp hw.written
  obtain ⟨_, f, hsource, _, _, _, rfl, hvalid⟩ := readHeader_eq_ok.mp hread
  rw [hw.take, hfront] at hsource
  -- both are what the reader makes of the same bytes
  have h₁ : readFields (fieldBytes header.fields []) = (.ok header.fields, []) :=
    readFields_eq_ok.mpr ⟨rfl, hlink, hend⟩
  have h₂ : readFields (fieldBytes header.fields []) = (.ok f, []) :=
    readFields_eq_ok.mpr ⟨hsource, hvalid.linkCounter, hvalid.endCounter⟩
  rw [h₁] at h₂
  cases h₂
  exact header_fields hnetwork

end

end Wraps

theorem checkLink_eq_ok {node : NodeId} :
    checkLink encoded node false = .ok header ↔ readHeader encoded = .ok header ∧ header.nextHop = node ∧
        (header.nextHop = kBroadcastNodeId → header.linkEpoch ≠ 0 ∧ header.endEpoch ≠ 0) ∧
        encoded.length = kHeaderSize + header.plainLength + kAeadTagSize ∧
        header.plainLength ≤ kMaxApplicationPayload + kAeadTagSize := by
  unfold checkLink
  simp only [bind_eq_ok, refuse_eq_ok, exists_const, Bool.false_and, Bool.not_false, Bool.and_true,
    bne_eq_false_iff_eq, Bool.and_eq_false_iff, Bool.or_eq_false_iff, beq_eq_false_iff_ne,
    decide_eq_false_iff_not, Nat.not_lt, gt_iff_lt, Except.ok.injEq, ne_eq]
  constructor
  · rintro ⟨header', hread, hnode, hepochs, ⟨hlength, hbound⟩, rfl⟩
    exact ⟨hread, hnode, fun hb => hepochs.resolve_left fun h => h hb, hlength, hbound⟩
  · rintro ⟨hread, hnode, hepochs, hlength, hbound⟩
    exact ⟨header, hread, hnode, Decidable.or_iff_not_imp_left.mpr fun h => hepochs (not_not.mp h),
      ⟨hlength, hbound⟩, rfl⟩

theorem plainLength_le (hvalid : Valid header) :
    header.plainLength ≤ kMaxApplicationPayload + kAeadTagSize := by
  have := hvalid.payloadLength
  unfold Header.plainLength
  split <;> omega

section

variable {header : Header} {plaintext bytes : List UInt8}
  (h : wrapLink security header plaintext s = (.ok bytes, s'))
include h

/-- A valid header around a plaintext of the announced length is accepted. -/
theorem wrapLink_accepted (hvalid : Valid header) (hlength : plaintext.length = header.plainLength)
    (hunicast : header.nextHop ≠ kBroadcastNodeId) : Accepted bytes header := by
  obtain ⟨front, ciphertext, tag, hw⟩ := wrapLink_eq_ok h
  refine ⟨by rw [hw.take, hw.written], hw.read hvalid, checkLink_eq_ok.mpr ⟨hw.read hvalid, rfl,
    fun hb => absurd hb hunicast, ?_, plainLength_le hvalid⟩⟩
  rw [hw.length, hlength]

/-- Nothing else is. -/
theorem valid_of_accepted (ha : Accepted bytes header') : header' = header ∧ Valid header := by
  obtain ⟨front, ciphertext, tag, hw⟩ := wrapLink_eq_ok h
  have heq := hw.header_eq ha.read
  obtain ⟨_, _, _, _, _, _, _, hvalid⟩ := readHeader_eq_ok.mp ha.read
  exact ⟨heq, heq ▸ hvalid⟩

theorem counter_le_of_wrapLink :
    header.linkCounter ≤ kMaxCryptoCounter ∧ header.endCounter ≤ kMaxCryptoCounter := by
  obtain ⟨front, ciphertext, tag, hw⟩ := wrapLink_eq_ok h
  obtain ⟨_, hlink, hend, _⟩ := writeHeader_eq_ok.mp hw.written
  exact ⟨hlink, hend⟩

end

/-! ## Stamps -/

theorem stampLinkEpoch_eq_ok (header : Header) (hunicast : header.nextHop ≠ kBroadcastNodeId)
    (h : stampLinkEpoch security header s = (.ok header', s')) :
    header' = { header with linkEpoch := header'.linkEpoch } := by
  unfold stampLinkEpoch at h
  rw [if_neg (by simpa using hunicast)] at h
  obtain ⟨linkEpoch, s₁, _, h⟩ := Op.bind_eq_ok.mp h
  obtain ⟨rfl, rfl⟩ := Op.pure_eq_ok.mp h
  rfl

theorem stampEndEpoch_eq_ok (h : stampEndEpoch security header s = (.ok header', s')) :
    header' = { header with endEpoch := header'.endEpoch } := by
  unfold stampEndEpoch at h
  obtain ⟨endEpoch, s₁, _, h⟩ := Op.bind_eq_ok.mp h
  obtain ⟨rfl, rfl⟩ := Op.pure_eq_ok.mp h
  rfl

theorem drawLinkCounter_eq_ok (h : drawLinkCounter security header s = (.ok header', s')) :
    header' = { header with linkCounter := header'.linkCounter } := by
  unfold drawLinkCounter at h
  obtain ⟨linkCounter, s₁, _, h⟩ := Op.bind_eq_ok.mp h
  obtain ⟨rfl, rfl⟩ := Op.pure_eq_ok.mp h
  rfl

theorem drawEndCounter_eq_ok (h : drawEndCounter security header s = (.ok header', s')) :
    header' = { header with endCounter := header'.endCounter } := by
  unfold drawEndCounter at h
  obtain ⟨endCounter, s₁, _, h⟩ := Op.bind_eq_ok.mp h
  obtain ⟨rfl, rfl⟩ := Op.pure_eq_ok.mp h
  rfl

theorem stamped_eq_ok {plaintext : List UInt8} (hunicast : header.nextHop ≠ kBroadcastNodeId) (h : (do
      let header ← stampLinkEpoch security header
      let header ← drawLinkCounter security header
      wrapLink security header plaintext : Op σ Status (List UInt8)) s = (.ok bytes, s')) :
    ∃ header' s₁, header' =
        { header with linkEpoch := header'.linkEpoch, linkCounter := header'.linkCounter } ∧
      wrapLink security header' plaintext s₁ = (.ok bytes, s') := by
  obtain ⟨header₁, s₁, hstamp, h⟩ := Op.bind_eq_ok.mp h
  obtain ⟨header₂, s₂, hdraw, h⟩ := Op.bind_eq_ok.mp h
  refine ⟨header₂, s₂, ?_, h⟩
  rw [drawLinkCounter_eq_ok hdraw, stampLinkEpoch_eq_ok header hunicast hstamp]

/-! ## New frames -/

/-- The header of a new frame differs from the given one in what the encoder fills in. -/
def FilledIn (input : PlainFrame) (header : Header) : Prop :=
  header =
    { input.header with
      payloadLength := input.payload.length.toUInt8
      linkEpoch := header.linkEpoch
      endEpoch := header.endEpoch
      linkCounter := header.linkCounter
      endCounter := header.endCounter }

theorem linkPlaintext_eq_ok {payload plaintext : List UInt8}
    (h : linkPlaintext security header payload s = (.ok (header', plaintext), s')) :
    header' = { header with endCounter := header'.endCounter } ∧
      plaintext.length = payload.length + if header.endProtected then kAeadTagSize else 0 := by
  unfold linkPlaintext at h
  by_cases hp : header.endProtected = true
  · rw [if_pos hp] at h
    obtain ⟨header₁, s₁, hdraw, h⟩ := Op.bind_eq_ok.mp h
    obtain ⟨plaintext₁, s₂, hprotect, h⟩ := Op.bind_eq_ok.mp h
    obtain ⟨heq, rfl⟩ := Op.pure_eq_ok.mp h
    cases heq
    unfold protect at hprotect
    obtain ⟨aad, s₃, _, hprotect⟩ := Op.bind_eq_ok.mp hprotect
    obtain ⟨⟨ciphertext, tag⟩, s₄, _, hprotect⟩ := Op.bind_eq_ok.mp hprotect
    obtain ⟨rfl, rfl⟩ := Op.pure_eq_ok.mp hprotect
    refine ⟨drawEndCounter_eq_ok hdraw, ?_⟩
    rw [if_pos hp, List.length_append, Vector.length_toList, Vector.length_toList]
    rfl
  · rw [if_neg hp] at h
    obtain ⟨heq, rfl⟩ := Op.pure_eq_ok.mp h
    cases heq
    rw [if_neg hp]
    exact ⟨rfl, rfl⟩

theorem stampEndIfProtected_eq_ok (h : stampEndIfProtected security header s = (.ok header', s')) :
    header' = { header with endEpoch := header'.endEpoch } := by
  unfold stampEndIfProtected at h
  split at h
  · exact stampEndEpoch_eq_ok h
  · obtain ⟨rfl, rfl⟩ := Op.pure_eq_ok.mp h
    rfl

/-- What a successful `encode_new` of a unicast frame did. -/
structure Encodes (security : SecurityProvider σ) (input : PlainFrame) (bytes : List UInt8)
    (envelope : Option LinkOpenedFrame) (header₀ header : Header) (plaintext : List UInt8)
    (s₀ s₁ s' : σ) : Prop where
  size : input.payload.length ≤ kMaxApplicationPayload
  valid : Valid { input.header with payloadLength := input.payload.length.toUInt8 }
  filled₀ : header₀ =
    { input.header with
      payloadLength := input.payload.length.toUInt8
      linkEpoch := header₀.linkEpoch
      endEpoch := header₀.endEpoch
      linkCounter := header₀.linkCounter }
  inner : linkPlaintext security header₀ input.payload s₀ = (.ok (header, plaintext), s₁)
  outer : wrapLink security header plaintext s₁ = (.ok bytes, s')
  envelope : envelope = if header.endProtected then some ⟨header, plaintext⟩ else none

theorem encodeNew_eq_ok (hunicast : input.header.nextHop ≠ kBroadcastNodeId)
    (h : encodeNew security input s = (.ok (bytes, envelope), s')) :
    ∃ header₀ header plaintext s₀ s₁,
      Encodes security input bytes envelope header₀ header plaintext s₀ s₁ s' := by
  unfold encodeNew at h
  obtain ⟨_, _, hget, h⟩ := Op.bind_eq_ok.mp h
  obtain ⟨_, t₁, hready, h⟩ := Op.bind_eq_ok.mp h
  obtain ⟨_, t₂, hsize, h⟩ := Op.bind_eq_ok.mp h
  obtain ⟨hsize, _⟩ := Op.check_eq_ok.mp hsize
  obtain ⟨_, t₃, hvalid, h⟩ := Op.bind_eq_ok.mp h
  obtain ⟨hvalid, _⟩ := Op.check_eq_ok.mp hvalid
  obtain ⟨header₁, t₄, hlink, h⟩ := Op.bind_eq_ok.mp h
  obtain ⟨_, t₅, hepochs, h⟩ := Op.bind_eq_ok.mp h
  obtain ⟨header₂, t₆, hend, h⟩ := Op.bind_eq_ok.mp h
  obtain ⟨header₃, t₇, hdraw, h⟩ := Op.bind_eq_ok.mp h
  obtain ⟨⟨header₄, plaintext⟩, t₈, hinner, h⟩ := Op.bind_eq_ok.mp h
  obtain ⟨bytes', t₉, houter, h⟩ := Op.bind_eq_ok.mp h
  obtain ⟨heq, rfl⟩ := Op.pure_eq_ok.mp h
  cases heq
  refine ⟨header₃, header₄, plaintext, t₇, t₈, ?_, validateHeader_eq_ok.mp hvalid, ?_, hinner, houter, rfl⟩
  · simpa using hsize
  · have hstamp := stampLinkEpoch_eq_ok
      { input.header with payloadLength := input.payload.length.toUInt8 } hunicast hlink
    rw [drawLinkCounter_eq_ok hdraw, stampEndIfProtected_eq_ok hend, hstamp]

theorem Encodes.filled {header₀ : Header} {plaintext : List UInt8} {s₀ s₁ : σ}
    (he : Encodes security input bytes envelope header₀ header plaintext s₀ s₁ s') :
    FilledIn input header := by
  have h := (linkPlaintext_eq_ok he.inner).1
  unfold FilledIn
  rw [h, he.filled₀]

theorem Encodes.length {bytes : List UInt8} {header₀ header : Header} {plaintext : List UInt8}
    {s₀ s₁ : σ} (he : Encodes security input bytes envelope header₀ header plaintext s₀ s₁ s') :
    header.payloadLength.toNat = input.payload.length ∧ plaintext.length = header.plainLength := by
  obtain ⟨heq, hlength⟩ := linkPlaintext_eq_ok he.inner
  have hpayload : header.payloadLength.toNat = input.payload.length := by
    rw [he.filled]
    show input.payload.length % 2 ^ 8 = input.payload.length
    exact Nat.mod_eq_of_lt (Nat.lt_of_le_of_lt he.size (by decide))
  have hflag : header.endProtected = header₀.endProtected := by rw [heq]; rfl
  refine ⟨hpayload, ?_⟩
  rw [hlength, Header.plainLength, hpayload, hflag]

/-- Epochs and counters may change in a valid unicast header. -/
theorem Valid.fill (hv : Valid header)
    (hunicast : header.nextHop ≠ kBroadcastNodeId) (heq : header' =
      { header with
        linkEpoch := header'.linkEpoch
        endEpoch := header'.endEpoch
        linkCounter := header'.linkCounter
        endCounter := header'.endCounter }) (hlink : header'.linkCounter ≤ kMaxCryptoCounter)
    (hend : header'.endCounter ≤ kMaxCryptoCounter) :
    Valid header' := by
  have hb := hv.broadcast
  have hb' : badBroadcast header' = false := by
    rw [heq]
    unfold badBroadcast at hb ⊢
    have hne : (header.nextHop == kBroadcastNodeId) = false := by simpa using hunicast
    have hne' : (header.nextHop != kBroadcastNodeId) = true := by simpa using hunicast
    simp only [hne, hne', Bool.false_or, Bool.or_true, Bool.true_or, Bool.and_true] at hb ⊢
    exact hb
  rw [heq] at hlink hend hb' ⊢
  exact ⟨hv.type, hv.delivery, hv.network, hv.origin, hv.destination, hv.previousHop, hv.nextHop, hb',
    hv.payloadLength, hv.hops, hv.flags, hlink, hend, hv.lifetime, hv.deadline⟩

theorem encodeNew_accepted (hunicast : input.header.nextHop ≠ kBroadcastNodeId)
    (h : encodeNew security input s = (.ok (bytes, envelope), s')) :
    ∃ header, FilledIn input header ∧ Accepted bytes header := by
  obtain ⟨header₀, header, plaintext, s₀, s₁, he⟩ := encodeNew_eq_ok hunicast h
  obtain ⟨hlink, hend⟩ := counter_le_of_wrapLink he.outer
  have hnext : header.nextHop = input.header.nextHop := by rw [he.filled]
  refine ⟨header, he.filled, wrapLink_accepted he.outer (he.valid.fill hunicast he.filled hlink hend)
    he.length.2 (hnext ▸ hunicast)⟩

/-! ## Forwarded frames -/

/-- The header of a forwarded frame. -/
def Forwarded (frame : LinkOpenedFrame) (localNode nextHop : NodeId) (remainingDeadlineMs : UInt32)
    (header : Header) : Prop :=
  header =
    { frame.header with
      previousHop := localNode
      nextHop
      hopRemaining := frame.header.hopRemaining - 1
      remainingDeadlineMs := min remainingDeadlineMs frame.header.remainingDeadlineMs
      linkEpoch := header.linkEpoch
      linkCounter := header.linkCounter }

/-- What a successful `forward` to one neighbour did. -/
structure Forwards (security : SecurityProvider σ) (frame : LinkOpenedFrame)
    (localNode nextHop : NodeId) (remainingDeadlineMs : UInt32) (bytes : List UInt8) (header : Header)
    (s₁ s' : σ) : Prop where
  received : frame.header.nextHop = localNode
  destination : frame.header.destination ≠ localNode
  next : nextHop ≠ kInvalidNodeId
  length : frame.protectedPayload.length = frame.header.plainLength
  hops : 1 < frame.header.hopRemaining
  forwarded : Forwarded frame localNode nextHop remainingDeadlineMs header
  outer : wrapLink security header frame.protectedPayload s₁ = (.ok bytes, s')

theorem forward_eq_ok {linkEpoch : UInt32} (hunicast : nextHop ≠ kBroadcastNodeId)
    (h : forward security frame localNode nextHop linkEpoch remainingDeadlineMs s = (.ok bytes, s')) :
    ∃ header s₁, Forwards security frame localNode nextHop remainingDeadlineMs bytes header s₁ s' := by
  unfold forward at h
  obtain ⟨_, t₁, h₁, h⟩ := Op.bind_eq_ok.mp h
  obtain ⟨hstate, rfl⟩ := Op.check_eq_ok.mp h₁
  obtain ⟨_, t₂, h₂, h⟩ := Op.bind_eq_ok.mp h
  obtain ⟨hrange, rfl⟩ := Op.check_eq_ok.mp h₂
  obtain ⟨_, t₃, h₃, h⟩ := Op.bind_eq_ok.mp h
  obtain ⟨hbudget, rfl⟩ := Op.check_eq_ok.mp h₃
  obtain ⟨header, s₁, heq, houter⟩ := stamped_eq_ok hunicast h
  simp only [refuse_eq_ok, Bool.or_eq_false_iff, bne_eq_false_iff_eq, beq_eq_false_iff_ne,
    decide_eq_false_iff_not, UInt8.not_le] at hstate hrange hbudget
  obtain ⟨⟨⟨hreceived, hdestination⟩, hnext⟩, _⟩ := hstate
  refine ⟨header, s₁, hreceived, hdestination, hnext, hrange.2, hbudget.1, ?_, houter⟩
  unfold Forwarded
  rw [heq]

theorem openLink_valid {node : NodeId} {allow : Bool}
    (h : openLink security encoded node allow s = (.ok frame, s')) : Valid frame.header := by
  unfold openLink at h
  obtain ⟨header, t₁, h₁, h⟩ := Op.bind_eq_ok.mp h
  obtain ⟨hcheck, rfl⟩ := Op.check_eq_ok.mp h₁
  obtain ⟨plaintext, t₂, _, h⟩ := Op.bind_eq_ok.mp h
  obtain ⟨rfl, rfl⟩ := Op.pure_eq_ok.mp h
  unfold checkLink at hcheck
  obtain ⟨header', hread, hcheck⟩ := bind_eq_ok.mp hcheck
  obtain ⟨_, hcheck⟩ := refuse_bind_eq_ok.mp hcheck
  obtain ⟨_, hcheck⟩ := refuse_bind_eq_ok.mp hcheck
  obtain ⟨_, hcheck⟩ := refuse_bind_eq_ok.mp hcheck
  cases hcheck
  exact (readHeader_eq_ok.mp hread).2.elim fun _ hf => hf.2.2.2.2.2

theorem Forwards.valid {s₁ : σ} (hunicast : nextHop ≠ kBroadcastNodeId) (hvalid : Valid frame.header)
    (hf : Forwards security frame localNode nextHop remainingDeadlineMs bytes header s₁ s') :
    Valid header := by
  obtain ⟨hlink, hend⟩ := counter_le_of_wrapLink hf.outer
  have hhops : 1 < frame.header.hopRemaining.toNat := hf.hops
  have hpositive : frame.header.hopRemaining - 1 ≠ 0 := by
    intro h
    have hone : (1 : UInt8) ≤ frame.header.hopRemaining := UInt8.le_of_lt hf.hops
    have := congrArg UInt8.toNat h
    rw [UInt8.toNat_sub_of_le _ _ hone] at this
    change frame.header.hopRemaining.toNat - 1 = 0 at this
    omega
  -- a route update to all neighbours is not received by a node that forwards
  have hroute : (frame.header.type == .routeUpdate &&
      frame.header.destination == kBroadcastNodeId) = false := by
    by_contra hroute
    rw [Bool.not_eq_false, Bool.and_eq_true, beq_iff_eq, beq_iff_eq] at hroute
    have hb := hvalid.broadcast
    unfold badBroadcast at hb
    have hfront : (frame.header.nextHop == kBroadcastNodeId ||
        frame.header.type == .routeUpdate && frame.header.destination == kBroadcastNodeId) = true := by
      rw [hroute.1, hroute.2]
      simp
    rw [hfront, Bool.true_and] at hb
    simp only [Bool.or_eq_false_iff, bne_eq_false_iff_eq] at hb
    have hnext : frame.header.nextHop = kBroadcastNodeId := hb.1.1.1.1.1.1.1.1.2
    exact hf.destination (by rw [hroute.2, ← hf.received, hnext])
  have hb' : badBroadcast header = false := by
    rw [hf.forwarded]
    unfold badBroadcast
    have hne : (nextHop == kBroadcastNodeId) = false := by simpa using hunicast
    simp only [hne, Bool.false_or, hroute, Bool.false_and]
  have hdeadline : min remainingDeadlineMs frame.header.remainingDeadlineMs ≤
      frame.header.originalLifetimeMs := by
    refine UInt32.le_trans ?_ hvalid.deadline
    rw [UInt32.min_def]
    split
    · assumption
    · exact UInt32.le_refl _
  have hlocal : localNode ≠ kInvalidNodeId := hf.received ▸ hvalid.nextHop
  rw [hf.forwarded] at hlink hend hb' ⊢
  exact ⟨hvalid.type, hvalid.delivery, hvalid.network, hvalid.origin, hvalid.destination, hlocal,
    hf.next, hb', hvalid.payloadLength, fun h => absurd h hpositive, hvalid.flags, hlink, hend,
    hvalid.lifetime, hdeadline⟩

theorem forward_accepted {node : NodeId} {allow : Bool} {σ₀ : Type}
    {security₀ : SecurityProvider σ₀} {s₀ s₁ : σ₀} {linkEpoch : UInt32} (hopen : openLink security₀ encoded node allow s₀ = (.ok frame, s₁))
    (hunicast : nextHop ≠ kBroadcastNodeId)
    (h : forward security frame localNode nextHop linkEpoch remainingDeadlineMs s = (.ok bytes, s')) :
    ∃ header, Forwarded frame localNode nextHop remainingDeadlineMs header ∧ Accepted bytes header := by
  obtain ⟨header, t, hf⟩ := forward_eq_ok hunicast h
  have hnext : header.nextHop = nextHop := by rw [hf.forwarded]
  have hlength : header.plainLength = frame.header.plainLength := by rw [hf.forwarded]; rfl
  exact ⟨header, hf.forwarded, wrapLink_accepted hf.outer (hf.valid hunicast (openLink_valid hopen))
    (hf.length.trans hlength.symm) (hnext ▸ hunicast)⟩

/-! ## Retries -/

/-- The header of a retry, before the link layer is stamped. -/
def retried (cached : LinkOpenedFrame) (nextHop : NodeId) (remainingDeadlineMs : UInt32) : Header :=
  { cached.header with
    nextHop
    remainingDeadlineMs := min remainingDeadlineMs cached.header.remainingDeadlineMs }

theorem retryLocal_eq_ok {cached : LinkOpenedFrame} (hunicast : nextHop ≠ kBroadcastNodeId)
    (h : retryLocal security cached nextHop remainingDeadlineMs s = (.ok bytes, s')) :
    cached.header.endProtected = true ∧
      cached.protectedPayload.length = cached.header.payloadLength.toNat + kAeadTagSize ∧
      ∃ header s₁, header =
          { retried cached nextHop remainingDeadlineMs with
            linkEpoch := header.linkEpoch
            linkCounter := header.linkCounter } ∧
        wrapLink security header cached.protectedPayload s₁ = (.ok bytes, s') := by
  unfold retryLocal at h
  obtain ⟨_, t₁, h₁, h⟩ := Op.bind_eq_ok.mp h
  obtain ⟨hcached, rfl⟩ := Op.check_eq_ok.mp h₁
  simp only [refuse_eq_ok, Bool.or_eq_false_iff, bne_eq_false_iff_eq, Bool.not_eq_false'] at hcached
  obtain ⟨⟨⟨⟨hprotected, _⟩, hlength⟩, _⟩, _⟩ := hcached
  exact ⟨hprotected, hlength, stamped_eq_ok hunicast h⟩

theorem retryLocal_accepted_iff {cached : LinkOpenedFrame} (hunicast : nextHop ≠ kBroadcastNodeId)
    (h : retryLocal security cached nextHop remainingDeadlineMs s = (.ok bytes, s')) :
    (∃ header, Accepted bytes header) ↔
      Valid { retried cached nextHop remainingDeadlineMs with linkCounter := 0 } := by
  obtain ⟨hprotected, hlength, header, s₁, heq, houter⟩ := retryLocal_eq_ok hunicast h
  obtain ⟨hlink, hend⟩ := counter_le_of_wrapLink houter
  have hnext : header.nextHop = nextHop := by rw [heq]; rfl
  constructor
  · rintro ⟨header', ha⟩
    obtain ⟨_, hvalid⟩ := valid_of_accepted houter ha
    have hend' : (retried cached nextHop remainingDeadlineMs).endCounter ≤ kMaxCryptoCounter := by
      rw [heq] at hend
      exact hend
    refine hvalid.fill (hnext ▸ hunicast) ?_ (by show (0 : UInt64) ≤ kMaxCryptoCounter; decide) hend'
    rw [heq]
  · intro hvalid
    have hvalid' : Valid header := by
      refine hvalid.fill hunicast ?_ hlink hend
      rw [heq]
    refine ⟨header, wrapLink_accepted houter hvalid' ?_ (hnext ▸ hunicast)⟩
    have hflag : header.endProtected = true := by rw [heq]; exact hprotected
    have hpayload : header.payloadLength = cached.header.payloadLength := by rw [heq]; rfl
    rw [Header.plainLength, if_pos hflag, hpayload, hlength]

/-- A provider that encrypts nothing. -/
def samplePlain : SecurityProvider Unit :=
  { ready := fun _ => true
    txEpoch := fun _ _ epoch => pure epoch
    txGroupLinkEpochs := fun boot g => pure (boot, g)
    nextCounter := fun _ => pure 0
    sealFrame := fun _ _ _ plaintext => pure (⟨plaintext.toArray, List.size_toArray⟩, .replicate 16 0)
    openFrame := fun _ _ _ ciphertext _ => pure ⟨ciphertext.toArray, List.size_toArray⟩ }

/-- A frame from node 1 to its neighbour 2, with no hop left. -/
def sampleLastHop : PlainFrame :=
  { header :=
      { flags := kFlagEndProtected, hopRemaining := 0, network := 7, origin := 1, destination := 2
        previousHop := 1, nextHop := 2, remainingDeadlineMs := 1000, originalLifetimeMs := 1000 } }

end RouteLoom.Wire
