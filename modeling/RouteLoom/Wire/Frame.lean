import RouteLoom.Wire.Header
import RouteLoom.Lib.Sha256

/-!
# Sealing, opening and forwarding frames

The codec of `wire.cpp`. A frame has a header and up to two layers of protection: the end layer, from
the origin to the destination, and around it the link layer of each hop. A relay takes the link layer
off and puts a new one on.

The security provider is code behind an interface, so it is a parameter, with a state of its own. Its
output buffers have the size of their inputs, which the types of `sealFrame` and `openFrame` say.
-/

namespace RouteLoom

open Lib

/-- The calls of a security provider that the codec makes. -/
structure SecurityProvider (σ : Type) where
  ready : σ → Bool
  txEpoch : SecurityScope → NodeId → UInt32 → Op σ Status UInt32
  txGroupLinkEpochs : UInt32 → UInt32 → Op σ Status (UInt32 × UInt32)
  nextCounter : SecurityContext → Op σ Status UInt64
  sealFrame : SecurityContext → UInt64 → List UInt8 → (plaintext : List UInt8) →
    Op σ Status (Vector UInt8 plaintext.length × AeadTag)
  openFrame : SecurityContext → UInt64 → List UInt8 → (ciphertext : List UInt8) → AeadTag →
    Op σ Status (Vector UInt8 ciphertext.length)

namespace Wire

structure PlainFrame where
  header : Header := {}
  payload : List UInt8 := []
  deriving DecidableEq

structure LinkOpenedFrame where
  header : Header := {}
  protectedPayload : List UInt8 := []
  deriving DecidableEq

def linkContext (header : Header) : SecurityContext :=
  if header.type == .routeUpdate && header.nextHop == kBroadcastNodeId then
    { scope := .groupLink, network := header.network, sender := header.previousHop
      receiver := kBroadcastNodeId, epoch := header.linkEpoch, groupEpoch := header.endEpoch }
  else
    { scope := .link, network := header.network, sender := header.previousHop
      receiver := header.nextHop, epoch := header.linkEpoch }

def endContext (header : Header) : SecurityContext :=
  if header.type == .groupData then
    { scope := .group, network := header.network, sender := header.origin
      receiver := kBroadcastNodeId, epoch := header.endEpoch, groupEpoch := 0
      senderBoot := header.message.session, groupId := header.destination }
  else
    { scope := .endToEnd, network := header.network, sender := header.origin
      receiver := header.destination, epoch := header.endEpoch }

/-- What the end layer authenticates of the header. -/
def makeEndAad (header : Header) : Except Status (List UInt8) := do
  let endCounter ← writeU48 header.endCounter
  .ok (bigEndian 1 kMajor.toUInt64 ++ bigEndian 1 header.minor.toUInt64 ++
    bigEndian 1 header.type.code.toUInt64 ++ bigEndian 1 header.flags.toUInt64 ++
    bigEndian 1 header.delivery.code.toUInt64 ++ bigEndian 4 header.network.toUInt32.toUInt64 ++
    bigEndian 8 header.origin ++ bigEndian 8 header.destination ++
    bigEndian 4 header.message.session.toUInt64 ++ bigEndian 8 header.message.sequence ++
    bigEndian 4 header.originalLifetimeMs.toUInt64 ++ bigEndian 4 header.endEpoch.toUInt64 ++
    endCounter ++ bigEndian 2 header.payloadLength.toUInt64)

variable {σ : Type} (security : SecurityProvider σ)

variable (header : Header)

def stampLinkEpoch : Op σ Status Header :=
  if header.nextHop == kBroadcastNodeId then do
    let (linkEpoch, endEpoch) ← security.txGroupLinkEpochs header.linkEpoch header.endEpoch
    pure { header with linkEpoch, endEpoch }
  else do
    let linkEpoch ← security.txEpoch .link header.nextHop header.linkEpoch
    pure { header with linkEpoch }

def stampEndEpoch : Op σ Status Header := do
  let context := endContext header
  let endEpoch ← security.txEpoch context.scope context.receiver header.endEpoch
  pure { header with endEpoch }

def drawLinkCounter : Op σ Status Header := do
  let linkCounter ← security.nextCounter (linkContext header)
  pure { header with linkCounter }

def drawEndCounter : Op σ Status Header := do
  let endCounter ← security.nextCounter (endContext header)
  pure { header with endCounter }

/-- Put the link layer around a plaintext. -/
def wrapLink (plaintext : List UInt8) : Op σ Status (List UInt8) := do
  Op.check (refuse (kHeaderSize + plaintext.length + kAeadTagSize > kMaxEspNowBody)
    ⟨.noCapacity, "encoded frame exceeds ESP-NOW v1 body"⟩)
  let front ← Op.check (writeHeader header)
  let (ciphertext, tag) ←
    security.sealFrame (linkContext header) header.linkCounter front plaintext
  pure (front ++ ciphertext.toList ++ tag.toList)

/-- Put the end layer around a payload: the ciphertext and its tag. -/
def protect (payload : List UInt8) : Op σ Status (List UInt8) := do
  let aad ← Op.check (makeEndAad header)
  let (ciphertext, tag) ← security.sealFrame (endContext header) header.endCounter aad payload
  pure (ciphertext.toList ++ tag.toList)

/-- Take the end layer off. -/
def unprotect (frame : LinkOpenedFrame) : Op σ Status PlainFrame := do
  let aad ← Op.check (makeEndAad frame.header)
  let ciphertext := frame.protectedPayload.take frame.header.payloadLength.toNat
  let tag := Vector.ofFn fun i : Fin 16 =>
    frame.protectedPayload.getD (frame.header.payloadLength.toNat + i.val) 0
  let payload ←
    security.openFrame (endContext frame.header) frame.header.endCounter aad ciphertext tag
  pure { header := frame.header, payload := payload.toList }

/-- The end epoch, if the frame has an end layer. -/
def stampEndIfProtected : Op σ Status Header :=
  if header.endProtected then stampEndEpoch security header else pure header

/-- The link plaintext of a new frame, and the header with the end counter it used. -/
def linkPlaintext (payload : List UInt8) : Op σ Status (Header × List UInt8) :=
  if header.endProtected then do
    let header ← drawEndCounter security header
    let plaintext ← protect security header payload
    pure (header, plaintext)
  else pure (header, payload)

/-- A new frame: its bytes, and the end envelope for retries if it has one. -/
def encodeNew (input : PlainFrame) : Op σ Status (List UInt8 × Option LinkOpenedFrame) := do
  let state ← Op.get
  Op.check (refuse (!security.ready state) ⟨.invalidState, "security provider is not ready"⟩)
  Op.check (refuse (input.payload.length > kMaxApplicationPayload)
    ⟨.invalidArgument, "application payload too large"⟩)
  let header := { input.header with payloadLength := input.payload.length.toUInt8 }
  Op.check (validateHeader header)
  let header ← stampLinkEpoch security header
  Op.check (refuse (header.nextHop == kBroadcastNodeId &&
    (header.linkEpoch == 0 || header.endEpoch == 0)) ⟨.authRequired, "GroupLink epochs unavailable"⟩)
  let header ← stampEndIfProtected security header
  let header ← drawLinkCounter security header
  let (header, plaintext) ← linkPlaintext security header input.payload
  let bytes ← wrapLink security header plaintext
  pure (bytes, if header.endProtected then some ⟨header, plaintext⟩ else none)

/-- Send an end envelope once more, with a fresh link layer. -/
def retryLocal (cached : LinkOpenedFrame) (nextHop : NodeId) (remainingDeadlineMs : UInt32) :
    Op σ Status (List UInt8) := do
  let original := cached.header
  Op.check (refuse (!original.endProtected || original.payloadLength.toNat > kMaxApplicationPayload ||
    cached.protectedPayload.length != original.payloadLength.toNat + kAeadTagSize ||
    nextHop == kInvalidNodeId || remainingDeadlineMs == 0)
    ⟨.invalidArgument, "invalid cached End envelope"⟩)
  let header :=
    { original with
      nextHop
      remainingDeadlineMs := min remainingDeadlineMs original.remainingDeadlineMs }
  let header ← stampLinkEpoch security header
  let header ← drawLinkCounter security header
  wrapLink security header cached.protectedPayload

/-- The length of the link plaintext that the header announces. -/
def Header.plainLength : Nat :=
  header.payloadLength.toNat + if header.endProtected then kAeadTagSize else 0

/-- The checks of `open_link` up to the provider. -/
def checkLink (encoded : List UInt8) (localNode : NodeId) (allowBroadcastRoute : Bool) :
    Except Status Header := do
  let header ← readHeader encoded
  refuse (header.nextHop != localNode && !(allowBroadcastRoute && header.type == .routeUpdate &&
    header.nextHop == kBroadcastNodeId && localNode != kBroadcastNodeId))
    ⟨.authorizationFailed, "frame is not addressed to this hop"⟩
  refuse (header.nextHop == kBroadcastNodeId && (header.linkEpoch == 0 || header.endEpoch == 0))
    ⟨.protocolError, "invalid GroupLink epochs"⟩
  refuse (encoded.length != kHeaderSize + header.plainLength + kAeadTagSize ||
    header.plainLength > kMaxApplicationPayload + kAeadTagSize)
    ⟨.protocolError, "wire length mismatch"⟩
  .ok header

/-- Take the link layer off. -/
def openLink (encoded : List UInt8) (localNode : NodeId) (allowBroadcastRoute : Bool) :
    Op σ Status LinkOpenedFrame := do
  let header ← Op.check (checkLink encoded localNode allowBroadcastRoute)
  let ciphertext := (encoded.drop kHeaderSize).take header.plainLength
  let tag := Vector.ofFn fun i : Fin 16 =>
    encoded.getD (kHeaderSize + header.plainLength + i.val) 0
  let plaintext ← security.openFrame (linkContext header) header.linkCounter
    (encoded.take kHeaderSize) ciphertext tag
  pure { header, protectedPayload := plaintext.toList }

/-- Take the end layer off at the destination. -/
def openEnd (input : LinkOpenedFrame) (localNode : NodeId) : Op σ Status PlainFrame := do
  Op.check (refuse (input.header.destination != localNode)
    ⟨.authorizationFailed, "end payload is not addressed to this node"⟩)
  Op.check (refuse (input.header.type == .groupData)
    ⟨.authorizationFailed, "group frame requires open_group"⟩)
  Op.check (refuse (input.header.payloadLength.toNat > kMaxApplicationPayload ||
    input.protectedPayload.length > kMaxApplicationPayload + kAeadTagSize)
    ⟨.protocolError, "frame field out of range"⟩)
  if !input.header.endProtected then do
    Op.check (refuse (input.protectedPayload.length != input.header.payloadLength.toNat)
      ⟨.protocolError, "plain control payload length mismatch"⟩)
    pure { header := input.header, payload := input.protectedPayload }
  else do
    Op.check (refuse
      (input.protectedPayload.length != input.header.payloadLength.toNat + kAeadTagSize)
      ⟨.protocolError, "protected payload length mismatch"⟩)
    unprotect security input

/-- Put a new link layer on an opened frame, for the next hop. -/
def forward (input : LinkOpenedFrame) (localNode nextHop : NodeId) (linkEpoch : UInt32)
    (remainingDeadlineMs : UInt32) : Op σ Status (List UInt8) := do
  Op.check (refuse (input.header.nextHop != localNode || input.header.destination == localNode ||
    nextHop == kInvalidNodeId || nextHop == localNode)
    ⟨.invalidState, "frame is not forwardable by this node"⟩)
  Op.check (refuse (input.header.payloadLength.toNat > kMaxApplicationPayload ||
    input.protectedPayload.length != input.header.plainLength)
    ⟨.protocolError, "frame field out of range"⟩)
  Op.check (refuse (input.header.hopRemaining ≤ 1 || remainingDeadlineMs == 0)
    ⟨.expired, "forwarding budget exhausted"⟩)
  let header :=
    { input.header with
      previousHop := localNode
      nextHop
      linkEpoch
      hopRemaining := input.header.hopRemaining - 1
      remainingDeadlineMs := min remainingDeadlineMs input.header.remainingDeadlineMs }
  let header ← stampLinkEpoch security header
  let header ← drawLinkCounter security header
  wrapLink security header input.protectedPayload

/-- The bytes of "RouteLoom/transit-fingerprint/v1" with the closing zero. -/
def kTransitDomain : List UInt8 :=
  [0x52, 0x6f, 0x75, 0x74, 0x65, 0x4c, 0x6f, 0x6f, 0x6d, 0x2f, 0x74, 0x72, 0x61, 0x6e, 0x73, 0x69,
    0x74, 0x2d, 0x66, 0x69, 0x6e, 0x67, 0x65, 0x72, 0x70, 0x72, 0x69, 0x6e, 0x74, 0x2f, 0x76, 0x31,
    0x00]

def transitFingerprint (frame : LinkOpenedFrame) : Except Status (List UInt8) := do
  let aad ← makeEndAad frame.header
  refuse (frame.protectedPayload.length > kMaxApplicationPayload + kAeadTagSize)
    ⟨.protocolError, "protected payload range"⟩
  .ok (Sha256.digest (kTransitDomain ++ aad ++ frame.protectedPayload))

end Wire

end RouteLoom
