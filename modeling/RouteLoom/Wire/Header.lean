import RouteLoom.Wire.Bytes

/-!
# The frame header

`Header` of `wire.hpp` with `write_header`, `read_header` and `validate_header` of `wire.cpp`. The 88
bytes of a header are 23 fields of fixed width, so what is written and what is read are the two sides of
one layout.

* `readFields_eq_ok` : the reader accepts exactly the bytes of the layout
* `readHeader_writeHeader` : a valid header that was written is read back
* `writeHeader_readHeader` : a header that was read is written back to the same bytes
-/

namespace RouteLoom.Wire

open Lib List

def kMagic : UInt16 := 0x524c
def kMajor : UInt8 := 2
def kMinor : UInt8 := 0
def kHeaderSize : Nat := 88
def kFlagEndProtected : UInt8 := 0x01
def kTrafficNormal : UInt8 := 0
def kExtensionTypeFirst : UInt8 := 64
def kExtensionTypeLast : UInt8 := 95

def isExtensionType (type : FrameType) : Bool :=
  type.code ≥ kExtensionTypeFirst && type.code ≤ kExtensionTypeLast

def knownFrameType (value : UInt8) : Bool :=
  [FrameType.discover, .offer, .bootstrapAuth, .membershipResult, .bootstrapChunk, .bootstrapReply,
    .membershipQuery, .data, .hopAccept, .endReceipt, .appResult, .busy, .service, .control, .timeSync,
    .channelNotice, .groupData, .groupReport, .routeUpdate, .routeWithdraw, .seqnoRequest,
    .routeRequest, .neighborProbe, .neighborResult, .diagnostic, .controlObject, .objectChunk,
    .objectAck, .appObjectStart, .appObjectChunk, .appObjectAck].contains ⟨value⟩ ||
    isExtensionType ⟨value⟩

structure Header where
  type : FrameType := .data
  flags : UInt8 := 0
  delivery : DeliveryClass := .reliable
  deliveryRound : UInt8 := 0
  hopRemaining : UInt8 := kDefaultHopLimit
  minor : UInt8 := kMinor
  traffic : UInt8 := kTrafficNormal
  payloadLength : UInt8 := 0
  network : NetworkId := 0
  origin : NodeId := kInvalidNodeId
  destination : NodeId := kInvalidNodeId
  previousHop : NodeId := kInvalidNodeId
  nextHop : NodeId := kInvalidNodeId
  message : MessageId := {}
  remainingDeadlineMs : UInt32 := 0
  originalLifetimeMs : UInt32 := 0
  linkEpoch : UInt32 := 0
  endEpoch : UInt32 := 0
  linkCounter : UInt64 := 0
  endCounter : UInt64 := 0
  deriving DecidableEq, Repr

def Header.endProtected (header : Header) : Bool := header.flags &&& kFlagEndProtected != 0

/-! ## Validation -/

/-- A frame to all neighbours is a route update of one hop. -/
def badBroadcast (header : Header) : Bool :=
  (header.nextHop == kBroadcastNodeId ||
      header.type == .routeUpdate && header.destination == kBroadcastNodeId) &&
    (header.type != .routeUpdate || header.nextHop != kBroadcastNodeId ||
      header.destination != kBroadcastNodeId || header.origin != header.previousHop ||
      header.origin == kBroadcastNodeId || header.hopRemaining != 1 ||
      header.delivery != .bestEffort || header.deliveryRound != 0 || header.flags != 0 ||
      header.endCounter != 0)

def validateHeader (header : Header) : Except Status Unit := do
  refuse (!knownFrameType header.type.code) ⟨.invalidArgument, "unknown frame type"⟩
  refuse (header.delivery.code > DeliveryClass.applied.code)
    ⟨.invalidArgument, "unknown delivery class"⟩
  refuse (header.network == 0 || header.network > 0xFFFFFFFF || header.origin == kInvalidNodeId ||
    header.destination == kInvalidNodeId || header.previousHop == kInvalidNodeId ||
    header.nextHop == kInvalidNodeId) ⟨.invalidArgument, "wire identity field is invalid"⟩
  refuse (badBroadcast header) ⟨.protocolError, "invalid broadcast route header"⟩
  refuse (header.payloadLength.toNat > kMaxApplicationPayload)
    ⟨.invalidArgument, "payload exceeds v1 limit"⟩
  refuse (header.hopRemaining == 0 && header.destination != header.nextHop)
    ⟨.invalidArgument, "hop budget exhausted before destination"⟩
  refuse (header.flags &&& ~~~kFlagEndProtected != 0) ⟨.protocolError, "unknown wire flags"⟩
  refuse (header.linkCounter > kMaxCryptoCounter || header.endCounter > kMaxCryptoCounter)
    ⟨.invalidArgument, "crypto counter exceeds 48 bits"⟩
  refuse (header.originalLifetimeMs == 0 ||
    header.remainingDeadlineMs > header.originalLifetimeMs) ⟨.invalidArgument, "invalid lifetime"⟩

/-- What validation establishes. -/
structure Valid (header : Header) : Prop where
  type : knownFrameType header.type.code = true
  delivery : header.delivery.code ≤ DeliveryClass.applied.code
  network : header.network ≠ 0 ∧ header.network ≤ 0xFFFFFFFF
  origin : header.origin ≠ kInvalidNodeId
  destination : header.destination ≠ kInvalidNodeId
  previousHop : header.previousHop ≠ kInvalidNodeId
  nextHop : header.nextHop ≠ kInvalidNodeId
  broadcast : badBroadcast header = false
  payloadLength : header.payloadLength.toNat ≤ kMaxApplicationPayload
  hops : header.hopRemaining = 0 → header.destination = header.nextHop
  flags : header.flags &&& ~~~kFlagEndProtected = 0
  linkCounter : header.linkCounter ≤ kMaxCryptoCounter
  endCounter : header.endCounter ≤ kMaxCryptoCounter
  lifetime : header.originalLifetimeMs ≠ 0
  deadline : header.remainingDeadlineMs ≤ header.originalLifetimeMs

theorem validateHeader_eq_ok {header : Header} {u : Unit} : validateHeader header = .ok u ↔ Valid header := by
  unfold validateHeader
  simp only [refuse_bind_eq_ok, refuse_eq_ok, Bool.or_eq_false_iff, Bool.and_eq_false_iff,
    Bool.not_eq_false', beq_eq_false_iff_ne, bne_eq_false_iff_eq, decide_eq_false_iff_not, ne_eq,
    UInt64.not_lt, UInt32.not_lt, UInt8.not_lt, gt_iff_lt, Nat.not_lt]
  constructor
  · rintro ⟨ht, hd, ⟨⟨⟨⟨⟨hn, hn'⟩, ho⟩, hdst⟩, hp⟩, hnext⟩, hb, hl, hh, hf, ⟨hc, hc'⟩, hlife, hdead⟩
    exact ⟨ht, hd, ⟨hn, hn'⟩, ho, hdst, hp, hnext, hb, hl,
      fun h0 => hh.resolve_left fun h => h h0, hf, hc, hc', hlife, hdead⟩
  · intro h
    exact ⟨h.type, h.delivery, ⟨⟨⟨⟨⟨h.network.1, h.network.2⟩, h.origin⟩, h.destination⟩,
      h.previousHop⟩, h.nextHop⟩, h.broadcast, h.payloadLength, Decidable.or_iff_not_imp_left.mpr
        fun h0 => h.hops (not_not.mp h0), h.flags, ⟨h.linkCounter, h.endCounter⟩, h.lifetime,
      h.deadline⟩

/-! ## Layout -/

/-- The version, type and flags, bytes 0 to 5. -/
structure Prelude where
  magic : UInt16
  major : UInt8
  minor : UInt8
  type : UInt8
  flags : UInt8
  deriving DecidableEq

/-- How the frame is delivered, bytes 6 to 11. -/
structure Contract where
  delivery : UInt8
  deliveryRound : UInt8
  hopRemaining : UInt8
  traffic : UInt8
  payloadLength : UInt16
  deriving DecidableEq

/-- The network and the nodes, bytes 12 to 47. -/
structure Addresses where
  network : UInt32
  origin : UInt64
  destination : UInt64
  previousHop : UInt64
  nextHop : UInt64
  deriving DecidableEq

/-- The message and its lifetime, bytes 48 to 67. -/
structure Message where
  session : UInt32
  sequence : UInt64
  remainingDeadlineMs : UInt32
  originalLifetimeMs : UInt32
  deriving DecidableEq

/-- Epochs and counters, bytes 68 to 87. -/
structure Crypto where
  linkEpoch : UInt32
  endEpoch : UInt32
  linkCounter : UInt64
  endCounter : UInt64
  deriving DecidableEq

/-- The fields as they stand in the 88 bytes. -/
structure Fields where
  prelude : Prelude
  contract : Contract
  addresses : Addresses
  message : Message
  crypto : Crypto
  deriving DecidableEq

def preludeBytes (f : Prelude) (rest : List UInt8) : List UInt8 :=
  bigEndian 2 f.magic.toUInt64 ++ (bigEndian 1 f.major.toUInt64 ++ (bigEndian 1 f.minor.toUInt64
  ++ (bigEndian 1 f.type.toUInt64 ++ (bigEndian 1 f.flags.toUInt64 ++ rest))))

def contractBytes (f : Contract) (rest : List UInt8) : List UInt8 :=
  bigEndian 1 f.delivery.toUInt64 ++ (bigEndian 1 f.deliveryRound.toUInt64 ++ (bigEndian 1
  f.hopRemaining.toUInt64 ++ (bigEndian 1 f.traffic.toUInt64 ++ (bigEndian 2
  f.payloadLength.toUInt64 ++ rest))))

def addressesBytes (f : Addresses) (rest : List UInt8) : List UInt8 :=
  bigEndian 4 f.network.toUInt64 ++ (bigEndian 8 f.origin ++ (bigEndian 8 f.destination ++
  (bigEndian 8 f.previousHop ++ (bigEndian 8 f.nextHop ++ rest))))

def messageBytes (f : Message) (rest : List UInt8) : List UInt8 :=
  bigEndian 4 f.session.toUInt64 ++ (bigEndian 8 f.sequence ++ (bigEndian 4
  f.remainingDeadlineMs.toUInt64 ++ (bigEndian 4 f.originalLifetimeMs.toUInt64 ++ rest)))

def cryptoBytes (f : Crypto) (rest : List UInt8) : List UInt8 :=
  bigEndian 4 f.linkEpoch.toUInt64 ++ (bigEndian 4 f.endEpoch.toUInt64 ++ (bigEndian 6
  f.linkCounter ++ (bigEndian 6 f.endCounter ++ rest)))

/-- The bytes of the fields, followed by `rest`. -/
def fieldBytes (f : Fields) (rest : List UInt8) : List UInt8 :=
  preludeBytes f.prelude (contractBytes f.contract (addressesBytes f.addresses
    (messageBytes f.message (cryptoBytes f.crypto rest))))

def readPrelude : ReadOp Prelude := do
  let magic ← readU16
  let major ← readU8
  let minor ← readU8
  let type ← readU8
  let flags ← readU8
  pure { magic, major, minor, type, flags }

def readContract : ReadOp Contract := do
  let delivery ← readU8
  let deliveryRound ← readU8
  let hopRemaining ← readU8
  let traffic ← readU8
  let payloadLength ← readU16
  pure { delivery, deliveryRound, hopRemaining, traffic, payloadLength }

def readAddresses : ReadOp Addresses := do
  let network ← readU32
  let origin ← readU64
  let destination ← readU64
  let previousHop ← readU64
  let nextHop ← readU64
  pure { network, origin, destination, previousHop, nextHop }

def readMessage : ReadOp Message := do
  let session ← readU32
  let sequence ← readU64
  let remainingDeadlineMs ← readU32
  let originalLifetimeMs ← readU32
  pure { session, sequence, remainingDeadlineMs, originalLifetimeMs }

def readCrypto : ReadOp Crypto := do
  let linkEpoch ← readU32
  let endEpoch ← readU32
  let linkCounter ← readU48
  let endCounter ← readU48
  pure { linkEpoch, endEpoch, linkCounter, endCounter }

def readFields : ReadOp Fields := do
  let prelude ← readPrelude
  let contract ← readContract
  let addresses ← readAddresses
  let message ← readMessage
  let crypto ← readCrypto
  pure { prelude, contract, addresses, message, crypto }

theorem length_fieldBytes (f : Fields) (rest : List UInt8) :
    (fieldBytes f rest).length = kHeaderSize + rest.length := by
  unfold fieldBytes preludeBytes contractBytes addressesBytes messageBytes cryptoBytes kHeaderSize
  simp only [length_append, length_bigEndian]
  omega

theorem readPrelude_eq_ok {source rest : List UInt8} {f : Prelude} :
    readPrelude source = (.ok f, rest) ↔ source = preludeBytes f rest := by
  unfold readPrelude
  simp only [Op.bind_eq_ok, Op.pure_eq_ok, readU8_eq_ok, readU16_eq_ok]
  constructor
  · rintro ⟨_, _, rfl, _, _, rfl, _, _, rfl, _, _, rfl, _, _, rfl, rfl, rfl⟩
    rfl
  · rintro rfl
    exact ⟨_, _, rfl, _, _, rfl, _, _, rfl, _, _, rfl, _, _, rfl, rfl, rfl⟩

theorem readContract_eq_ok {source rest : List UInt8} {f : Contract} :
    readContract source = (.ok f, rest) ↔ source = contractBytes f rest := by
  unfold readContract
  simp only [Op.bind_eq_ok, Op.pure_eq_ok, readU8_eq_ok, readU16_eq_ok]
  constructor
  · rintro ⟨_, _, rfl, _, _, rfl, _, _, rfl, _, _, rfl, _, _, rfl, rfl, rfl⟩
    rfl
  · rintro rfl
    exact ⟨_, _, rfl, _, _, rfl, _, _, rfl, _, _, rfl, _, _, rfl, rfl, rfl⟩

theorem readAddresses_eq_ok {source rest : List UInt8} {f : Addresses} :
    readAddresses source = (.ok f, rest) ↔ source = addressesBytes f rest := by
  unfold readAddresses
  simp only [Op.bind_eq_ok, Op.pure_eq_ok, readU32_eq_ok, readU64_eq_ok]
  constructor
  · rintro ⟨_, _, rfl, _, _, rfl, _, _, rfl, _, _, rfl, _, _, rfl, rfl, rfl⟩
    rfl
  · rintro rfl
    exact ⟨_, _, rfl, _, _, rfl, _, _, rfl, _, _, rfl, _, _, rfl, rfl, rfl⟩

theorem readMessage_eq_ok {source rest : List UInt8} {f : Message} :
    readMessage source = (.ok f, rest) ↔ source = messageBytes f rest := by
  unfold readMessage
  simp only [Op.bind_eq_ok, Op.pure_eq_ok, readU32_eq_ok, readU64_eq_ok]
  constructor
  · rintro ⟨_, _, rfl, _, _, rfl, _, _, rfl, _, _, rfl, rfl, rfl⟩
    rfl
  · rintro rfl
    exact ⟨_, _, rfl, _, _, rfl, _, _, rfl, _, _, rfl, rfl, rfl⟩

theorem readCrypto_eq_ok {source rest : List UInt8} {f : Crypto} :
    readCrypto source = (.ok f, rest) ↔ source = cryptoBytes f rest ∧ f.linkCounter ≤ kMaxCryptoCounter ∧
        f.endCounter ≤ kMaxCryptoCounter := by
  unfold readCrypto
  simp only [Op.bind_eq_ok, Op.pure_eq_ok, readU32_eq_ok, readU48_eq_ok]
  constructor
  · rintro ⟨_, _, rfl, _, _, rfl, _, _, ⟨rfl, hlink⟩, _, _, ⟨rfl, hend⟩, rfl, rfl⟩
    exact ⟨rfl, hlink, hend⟩
  · rintro ⟨rfl, hlink, hend⟩
    exact ⟨_, _, rfl, _, _, rfl, _, _, ⟨rfl, hlink⟩, _, _, ⟨rfl, hend⟩, rfl, rfl⟩

theorem readFields_eq_ok {source rest : List UInt8} {f : Fields} :
    readFields source = (.ok f, rest) ↔
      source = fieldBytes f rest ∧ f.crypto.linkCounter ≤ kMaxCryptoCounter ∧
        f.crypto.endCounter ≤ kMaxCryptoCounter := by
  unfold readFields
  simp only [Op.bind_eq_ok, Op.pure_eq_ok, readPrelude_eq_ok, readContract_eq_ok, readAddresses_eq_ok,
    readMessage_eq_ok, readCrypto_eq_ok]
  constructor
  · rintro ⟨_, _, rfl, _, _, rfl, _, _, rfl, _, _, rfl, _, _, ⟨rfl, hlink, hend⟩, rfl, rfl⟩
    exact ⟨rfl, hlink, hend⟩
  · rintro ⟨rfl, hlink, hend⟩
    exact ⟨_, _, rfl, _, _, rfl, _, _, rfl, _, _, rfl, _, _, ⟨rfl, hlink, hend⟩, rfl, rfl⟩

/-! ## Writing and reading -/

/-- The values `write_header` writes. -/
def Header.fields (header : Header) : Fields :=
  { prelude :=
      { magic := kMagic, major := kMajor, minor := header.minor, type := header.type.code
        flags := header.flags }
    contract :=
      { delivery := header.delivery.code, deliveryRound := header.deliveryRound
        hopRemaining := header.hopRemaining, traffic := header.traffic
        payloadLength := header.payloadLength.toUInt16 }
    addresses :=
      { network := header.network.toUInt32, origin := header.origin
        destination := header.destination, previousHop := header.previousHop
        nextHop := header.nextHop }
    message :=
      { session := header.message.session, sequence := header.message.sequence
        remainingDeadlineMs := header.remainingDeadlineMs
        originalLifetimeMs := header.originalLifetimeMs }
    crypto :=
      { linkEpoch := header.linkEpoch, endEpoch := header.endEpoch
        linkCounter := header.linkCounter, endCounter := header.endCounter } }

/-- The header `read_header` makes of the fields. -/
def Fields.header (f : Fields) : Header :=
  { type := ⟨f.prelude.type⟩
    flags := f.prelude.flags
    delivery := ⟨f.contract.delivery⟩
    deliveryRound := f.contract.deliveryRound
    hopRemaining := f.contract.hopRemaining
    minor := f.prelude.minor
    traffic := f.contract.traffic
    payloadLength := f.contract.payloadLength.toUInt8
    network := f.addresses.network.toUInt64
    origin := f.addresses.origin
    destination := f.addresses.destination
    previousHop := f.addresses.previousHop
    nextHop := f.addresses.nextHop
    message := ⟨f.message.session, f.message.sequence⟩
    remainingDeadlineMs := f.message.remainingDeadlineMs
    originalLifetimeMs := f.message.originalLifetimeMs
    linkEpoch := f.crypto.linkEpoch
    endEpoch := f.crypto.endEpoch
    linkCounter := f.crypto.linkCounter
    endCounter := f.crypto.endCounter }

def writeHeader (header : Header) : Except Status (List UInt8) := do
  refuse (header.network > 0xFFFFFFFF) ⟨.invalidArgument, "v1 network id exceeds 32 bits"⟩
  -- the counters are the last fields, and the only ones whose writer can refuse
  let _ ← writeU48 header.linkCounter
  let _ ← writeU48 header.endCounter
  .ok (fieldBytes header.fields [])

def readHeader (encoded : List UInt8) : Except Status Header := do
  refuse (encoded.length < kHeaderSize + kAeadTagSize) ⟨.protocolError, "wire frame too short"⟩
  let f ← (readFields (encoded.take kHeaderSize)).1
  refuse (f.prelude.magic != kMagic || f.prelude.major != kMajor) ⟨.protocolError, "unsupported wire header"⟩
  refuse (f.contract.payloadLength.toNat > kMaxApplicationPayload)
    ⟨.protocolError, "payload exceeds v1 limit"⟩
  refuse (!knownFrameType f.prelude.type) ⟨.protocolError, "unknown frame type"⟩
  refuse (f.contract.delivery > DeliveryClass.applied.code) ⟨.protocolError, "unknown delivery class"⟩
  validateHeader f.header
  .ok f.header

theorem writeHeader_eq_ok {header : Header} {bytes : List UInt8} :
    writeHeader header = .ok bytes ↔ header.network ≤ 0xFFFFFFFF ∧ header.linkCounter ≤ kMaxCryptoCounter ∧
        header.endCounter ≤ kMaxCryptoCounter ∧ bytes = fieldBytes header.fields [] := by
  unfold writeHeader
  simp only [bind_eq_ok, refuse_eq_ok, exists_const, writeU48_eq_ok, decide_eq_false_iff_not, gt_iff_lt,
    UInt64.not_lt, Except.ok.injEq]
  constructor
  · rintro ⟨hn, _, ⟨hl, _⟩, _, ⟨he, _⟩, rfl⟩
    exact ⟨hn, hl, he, rfl⟩
  · rintro ⟨hn, hl, he, rfl⟩
    exact ⟨hn, _, ⟨hl, rfl⟩, _, ⟨he, rfl⟩, rfl⟩

theorem length_writeHeader {header : Header} {bytes : List UInt8}
    (h : writeHeader header = .ok bytes) : bytes.length = kHeaderSize := by
  rw [(writeHeader_eq_ok.mp h).2.2.2, length_fieldBytes]
  rfl

/-- What reading establishes: the front of the bytes is the layout of the fields. -/
theorem readHeader_eq_ok {encoded : List UInt8} {header : Header} :
    readHeader encoded = .ok header ↔ kHeaderSize + kAeadTagSize ≤ encoded.length ∧ ∃ f : Fields,
        encoded.take kHeaderSize = fieldBytes f [] ∧ f.prelude.magic = kMagic ∧ f.prelude.major = kMajor ∧
          f.contract.payloadLength.toNat ≤ kMaxApplicationPayload ∧ f.header = header ∧ Valid header := by
  unfold readHeader
  simp only [bind_eq_ok, refuse_eq_ok, exists_const, validateHeader_eq_ok, decide_eq_false_iff_not,
    Nat.not_lt, gt_iff_lt, Bool.or_eq_false_iff, bne_eq_false_iff_eq, Bool.not_eq_false', UInt8.not_lt,
    Except.ok.injEq]
  constructor
  · rintro ⟨hlength, f, hread, ⟨hmagic, hmajor⟩, hpayload, _, _, hvalid, rfl⟩
    cases hr : readFields (encoded.take kHeaderSize) with
    | mk r rest =>
      rw [hr] at hread
      obtain rfl : r = .ok f := hread
      obtain ⟨hsource, _, _⟩ := readFields_eq_ok.mp hr
      -- the 88 bytes hold the fields and nothing else
      have hrest : rest = [] := by
        have hlen := congrArg List.length hsource
        rw [length_fieldBytes, length_take, Nat.min_eq_left (by omega)] at hlen
        exact length_eq_zero_iff.mp (by omega)
      rw [hrest] at hsource
      exact ⟨hlength, f, hsource, hmagic, hmajor, hpayload, rfl, hvalid⟩
  · rintro ⟨hlength, f, hsource, hmagic, hmajor, hpayload, rfl, hvalid⟩
    have hread : readFields (encoded.take kHeaderSize) = (.ok f, []) :=
      readFields_eq_ok.mpr ⟨hsource, hvalid.linkCounter, hvalid.endCounter⟩
    exact ⟨hlength, f, by rw [hread], ⟨hmagic, hmajor⟩, hpayload, hvalid.type, hvalid.delivery, hvalid, rfl⟩

theorem header_fields {header : Header} (hnetwork : header.network ≤ 0xFFFFFFFF) :
    header.fields.header = header := by
  have hn : header.network.toUInt32.toUInt64 = header.network := by
    apply UInt64.toNat_inj.mp
    have hle : header.network.toNat ≤ 0xFFFFFFFF := hnetwork
    rw [UInt32.toNat_toUInt64, UInt64.toNat_toUInt32]
    exact Nat.mod_eq_of_lt (by omega)
  have hp : header.payloadLength.toUInt16.toUInt8 = header.payloadLength :=
    UInt8.toUInt8_toUInt16 _
  unfold Header.fields Fields.header
  simp only [hn, hp]

theorem fields_header {f : Fields} (hmagic : f.prelude.magic = kMagic) (hmajor : f.prelude.major = kMajor)
    (hpayload : f.contract.payloadLength.toNat ≤ kMaxApplicationPayload) : f.header.fields = f := by
  have hn : f.addresses.network.toUInt64.toUInt32 = f.addresses.network := UInt32.toUInt32_toUInt64 _
  have hp : f.contract.payloadLength.toUInt8.toUInt16 = f.contract.payloadLength := by
    apply UInt16.toNat_inj.mp
    rw [UInt8.toNat_toUInt16, UInt16.toNat_toUInt8]
    exact Nat.mod_eq_of_lt (Nat.lt_of_le_of_lt hpayload (by decide))
  unfold Fields.header Header.fields
  simp only [hn, hp]
  rw [← hmagic, ← hmajor]

/-- A valid header that was written is read back, whatever follows it. -/
theorem readHeader_writeHeader {header : Header} {bytes tail : List UInt8}
    (hwrite : writeHeader header = .ok bytes) (hvalid : Valid header)
    (htail : kAeadTagSize ≤ tail.length) : readHeader (bytes ++ tail) = .ok header := by
  have hlength := length_writeHeader hwrite
  obtain ⟨hnetwork, _, _, rfl⟩ := writeHeader_eq_ok.mp hwrite
  refine readHeader_eq_ok.mpr ⟨?_, header.fields, ?_, rfl, rfl, ?_, header_fields hnetwork, hvalid⟩
  · rw [length_append, hlength]
    omega
  · rw [take_left' hlength]
  · show header.payloadLength.toUInt16.toNat ≤ _
    rw [UInt8.toNat_toUInt16]
    exact hvalid.payloadLength

/-- A header that was read is written back to the bytes it was read from. -/
theorem writeHeader_readHeader {encoded : List UInt8} {header : Header}
    (hread : readHeader encoded = .ok header) : writeHeader header = .ok (encoded.take kHeaderSize) := by
  obtain ⟨_, f, hsource, hmagic, hmajor, hpayload, rfl, hvalid⟩ := readHeader_eq_ok.mp hread
  refine writeHeader_eq_ok.mpr ⟨hvalid.network.2, hvalid.linkCounter, hvalid.endCounter, ?_⟩
  rw [fields_header hmagic hmajor hpayload, hsource]

end RouteLoom.Wire
