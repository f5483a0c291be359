import Mathlib.Algebra.Group.Nat.Defs

/-!
# Vocabulary shared by every component

Identifiers, status codes, frame types and security contexts, as `types.hpp`, `status.hpp` and
`security.hpp` declare them. A fallible call that the source reports through a `Status` and output
parameters is an `Except Status` here: the error carries the code and the detail text.
-/

namespace RouteLoom

abbrev NodeId := UInt64
abbrev NetworkId := UInt64
abbrev MonotonicMs := UInt64

def kInvalidNodeId : NodeId := 0
def kBroadcastNodeId : NodeId := 0xFFFFFFFFFFFFFFFF
def kMaxApplicationPayload : Nat := 128
def kAeadTagSize : Nat := 16
def kMaxEspNowBody : Nat := 250
def kDefaultHopLimit : UInt8 := 10

/-- Largest counter a key may be used with: the wire carries 48 bits. -/
def kMaxCryptoCounter : UInt64 := 0xFFFFFFFFFFFF

/-! ## Status -/

inductive StatusCode
  | invalidArgument | invalidState | notFound | alreadyExists | unsupported | wouldBlock
  | noCapacity | noRoute | expired | timeUncertain | authenticationFailed | authorizationFailed
  | replayRejected | counterExhausted | storageFailure | radioFailure | driverResultUnknown
  | protocolError | integrityError | conflict | busy | internalError | discoveryBudgetExhausted
  | authRequired | approvalRequired | bindingConflict | peerCapacity | congested | remoteBusy
  | noFeasibleAlternative | surveyRequiresOutagePermission | legacyParticipant | clockUncertain
  | planNotCommitted | recoveryRequired | authProfileUnavailable | networkRequired | tooLarge
  deriving DecidableEq, Repr

/-- A failure report. Success is the `ok` side of `Except`, so the code `Ok` has no constructor. -/
structure Status where
  code : StatusCode
  detail : String
  deriving DecidableEq, Repr

/-- `Status::error(code, detail)` as the result of a fallible call. -/
def Status.error {α : Type} (code : StatusCode) (detail : String) : Except Status α :=
  .error ⟨code, detail⟩

/-! ## Messages -/

structure MessageId where
  session : UInt32 := 0
  sequence : UInt64 := 0
  deriving DecidableEq, Repr, Inhabited

/-- A delivery class as the wire carries it: any byte can stand in the header field. -/
structure DeliveryClass where
  code : UInt8
  deriving DecidableEq, Repr, Inhabited

namespace DeliveryClass

def bestEffort : DeliveryClass := ⟨0⟩
def reliable : DeliveryClass := ⟨1⟩
def applied : DeliveryClass := ⟨2⟩

end DeliveryClass

inductive DeliveryState
  | empty | accepted | waitingForRoute | queued | waitingForMac | waitingForHopAccept
  | waitingForEndReceipt | delivered | failed | expired | cancelledBeforeTx | indeterminate
  deriving DecidableEq, Repr, Inhabited

/-- A frame type as the wire carries it. Extension types 64 to 95 are legal without a name. -/
structure FrameType where
  code : UInt8
  deriving DecidableEq, Repr, Inhabited

namespace FrameType

def discover : FrameType := ⟨1⟩
def offer : FrameType := ⟨2⟩
def bootstrapAuth : FrameType := ⟨3⟩
def membershipResult : FrameType := ⟨4⟩
def bootstrapChunk : FrameType := ⟨5⟩
def bootstrapReply : FrameType := ⟨6⟩
def membershipQuery : FrameType := ⟨7⟩
def data : FrameType := ⟨16⟩
def hopAccept : FrameType := ⟨17⟩
def endReceipt : FrameType := ⟨18⟩
def appResult : FrameType := ⟨19⟩
def busy : FrameType := ⟨20⟩
def service : FrameType := ⟨21⟩
def control : FrameType := ⟨22⟩
def timeSync : FrameType := ⟨23⟩
def channelNotice : FrameType := ⟨24⟩
def groupData : FrameType := ⟨25⟩
def groupReport : FrameType := ⟨26⟩
def routeUpdate : FrameType := ⟨32⟩
def routeWithdraw : FrameType := ⟨33⟩
def seqnoRequest : FrameType := ⟨34⟩
def routeRequest : FrameType := ⟨35⟩
def neighborProbe : FrameType := ⟨40⟩
def neighborResult : FrameType := ⟨41⟩
def diagnostic : FrameType := ⟨48⟩
def controlObject : FrameType := ⟨49⟩
def objectChunk : FrameType := ⟨50⟩
def objectAck : FrameType := ⟨51⟩
def appObjectStart : FrameType := ⟨64⟩
def appObjectChunk : FrameType := ⟨65⟩
def appObjectAck : FrameType := ⟨66⟩

end FrameType

/-! ## Security contexts -/

abbrev AeadTag := Vector UInt8 16

inductive SecurityScope
  | link | endToEnd | group | groupLink
  deriving DecidableEq, Repr, Inhabited

/-- The byte the source casts a scope to. -/
def SecurityScope.code : SecurityScope → UInt8
  | link => 0
  | endToEnd => 1
  | group => 2
  | groupLink => 3

structure SecurityContext where
  scope : SecurityScope := .link
  network : NetworkId := 0
  sender : NodeId := kInvalidNodeId
  receiver : NodeId := kInvalidNodeId
  epoch : UInt32 := 0
  groupEpoch : UInt32 := 0
  senderBoot : UInt32 := 0
  groupId : NodeId := 0
  deriving DecidableEq, Repr, Inhabited

/-! ## Record integrity -/

/-- One bit of the reflected CRC-32 division. -/
def crcBit (crc : UInt32) : UInt32 := (crc >>> 1) ^^^ (0xEDB88320 &&& (0 - (crc &&& 1)))

def crcByte (crc : UInt32) (byte : UInt8) : UInt32 :=
  crcBit (crcBit (crcBit (crcBit (crcBit (crcBit (crcBit (crcBit (crc ^^^ byte.toUInt32))))))))

def crc32IsoHdlc (data : List UInt8) : UInt32 := ~~~(data.foldl crcByte 0xFFFFFFFF)

/-- The bytes of an integer as a stored record holds them, least significant first. -/
def littleEndian (size : Nat) (value : UInt64) : List UInt8 :=
  (List.range size).map fun i => (value >>> (8 * i).toUInt64).toUInt8

/-- The bytes of an integer as frames and hash inputs carry it, most significant first. -/
def bigEndian (size : Nat) (value : UInt64) : List UInt8 :=
  (List.range size).map fun i => (value >>> (8 * (size - 1 - i)).toUInt64).toUInt8

example : crc32IsoHdlc [0x31, 0x32, 0x33, 0x34, 0x35, 0x36, 0x37, 0x38, 0x39] = 0xCBF43926 := by
  decide +kernel

theorem toNat_succ {seq : UInt32} (h : seq ≠ 0xFFFFFFFF) : (seq + 1).toNat = seq.toNat + 1 := by
  have hlt := seq.toNat_lt
  have hne : seq.toNat ≠ 0xFFFFFFFF := fun heq => h (UInt32.toNat_inj.mp heq)
  rw [UInt32.toNat_add]
  show (seq.toNat + 1) % 2 ^ 32 = _
  omega

end RouteLoom
