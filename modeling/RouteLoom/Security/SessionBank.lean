import RouteLoom.Basic
import RouteLoom.Lib.Pool
import RouteLoom.Lib.Sha256
import RouteLoom.Lib.Stateful

/-!
# The session bank

`SessionBank` of `session_bank.cpp`: the unicast sessions of a node, kept in memory. Each peer has
at most one current context for a scope; a replaced one stays for a while in the overlap table and
still opens frames. Counters are handed out by `nextCounter` and used by `sealFrame`, and `openFrame`
accepts a counter once.

The capacities of the link and of the end table are parameters, as in the source. The AEAD port and
the random source are code outside the bank: every call gets the answers of the ports as arguments.
The re-entry guard is left out, since a call from inside a port changes nothing, and so are the memo
of hash values, the scan statistics and the queries that change nothing.
-/

namespace RouteLoom

open Lib

abbrev SessionKey := Vector UInt8 16
abbrev SessionIv := Vector UInt8 12
abbrev AeadNonce := Vector UInt8 12

/-- What a handshake hands to the bank. -/
structure ContextKeys where
  scope : SecurityScope := .link
  network : NetworkId := 0
  peer : NodeId := kInvalidNodeId
  txContextId : UInt32 := 0
  rxContextId : UInt32 := 0
  txKey : SessionKey := .replicate 16 0
  txIv : SessionIv := .replicate 12 0
  rxKey : SessionKey := .replicate 16 0
  rxIv : SessionIv := .replicate 12 0
  peerCertId : Vector UInt8 8 := .replicate 8 0
  peerGeneration : UInt32 := 0
  deriving DecidableEq

def idValid (id : NodeId) : Bool := id != kInvalidNodeId && id != kBroadcastNodeId

def unicastScope (scope : SecurityScope) : Bool := scope == .link || scope == .endToEnd

def checkContextKeys (keys : ContextKeys) : Except Status Unit := do
  refuse (!unicastScope keys.scope) ⟨.unsupported, "SESSION_SCOPE_UNSUPPORTED"⟩
  refuse (keys.network == 0 || keys.peer == kInvalidNodeId || keys.peer == kBroadcastNodeId)
    ⟨.invalidArgument, "SESSION_IDENTITY_INVALID"⟩
  refuse (keys.txContextId == 0 || keys.rxContextId == 0)
    ⟨.invalidArgument, "SESSION_CONTEXT_ID_ZERO"⟩

/-- The nonce: the IV with the counter added into its last six bytes. -/
def aeadNonce (iv : SessionIv) (counter : UInt64) : Except Status AeadNonce := do
  refuse (counter > kMaxCryptoCounter) ⟨.counterExhausted, "aead counter above 2^48-1"⟩
  .ok (Vector.ofFn fun i =>
    if i.val < 6 then iv.get i
    else iv.get i ^^^ (counter >>> (8 * (11 - i.val)).toUInt64).toUInt8)

structure InstallAttestation where
  peerRole : UInt32 := 0
  createdGkEpoch : UInt32 := 0
  devResume : Bool := false
  deriving DecidableEq

structure SessionDemand where
  scope : SecurityScope := .link
  peer : NodeId := kInvalidNodeId
  deadlineMs : MonotonicMs := 0
  deriving DecidableEq

/-- A current context. In the bank `remainingMs` is a deadline on the low 32 bits of the clock, in
an exported entry a duration. -/
structure SessionBankEntry where
  peer : NodeId := kInvalidNodeId
  txNext : UInt64 := 0
  rxMax : UInt64 := 0
  rxBitmap : UInt64 := 0
  txKey : SessionKey := .replicate 16 0
  rxKey : SessionKey := .replicate 16 0
  txIv : SessionIv := .replicate 12 0
  rxIv : SessionIv := .replicate 12 0
  peerCertId : Vector UInt8 8 := .replicate 8 0
  txCid : UInt32 := 0
  rxCid : UInt32 := 0
  peerGeneration : UInt32 := 0
  peerRole : UInt32 := 0
  createdGk : UInt32 := 0
  remainingMs : UInt32 := 0
  installSerial : UInt32 := 0
  flags : UInt32 := 0
  deriving DecidableEq

/-- A replaced context: only its receive side. -/
structure SessionOverlapEntry where
  scope : SecurityScope := .link
  peer : NodeId := kInvalidNodeId
  rxKey : SessionKey := .replicate 16 0
  rxIv : SessionIv := .replicate 12 0
  rxMax : UInt64 := 0
  rxBitmap : UInt64 := 0
  rxCid : UInt32 := 0
  remainingMs : UInt32 := 0
  installSerial : UInt32 := 0
  deriving DecidableEq

structure LocalView where
  self : NodeId := kInvalidNodeId
  network : NetworkId := 0
  gkEpoch : UInt32 := 0
  demandHoldMs : UInt32 := 8000
  deriving DecidableEq

/-- The AEAD port as one call meets it: it answers `none` when it fails. -/
structure AeadGcm where
  encrypt : SessionKey → AeadNonce → List UInt8 → List UInt8 → Option (List UInt8 × AeadTag)
  decrypt : SessionKey → AeadNonce → List UInt8 → List UInt8 → AeadTag → Option (List UInt8)

namespace SessionBank

def kOverlapCapacity : Nat := 8
def kDemandCapacity : Nat := 8
def kRekeySoftCounter : UInt64 := 0x100000000 - 1024
def kMaxUseCounter : UInt64 := 0x100000000
def kContextLifetimeMs : UInt32 := 24 * 3600 * 1000
def kOverlapLifetimeMs : UInt32 := 60 * 1000
def kStagingBytes : Nat := kMaxEspNowBody
def kCidRetries : Nat := 8
def kRxUnknownGraceMs : UInt32 := 10 * 1000
def kRxUnknownRateMs : UInt32 := 2000
def kFlagSealReserved : UInt32 := 0x01
def kFlagRekeyPending : UInt32 := 0x02
def kFlagPinned : UInt32 := 0x04
def kFlagDevResume : UInt32 := 0x08

inductive TxCounterVerdict
  | issue | issueRekeyDue | refuse
  deriving DecidableEq

def checkTxCounter (txNext : UInt64) : TxCounterVerdict :=
  if txNext < kRekeySoftCounter then .issue
  else if txNext < kMaxUseCounter then .issueRekeyDue
  else .refuse

def rxCounterAdmissible (counter : UInt64) : Bool := counter < kMaxUseCounter

structure DemandEntry where
  peer : NodeId := kInvalidNodeId
  holdMs : UInt32 := 0
  scope : SecurityScope := .link
  deriving DecidableEq

/-- A place for a current context: in the link table or in the end table. -/
inductive Slot (L E : Nat)
  | link (i : Fin L)
  | endToEnd (i : Fin E)
  deriving DecidableEq

def Slot.scope {L E : Nat} : Slot L E → SecurityScope
  | .link _ => .link
  | .endToEnd _ => .endToEnd

/-- All slots in the order in which the checks visit them. -/
def allSlots (L E : Nat) : List (Slot L E) :=
  (List.finRange L).map .link ++ (List.finRange E).map .endToEnd

/-- The slots of a scope, from `start` on and around. -/
def slotsFrom (L E : Nat) (scope : SecurityScope) (start : Nat) : List (Slot L E) :=
  if scope == .link then (around L start).map .link else (around E start).map .endToEnd

def capacity (L E : Nat) (scope : SecurityScope) : Nat :=
  if scope == .link then L else E

end SessionBank

structure SessionBank (L E : Nat) where
  view : LocalView := {}
  slotSalt : Vector UInt8 32 := .replicate 32 0
  configured : Bool := false
  lastTick : MonotonicMs := 0
  nextExpiry : MonotonicMs := 0xFFFFFFFFFFFFFFFF
  installSerial : UInt32 := 0
  lruClock : UInt32 := 0
  current : SessionBank.Slot L E → Option SessionBankEntry := fun _ => none
  endLru : Fin E → UInt32 := fun _ => 0
  overlap : Pool SessionOverlapEntry SessionBank.kOverlapCapacity := .empty
  demand : Pool SessionBank.DemandEntry SessionBank.kDemandCapacity := .empty
  lastRxUnknownDemandMs : MonotonicMs := 0
  rxUnknownDemandStarted : Bool := false

namespace SessionBank

variable {L E : Nat}

abbrev BankOp (L E : Nat) (α : Type) := Op (SessionBank L E) Status α

/-! ## Lifetimes and lookup -/

variable (bank : SessionBank L E) (context : SecurityContext) (scope : SecurityScope)
  (peer : NodeId) (entry : SessionBankEntry) (keys : ContextKeys) (att : InstallAttestation)

def remaining (deadline : UInt32) : UInt32 :=
  deadline - bank.lastTick.toUInt32

/-- The deadline `duration` from now, and the bank that will look at it then. -/
def expiresAfter (duration : UInt32) : UInt32 × SessionBank L E :=
  let deadline := if duration.toUInt64 > 0xFFFFFFFFFFFFFFFF - bank.lastTick then 0xFFFFFFFFFFFFFFFF
    else bank.lastTick + duration.toUInt64
  (deadline.toUInt32, { bank with nextExpiry := min bank.nextExpiry deadline })

def mapNetwork (network : NetworkId) : Bool :=
  network == bank.view.network || network == bank.view.network &&& 0xFFFFFFFF

/-- A context of group-key epoch `created` lives in its own epoch and the next one. -/
def gkUsable (current created : UInt32) : Bool :=
  !(current < created || current.toUInt64 ≥ created.toUInt64 + 2)

def entryUsable : Bool :=
  bank.remaining entry.remainingMs != 0 && gkUsable bank.view.gkEpoch entry.createdGk

/-- The bytes of "RouteLoom/v1/session-slot" with the closing zero. -/
def kSlotLabel : List UInt8 :=
  [0x52, 0x6f, 0x75, 0x74, 0x65, 0x4c, 0x6f, 0x6f, 0x6d, 0x2f, 0x76, 0x31, 0x2f, 0x73, 0x65, 0x73,
    0x73, 0x69, 0x6f, 0x6e, 0x2d, 0x73, 0x6c, 0x6f, 0x74, 0x00]

/-- Where the walk for a peer begins. -/
def hashStart : Nat :=
  let input := kSlotLabel ++ [scope.code] ++ bigEndian 8 bank.view.network ++
    bigEndian 8 bank.view.self ++ bigEndian 8 peer
  let raw := (Sha256.words (Sha256.hmac bank.slotSalt.toList input)).headD 0
  if capacity L E scope == 0 then 0 else raw.toNat % capacity L E scope

def findCurrent : Option (Slot L E × SessionBankEntry) :=
  if unicastScope scope then
    (slotsFrom L E scope (bank.hashStart scope peer)).findSome? fun slot =>
      (bank.current slot).bind fun entry => if entry.peer == peer then some (slot, entry) else none
  else none

/-- The first free slot of a scope on the walk for a peer. -/
def freeSlot : Option (Slot L E) :=
  (slotsFrom L E scope (bank.hashStart scope peer)).find? fun slot => (bank.current slot).isNone

/-! ## Demands -/

def recordDemand : SessionBank L E :=
  let write (i : Fin kDemandCapacity) : SessionBank L E :=
    let (holdMs, bank) := bank.expiresAfter bank.view.demandHoldMs
    { bank with demand := bank.demand.set i { peer, holdMs, scope } }
  match bank.demand.findIdx fun demand => demand.scope == scope && demand.peer == peer with
  | some i => write i
  | none =>
    match bank.demand.freeIdx with
    | some i => write i
    | none => bank

def dropDemand : SessionBank L E :=
  { bank with demand := bank.demand.eraseIf fun demand => demand.scope == scope && demand.peer == peer }

def demandPending : Bool :=
  (bank.demand.findIdx fun demand => demand.scope == scope && demand.peer == peer).isSome

/-! ## Wiping -/

/-- Drop the current contexts that `p` accepts. -/
def wipeCurrentIf (p : Slot L E → SessionBankEntry → Bool) : SessionBank L E :=
  { bank with current := fun slot => (bank.current slot).filter fun entry => !p slot entry }

/-- Drop the overlap entries that `p` accepts. -/
def wipeOverlapIf (p : SessionOverlapEntry → Bool) : SessionBank L E :=
  { bank with overlap := bank.overlap.eraseIf p }

def wipeAll : SessionBank L E :=
  { view := bank.view
    lastTick := bank.lastTick
    lastRxUnknownDemandMs := bank.lastRxUnknownDemandMs
    rxUnknownDemandStarted := bank.rxUnknownDemandStarted }

def checkConfigured : Except Status Unit :=
  refuse (!bank.configured) ⟨.invalidState, "session bank not configured"⟩

/-- `configure`. The salt is `none` when the random source is not ready; `bound` says that all ports
are bound. -/
def configure (view : LocalView) (bound : Bool) (salt : Option (Vector UInt8 32))
    (now : MonotonicMs) : BankOp L E Unit := do
  Op.check (refuse (!idValid view.self || view.network == 0 || view.network &&& 0xFFFFFFFF == 0 ||
    !bound) ⟨.invalidArgument, "session bank view invalid"⟩)
  match salt with
  | none => Op.throw ⟨.invalidState, "session entropy not ready"⟩
  | some salt => do
    let bank ← Op.get
    Op.set { bank.wipeAll with
      view, slotSalt := salt, lastTick := now, lastRxUnknownDemandMs := 0
      rxUnknownDemandStarted := false, configured := true }

def resetMembership (view : LocalView) (salt : Option (Vector UInt8 32)) (now : MonotonicMs) :
    BankOp L E Unit := do
  let bank ← Op.get
  Op.check bank.checkConfigured
  configure view true salt now

def clear : BankOp L E Unit := do
  let bank ← Op.get
  Op.set bank.wipeAll

/-! ## Time and epochs -/

def expiresBy (now : MonotonicMs) (deadline : UInt32) : Bool :=
  now - bank.lastTick ≥ (bank.remaining deadline).toUInt64

/-- Every deadline the bank holds. -/
def deadlines : List UInt32 :=
  ((allSlots L E).filterMap bank.current).map (·.remainingMs) ++
    bank.overlap.toList.map (·.remainingMs) ++ bank.demand.toList.map (·.holdMs)

/-- The bank without what expires by `now`. -/
def expire (now : MonotonicMs) : SessionBank L E :=
  let kept := bank.wipeCurrentIf fun _ entry => bank.expiresBy now entry.remainingMs
  let kept := kept.wipeOverlapIf fun entry => bank.expiresBy now entry.remainingMs
  let kept := { kept with demand := bank.demand.eraseIf fun demand => bank.expiresBy now demand.holdMs }
  { kept with
    lastTick := now
    nextExpiry := kept.deadlines.foldl
      (fun next deadline => min next (bank.lastTick + (bank.remaining deadline).toUInt64))
      0xFFFFFFFFFFFFFFFF }

def tick (now : MonotonicMs) : BankOp L E Unit := do
  let bank ← Op.get
  Op.check bank.checkConfigured
  Op.check (refuse (now < bank.lastTick) ⟨.invalidArgument, "session clock regressed"⟩)
  if now < bank.nextExpiry then Op.set { bank with lastTick := now }
  else Op.set (bank.expire now)

/-- A new group-key epoch drops the overlap and what does not live in it. -/
def advanceGk (gkEpoch : UInt32) : SessionBank L E :=
  let bank := bank.wipeOverlapIf fun _ => true
  let bank := { bank with view := { bank.view with gkEpoch } }
  bank.wipeCurrentIf fun _ entry => !bank.entryUsable entry

def setGkEpoch (gkEpoch : UInt32) : BankOp L E Unit := do
  let bank ← Op.get
  Op.check bank.checkConfigured
  Op.check (refuse (gkEpoch < bank.view.gkEpoch) ⟨.conflict, "session gk epoch regressed"⟩)
  if gkEpoch == bank.view.gkEpoch then pure () else Op.set (bank.advanceGk gkEpoch)

/-! ## Context ids -/

def contextIdLive (id : UInt32) : Bool :=
  id == 0 || (allSlots L E).any (fun slot => (bank.current slot).any (·.rxCid == id)) ||
    bank.overlap.toList.any (·.rxCid == id)

/-- The first of the drawn ids that is not live; a failed draw ends the search. -/
def firstFreeId (bank : SessionBank L E) : List (Option UInt32) → Except Status UInt32
  | [] => Status.error .noCapacity "session context id unavailable"
  | none :: _ => Status.error .invalidState "session entropy not ready"
  | some id :: draws => if bank.contextIdLive id then bank.firstFreeId draws else .ok id

/-- `allocate_context_id`, with what the random source draws. -/
def allocateContextId (draws : List (Option UInt32)) : BankOp L E UInt32 := do
  let bank ← Op.get
  Op.check bank.checkConfigured
  Op.check (bank.firstFreeId (draws.take kCidRetries))

/-! ## Installing -/

def keysEqual : Bool :=
  entry.txKey == keys.txKey && entry.rxKey == keys.rxKey && entry.txIv == keys.txIv &&
    entry.rxIv == keys.rxIv

/-- The transmit key and IV of an entry are the given ones. -/
def txMaterialEqual (txKey : SessionKey) (txIv : SessionIv) : Bool :=
  entry.txKey == txKey && entry.txIv == txIv

/-- No current context other than the one at `except` has the transmit material or receive id, and
no overlap entry has the receive id. -/
def checkUnused (except : Option (Slot L E)) (txKey : SessionKey) (txIv : SessionIv)
    (rxCid : UInt32) : Except Status Unit := do
  checkAll (fun slot => do
      let other := if except == some slot then none else bank.current slot
      refuse (other.any (txMaterialEqual · txKey txIv))
        ⟨.conflict, "session tx nonce domain reused"⟩
      refuse (other.any (·.rxCid == rxCid)) ⟨.conflict, "session rx id collision"⟩)
    (allSlots L E)
  refuse (bank.overlap.toList.any (·.rxCid == rxCid)) ⟨.conflict, "session rx id collision"⟩

def checkInstall :
    Except Status Unit := do
  bank.checkConfigured
  checkContextKeys keys
  refuse (!bank.mapNetwork keys.network) ⟨.invalidArgument, "session network mismatch"⟩
  refuse (keys.peer == bank.view.self) ⟨.invalidArgument, "session self peer"⟩
  refuse (!gkUsable bank.view.gkEpoch att.createdGkEpoch) ⟨.conflict, "session gk lifetime"⟩
  refuse (bank.installSerial == 0xFFFFFFFF)
    ⟨.counterExhausted, "session install serial exhausted"⟩
  refuse (capacity L E keys.scope == 0) ⟨.noCapacity, "session table missing"⟩
  let existing := bank.findCurrent keys.scope keys.peer
  refuse (existing.any fun x => x.2.txCid == keys.txContextId && x.2.rxCid == keys.rxContextId &&
    keysEqual x.2 keys) ⟨.conflict, "session install duplicate"⟩
  refuse (existing.any fun x => txMaterialEqual x.2 keys.txKey keys.txIv)
    ⟨.conflict, "session tx nonce domain reused"⟩
  bank.checkUnused (existing.map (·.1)) keys.txKey keys.txIv keys.rxContextId

/-- Keep the receive side of a replaced context, if an overlap entry is free. -/
def demote : SessionBank L E :=
  match bank.overlap.freeIdx with
  | none => bank
  | some i =>
    let left := bank.remaining entry.remainingMs
    let (remainingMs, bank) :=
      bank.expiresAfter (if left > kOverlapLifetimeMs then kOverlapLifetimeMs else left)
    { bank with
      overlap := bank.overlap.set i
        { scope, peer := entry.peer, rxKey := entry.rxKey, rxIv := entry.rxIv, rxMax := entry.rxMax
          rxBitmap := entry.rxBitmap, rxCid := entry.rxCid, remainingMs
          installSerial := entry.installSerial } }

/-- An end context was used. -/
def touch (slot : Slot L E) : SessionBank L E :=
  match slot with
  | .link _ => bank
  | .endToEnd i =>
    { bank with
      lruClock := bank.lruClock + 1
      endLru := Function.update bank.endLru i (bank.lruClock + 1) }

/-- Write a context with the next serial and the given lifetime; a demand for it is satisfied. -/
def place (slot : Slot L E) (entry : SessionBankEntry) (lifetimeMs : UInt32) : SessionBank L E :=
  let (remainingMs, bank) := bank.expiresAfter lifetimeMs
  let entry := { entry with remainingMs, installSerial := bank.installSerial + 1 }
  let bank := { bank with
    installSerial := bank.installSerial + 1
    current := Function.update bank.current slot (some entry) }
  (bank.touch slot).dropDemand slot.scope entry.peer

/-- The context of new keys, with both counters at zero. -/
def freshEntry : SessionBankEntry :=
  { peer := keys.peer
    txKey := keys.txKey
    rxKey := keys.rxKey
    txIv := keys.txIv
    rxIv := keys.rxIv
    peerCertId := keys.peerCertId
    txCid := keys.txContextId
    rxCid := keys.rxContextId
    peerGeneration := keys.peerGeneration
    peerRole := att.peerRole
    createdGk := att.createdGkEpoch
    flags := if att.devResume then kFlagDevResume else 0 }

def installVerified : BankOp L E Unit := do
  let bank ← Op.get
  Op.check (bank.checkInstall keys att)
  match bank.findCurrent keys.scope keys.peer with
  | some (slot, existing) =>
    Op.set ((bank.demote keys.scope existing).place slot (freshEntry keys att) kContextLifetimeMs)
  | none =>
    match bank.freeSlot keys.scope keys.peer with
    | none => Op.throw ⟨.noCapacity, "session table full"⟩
    | some slot => Op.set (bank.place slot (freshEntry keys att) kContextLifetimeMs)

def install : BankOp L E Unit := do
  let bank ← Op.get
  installVerified keys { createdGkEpoch := bank.view.gkEpoch }

/-! ## Saving and restoring -/

def exportEntry : BankOp L E SessionBankEntry := do
  let bank ← Op.get
  Op.check bank.checkConfigured
  Op.check (refuse (!unicastScope scope || !idValid peer)
    ⟨.invalidArgument, "session export shape"⟩)
  match (bank.findCurrent scope peer).filter fun x => bank.entryUsable x.2 with
  | none => Op.throw ⟨.notFound, "session export missing"⟩
  | some (_, entry) => pure { entry with remainingMs := bank.remaining entry.remainingMs }

def exportSleepEntry : BankOp L E SessionBankEntry := do
  let out ← exportEntry scope peer
  Op.check (refuse (out.flags &&& kFlagDevResume != 0)
    ⟨.invalidArgument, "session dev never sleeps"⟩)
  let out := { out with flags := out.flags &&& ~~~(kFlagPinned ||| kFlagRekeyPending) }
  Op.check (refuse (out.flags != 0) ⟨.invalidArgument, "session save flags live"⟩)
  pure out

def checkRestore : Except Status Unit := do
  bank.checkConfigured
  refuse (!unicastScope scope || !idValid peer || entry.peer != peer || peer == bank.view.self ||
    entry.txCid == 0 || entry.rxCid == 0 || entry.flags != 0)
    ⟨.invalidArgument, "session restore shape"⟩
  refuse (checkTxCounter entry.txNext == .refuse)
    ⟨.counterExhausted, "session restore counter exhausted"⟩
  refuse (!rxCounterAdmissible entry.rxMax) ⟨.invalidArgument, "session restore window"⟩
  refuse (entry.remainingMs == 0 || entry.remainingMs > kContextLifetimeMs)
    ⟨.conflict, "session restore lifetime"⟩
  refuse (!gkUsable bank.view.gkEpoch entry.createdGk) ⟨.conflict, "session gk lifetime"⟩
  refuse (bank.installSerial == 0xFFFFFFFF)
    ⟨.counterExhausted, "session install serial exhausted"⟩
  refuse (capacity L E scope == 0) ⟨.noCapacity, "session table missing"⟩
  refuse (bank.findCurrent scope peer).isSome ⟨.conflict, "session restore occupied"⟩
  bank.checkUnused none entry.txKey entry.txIv entry.rxCid

def restoreEntry :
    BankOp L E Unit := do
  let bank ← Op.get
  Op.check (bank.checkRestore scope peer entry)
  match bank.freeSlot scope peer with
  | none => Op.throw ⟨.noCapacity, "session table full"⟩
  | some slot => Op.set (bank.place slot entry entry.remainingMs)

/-! ## Retiring -/

def retired : SessionBank L E :=
  let found := bank.findCurrent scope peer
  let bank := bank.wipeCurrentIf fun slot _ => found.any (·.1 == slot)
  let bank := bank.wipeOverlapIf fun entry => entry.scope == scope && entry.peer == peer
  bank.dropDemand scope peer

def retire : BankOp L E Unit := do
  let bank ← Op.get
  Op.check bank.checkConfigured
  Op.check (refuse (!unicastScope scope) ⟨.unsupported, "session scope"⟩)
  Op.set (bank.retired scope peer)

def retireAll : BankOp L E Unit := do
  let bank ← Op.get
  Op.check bank.checkConfigured
  retire .link peer
  retire .endToEnd peer

/-- Retire the context of one scope if it is below the generation, and say whether it was. -/
def retireBelow (minGeneration : UInt32) :
    BankOp L E Bool := do
  let bank ← Op.get
  if (bank.findCurrent scope peer).any fun x => x.2.peerGeneration < minGeneration then do
    retire scope peer
    pure true
  else pure false

/-- The result says which of the link and the end context was retired. -/
def retireBelowGeneration (minGeneration : UInt32) : BankOp L E (Bool × Bool) := do
  let bank ← Op.get
  Op.check bank.checkConfigured
  Op.check (refuse (!idValid peer || minGeneration == 0) ⟨.invalidArgument, "readmit generation"⟩)
  let retiredLink ← retireBelow .link peer minGeneration
  let retiredEnd ← retireBelow .endToEnd peer minGeneration
  let bank ← Op.get
  Op.set (bank.wipeOverlapIf fun entry => entry.peer == peer)
  pure (retiredLink, retiredEnd)

/-- The end context used least recently among those without a reservation and not pinned. -/
def idleEnd : Option (Fin E × SessionBankEntry) :=
  (List.finRange E).foldl (fun victim i =>
    match bank.current (.endToEnd i) with
    | none => victim
    | some entry =>
      if entry.flags &&& (kFlagSealReserved ||| kFlagPinned) != 0 then victim
      else if victim.any fun v => bank.endLru v.1 ≤ bank.endLru i then victim
      else some (i, entry)) none

def evictIdleEnd : BankOp L E NodeId := do
  let bank ← Op.get
  Op.check bank.checkConfigured
  match bank.idleEnd with
  | none => Op.throw ⟨.notFound, "no idle end context"⟩
  | some (_, victim) => do
    retire .endToEnd victim.peer
    pure victim.peer

/-- Rewrite a current context in place. -/
def update (bank : SessionBank L E) (slot : Slot L E) (entry : SessionBankEntry) :
    SessionBank L E :=
  { bank with current := Function.update bank.current slot (some entry) }

def setPinned (pinned : Bool) : BankOp L E Unit := do
  let bank ← Op.get
  Op.check bank.checkConfigured
  match bank.findCurrent scope peer with
  | none => Op.throw ⟨.notFound, "session not found"⟩
  | some (slot, entry) =>
    Op.set (bank.update slot { entry with
      flags := if pinned then entry.flags ||| kFlagPinned else entry.flags &&& ~~~kFlagPinned })

/-! ## Demands of the owner -/

def takeDemand : BankOp L E (Option SessionDemand) := do
  let bank ← Op.get
  match (bank.demand.findIdx fun _ => bank.configured).bind fun i =>
      (bank.demand.slots i).map (i, ·) with
  | none => pure none
  | some (i, demand) => do
    Op.set { bank with demand := bank.demand.release i }
    let deadline := bank.lastTick + (bank.remaining demand.holdMs).toUInt64
    pure (some
      { scope := demand.scope, peer := demand.peer
        deadlineMs := if deadline < bank.lastTick then 0xFFFFFFFFFFFFFFFF else deadline })

def noteDemand : BankOp L E Unit := do
  let bank ← Op.get
  if bank.configured && unicastScope scope && idValid peer then Op.set (bank.recordDemand scope peer)
  else pure ()

/-- The context was installed so recently that frames under the old id are still expected. -/
def inGrace : Bool :=
  bank.entryUsable entry &&
    kContextLifetimeMs - bank.remaining entry.remainingMs < kRxUnknownGraceMs

def noteRxUnknown : BankOp L E Unit := do
  let bank ← Op.get
  if !bank.configured || scope != .endToEnd || !idValid peer || peer == bank.view.self ||
      (bank.rxUnknownDemandStarted &&
        bank.lastTick - bank.lastRxUnknownDemandMs < kRxUnknownRateMs.toUInt64) ||
      (bank.findCurrent scope peer).any (bank.inGrace ·.2) then pure ()
  else
    let bank := bank.recordDemand scope peer
    Op.set (if bank.demandPending scope peer then
      { bank with lastRxUnknownDemandMs := bank.lastTick, rxUnknownDemandStarted := true } else bank)

/-! ## Using a session -/

/-- A usable context whose counter budget is not spent. -/
def canSend : Bool :=
  bank.entryUsable entry && checkTxCounter entry.txNext != .refuse

/-- Note the demand for a context and refuse. -/
def demandContext {α : Type} : BankOp L E α := do
  let bank ← Op.get
  Op.set (bank.recordDemand scope peer)
  Op.throw ⟨.authRequired, "session establishment required"⟩

def txEpoch : BankOp L E UInt32 := do
  let bank ← Op.get
  Op.check bank.checkConfigured
  Op.check (refuse (!unicastScope scope) ⟨.unsupported, "session scope"⟩)
  Op.check (refuse (!idValid peer) ⟨.invalidArgument, "session peer invalid"⟩)
  match (bank.findCurrent scope peer).filter fun x => bank.canSend x.2 with
  | some (_, entry) => pure entry.txCid
  | none => demandContext scope peer

/-- The entry after a counter was drawn. -/
def drawn : SessionBankEntry :=
  { entry with
    txNext := entry.txNext + 1
    flags :=
      (if checkTxCounter entry.txNext == .issueRekeyDue then entry.flags ||| kFlagRekeyPending
        else entry.flags) ||| kFlagSealReserved }

def nextCounter : BankOp L E UInt64 := do
  let bank ← Op.get
  Op.check bank.checkConfigured
  Op.check (refuse (!unicastScope context.scope) ⟨.unsupported, "session scope"⟩)
  Op.check (refuse (!bank.mapNetwork context.network || context.sender != bank.view.self ||
    !idValid context.receiver) ⟨.invalidArgument, "session direction invalid"⟩)
  let found := bank.findCurrent context.scope context.receiver
  Op.check (refuse (found.any fun x => context.epoch != x.2.txCid)
    ⟨.invalidArgument, "session tx context id stale"⟩)
  match found.filter fun x => bank.canSend x.2 with
  | none => demandContext context.scope context.receiver
  | some (slot, entry) => do
    Op.check (refuse (entry.txNext > kMaxCryptoCounter)
      ⟨.counterExhausted, "session counter exhausted"⟩)
    Op.set ((bank.update slot (drawn entry)).touch slot)
    pure entry.txNext

/-- The checks of `seal` up to the port: the context and its nonce. A buffer is `none` for a null
pointer. -/
def checkSeal (counter : UInt64) (plaintext : Option (List UInt8)) (ciphertextSize : Option Nat) :
    Except Status ((Slot L E × SessionBankEntry) × AeadNonce × List UInt8) := do
  bank.checkConfigured
  refuse (!unicastScope context.scope) ⟨.unsupported, "session scope"⟩
  refuse (plaintext.isNone || ciphertextSize.isNone) ⟨.invalidArgument, "session null buffer"⟩
  refuse (!bank.mapNetwork context.network || context.sender != bank.view.self ||
    !idValid context.receiver) ⟨.invalidArgument, "session direction invalid"⟩
  match (bank.findCurrent context.scope context.receiver).filter fun x => bank.entryUsable x.2 with
  | none => Status.error .authRequired "session establishment required"
  | some (slot, entry) =>
    refuse (context.epoch != entry.txCid || counter != entry.txNext - 1 ||
      entry.flags &&& kFlagSealReserved == 0)
      ⟨.invalidArgument, "session seal without reservation"⟩
    refuse (ciphertextSize.getD 0 < (plaintext.getD []).length)
      ⟨.noCapacity, "session ciphertext short"⟩
    let nonce ← aeadNonce entry.txIv counter
    .ok ((slot, entry), nonce, plaintext.getD [])

/-- `seal`: the ciphertext and the tag. The reservation is spent even when the port fails. -/
def sealFrame (aead : AeadGcm) (context : SecurityContext) (counter : UInt64) (aad : List UInt8)
    (plaintext : Option (List UInt8)) (ciphertextSize : Option Nat) :
    BankOp L E (List UInt8 × AeadTag) := do
  let bank ← Op.get
  let ((slot, entry), nonce, plaintext) ←
    Op.check (bank.checkSeal context counter plaintext ciphertextSize)
  Op.set (bank.update slot { entry with flags := entry.flags &&& ~~~kFlagSealReserved })
  match aead.encrypt entry.txKey nonce aad plaintext with
  | none => Op.throw ⟨.internalError, "session aead seal failed"⟩
  | some sealed => pure sealed

/-- Where `open` found a receive key. -/
inductive RxHolder (L E : Nat)
  | current (slot : Slot L E)
  | overlap (i : Fin kOverlapCapacity)
  deriving DecidableEq

/-- A receive key with its window. -/
structure RxContext where
  rxKey : SessionKey
  rxIv : SessionIv
  rxMax : UInt64
  rxBitmap : UInt64
  deriving DecidableEq

def entryRx : RxContext :=
  ⟨entry.rxKey, entry.rxIv, entry.rxMax, entry.rxBitmap⟩

def overlapRx (entry : SessionOverlapEntry) : RxContext :=
  ⟨entry.rxKey, entry.rxIv, entry.rxMax, entry.rxBitmap⟩

/-- The key for a frame: the current context if it has the stamped id, else an overlap entry. -/
def selectRx (sender : NodeId) (epoch : UInt32) : Option (RxHolder L E × RxContext) :=
  match (bank.findCurrent scope sender).filter fun x => x.2.rxCid == epoch && bank.entryUsable x.2 with
  | some (slot, entry) => some (.current slot, entryRx entry)
  | none =>
    (List.finRange kOverlapCapacity).findSome? fun i =>
      ((bank.overlap.slots i).filter fun entry =>
        entry.scope == scope && entry.peer == sender && entry.rxCid == epoch &&
          bank.remaining entry.remainingMs != 0).map fun entry =>
            (.overlap i, overlapRx entry)

/-- The checks of `open` up to the port. -/
def checkOpen (counter : UInt64) (ciphertext : Option (List UInt8)) (plaintextSize : Option Nat) :
    Except Status ((RxHolder L E × RxContext) × AeadNonce × List UInt8) := do
  bank.checkConfigured
  refuse (!unicastScope context.scope) ⟨.unsupported, "session scope"⟩
  refuse (ciphertext.isNone || plaintextSize.isNone) ⟨.invalidArgument, "session null buffer"⟩
  refuse (!bank.mapNetwork context.network || context.receiver != bank.view.self ||
    !idValid context.sender) ⟨.invalidArgument, "session direction invalid"⟩
  match bank.selectRx context.scope context.sender context.epoch with
  | none => Status.error .authRequired "session unknown context"
  | some (holder, rx) =>
    refuse (!rxCounterAdmissible counter) ⟨.authenticationFailed, "session counter forged"⟩
    refuse (plaintextSize.getD 0 < (ciphertext.getD []).length)
      ⟨.noCapacity, "session plaintext short"⟩
    refuse ((ciphertext.getD []).length > kStagingBytes) ⟨.noCapacity, "session frame oversized"⟩
    refuse (counter ≤ rx.rxMax && (rx.rxMax - counter ≥ 64 ||
      (rx.rxBitmap >>> (rx.rxMax - counter)) &&& 1 != 0)) ⟨.replayRejected, "session replay"⟩
    let nonce ← aeadNonce rx.rxIv counter
    .ok ((holder, rx), nonce, ciphertext.getD [])

/-- The window with the counter recorded. -/
def slideRx (rx : RxContext) (counter : UInt64) : UInt64 × UInt64 :=
  if counter > rx.rxMax then
    let shift := counter - rx.rxMax
    (counter, if shift ≥ 64 then 1 else (rx.rxBitmap <<< shift) ||| 1)
  else (rx.rxMax, rx.rxBitmap ||| (1 <<< (rx.rxMax - counter)))

/-- `open`: the plaintext. -/
def openFrame (aead : AeadGcm) (context : SecurityContext) (counter : UInt64) (aad : List UInt8)
    (ciphertext : Option (List UInt8)) (tag : AeadTag) (plaintextSize : Option Nat) :
    BankOp L E (List UInt8) := do
  let bank ← Op.get
  let ((holder, rx), nonce, ciphertext) ←
    Op.check (bank.checkOpen context counter ciphertext plaintextSize)
  match aead.decrypt rx.rxKey nonce aad ciphertext tag with
  | none => Op.throw ⟨.authenticationFailed, "session tag mismatch"⟩
  | some plaintext =>
    let (rxMax, rxBitmap) := slideRx rx counter
    match holder with
    | .overlap i => do
      Op.set { bank with overlap := bank.overlap.modify i ({ · with rxMax, rxBitmap }) }
      pure plaintext
    | .current _ =>
      match bank.findCurrent context.scope context.sender with
      | none => Op.throw ⟨.internalError, "session context moved"⟩
      | some (slot, live) =>
        if live.rxCid != context.epoch then Op.throw ⟨.internalError, "session context moved"⟩
        else do
          Op.set (bank.update slot { live with rxMax, rxBitmap })
          pure plaintext

end SessionBank

end RouteLoom
