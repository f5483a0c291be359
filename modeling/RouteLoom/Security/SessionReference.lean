import RouteLoom.Security.SessionRuns

/-!
# A session bank with absolute deadlines

`ReferenceBank` says what the timers of the session bank are for. It stores every deadline in full,
decides with nothing else what is alive and usable, and looks at every entry on every tick. Calls
that neither read nor set a deadline are those of the bank.

* `ReferenceBank.dueAfter`, `alive`, `expire` : the deadlines
* `ReferenceBank.effect` : what a call leaves
-/

namespace RouteLoom

open Lib Function

variable {L E : Nat}

/-- A bank with absolute deadlines. `bank` holds everything else; the low halves of deadlines that
its entries carry and its `nextExpiry` are never read. -/
structure ReferenceBank (L E : Nat) where
  bank : SessionBank L E := {}
  currentAt : SessionBank.Slot L E → MonotonicMs := fun _ => 0
  overlapAt : Fin SessionBank.kOverlapCapacity → MonotonicMs := fun _ => 0
  demandAt : Fin SessionBank.kDemandCapacity → MonotonicMs := fun _ => 0

namespace ReferenceBank

open SessionBank

abbrev RefOp (L E : Nat) (α : Type) := Op (ReferenceBank L E) Status α

/-- An operation that neither reads nor sets a deadline. -/
def onBank {α : Type} (m : BankOp L E α) : RefOp L E α := fun r =>
  ((m r.bank).1, { r with bank := (m r.bank).2 })

section Times

variable (r : ReferenceBank L E)

def dueAfter (duration : UInt32) : MonotonicMs :=
  if duration.toUInt64 > 0xFFFFFFFFFFFFFFFF - r.bank.lastTick then 0xFFFFFFFFFFFFFFFF
  else r.bank.lastTick + duration.toUInt64

def left (deadline : MonotonicMs) : MonotonicMs := deadline - r.bank.lastTick

def alive (deadline : MonotonicMs) : Bool := r.bank.lastTick < deadline

def entryUsable (slot : Slot L E) (entry : SessionBankEntry) : Bool :=
  r.alive (r.currentAt slot) && gkUsable r.bank.view.gkEpoch entry.createdGk

def canSend (slot : Slot L E) (entry : SessionBankEntry) : Bool :=
  r.entryUsable slot entry && checkTxCounter entry.txNext != .refuse

/-! ## Writing deadlines -/

def recordDemand (scope : SecurityScope) (peer : NodeId) : ReferenceBank L E :=
  let due := r.dueAfter r.bank.view.demandHoldMs
  let write (i : Fin kDemandCapacity) : ReferenceBank L E :=
    { r with
      bank := { r.bank with demand := r.bank.demand.set i { peer, holdMs := due.toUInt32, scope } }
      demandAt := update r.demandAt i due }
  match r.bank.demand.findIdx fun demand => demand.scope == scope && demand.peer == peer with
  | some i => write i
  | none =>
    match r.bank.demand.freeIdx with
    | some i => write i
    | none => r

def demote (scope : SecurityScope) (slot : Slot L E) (entry : SessionBankEntry) : ReferenceBank L E :=
  match r.bank.overlap.freeIdx with
  | none => r
  | some i =>
    let left := r.left (r.currentAt slot)
    let due := r.dueAfter (if left > kOverlapLifetimeMs.toUInt64 then kOverlapLifetimeMs else left.toUInt32)
    { r with
      bank := { r.bank with
        overlap := r.bank.overlap.set i
          { scope, peer := entry.peer, rxKey := entry.rxKey, rxIv := entry.rxIv, rxMax := entry.rxMax
            rxBitmap := entry.rxBitmap, rxCid := entry.rxCid, remainingMs := due.toUInt32
            installSerial := entry.installSerial } }
      overlapAt := update r.overlapAt i due }

def place (slot : Slot L E) (entry : SessionBankEntry) (lifetimeMs : UInt32) : ReferenceBank L E :=
  let due := r.dueAfter lifetimeMs
  let entry := { entry with remainingMs := due.toUInt32, installSerial := r.bank.installSerial + 1 }
  let bank := { r.bank with
    installSerial := r.bank.installSerial + 1
    current := update r.bank.current slot (some entry) }
  { r with
    bank := (bank.touch slot).dropDemand slot.scope entry.peer
    currentAt := update r.currentAt slot due }

/-! ## Time -/

/-- Drop whatever is due. -/
def expire (now : MonotonicMs) : ReferenceBank L E :=
  { r with
    bank := { r.bank with
      current := fun slot => (r.bank.current slot).filter fun _ => now < r.currentAt slot
      overlap := ⟨fun i => (r.bank.overlap.slots i).filter fun _ => now < r.overlapAt i⟩
      demand := ⟨fun i => (r.bank.demand.slots i).filter fun _ => now < r.demandAt i⟩
      lastTick := now } }

def advanceGk (gkEpoch : UInt32) : ReferenceBank L E :=
  let bank := r.bank.wipeOverlapIf fun _ => true
  let r := { r with bank := { bank with view := { bank.view with gkEpoch } } }
  { r with bank := r.bank.wipeCurrentIf fun slot entry => !r.entryUsable slot entry }

end Times

def tick (now : MonotonicMs) : RefOp L E Unit := do
  let r ← Op.get
  Op.check r.bank.checkConfigured
  Op.check (refuse (now < r.bank.lastTick) ⟨.invalidArgument, "session clock regressed"⟩)
  Op.set (r.expire now)

def setGkEpoch (gkEpoch : UInt32) : RefOp L E Unit := do
  let r ← Op.get
  Op.check r.bank.checkConfigured
  Op.check (refuse (gkEpoch < r.bank.view.gkEpoch) ⟨.conflict, "session gk epoch regressed"⟩)
  if gkEpoch == r.bank.view.gkEpoch then pure () else Op.set (r.advanceGk gkEpoch)

/-! ## Installing and saving -/

def installVerified (keys : ContextKeys) (att : InstallAttestation) : RefOp L E Unit := do
  let r ← Op.get
  Op.check (r.bank.checkInstall keys att)
  match r.bank.findCurrent keys.scope keys.peer with
  | some (slot, existing) =>
    Op.set ((r.demote keys.scope slot existing).place slot (freshEntry keys att) kContextLifetimeMs)
  | none =>
    match r.bank.freeSlot keys.scope keys.peer with
    | none => Op.throw ⟨.noCapacity, "session table full"⟩
    | some slot => Op.set (r.place slot (freshEntry keys att) kContextLifetimeMs)

def install (keys : ContextKeys) : RefOp L E Unit := do
  let r ← Op.get
  installVerified keys { createdGkEpoch := r.bank.view.gkEpoch }

variable (scope : SecurityScope) (peer : NodeId)

def exportEntry : RefOp L E SessionBankEntry := do
  let r ← Op.get
  Op.check r.bank.checkConfigured
  Op.check (refuse (!unicastScope scope || !idValid peer)
    ⟨.invalidArgument, "session export shape"⟩)
  match (r.bank.findCurrent scope peer).filter fun x => r.entryUsable x.1 x.2 with
  | none => Op.throw ⟨.notFound, "session export missing"⟩
  | some (slot, entry) => pure { entry with remainingMs := (r.left (r.currentAt slot)).toUInt32 }

def exportSleepEntry : RefOp L E SessionBankEntry := do
  let out ← exportEntry scope peer
  Op.check (refuse (out.flags &&& kFlagDevResume != 0)
    ⟨.invalidArgument, "session dev never sleeps"⟩)
  let out := { out with flags := out.flags &&& ~~~(kFlagPinned ||| kFlagRekeyPending) }
  Op.check (refuse (out.flags != 0) ⟨.invalidArgument, "session save flags live"⟩)
  pure out

def restoreEntry (entry : SessionBankEntry) : RefOp L E Unit := do
  let r ← Op.get
  Op.check (r.bank.checkRestore scope peer entry)
  match r.bank.freeSlot scope peer with
  | none => Op.throw ⟨.noCapacity, "session table full"⟩
  | some slot => Op.set (r.place slot entry entry.remainingMs)

/-! ## Demands -/

def takeDemand : RefOp L E (Option SessionDemand) := do
  let r ← Op.get
  match (r.bank.demand.findIdx fun _ => r.bank.configured).bind fun i =>
      (r.bank.demand.slots i).map (i, ·) with
  | none => pure none
  | some (i, demand) => do
    Op.set { r with bank := { r.bank with demand := r.bank.demand.release i } }
    pure (some { scope := demand.scope, peer := demand.peer, deadlineMs := r.demandAt i })

def noteDemand : RefOp L E Unit := do
  let r ← Op.get
  if r.bank.configured && unicastScope scope && idValid peer then Op.set (r.recordDemand scope peer)
  else pure ()

variable (r : ReferenceBank L E) (context : SecurityContext)

def inGrace (slot : Slot L E) (entry : SessionBankEntry) : Bool :=
  r.entryUsable slot entry &&
    kContextLifetimeMs - (r.left (r.currentAt slot)).toUInt32 < kRxUnknownGraceMs

def noteRxUnknown : RefOp L E Unit := do
  let r ← Op.get
  if !r.bank.configured || scope != .endToEnd || !idValid peer || peer == r.bank.view.self ||
      (r.bank.rxUnknownDemandStarted &&
        r.bank.lastTick - r.bank.lastRxUnknownDemandMs < kRxUnknownRateMs.toUInt64) ||
      (r.bank.findCurrent scope peer).any (fun x => r.inGrace x.1 x.2) then pure ()
  else
    let r := r.recordDemand scope peer
    Op.set (if r.bank.demandPending scope peer then
      { r with bank := { r.bank with
        lastRxUnknownDemandMs := r.bank.lastTick, rxUnknownDemandStarted := true } } else r)

/-! ## Using a session -/

def demandContext {α : Type} : RefOp L E α := do
  let r ← Op.get
  Op.set (r.recordDemand scope peer)
  Op.throw ⟨.authRequired, "session establishment required"⟩

def txEpoch : RefOp L E UInt32 := do
  let r ← Op.get
  Op.check r.bank.checkConfigured
  Op.check (refuse (!unicastScope scope) ⟨.unsupported, "session scope"⟩)
  Op.check (refuse (!idValid peer) ⟨.invalidArgument, "session peer invalid"⟩)
  match (r.bank.findCurrent scope peer).filter fun x => r.canSend x.1 x.2 with
  | some (_, entry) => pure entry.txCid
  | none => demandContext scope peer

def nextCounter : RefOp L E UInt64 := do
  let r ← Op.get
  Op.check r.bank.checkConfigured
  Op.check (refuse (!unicastScope context.scope) ⟨.unsupported, "session scope"⟩)
  Op.check (refuse (!r.bank.mapNetwork context.network || context.sender != r.bank.view.self ||
    !idValid context.receiver) ⟨.invalidArgument, "session direction invalid"⟩)
  let found := r.bank.findCurrent context.scope context.receiver
  Op.check (refuse (found.any fun x => context.epoch != x.2.txCid)
    ⟨.invalidArgument, "session tx context id stale"⟩)
  match found.filter fun x => r.canSend x.1 x.2 with
  | none => demandContext context.scope context.receiver
  | some (slot, entry) => do
    Op.check (refuse (entry.txNext > kMaxCryptoCounter)
      ⟨.counterExhausted, "session counter exhausted"⟩)
    Op.set { r with bank := (r.bank.update slot (drawn entry)).touch slot }
    pure entry.txNext

def checkSeal (counter : UInt64) (plaintext : Option (List UInt8)) (ciphertextSize : Option Nat) :
    Except Status ((Slot L E × SessionBankEntry) × AeadNonce × List UInt8) := do
  r.bank.checkConfigured
  refuse (!unicastScope context.scope) ⟨.unsupported, "session scope"⟩
  refuse (plaintext.isNone || ciphertextSize.isNone) ⟨.invalidArgument, "session null buffer"⟩
  refuse (!r.bank.mapNetwork context.network || context.sender != r.bank.view.self ||
    !idValid context.receiver) ⟨.invalidArgument, "session direction invalid"⟩
  match (r.bank.findCurrent context.scope context.receiver).filter fun x => r.entryUsable x.1 x.2 with
  | none => Status.error .authRequired "session establishment required"
  | some (slot, entry) =>
    refuse (context.epoch != entry.txCid || counter != entry.txNext - 1 ||
      entry.flags &&& kFlagSealReserved == 0)
      ⟨.invalidArgument, "session seal without reservation"⟩
    refuse (ciphertextSize.getD 0 < (plaintext.getD []).length)
      ⟨.noCapacity, "session ciphertext short"⟩
    let nonce ← aeadNonce entry.txIv counter
    .ok ((slot, entry), nonce, plaintext.getD [])

def sealFrame (aead : AeadGcm) (context : SecurityContext) (counter : UInt64) (aad : List UInt8)
    (plaintext : Option (List UInt8)) (ciphertextSize : Option Nat) :
    RefOp L E (List UInt8 × AeadTag) := do
  let r ← Op.get
  let ((slot, entry), nonce, plaintext) ←
    Op.check (r.checkSeal context counter plaintext ciphertextSize)
  Op.set { r with
    bank := r.bank.update slot { entry with flags := entry.flags &&& ~~~kFlagSealReserved } }
  match aead.encrypt entry.txKey nonce aad plaintext with
  | none => Op.throw ⟨.internalError, "session aead seal failed"⟩
  | some sealed => pure sealed

def selectRx (scope : SecurityScope) (sender : NodeId) (epoch : UInt32) :
    Option (RxHolder L E × RxContext) :=
  match (r.bank.findCurrent scope sender).filter fun x =>
      x.2.rxCid == epoch && r.entryUsable x.1 x.2 with
  | some (slot, entry) => some (.current slot, entryRx entry)
  | none =>
    (List.finRange kOverlapCapacity).findSome? fun i =>
      ((r.bank.overlap.slots i).filter fun entry =>
        entry.scope == scope && entry.peer == sender && entry.rxCid == epoch &&
          r.alive (r.overlapAt i)).map fun entry => (.overlap i, overlapRx entry)

def checkOpen (counter : UInt64) (ciphertext : Option (List UInt8)) (plaintextSize : Option Nat) :
    Except Status ((RxHolder L E × RxContext) × AeadNonce × List UInt8) := do
  r.bank.checkConfigured
  refuse (!unicastScope context.scope) ⟨.unsupported, "session scope"⟩
  refuse (ciphertext.isNone || plaintextSize.isNone) ⟨.invalidArgument, "session null buffer"⟩
  refuse (!r.bank.mapNetwork context.network || context.receiver != r.bank.view.self ||
    !idValid context.sender) ⟨.invalidArgument, "session direction invalid"⟩
  match r.selectRx context.scope context.sender context.epoch with
  | none => Status.error .authRequired "session unknown context"
  | some (holder, rx) =>
    refuse (!rxCounterAdmissible counter) ⟨.authenticationFailed, "session counter forged"⟩
    refuse (plaintextSize.getD 0 < (ciphertext.getD []).length)
      ⟨.noCapacity, "session plaintext short"⟩
    refuse ((ciphertext.getD []).length > kStagingBytes) ⟨.noCapacity, "session frame oversized"⟩
    refuse (counter ≤ rx.rxMax && (rx.rxMax - counter ≥ 64 ||
      (rx.rxBitmap >>> (rx.rxMax - counter)) &&& 1 != 0)) ⟨.replayRejected, "session replay"⟩
    let nonce ← aeadNonce rx.rxIv counter
    .ok ((holder, rx), nonce, ciphertext.getD [])

def openFrame (aead : AeadGcm) (context : SecurityContext) (counter : UInt64) (aad : List UInt8)
    (ciphertext : Option (List UInt8)) (tag : AeadTag) (plaintextSize : Option Nat) :
    RefOp L E (List UInt8) := do
  let r ← Op.get
  let ((holder, rx), nonce, ciphertext) ←
    Op.check (r.checkOpen context counter ciphertext plaintextSize)
  match aead.decrypt rx.rxKey nonce aad ciphertext tag with
  | none => Op.throw ⟨.authenticationFailed, "session tag mismatch"⟩
  | some plaintext =>
    let (rxMax, rxBitmap) := slideRx rx counter
    match holder with
    | .overlap i => do
      Op.set { r with
        bank := { r.bank with overlap := r.bank.overlap.modify i ({ · with rxMax, rxBitmap }) } }
      pure plaintext
    | .current _ =>
      match r.bank.findCurrent context.scope context.sender with
      | none => Op.throw ⟨.internalError, "session context moved"⟩
      | some (slot, live) =>
        if live.rxCid != context.epoch then Op.throw ⟨.internalError, "session context moved"⟩
        else do
          Op.set { r with bank := r.bank.update slot { live with rxMax, rxBitmap } }
          pure plaintext

/-- What a call leaves. -/
def effect (e : Event) (r : ReferenceBank L E) : ReferenceBank L E :=
  match e with
  | .configure view bound salt now => (onBank (SessionBank.configure view bound salt now) r).2
  | .resetMembership view salt now => (onBank (SessionBank.resetMembership view salt now) r).2
  | .clear => (onBank SessionBank.clear r).2
  | .tick now => (tick now r).2
  | .setGkEpoch gkEpoch => (setGkEpoch gkEpoch r).2
  | .allocateContextId draws => (onBank (SessionBank.allocateContextId draws) r).2
  | .installVerified keys att => (installVerified keys att r).2
  | .install keys => (install keys r).2
  | .exportEntry scope peer => (exportEntry scope peer r).2
  | .exportSleepEntry scope peer => (exportSleepEntry scope peer r).2
  | .restoreEntry scope peer entry => (restoreEntry scope peer entry r).2
  | .retire scope peer => (onBank (SessionBank.retire scope peer) r).2
  | .retireAll peer => (onBank (SessionBank.retireAll peer) r).2
  | .retireBelowGeneration peer minGeneration =>
    (onBank (SessionBank.retireBelowGeneration peer minGeneration) r).2
  | .evictIdleEnd => (onBank SessionBank.evictIdleEnd r).2
  | .setPinned scope peer pinned => (onBank (SessionBank.setPinned scope peer pinned) r).2
  | .takeDemand => (takeDemand r).2
  | .noteDemand scope peer => (noteDemand scope peer r).2
  | .noteRxUnknown scope peer => (noteRxUnknown scope peer r).2
  | .txEpoch scope peer => (txEpoch scope peer r).2
  | .nextCounter context => (nextCounter context r).2
  | .sealFrame aead context counter aad plaintext ciphertextSize =>
    (sealFrame aead context counter aad plaintext ciphertextSize r).2
  | .openFrame aead context counter aad ciphertext tag plaintextSize =>
    (openFrame aead context counter aad ciphertext tag plaintextSize r).2

end ReferenceBank

end RouteLoom
