import Mathlib.Data.Finset.Card
import Mathlib.Data.List.AList
import RouteLoom.Basic

/-!
# The operation store of the host

The host names a submission by its principal, network, admission epoch and key. The memory store keeps
one record for each submission it accepted, found by that identity and by its number. Each principal
opens epochs in a network one after the other; a closed epoch takes no new key, and once all of its
records are old enough the epoch is retired and its keys are forgotten.

* `ScopeEpochs` : the epochs of one scope, from the retired floor to the open one
* `retireScope`, `openEpoch`, `submit` : admission
* `prepareDispatch`, `updateOperation`, `cancelOperation`, `supersedeLatestForDest` : the records
-/

namespace RouteLoom.Host

/-! ## Records -/

def kRecordCap : Nat := 4096
def kActiveCap : Nat := 32
def kActivePerPrincipalCap : Nat := 8
def kMaxUnretiredEpochs : Nat := 32
def kEpochWindowMs : UInt64 := 3600000
def kRetentionMs : UInt64 := 86400000
def kScopeCap : Nat := 64

def kQueueFifo : UInt8 := 0
def kQueueLatestPerDestination : UInt8 := 1

def kU64Max : UInt64 := 0xFFFFFFFFFFFFFFFF

def saturatingAdd (a b : UInt64) : UInt64 :=
  if a.toNat + b.toNat < 2 ^ 64 then a + b else kU64Max

inductive Principal
  | unixUid (uid : UInt32)
  | windowsSid (sid : String)
  deriving DecidableEq, Repr

/-- A scope has one open epoch at most. -/
abbrev EpochScope := Principal × NetworkId

abbrev Id128 := Vector UInt8 16

structure OpIdentity where
  principal : Principal
  network : NetworkId
  epoch : UInt64
  key : Id128
  deriving DecidableEq, Repr

def OpIdentity.scope (id : OpIdentity) : EpochScope := (id.principal, id.network)

structure SendRequest where
  network : NetworkId
  epoch : UInt64
  key : Id128
  destKind : UInt8 := 0
  dest : UInt64 := 0
  delivery : UInt8 := 0
  priority : UInt8 := 0
  ttlMs : UInt32 := 0
  storage : UInt8 := 0
  hopLimit : UInt8 := 0
  queueMode : UInt8 := kQueueFifo
  payload : List UInt8 := []
  canonical : List UInt8 := []
  hash : Vector UInt8 32 := Vector.replicate 32 0
  deriving DecidableEq, Repr

def SendRequest.identity (principal : Principal) (req : SendRequest) : OpIdentity :=
  ⟨principal, req.network, req.epoch, req.key⟩

inductive DispatchState
  | hostQueued | dispatchPrepared | gatewayAccepted | endSdkReceived | expiredBeforeDispatch
  | cancelledBeforeDispatch | rejectedNotAccepted | indeterminate | timeUncertain
  deriving DecidableEq, Repr

namespace DispatchState

def isTerminal : DispatchState → Bool
  | endSdkReceived | expiredBeforeDispatch | cancelledBeforeDispatch | rejectedNotAccepted => true
  | _ => false

def isActive : DispatchState → Bool
  | dispatchPrepared | gatewayAccepted => true
  | _ => false

end DispatchState

/-- The position of a record in the window of a device, and what the host knows of the send. -/
structure DispatchAttachment where
  lease : Id128
  dispatcher : Id128
  dispatchSeq : UInt64
  submitted : Bool := false
  skipPending : Bool := false
  deviceTerminal : Bool := false
  msgSession : Option UInt32 := none
  msgSeq : Option UInt64 := none
  evGatewayAccepted : Bool := false
  evMacAttempt : Bool := false
  evEndSdk : Bool := false
  evHostReceive : Bool := false
  cancelRequested : Bool := false
  timeUncertain : Bool := false
  deviceState : Option String := none
  deviceReason : Option String := none
  deriving DecidableEq, Repr

/-- What may change in a record after it is accepted. -/
structure Progress where
  supersededBy : Option UInt64 := none
  dispatchState : DispatchState := .hostQueued
  terminalMs : Option UInt64 := none
  dispatch : Option DispatchAttachment := none
  deriving DecidableEq, Repr

structure StoredOperation extends Progress where
  seq : UInt64
  principal : Principal
  network : NetworkId
  epoch : UInt64
  key : Id128
  destKind : UInt8
  dest : UInt64
  delivery : UInt8
  priority : UInt8
  ttlMs : UInt32
  storage : UInt8
  hopLimit : UInt8
  queueMode : UInt8
  payload : List UInt8
  canonical : List UInt8
  hash : Vector UInt8 32
  acceptedMs : UInt64
  acceptedMonoMs : UInt64
  deriving DecidableEq, Repr

namespace StoredOperation

variable (op : StoredOperation)

def identity : OpIdentity := ⟨op.principal, op.network, op.epoch, op.key⟩

def scope : EpochScope := (op.principal, op.network)

/-- A final outcome is known: by its name, or by the time it was reached. -/
def concluded : Bool :=
  op.dispatchState.isTerminal || op.terminalMs.isSome

/-- The outcome is old enough to be forgotten. -/
def lapsed (now : UInt64) : Bool :=
  op.terminalMs.any fun t => saturatingAdd t kRetentionMs ≤ now

def withProgress (p : Progress) : StoredOperation := { op with toProgress := p }

@[simp] theorem dispatch_withProgress (p : Progress) : (op.withProgress p).dispatch = p.dispatch := rfl

/-- The record of an accepted request. -/
def accept (seq : UInt64) (principal : Principal) (req : SendRequest) (now mono : UInt64) :
    StoredOperation where
  seq := seq
  principal := principal
  network := req.network
  epoch := req.epoch
  key := req.key
  destKind := req.destKind
  dest := req.dest
  delivery := req.delivery
  priority := req.priority
  ttlMs := req.ttlMs
  storage := req.storage
  hopLimit := req.hopLimit
  queueMode := req.queueMode
  payload := req.payload
  canonical := req.canonical
  hash := req.hash
  acceptedMs := now
  acceptedMonoMs := mono

/-- Nothing can have left the host for this record. -/
def unsubmitted : Bool :=
  match op.dispatchState with
  | .hostQueued => true
  | .dispatchPrepared => op.dispatch.any fun d => !d.submitted
  | .timeUncertain => !op.dispatch.any fun d => d.submitted
  | _ => false

end StoredOperation

/-! ## Epochs -/

inductive EpochStatus
  | open_ | closed | unknown
  deriving DecidableEq, Repr

/-- The epochs of a scope: `opened` is the open one with the time it was opened. -/
structure ScopeEpochs where
  floor : UInt64
  next : UInt64
  opened : Option (UInt64 × UInt64)
  closed : Finset UInt64
  deriving DecidableEq

namespace ScopeEpochs

def fresh (now : UInt64) : ScopeEpochs where
  floor := 0
  next := 2
  opened := some (1, now)
  closed := ∅

variable (e : ScopeEpochs)

def unretired : Nat := e.closed.card + e.opened.isSome.toNat

def isOpen (epoch : UInt64) : Bool := e.opened.any fun o => o.1 == epoch

def status (epoch now : UInt64) : EpochStatus :=
  match e.opened.filter fun o => o.1 == epoch with
  -- the window binds admission even before the epoch is rotated
  | some (_, openedMs) => if now < saturatingAdd openedMs kEpochWindowMs then .open_ else .closed
  | none => if epoch ≤ e.floor ∨ epoch ∈ e.closed then .closed else .unknown

/-- Close the open epoch. -/
def close : ScopeEpochs :=
  match e.opened with
  | none => e
  | some (epoch, _) => { e with closed := insert epoch e.closed, opened := none }

/-- The only epoch that can be retired next. -/
def candidate : UInt64 := saturatingAdd e.floor 1

def retire : ScopeEpochs :=
  { e with floor := e.candidate, closed := e.closed.erase e.candidate }

end ScopeEpochs

/-! ## The store -/

inductive SubmitOutcome
  | accepted (seq : UInt64)
  | replay (seq : UInt64)
  | conflict (existingSeq : UInt64)
  | unknownEpoch
  | epochClosed
  | noCapacity
  deriving DecidableEq, Repr

inductive OpenEpochError
  | noCapacity
  deriving DecidableEq, Repr

inductive PrepareOutcome
  | prepared (attachment : DispatchAttachment)
  | notQueued (state : DispatchState)
  | notFound
  deriving DecidableEq, Repr

inductive CancelOutcome
  | cancelled
  | tooLate (state : DispatchState)
  | notFound
  deriving DecidableEq, Repr

structure MemoryOperationStore where
  nextSeq : UInt64 := 1
  dispatchLease : Option Id128 := none
  dispatchNext : UInt64 := 1
  epochs : AList (fun _ : EpochScope => ScopeEpochs) := ∅
  byIdentity : AList (fun _ : OpIdentity => UInt64) := ∅
  bySeq : AList (fun _ : UInt64 => StoredOperation) := ∅

namespace MemoryOperationStore

variable (s : MemoryOperationStore) (principal : Principal)

def values : List StoredOperation := s.bySeq.entries.map (·.2)

/-- Every record of the epoch has concluded and is old enough. -/
def eligible (scope : EpochScope) (epoch now : UInt64) : Bool :=
  (s.values.filter fun op => op.scope == scope && op.epoch == epoch).all fun op =>
    op.concluded && op.lapsed now

def forget (id : OpIdentity) : MemoryOperationStore :=
  match s.byIdentity.lookup id with
  | none => s
  | some seq => { s with byIdentity := s.byIdentity.erase id, bySeq := s.bySeq.erase seq }

def stale (scope : EpochScope) (epoch : UInt64) : List OpIdentity :=
  s.byIdentity.keys.filter fun id => id.scope == scope && id.epoch == epoch

/-- Raise the floor by one epoch and forget its keys. -/
def retireEpoch (scope : EpochScope) (state : ScopeEpochs) : MemoryOperationStore :=
  (s.stale scope state.candidate).foldl forget { s with epochs := s.epochs.insert scope state.retire }

/-- One pass of the loop of `retireScope`; `none` is its end. -/
def retireStep (scope : EpochScope) (now : UInt64) : Option MemoryOperationStore :=
  match s.epochs.lookup scope with
  | none => none
  | some state =>
    if state.isOpen state.candidate || state.candidate ∉ state.closed then none
    else if s.eligible scope state.candidate now then some (s.retireEpoch scope state)
    else none

def retireLoop (scope : EpochScope) (now : UInt64) : Nat → MemoryOperationStore → MemoryOperationStore
  | 0, s => s
  | n + 1, s =>
    match s.retireStep scope now with
    | none => s
    | some s' => retireLoop scope now n s'

/-- Each pass takes one epoch from the closed ones, so there are no more passes than those. -/
def retireScope (scope : EpochScope) (now : UInt64) : MemoryOperationStore :=
  match s.epochs.lookup scope with
  | none => s
  | some state => retireLoop scope now state.closed.card s

def active (op : StoredOperation) : Bool := op.dispatchState.isActive && !op.concluded

/-- Records, active records, and the active records of `principal`. -/
def counts : Nat × Nat × Nat :=
  (s.values.length, s.values.countP active,
    s.values.countP fun op => active op && op.principal == principal)

/-- Rotate the epochs of a scope whose old epochs are retired. -/
def rotate (scope : EpochScope) (state : ScopeEpochs) (now : UInt64) :
    Except OpenEpochError (UInt64 × Bool) × MemoryOperationStore :=
  match state.opened.filter fun o => now < saturatingAdd o.2 kEpochWindowMs with
  | some (epoch, _) => (.ok (epoch, false), s)
  | none =>
    let state := state.close
    if kMaxUnretiredEpochs ≤ state.unretired ∨ state.next = kU64Max then
      (.error .noCapacity, { s with epochs := s.epochs.insert scope state })
    else
      let rotated : ScopeEpochs :=
        { state with next := saturatingAdd state.next 1, opened := some (state.next, now) }
      (.ok (state.next, true), { s with epochs := s.epochs.insert scope rotated })

def openEpoch (scope : EpochScope) (now : UInt64) :
    Except OpenEpochError (UInt64 × Bool) × MemoryOperationStore :=
  match s.epochs.lookup scope with
  | none =>
    if kScopeCap ≤ s.epochs.entries.length then (.error .noCapacity, s)
    else (.ok (1, true), { s with epochs := s.epochs.insert scope (.fresh now) })
  | some _ =>
    let s := s.retireScope scope now
    match s.epochs.lookup scope with
    | none => (.error .noCapacity, s)
    | some state => s.rotate scope state now

/-- Store a new record under the next number. -/
def accept (s : MemoryOperationStore) (principal : Principal) (req : SendRequest) (now mono : UInt64) :
    MemoryOperationStore :=
  { s with
    nextSeq := max (saturatingAdd s.nextSeq 1) 1
    byIdentity := s.byIdentity.insert (req.identity principal) s.nextSeq
    bySeq := s.bySeq.insert s.nextSeq (.accept s.nextSeq principal req now mono) }

/-- A key that is not known yet. -/
def submitNew (req : SendRequest) (now mono : UInt64) : SubmitOutcome × MemoryOperationStore :=
  let s := s.retireScope (principal, req.network) now
  match (s.epochs.lookup (principal, req.network)).map (ScopeEpochs.status · req.epoch now) with
  | some .open_ =>
    let (records, active, ofPrincipal) := s.counts principal
    if kRecordCap ≤ records ∨ kActiveCap ≤ active ∨ kActivePerPrincipalCap ≤ ofPrincipal then
      (.noCapacity, s)
    else (.accepted s.nextSeq, s.accept principal req now mono)
  | some .closed => (.epochClosed, s)
  | some .unknown | none => (.unknownEpoch, s)

/-- Known keys first, whatever the epoch is by now. Without a record for a known key the source
panics, which is `none` here. -/
def submit (req : SendRequest) (now mono : UInt64) : Option SubmitOutcome × MemoryOperationStore :=
  match s.byIdentity.lookup (req.identity principal) with
  | some seq =>
    ((s.bySeq.lookup seq).map fun stored =>
      if stored.canonical = req.canonical ∧ stored.queueMode = req.queueMode then .replay seq
      else .conflict seq, s)
  | none =>
    let (outcome, s) := s.submitNew principal req now mono
    (some outcome, s)

/-- A different lease restarts the numbers at 1. -/
def allocDispatchSeq (lease : Id128) : UInt64 × MemoryOperationStore :=
  let next := if s.dispatchLease = some lease then s.dispatchNext else 1
  let seq := max next 1
  (seq, { s with dispatchLease := some lease, dispatchNext := max (saturatingAdd seq 1) 1 })

def prepareDispatch (opSeq : UInt64) (lease dispatcher : Id128) :
    PrepareOutcome × MemoryOperationStore :=
  match s.bySeq.lookup opSeq with
  | none => (.notFound, s)
  | some op =>
    if op.dispatchState ≠ .hostQueued ∨ op.dispatch.isSome then (.notQueued op.dispatchState, s)
    else
      let (dispatchSeq, s) := s.allocDispatchSeq lease
      let attachment : DispatchAttachment :=
        { lease := lease, dispatcher := dispatcher, dispatchSeq := dispatchSeq }
      let prepared := op.withProgress
        { op.toProgress with dispatch := some attachment, dispatchState := .dispatchPrepared }
      (.prepared attachment, { s with bySeq := s.bySeq.insert opSeq prepared })

/-- Run `mutate` on a record; `none` is its veto, which leaves the record as it was. Callers write
only what `Progress` has. -/
def updateOperation (opSeq : UInt64) (mutate : StoredOperation → Option Progress) :
    Bool × MemoryOperationStore :=
  match s.bySeq.lookup opSeq with
  | none => (false, s)
  | some op =>
    match mutate op with
    | none => (false, s)
    | some p => (true, { s with bySeq := s.bySeq.insert opSeq (op.withProgress p) })

end MemoryOperationStore

/-- The cancellation of one record, which notes the request even if it is too late. -/
def cancelTransition (op : StoredOperation) (now : UInt64) : CancelOutcome × Progress :=
  let dispatch := op.dispatch.map fun d => { d with cancelRequested := true }
  if op.unsubmitted then
    (.cancelled, { op.toProgress with
      dispatchState := .cancelledBeforeDispatch
      terminalMs := some now
      dispatch := dispatch.map fun d => { d with skipPending := true } })
  else (.tooLate op.dispatchState, { op.toProgress with dispatch := dispatch })

/-- The replacement of one record by the newer `newSeq`. -/
def supersedeTransition (op : StoredOperation) (newSeq now : UInt64) : Option Progress :=
  if op.unsubmitted then
    some { op.toProgress with
      dispatchState := .cancelledBeforeDispatch
      terminalMs := some now
      supersededBy := some newSeq
      dispatch := op.dispatch.map fun d => { d with skipPending := true } }
  else none

/-- What the dispatcher does with a record of a former lease that has not concluded: a send that may
have left cannot be resolved, and one that did not is queued again. -/
def leaseChanged (submitted : Bool) (op : StoredOperation) : Option Progress :=
  if op.concluded then none
  else if submitted then some { op.toProgress with dispatchState := .indeterminate }
  else some { op.toProgress with dispatchState := .hostQueued, dispatch := none }

namespace MemoryOperationStore

def cancelOperation (s : MemoryOperationStore) (opSeq now : UInt64) :
    CancelOutcome × MemoryOperationStore :=
  match s.bySeq.lookup opSeq with
  | none => (.notFound, s)
  | some op =>
    ((cancelTransition op now).1,
      (s.updateOperation opSeq fun op => some (cancelTransition op now).2).2)

def dispatchView (s : MemoryOperationStore) : List StoredOperation :=
  s.values.filter fun op => !op.concluded || op.dispatch.isSome

/-- An older value for the destination of `req`. -/
def replaceable (principal : Principal) (req : SendRequest) (keepSeq : UInt64) (op : StoredOperation) :
    Bool :=
  op.seq != keepSeq && op.principal == principal && op.network == req.network &&
    op.destKind == req.destKind && op.dest == req.dest &&
    op.queueMode == kQueueLatestPerDestination && !op.concluded

/-- The records that were replaced, and the store. -/
def supersedeLatestForDest (s : MemoryOperationStore) (principal : Principal) (req : SendRequest)
    (keepSeq now : UInt64) : List UInt64 × MemoryOperationStore :=
  (s.dispatchView.filter (replaceable principal req keepSeq)).foldl
    (fun (superseded, s) op =>
      let (retired, s) := s.updateOperation op.seq fun stored => supersedeTransition stored keepSeq now
      (if retired then superseded ++ [op.seq] else superseded, s))
    ([], s)

end MemoryOperationStore

end RouteLoom.Host
