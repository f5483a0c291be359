import RouteLoom.Storage.LocalRevocation
import RouteLoom.Storage.RevocationStore

/-!
# The store of the removal record

`LocalRevocationStore` of `sdkv1_membership.cpp`: a removal is recorded as blocked and, after the cleanup,
as cleaned. `SdkMembershipHooks` decides from it and the other stores whether this node is a member; what
those hold is arbitrary here.

* `Tracks` : a store that knows what its slots stand for
* `wp_commitBlocked`, `wp_commitCleaned`, `wp_refresh`, `wp_initializeStore`, `wp_clear` : every call leaves
  such a store, whatever reads and writes fail
-/

namespace RouteLoom.Storage

open Lib Lib.TwoSlot SealedSlotPair

structure LocalRevocationStore where
  pair : SealedSlotPair := default
  record : LocalRevocationRecord := {}

/-- A method of the store. -/
abbrev LocalRevocationOp (α : Type) := Method Flash LocalRevocationStore Status α

namespace LocalRevocationStore

/-- A method of the store's pair. -/
def onPair {α : Type} (x : PairOp α) : LocalRevocationOp α :=
  Method.within LocalRevocationStore.pair (fun pair store => { store with pair }) x

def loadRecord : LocalRevocationOp Unit := do
  let bytes ← onPair (loadActive localRevocationFormat)
  let record ← Method.ofExcept (localRevocationRecordDecode bytes)
  let store ← Method.get
  Method.set { store with record }

/-- `reload`. The source also keeps the fields of a record that does not decode; an adopted record does. -/
def reload : LocalRevocationOp Unit := do
  let store ← Method.get
  Method.set { store with record := {} }
  if store.pair.hasActive then loadRecord else pure ()

/-- `initialize`. -/
def initializeStore : LocalRevocationOp Unit := do
  let status ← (onPair (initializePair localRevocationFormat)).attempt
  reload
  Method.ofExcept status

def refresh : LocalRevocationOp Unit := do
  let store ← Method.get
  Method.ofExcept (refuse (!store.pair.initialized) ⟨.invalidState, "rlv1 not initialized"⟩)
  initializeStore

/-- After a failed commit the store reads again what has landed. -/
def failRefreshed (e : Status) : LocalRevocationOp Unit := do
  let _ ← refresh.attempt
  Method.ofExcept (.error e)

variable (store : LocalRevocationStore) (record : LocalRevocationRecord)

/-- The common end of the two commits. -/
def commitRecord : LocalRevocationOp Unit := do
  let status ← Method.attempt do
    let bytes ← Method.ofExcept (localRevocationRecordEncode record kSealPending 0)
    onPair (commitPrepared localRevocationFormat bytes)
  match status with
  | .ok () => reload
  | .error e => failRefreshed e

/-- The order on removals. -/
def checkRemoval : Except Status Unit :=
  let sameMembership := store.record.localNode == record.localNode && store.record.siteId == record.siteId &&
    store.record.network == record.network
  refuse (store.pair.hasActive && (store.record.localNode != record.localNode ||
    (store.record.state == .blocked && !sameMembership) ||
    (store.record.siteId == record.siteId && record.removedGeneration < store.record.removedGeneration)))
    ⟨.conflict, "rlv1 removal superseded"⟩

def commitBlocked : LocalRevocationOp Unit := do
  let store ← Method.get
  Method.ofExcept (refuse (!store.pair.initialized) ⟨.invalidState, "rlv1 not initialized"⟩)
  Method.ofExcept (refuse (record.state != .blocked) ⟨.invalidArgument, "rlv1 not blocked"⟩)
  Method.ofExcept (localRevocationValidate record)
  Method.ofExcept (store.checkRemoval record)
  commitRecord record

def commitCleaned : LocalRevocationOp Unit := do
  let store ← Method.get
  Method.ofExcept (refuse (!store.pair.initialized) ⟨.invalidState, "rlv1 not initialized"⟩)
  Method.ofExcept (refuse (!store.pair.hasActive || store.record.state != .blocked)
    ⟨.invalidState, "rlv1 not blocked"⟩)
  commitRecord { store.record with state := .cleaned }

def clear : LocalRevocationOp Unit := do
  let status ← (onPair (eraseAll localRevocationFormat)).attempt
  match status with
  | .ok () => do
    let store ← Method.get
    Method.set { store with record := {} }
  | .error e => do
    let _ ← initializeStore.attempt
    Method.ofExcept (.error e)

def blocksMembership (holdoffElapsed : Bool) : Bool :=
  if !store.pair.initialized then true
  else if !store.pair.hasActive then store.pair.quarantined || store.pair.uncertain
  else !(store.record.state == .cleaned && holdoffElapsed)

def checkJoin (siteId : UInt64) (generation : UInt32) (holdoffElapsed : Bool) :
    Except Status Unit := do
  refuse (!store.pair.initialized) ⟨.invalidState, "rlv1 not initialized"⟩
  refuse (store.pair.quarantined || store.pair.uncertain) ⟨.storageFailure, "rlv1 gate unprovable"⟩
  if !store.pair.hasActive then .ok ()
  else do
    refuse (store.record.state != .cleaned || !holdoffElapsed)
      ⟨.authorizationFailed, "rlv1 removal unresolved"⟩
    refuse (siteId == store.record.siteId && generation ≤ store.record.removedGeneration)
      ⟨.authorizationFailed, "rlv1 generation not superseded"⟩

end LocalRevocationStore

/-! ## Membership -/

inductive CredentialKeyLocation
  | none | nvsPlaintext | efuseDsBound | secureElement
  deriving DecidableEq, Repr

/-- The identity record, up to the fields that only the certificate check reads. -/
structure IdentityRecord where
  nodeId : NodeId := kInvalidNodeId
  keyLocation : CredentialKeyLocation := .none

inductive SiteState
  | cleared | member
  deriving DecidableEq, Repr

/-- The site record, up to the fields that only the certificate check reads. -/
structure SiteRecord where
  state : SiteState := .cleared
  siteId : UInt64 := 0
  network : NetworkId := 0
  assignmentGeneration : UInt32 := 0
  rsEpochFloor : UInt32 := 0
  bootWitness : UInt32 := 0

structure IdentityStore where
  initialized : Bool
  quarantined : Bool
  uncertain : Bool
  hasIdentity : Bool
  identity : IdentityRecord

structure SiteStore where
  initialized : Bool
  quarantined : Bool
  uncertain : Bool
  site : SiteRecord

structure SdkMembershipHooks where
  identity : IdentityStore
  site : SiteStore
  revocations : RevocationStore
  localRevocation : LocalRevocationStore
  /-- `site_matches_identity`, the check of the two certificates. -/
  siteMatchesIdentity : SiteRecord → IdentityRecord → Bool
  boot : Option (UInt32 → Bool)
  holdoffElapsed : Bool

namespace SdkMembershipHooks

variable (hooks : SdkMembershipHooks)

def storesHealthy : Bool :=
  if !hooks.identity.initialized || !hooks.site.initialized || !hooks.revocations.pair.initialized ||
      !hooks.localRevocation.pair.initialized then false
  else if !hooks.identity.hasIdentity || hooks.identity.quarantined || hooks.identity.uncertain then false
  else if hooks.site.quarantined || hooks.site.uncertain then false
  else if hooks.revocations.pair.quarantined || hooks.revocations.pair.uncertain then false
  else !(hooks.localRevocation.pair.quarantined || hooks.localRevocation.pair.uncertain)

def selfRejected : Bool :=
  let site := hooks.site.site
  let set := hooks.revocations.set
  if site.state != .member || !hooks.revocations.hasSet then false
  else if set.siteId != site.siteId || set.network != site.network then false
  else if set.rsEpoch < site.rsEpochFloor then false
  else revocationRejects set hooks.identity.identity.nodeId site.assignmentGeneration
    (site.network >>> 32).toUInt32

def floorLost : Bool :=
  let site := hooks.site.site
  let set := hooks.revocations.set
  if site.state != .member then false
  else if hooks.revocations.hasSet then
    if set.siteId != site.siteId || set.network != site.network then true else set.rsEpoch < site.rsEpochFloor
  else site.rsEpochFloor != 0

def siteMatches (site : SiteRecord) (network : NetworkId) : Bool :=
  site.state == .member && site.network == network

def localMember (network : NetworkId) : Bool :=
  let identity := hooks.identity.identity
  let site := hooks.site.site
  let removal := hooks.localRevocation
  if !hooks.storesHealthy then false
  else if !siteMatches site network then false
  else if identity.nodeId == kInvalidNodeId then false
  else if identity.keyLocation != .nvsPlaintext then false
  else if !hooks.siteMatchesIdentity site identity then false
  else if removal.blocksMembership hooks.holdoffElapsed then false
  else if removal.pair.hasActive && removal.record.siteId == site.siteId &&
      site.assignmentGeneration ≤ removal.record.removedGeneration then false
  else if hooks.selfRejected || hooks.floorLost then false
  else hooks.boot.any fun witnessOk => witnessOk site.bootWitness

end SdkMembershipHooks

/-! ## What a store knows -/

namespace LocalRevocationStore

/-- The pair stands on its slots, and the record is the active one or, after a failed read, the default,
which is blocked. -/
structure Tracks (store : LocalRevocationStore) (flash : Flash) : Prop where
  standing : Standing localRevocationFormat store.pair flash
  record : Usable store.pair → store.pair.hasActive = true → store.record = {} ∨
    ∃ a, slotRecord localRevocationFormat (flash store.pair.activeSlot) = some a ∧
      localRevocationRecordDecode a.2 = .ok store.record

variable {w : LocalRevocationStore} {flash : Flash} {D : Flash → Prop} {record : LocalRevocationRecord}

theorem wp_reload (hstanding : Standing localRevocationFormat w.pair flash) (hD : D flash) :
    Method.wp reload (fun _ w' s => Tracks w' s ∧ D s) (fun _ w' s => Tracks w' s ∧ D s) D w flash := by
  have hdefault : Tracks { w with record := {} } flash := ⟨hstanding, fun _ _ => .inl rfl⟩
  unfold reload
  simp only [Method.wp_bind, Method.wp_get, Method.wp_set]
  split
  · unfold loadRecord onPair
    simp only [Method.wp_bind, Method.wp_within, Method.wp_ofExcept, Method.wp_get, Method.wp_set]
    refine wp_loadActive hD (fun bytes hbytes => ⟨fun record hdecode => ⟨⟨hstanding, ?_⟩, hD⟩,
      fun e _ => ⟨hdefault, hD⟩⟩) fun e => ⟨hdefault, hD⟩
    intro husable hactive
    obtain ⟨_, held, hstands⟩ := hstanding.active husable hactive
    refine .inr ⟨_, hstands.newest.held, ?_⟩
    rw [← hbytes _ hstands.newest.held]
    exact hdecode
  · exact ⟨hdefault, hD⟩

theorem wp_initializeStore (hD : D flash) :
    Method.wp initializeStore (fun _ w' s => Tracks w' s ∧ D s) (fun _ w' s => Tracks w' s ∧ D s) D w flash := by
  unfold initializeStore onPair
  simp only [Method.wp_bind, Method.wp_attempt, Method.wp_within, Method.wp_ofExcept]
  have hreload : ∀ scan, ScanOf localRevocationFormat flash scan →
      ∀ Q : Unit → LocalRevocationStore → Flash → Prop, (∀ w' s, Tracks w' s ∧ D s → Q () w' s) →
      Method.wp reload Q (fun _ w' s => Tracks w' s ∧ D s) D
        { w with pair := (conclude localRevocationFormat scan).2 } flash := by
    intro scan hscan Q hQ
    have hstanding : Standing localRevocationFormat (conclude localRevocationFormat scan).2 flash :=
      standing_conclude rfl hscan
    exact (wp_reload (w := ⟨_, w.record⟩) hstanding hD).mono (fun _ => hQ) (fun _ _ _ h => h) fun _ h => h
  exact wp_initializePair hD (fun scan hscan _ => hreload scan hscan _ fun _ _ h => ⟨fun _ _ => h, fun _ _ => h⟩)
    fun scan e hscan _ => hreload scan hscan _ fun _ _ h => ⟨fun _ _ => h, fun _ _ => h⟩

theorem wp_refresh (h : w.pair.initialized = false → Tracks w flash) (hD : D flash) :
    Method.wp refresh (fun _ w' s => Tracks w' s ∧ D s) (fun _ w' s => Tracks w' s ∧ D s) D w flash := by
  unfold refresh
  simp only [Method.wp_bind, Method.wp_get, Method.wp_ofExcept]
  refine ⟨fun _ _ => wp_initializeStore hD, fun e he => ⟨h ?_, hD⟩⟩
  cases hinitialized : w.pair.initialized with
  | false => rfl
  | true =>
    rw [hinitialized] at he
    cases he

theorem wp_failRefreshed {Q : Unit → LocalRevocationStore → Flash → Prop} {e : Status}
    (h : w.pair.initialized = false → Tracks w flash) (hD : D flash) :
    Method.wp (failRefreshed e) Q (fun _ w' s => Tracks w' s ∧ D s) D w flash := by
  unfold failRefreshed
  simp only [Method.wp_bind, Method.wp_attempt]
  refine (wp_refresh h hD).mono (fun _ w' s hpost => ?_) (fun _ w' s hpost => ?_) fun _ hs => hs
  · exact (Method.wp_ofExcept _).mpr ⟨fun _ hok => (by cases hok), fun _ _ => hpost⟩
  · exact (Method.wp_ofExcept _).mpr ⟨fun _ hok => (by cases hok), fun _ _ => hpost⟩

/-- The slots stand for the record. -/
def Records (record : LocalRevocationRecord) (flash : Flash) : Prop :=
  ∃ i a, Stands localRevocationFormat flash i a ∧ localRevocationRecordDecode a.2 = .ok record

theorem wp_commitRecord (h : Tracks w flash) (hD : D flash)
    (hwritten : localRevocationValidate record = .ok () → Usable w.pair →
      Admitted localRevocationFormat w.pair (localRecordFor record) → ∀ s,
        Written localRevocationFormat flash w.pair.target (localRecordFor record) (w.pair.seqFloor + 1) s → D s) :
    Method.wp (commitRecord record) (fun _ w' s => Tracks w' s ∧ D s ∧ Records record s)
      (fun _ w' s => Tracks w' s ∧ D s) D w flash := by
  unfold commitRecord onPair
  simp only [Method.wp_bind, Method.wp_attempt, Method.wp_within]
  rw [Method.wp_ofExcept]
  refine ⟨fun bytes hencode => ?_, fun e _ => wp_failRefreshed (fun _ => h) hD⟩
  have hvalid : localRevocationValidate record = .ok () := by
    obtain ⟨_, hvalid, _⟩ := bind_eq_ok.mp hencode
    exact hvalid
  rw [localRevocationRecordEncode_eq hvalid] at hencode
  cases hencode
  have hprepared := prepared_localRevocation hvalid (w.pair.seqFloor + 1)
  refine wp_commitPrepared rfl (fun e => wp_failRefreshed (fun _ => h) hD)
    (fun husable hadmitted s hs => hwritten hvalid husable hadmitted s hs)
    (fun husable hadmitted e s hs => wp_failRefreshed (fun hoff => ?_) (hwritten hvalid husable hadmitted s hs))
    (fun husable hadmitted => ?_)
  · rw [husable.initialized] at hoff
    cases hoff
  · have hstands := h.standing.anchored.stands rfl (h.standing.clean husable) husable hadmitted hprepared
    have hstanding : Standing localRevocationFormat w.pair.advanced _ :=
      ⟨fun _ _ => ⟨UInt32.le_refl _, _, hstands⟩, fun _ hactive => by cases hactive⟩
    refine (wp_reload (w := ⟨_, w.record⟩) hstanding
      (D := fun s => D s ∧ Records record s) ⟨hwritten hvalid husable hadmitted _ .committed, ?_⟩).mono
      (fun _ _ _ hpost => hpost) (fun _ _ _ hpost => ⟨hpost.1, hpost.2.1⟩) fun _ hs => hs.1
    exact ⟨_, _, hstands, localRevocationRecordDecode_committed hvalid _⟩

theorem wp_commitBlocked (h : Tracks w flash) (hD : D flash)
    (hwritten : localRevocationValidate record = .ok () → w.checkRemoval record = .ok () → Usable w.pair →
      Admitted localRevocationFormat w.pair (localRecordFor record) → ∀ s,
        Written localRevocationFormat flash w.pair.target (localRecordFor record) (w.pair.seqFloor + 1) s → D s) :
    Method.wp (commitBlocked record) (fun _ w' s => Tracks w' s ∧ D s ∧ Records record s)
      (fun _ w' s => Tracks w' s ∧ D s) D w flash := by
  unfold commitBlocked
  simp only [Method.wp_bind, Method.wp_get, Method.wp_ofExcept]
  refine ⟨fun _ _ => ⟨fun _ _ => ⟨fun _ _ => ⟨fun _ hcheck => ?_, fun _ _ => ⟨h, hD⟩⟩, fun _ _ => ⟨h, hD⟩⟩,
    fun _ _ => ⟨h, hD⟩⟩, fun _ _ => ⟨h, hD⟩⟩
  exact wp_commitRecord h hD fun hvalid => hwritten hvalid hcheck

theorem wp_commitCleaned (h : Tracks w flash) (hD : D flash)
    (hwritten : localRevocationValidate { w.record with state := .cleaned } = .ok () → Usable w.pair →
      Admitted localRevocationFormat w.pair (localRecordFor { w.record with state := .cleaned }) → ∀ s,
        Written localRevocationFormat flash w.pair.target (localRecordFor { w.record with state := .cleaned })
          (w.pair.seqFloor + 1) s → D s) :
    Method.wp commitCleaned (fun _ w' s => Tracks w' s ∧ D s) (fun _ w' s => Tracks w' s ∧ D s) D w flash := by
  unfold commitCleaned
  simp only [Method.wp_bind, Method.wp_get, Method.wp_ofExcept]
  refine ⟨fun _ _ => ⟨fun _ _ => ?_, fun _ _ => ⟨h, hD⟩⟩, fun _ _ => ⟨h, hD⟩⟩
  exact (wp_commitRecord h hD hwritten).mono (fun _ _ _ hpost => ⟨hpost.1, hpost.2.1⟩) (fun _ _ _ hpost => hpost)
    fun _ hs => hs

theorem wp_eraseAll {pair : SealedSlotPair} :
    Method.wp (eraseAll localRevocationFormat) (fun _ pair s => Standing localRevocationFormat pair s)
      (fun _ _ _ => True) (fun _ => True) pair flash := by
  have hend : ∀ (first second : Except Status Unit) (s : Flash), Method.wp
      (do Method.ofExcept first; Method.ofExcept second; initializePair localRevocationFormat)
      (fun _ pair s => Standing localRevocationFormat pair s) (fun _ _ _ => True) (fun _ => True) pair s := by
    intro first second s
    simp only [Method.wp_bind, Method.wp_ofExcept]
    refine ⟨fun _ _ => ⟨fun _ _ => ?_, fun _ _ => trivial⟩, fun _ _ => trivial⟩
    exact wp_initializePair trivial (fun _ hscan _ => standing_conclude rfl hscan) fun _ _ _ _ => trivial
  have hsecond : ∀ (first : Except Status Unit) (s : Flash), Method.wp (do
        let second ← eraseSlot localRevocationFormat 1
        Method.ofExcept first
        Method.ofExcept second
        initializePair localRevocationFormat)
      (fun _ pair s => Standing localRevocationFormat pair s) (fun _ _ _ => True) (fun _ => True) pair s := by
    intro first s
    rw [Method.wp_bind, eraseSlot, Method.wp_tryCommit]
    exact ⟨trivial, trivial, hend _ _ _, fun _ => ⟨hend _ _ _, hend _ _ _⟩⟩
  unfold eraseAll
  rw [Method.wp_bind, eraseSlot, Method.wp_tryCommit]
  exact ⟨trivial, trivial, hsecond _ _, fun _ => ⟨hsecond _ _, hsecond _ _⟩⟩

theorem wp_clear :
    Method.wp clear (fun _ w' s => Tracks w' s) (fun _ w' s => Tracks w' s) (fun _ => True) w flash := by
  have hfail : ∀ (e : Status) (w : LocalRevocationStore) (s : Flash), Method.wp
      (do let _ ← initializeStore.attempt; Method.ofExcept (.error e)) (fun (_ : Unit) w' s => Tracks w' s)
      (fun _ w' s => Tracks w' s) (fun _ => True) w s := by
    intro e w s
    rw [Method.wp_bind, Method.wp_attempt]
    refine (wp_initializeStore (D := fun _ => True) trivial).mono (fun _ w' s hpost => ?_)
      (fun _ w' s hpost => ?_) fun _ _ => trivial
    · exact (Method.wp_ofExcept _).mpr ⟨fun _ _ => hpost.1, fun _ _ => hpost.1⟩
    · exact (Method.wp_ofExcept _).mpr ⟨fun _ _ => hpost.1, fun _ _ => hpost.1⟩
  unfold clear onPair
  rw [Method.wp_bind, Method.wp_attempt, Method.wp_within]
  refine wp_eraseAll.mono (fun _ pair s hstanding => ?_) (fun e pair s _ => hfail e _ s) fun _ _ => trivial
  simp only [Method.wp_bind, Method.wp_get, Method.wp_set]
  exact ⟨hstanding, fun _ _ => .inl rfl⟩

end LocalRevocationStore

end RouteLoom.Storage
