import RouteLoom.Storage.RevocationSet
import RouteLoom.Storage.Standing

/-!
# The store of the revocation set

`RevocationStore` of `sdkv1_store.cpp`: a set is accepted if it is authentic, newer than the served one and
covers it, and is then committed to the slot that is not active.

* `Stored` : the invariant of a store and its slots over what was served so far
* `revocations_never_weakened` : **what was rejected once stays rejected**
-/

namespace RouteLoom.Storage

open Lib Lib.TwoSlot SealedSlotPair Function List

structure RevocationStore where
  pair : SealedSlotPair := default
  set : RevocationSet := {}
  hasSet : Bool := false

/-- A method of the store. -/
abbrev RevocationOp (α : Type) := Method Flash RevocationStore Status α

namespace RevocationStore

/-- A method of the store's pair. -/
def onPair {α : Type} (x : PairOp α) : RevocationOp α :=
  Method.within RevocationStore.pair (fun pair store => { store with pair }) x

/-- Serve the record that the pair has adopted. -/
def serveActive : RevocationOp Unit := do
  let record ← onPair (loadActive revocationFormat)
  let (set, object) ← Method.ofExcept (revocationRecordDecode record)
  let store ← Method.get
  Method.set { store with set, hasSet := object != [] }

def serveIfActive : RevocationOp Unit := do
  let store ← Method.get
  Method.set { store with set := {}, hasSet := false }
  if store.pair.hasActive then serveActive else pure ()

/-- `initialize`. -/
def initializeStore : RevocationOp Unit := do
  let status ← (onPair (initializePair revocationFormat)).attempt
  serveIfActive
  Method.ofExcept status

variable (verify : Es256Verify) (object : List UInt8) (siteId : UInt64) (network : NetworkId)

/-- `check`: the set of an authentic object. -/
def checkObject : Except Status RevocationSet := do
  let (candidate, verified) ← revocationObjectVerify verify object siteId network
  refuse (!verified) ⟨.authorizationFailed, "revocation set not authentic"⟩
  .ok candidate

/-- `store`. -/
def storeObject (twin : Bool) (candidate : RevocationSet) : RevocationOp Unit := do
  let record ← Method.ofExcept (revocationRecordEncode object kSealPending 0)
  onPair ((CommitCall.mk twin record).run revocationFormat)
  let store ← Method.get
  Method.set { store with set := candidate, hasSet := object != [] }

/-- The order on sets of one site. -/
def checkReplacement (store : RevocationStore) (candidate : RevocationSet) : Except Status Unit :=
  if store.hasSet && store.set.siteId == candidate.siteId then do
    refuse (candidate.rsEpoch ≤ store.set.rsEpoch) ⟨.conflict, "revocation epoch not newer"⟩
    refuse (candidate.siteEpochFloor < store.set.siteEpochFloor) ⟨.conflict, "revocation floor regressed"⟩
    refuse (candidate.network == store.set.network && !revocationCovers store.set candidate)
      ⟨.conflict, "revocation entry omitted or weakened"⟩
  else .ok ()

def checkUsable (store : RevocationStore) : Except Status Unit := do
  refuse (!store.pair.initialized) ⟨.invalidState, "revocation store not initialized"⟩
  refuse store.pair.quarantined ⟨.integrityError, "revocation store quarantined"⟩
  refuse store.pair.uncertain ⟨.recoveryRequired, "revocation store storage uncertain"⟩

def accept : RevocationOp Unit := do
  let store ← Method.get
  Method.ofExcept store.checkUsable
  let candidate ← Method.ofExcept (checkObject verify object siteId network)
  Method.ofExcept (store.checkReplacement candidate)
  storeObject object false candidate

def clear : RevocationOp Unit := do
  storeObject [] true {}
  let store ← Method.get
  Method.set { store with hasSet := false }

/-- The order on sets of one site, for a recovery. -/
def checkRecovery (store : RevocationStore) (candidate : RevocationSet) : Except Status Unit :=
  refuse (store.hasSet && store.set.siteId == candidate.siteId &&
    (candidate.rsEpoch < store.set.rsEpoch || candidate.siteEpochFloor < store.set.siteEpochFloor ||
      candidate.network == store.set.network && !revocationCovers store.set candidate))
    ⟨.conflict, "revocation recovery regressed"⟩

def recover : RevocationOp Unit := do
  let store ← Method.get
  Method.ofExcept (refuse (!store.pair.quarantined && !store.pair.uncertain)
    ⟨.invalidState, "revocation store not impaired"⟩)
  let candidate ← Method.ofExcept (checkObject verify object siteId network)
  Method.ofExcept (store.checkRecovery candidate)
  storeObject object true candidate

/-- `rejects`: the verdict of the served set. -/
def rejects (store : RevocationStore) (node : NodeId) (generation siteEpoch : UInt32) : Bool :=
  store.hasSet && revocationRejects store.set node generation siteEpoch

/-! ## The records of one site -/

/-- A record with a set in it. -/
def HoldsSet (record : List UInt8) (set : RevocationSet) : Prop :=
  ∃ object, object ≠ [] ∧ revocationRecordDecode record = .ok (set, object)

/-- Clean slots, with no set of another site or network. -/
structure SiteSlots (siteId : UInt64) (network : NetworkId) (flash : Flash) : Prop where
  clean : ∀ slot, Clean revocationFormat (flash slot)
  sets : ∀ slot a set, slotRecord revocationFormat (flash slot) = some a → HoldsSet a.2 set →
    set.siteId = siteId ∧ set.network = network

/-- The record that the store encodes. -/
def recordFor (object : List UInt8) : List UInt8 :=
  sealedRecord kRevocationMagic kSealPending kRecordSchema 0 object

variable {siteId : UInt64} {network : NetworkId} {object : List UInt8} {candidate : RevocationSet}
  {flash s : Flash}

/-- An authentic object and its set. -/
structure Candidate (siteId : UInt64) (network : NetworkId) (object : List UInt8)
    (candidate : RevocationSet) : Prop where
  nonempty : object ≠ []
  decode : revocationObjectDecode object = .ok candidate
  siteId : candidate.siteId = siteId
  network : candidate.network = network

theorem Candidate.objectOf (h : Candidate siteId network object candidate) : ObjectOf object candidate :=
  .inr ⟨h.nonempty, h.decode⟩

theorem checkObject_eq_ok {verify : Es256Verify}
    (h : checkObject verify object siteId network = .ok candidate) :
    Candidate siteId network object candidate := by
  unfold checkObject at h
  obtain ⟨⟨set, verified⟩, hverify, h₁⟩ := bind_eq_ok.mp h
  obtain ⟨hverified, h₂⟩ := refuse_bind_eq_ok.mp h₁
  simp only [Bool.not_eq_false'] at hverified
  subst hverified
  cases h₂
  obtain ⟨hdecode, hsite, hnetwork⟩ := decode_of_verify hverify
  refine ⟨?_, hdecode, hsite, hnetwork⟩
  rintro rfl
  cases hdecode

theorem Candidate.holdsSet (h : Candidate siteId network object candidate) (seq : UInt32) :
    HoldsSet (committedRecord revocationFormat (recordFor object) seq) candidate :=
  ⟨object, h.nonempty, revocationRecordDecode_committed h.objectOf 0 seq⟩

theorem HoldsSet.unique {record : List UInt8} {a b : RevocationSet} (ha : HoldsSet record a)
    (hb : HoldsSet record b) : a = b := by
  obtain ⟨_, _, ha⟩ := ha
  obtain ⟨_, _, hb⟩ := hb
  rw [ha] at hb
  cases hb
  rfl

theorem Candidate.prepared (h : Candidate siteId network object candidate) (seq : UInt32) :
    Prepared revocationFormat (recordFor object) seq :=
  prepared_revocationRecord h.objectOf 0 seq

theorem SiteSlots.write (h : SiteSlots siteId network flash) {slot : Fin 2} {raw : List UInt8}
    (hclean : Clean revocationFormat raw)
    (hraw : ∀ a set, slotRecord revocationFormat raw = some a → HoldsSet a.2 set →
      set.siteId = siteId ∧ set.network = network) : SiteSlots siteId network (update flash slot raw) where
  clean other := by
    by_cases heq : other = slot
    · subst heq
      rwa [update_self]
    · rw [update_of_ne heq]
      exact h.clean other
  sets other a set ha hset := by
    by_cases heq : other = slot
    · subst heq
      rw [update_self] at ha
      exact hraw a set ha hset
    · rw [update_of_ne heq] at ha
      exact h.sets other a set ha hset

theorem SiteSlots.written (h : SiteSlots siteId network flash) {slot : Fin 2} {record : List UInt8}
    {seq : UInt32} (hprepared : Prepared revocationFormat record seq)
    (hmin : kRevocationRecordMin ≤ record.length) (hmax : record.length ≤ kRevocationRecordMax)
    (hset : HoldsSet (committedRecord revocationFormat record seq) candidate)
    (hsite : candidate.siteId = siteId ∧ candidate.network = network)
    (hs : Written revocationFormat flash slot record seq s) : SiteSlots siteId network s := by
  cases hs with
  | kept => exact h
  | pending =>
    have hpending := classify_pending hprepared hmin hmax
    refine h.write (.inr (.inl (by rw [hpending]))) fun a set ha => ?_
    rw [slotRecord_of_ne (by rw [hpending]; decide)] at ha
    cases ha
  | committed =>
    obtain ⟨hclassify, hrecord⟩ := classify_committed hprepared hmin hmax rfl
    refine h.write (.inr (.inr (by rw [hclassify]))) fun a set ha hset' => ?_
    rw [slotRecord_of_valid (by rw [hclassify]), hrecord, Option.some.injEq] at ha
    subst ha
    rw [hset'.unique hset]
    exact hsite

theorem SiteSlots.stored (h : SiteSlots siteId network flash) (hcandidate : Candidate siteId network object candidate)
    {pair : SealedSlotPair} (hadmitted : Admitted revocationFormat pair (recordFor object)) {slot : Fin 2}
    (hs : Written revocationFormat flash slot (recordFor object) (pair.seqFloor + 1) s) :
    SiteSlots siteId network s :=
  h.written (hcandidate.prepared _) hadmitted.minLen hadmitted.maxLen (hcandidate.holdsSet _)
    ⟨hcandidate.siteId, hcandidate.network⟩ hs

/-! ## The invariant -/

/-- A store that serves a set from its active slot. -/
structure Serves (store : RevocationStore) (flash : Flash) : Prop where
  usable : Usable store.pair
  hasActive : store.pair.hasActive = true
  seqFloor : store.pair.activeSeq ≤ store.pair.seqFloor
  held : ∃ record, slotRecord revocationFormat (flash store.pair.activeSlot) =
    some (store.pair.activeSeq, record) ∧ HoldsSet record store.set

/-- A store, its slots, and what was served so far: the slots stand for a set at least as strong as
everything served, and so is the set that is served now. -/
structure Stored (siteId : UInt64) (network : NetworkId) (store : Option RevocationStore) (flash : Flash)
    (history : List RevocationSet) : Prop where
  slots : SiteSlots siteId network flash
  durable : history ≠ [] → ∃ i a set, Stands revocationFormat flash i a ∧ HoldsSet a.2 set ∧
    ∀ old ∈ history, Stronger old set
  unserved : ∀ w, store = some w → w.hasSet = false → history = [] ∧ Anchored revocationFormat w.pair flash
  served : ∀ w, store = some w → w.hasSet = true → Serves w flash ∧ w.set ∈ history ∧
    ∀ old ∈ history, Stronger old w.set
  chain : history.Pairwise Stronger

/-- The set that a call leaves served. -/
def servedBy (result : Option (Except Status Unit × RevocationStore)) : List RevocationSet :=
  match result with
  | some (_, store) => if store.hasSet then [store.set] else []
  | none => []

theorem servedBy_of_set {w : RevocationStore} {r : Except Status Unit} (h : w.hasSet = true) :
    servedBy (some (r, w)) = [w.set] :=
  if_pos h

theorem servedBy_of_none {w : RevocationStore} {r : Except Status Unit} (h : w.hasSet = false) :
    servedBy (some (r, w)) = [] :=
  if_neg (by rw [h]; decide)

/-- What a call must leave. -/
def After (siteId : UInt64) (network : NetworkId) (history : List RevocationSet)
    (result : Option (Except Status Unit × RevocationStore)) (flash : Flash) : Prop :=
  Stored siteId network (result.map (·.2)) flash (history ++ servedBy result)

variable {history : List RevocationSet} {w : RevocationStore}

variable {a : UInt32 × List UInt8} {store : Option RevocationStore} {pair : SealedSlotPair}

/-- A call that leaves a set served, at least as strong as everything before and no stronger than what
the slots stand for. -/
theorem After.serve {i : Fin 2} {r : Except Status Unit} {set : RevocationSet}
    (hslots : SiteSlots siteId network flash) (hstands : Stands revocationFormat flash i a)
    (hholds : HoldsSet a.2 set) (hle : Stronger w.set set) (hserves : Serves w flash) (hset : w.hasSet = true)
    (hstronger : ∀ old ∈ history, Stronger old w.set) (hchain : history.Pairwise Stronger) :
    After siteId network history (some (r, w)) flash := by
  unfold After
  rw [servedBy_of_set hset]
  have hall : ∀ old ∈ history ++ [w.set], Stronger old w.set := by
    intro old hold
    rcases mem_append.mp hold with hold | hold
    · exact hstronger old hold
    · rw [mem_singleton.mp hold]
      exact .refl _
  refine ⟨hslots, fun _ => ⟨i, a, set, hstands, hholds, fun old hold => (hall old hold).trans hle⟩,
    fun w' hw' hset' => ?_, fun w' hw' _ => ?_, ?_⟩
  · cases hw'
    rw [hset] at hset'
    cases hset'
  · cases hw'
    exact ⟨hserves, mem_append_right _ (mem_singleton_self _), hall⟩
  · refine pairwise_append.mpr ⟨hchain, pairwise_singleton _ _, fun old hold new hnew => ?_⟩
    rw [mem_singleton.mp hnew]
    exact hstronger old hold

theorem Stored.stay (h : Stored siteId network (some w) flash history) (e : Status) :
    After siteId network history (some (.error e, w)) flash := by
  cases hset : w.hasSet with
  | false =>
    unfold After
    rw [servedBy_of_none hset, append_nil]
    exact h
  | true =>
    obtain ⟨hserves, hmem, hstronger⟩ := h.served w rfl hset
    obtain ⟨i, a, set, hstands, hholds, hdurable⟩ := h.durable (ne_nil_of_mem hmem)
    exact .serve h.slots hstands hholds (hdurable _ hmem) hserves hset hstronger h.chain

theorem After.silent {result : Option (Except Status Unit × RevocationStore)}
    (hslots : SiteSlots siteId network flash)
    (hresult : ∀ r w', result = some (r, w') → w'.hasSet = false ∧ Anchored revocationFormat w'.pair flash) :
    After siteId network [] result flash := by
  have hserved : servedBy result = [] := by
    cases result with
    | none => rfl
    | some r => exact servedBy_of_none (hresult r.1 r.2 rfl).1
  unfold After
  rw [hserved]
  refine ⟨hslots, fun h => absurd rfl h, fun w' hw' _ => ⟨rfl, ?_⟩, fun w' hw' hset => ?_, List.Pairwise.nil⟩
  · obtain ⟨r, hr, rfl⟩ := Option.map_eq_some_iff.mp hw'
    exact (hresult r.1 r.2 hr).2
  · obtain ⟨r, hr, rfl⟩ := Option.map_eq_some_iff.mp hw'
    rw [(hresult r.1 r.2 hr).1] at hset
    cases hset

/-- `store`: the pair commits, and on success the candidate is served. -/
theorem wp_storeObject {twin : Bool} {E : Status → RevocationStore → Flash → Prop} {R : Flash → Prop}
    {Q : Unit → RevocationStore → Flash → Prop} (hcandidate : Candidate siteId network object candidate)
    (h : Method.wp ((CommitCall.mk twin (recordFor object)).run revocationFormat)
      (fun _ pair s => Q () { pair, set := candidate, hasSet := true } s)
      (fun e pair s => E e { w with pair } s) R w.pair flash) :
    Method.wp (storeObject object twin candidate) Q E R w flash := by
  have hset : (object != []) = true := by simpa using hcandidate.nonempty
  unfold storeObject onPair
  simp only [Method.wp_bind, Method.wp_ofExcept, Method.wp_within, Method.wp_get, Method.wp_set, hset]
  refine ⟨fun record hrecord => ?_, fun e he => ?_⟩
  · rw [revocationRecordEncode_eq hcandidate.objectOf] at hrecord
    cases hrecord
    exact h
  · rw [revocationRecordEncode_eq hcandidate.objectOf] at he
    cases he

/-! ## Acceptance -/

theorem Serves.anchored (h : Serves w flash) : Anchored revocationFormat w.pair flash where
  active _ _ := by
    obtain ⟨record, hheld, _⟩ := h.held
    exact ⟨h.seqFloor, record, hheld⟩
  fresh _ hactive := by
    rw [h.hasActive] at hactive
    cases hactive

theorem Stored.drop (h : Stored siteId network store flash history) :
    Stored siteId network none flash history where
  slots := h.slots
  durable := h.durable
  unserved _ hw := by cases hw
  served _ hw := by cases hw
  chain := h.chain

theorem Stored.anchored (h : Stored siteId network (some w) flash history) :
    Anchored revocationFormat w.pair flash := by
  cases hset : w.hasSet with
  | false => exact (h.unserved w rfl hset).2
  | true => exact (h.served w rfl hset).1.anchored

/-- A store stays as it is while a stronger set is written. -/
theorem Stored.written (h : Stored siteId network (some w) flash history)
    (hcandidate : Candidate siteId network object candidate) (hstronger : ∀ old ∈ history, Stronger old candidate)
    (hadmitted : Admitted revocationFormat w.pair (recordFor object))
    (hs : Written revocationFormat flash w.pair.target (recordFor object) (w.pair.seqFloor + 1) s) :
    Stored siteId network (some w) s history := by
  refine ⟨h.slots.stored hcandidate hadmitted hs, fun hne => ?_, fun w' hw' hset => ?_, fun w' hw' hset => ?_,
    h.chain⟩
  · have hset : w.hasSet = true := Bool.of_not_eq_false fun hset => hne (h.unserved w rfl hset).1
    obtain ⟨hserves, -, hall⟩ := h.served w rfl hset
    obtain ⟨record, hheld, hholds⟩ := hserves.held
    rw [show w.pair.target = w.pair.activeSlot + 1 from if_pos hserves.hasActive] at hs
    rcases hs.stands rfl (hcandidate.prepared _) hadmitted hheld hserves.seqFloor with rfl | ⟨j, b, hb, _, rfl | rfl⟩
    · exact h.durable hne
    · exact ⟨j, _, w.set, hb, hholds, hall⟩
    · exact ⟨j, _, candidate, hb, hcandidate.holdsSet _, hstronger⟩
  · cases hw'
    obtain ⟨hnil, hanchored⟩ := h.unserved w rfl hset
    exact ⟨hnil, hanchored.written hs⟩
  · cases hw'
    obtain ⟨hserves, hmem, hall⟩ := h.served w rfl hset
    obtain ⟨record, hheld, hholds⟩ := hserves.held
    refine ⟨⟨hserves.usable, hserves.hasActive, hserves.seqFloor, record, ?_, hholds⟩, hmem, hall⟩
    rw [hs.other (active_ne_target hserves.hasActive)]
    exact hheld

theorem anchored_serves (h : Anchored revocationFormat w.pair flash) (hslots : SiteSlots siteId network flash)
    (husable : Usable w.pair) (hcandidate : Candidate siteId network object candidate)
    (hadmitted : Admitted revocationFormat w.pair (recordFor object))
    (hstronger : ∀ old ∈ history, Stronger old candidate) (hchain : history.Pairwise Stronger) :
    After siteId network history (some (.ok (), ⟨w.pair.advanced, candidate, true⟩))
      (update flash w.pair.target (landed revocationFormat
        (committedRecord revocationFormat (recordFor object) (w.pair.seqFloor + 1)))) := by
  have hprepared := hcandidate.prepared (w.pair.seqFloor + 1)
  have hstands := h.stands rfl hslots.clean husable hadmitted hprepared
  have hslots' := hslots.stored hcandidate hadmitted (@Written.committed _ _ w.pair.target _ _)
  exact .serve hslots' hstands (hcandidate.holdsSet _) (.refl _)
    ⟨⟨husable.initialized, husable.quarantined, husable.uncertain⟩, rfl, UInt32.le_refl _, _, hstands.newest.held,
      hcandidate.holdsSet _⟩ rfl hstronger hchain

/-- The checks of `accept` make the candidate stronger than the served set. -/
theorem stronger_of_checkReplacement {u : Unit} (hset : w.hasSet = true)
    (hsite : w.set.siteId = candidate.siteId) (hnetwork : w.set.network = candidate.network)
    (h : w.checkReplacement candidate = .ok u) : Stronger w.set candidate := by
  unfold checkReplacement at h
  rw [if_pos (by simp [hset, hsite]), refuse_bind_eq_ok, refuse_bind_eq_ok, refuse_eq_ok] at h
  obtain ⟨_, hfloor, hcovers⟩ := h
  refine rejects_of_covers ?_ ?_
  · simpa [hnetwork] using hcovers
  · simpa using hfloor

theorem Stored.site (h : Stored siteId network (some w) flash history) (hset : w.hasSet = true) :
    w.set.siteId = siteId ∧ w.set.network = network := by
  obtain ⟨record, hheld, hholds⟩ := (h.served w rfl hset).1.held
  exact h.slots.sets _ _ _ hheld hholds

/-- **`accept` keeps the invariant**, whatever the writes do. -/
theorem wp_accept {verify : Es256Verify} (h : Stored siteId network (some w) flash history) :
    Method.wp (accept verify object siteId network)
      (fun _ w' s => After siteId network history (some (.ok (), w')) s)
      (fun e w' s => After siteId network history (some (.error e, w')) s)
      (After siteId network history none) w flash := by
  unfold accept
  simp only [Method.wp_bind, Method.wp_get, Method.wp_ofExcept]
  refine ⟨fun _ _ => ⟨fun candidate hcheck => ⟨fun _ hreplace => ?_, fun e _ => h.stay e⟩, fun e _ => h.stay e⟩,
    fun e _ => h.stay e⟩
  have hcandidate := checkObject_eq_ok hcheck
  refine wp_storeObject hcandidate ?_
  have hstronger : ∀ old ∈ history, Stronger old candidate := by
    intro old hold
    have hset : w.hasSet = true := Bool.of_not_eq_false fun hset => ne_nil_of_mem hold (h.unserved w rfl hset).1
    obtain ⟨hsite, hnetwork⟩ := h.site hset
    exact ((h.served w rfl hset).2.2 old hold).trans (stronger_of_checkReplacement hset
      (hsite.trans hcandidate.siteId.symm) (hnetwork.trans hcandidate.network.symm) hreplace)
  refine wp_commitPrepared rfl (fun e => h.stay e) (fun _ hadmitted s hs => ?_)
    (fun _ hadmitted e s hs => (h.written hcandidate hstronger hadmitted hs).stay e) fun husable hadmitted =>
    anchored_serves h.anchored h.slots husable hcandidate hadmitted hstronger h.chain
  have hdrop := (h.written hcandidate hstronger hadmitted hs).drop
  rwa [← append_nil history] at hdrop

/-! ## Recovery -/

theorem SiteSlots.written_second (h : SiteSlots siteId network flash)
    (hcandidate : Candidate siteId network object candidate)
    (hadmitted : Admitted revocationFormat pair (recordFor object))
    (hs : Written revocationFormat (update flash 0 (landed revocationFormat
        (committedRecord revocationFormat (recordFor object) (pair.seqFloor + 1)))) 1
      (committedRecord revocationFormat (recordFor object) (pair.seqFloor + 1)) (pair.seqFloor + 1) s) :
    SiteSlots siteId network s := by
  have hlong := length_ge_of_minLen hadmitted.minLen
  have hprepared := hcandidate.prepared (pair.seqFloor + 1)
  have hsite := And.intro hcandidate.siteId hcandidate.network
  have hfirst := h.stored hcandidate hadmitted (@Written.committed _ _ 0 _ _)
  have hlength := length_committedRecord revocationFormat (pair.seqFloor + 1) hlong
  refine hfirst.written (hprepared.again rfl hlong) (hadmitted.minLen.trans_eq hlength.symm)
    (hlength.trans_le hadmitted.maxLen) ?_ hsite hs
  rw [committedRecord_idem _ _ hlong rfl]
  exact hcandidate.holdsSet _

theorem After.recovered (hslots : SiteSlots siteId network flash)
    (hcandidate : Candidate siteId network object candidate)
    (hadmitted : Admitted revocationFormat pair (recordFor object)) :
    After siteId network [] (some (.ok (), ⟨pair.twinned, candidate, true⟩))
      (update (update flash 0 (landed revocationFormat
        (committedRecord revocationFormat (recordFor object) (pair.seqFloor + 1)))) 1 (landed revocationFormat
        (committedRecord revocationFormat
          (committedRecord revocationFormat (recordFor object) (pair.seqFloor + 1)) (pair.seqFloor + 1)))) := by
  have hslots' := hslots.written_second hcandidate hadmitted .committed
  have hcommitted := slotRecord_committed rfl (hcandidate.prepared (pair.seqFloor + 1)) hadmitted
  rw [committedRecord_idem _ _ (length_ge_of_minLen hadmitted.minLen) rfl] at hslots' ⊢
  set raw := landed revocationFormat (committedRecord revocationFormat (recordFor object) (pair.seqFloor + 1))
  have hstands : Stands revocationFormat (update (update flash 0 raw) 1 raw) 0
      (newRecord revocationFormat pair (recordFor object)) := by
    refine .twin ?_ ?_
    · rwa [update_of_ne (by decide), update_self]
    · rwa [update_self]
  exact .serve hslots' hstands (hcandidate.holdsSet _) (.refl _) ⟨⟨hadmitted.initialized, rfl, rfl⟩, rfl,
    UInt32.le_refl _, _, hstands.newest.held, hcandidate.holdsSet _⟩ rfl (fun old hold => by cases hold) .nil

/-- **`recover` keeps the invariant**: a store that serves a set refuses it. -/
theorem wp_recover {verify : Es256Verify} (h : Stored siteId network (some w) flash history) :
    Method.wp (recover verify object siteId network)
      (fun _ w' s => After siteId network history (some (.ok (), w')) s)
      (fun e w' s => After siteId network history (some (.error e, w')) s)
      (After siteId network history none) w flash := by
  unfold recover
  simp only [Method.wp_bind, Method.wp_get, Method.wp_ofExcept]
  refine ⟨fun _ himpaired => ⟨fun candidate hcheck => ⟨fun _ _ => ?_, fun e _ => h.stay e⟩, fun e _ => h.stay e⟩,
    fun e _ => h.stay e⟩
  have hcandidate := checkObject_eq_ok hcheck
  have hunusable : ∀ pair : SealedSlotPair, pair.quarantined = w.pair.quarantined →
      pair.uncertain = w.pair.uncertain → ¬ Usable pair := by
    intro pair hquarantined huncertain husable
    rw [refuse_eq_ok, ← hquarantined, ← huncertain, husable.quarantined, husable.uncertain] at himpaired
    cases himpaired
  rcases Bool.eq_false_or_eq_true w.hasSet with hset | hset
  · exact absurd (h.served w rfl hset).1.usable (hunusable _ rfl rfl)
  · obtain ⟨rfl, _⟩ := h.unserved w rfl hset
    have hsilent : ∀ e s, SiteSlots siteId network s → ∀ pair : SealedSlotPair,
        pair.quarantined = w.pair.quarantined → pair.uncertain = w.pair.uncertain →
        After siteId network [] (some (.error e, { w with pair })) s := by
      intro e s hslots pair hquarantined huncertain
      refine .silent hslots fun _ _ hresult => ?_
      cases hresult
      exact ⟨hset, anchored_of_not_usable (hunusable _ hquarantined huncertain)⟩
    refine wp_storeObject hcandidate (wp_commitTwinPrepared rfl (fun e => h.stay e) (fun hadmitted s hs => ?_)
      (fun hadmitted e s hs => ?_) (fun hadmitted e s hs => ?_) (fun hadmitted => ?_))
    · refine .silent ?_ fun _ _ hresult => by cases hresult
      exact hs.elim (h.slots.stored hcandidate hadmitted) (h.slots.written_second hcandidate hadmitted)
    · exact hsilent e s (h.slots.stored hcandidate hadmitted hs) _ rfl rfl
    · exact hsilent e s (h.slots.written_second hcandidate hadmitted hs) _ rfl rfl
    · exact .recovered h.slots hcandidate hadmitted

/-! ## Start -/

/-- A start is the pair's start, and then serves what the pair has adopted. -/
theorem initializeStore_call {status : Except Status Unit}
    (hconclude : conclude revocationFormat (scanOf revocationFormat flash) = (status, pair)) :
    initializeStore.call w [] flash =
      (serveIfActive >>= fun _ => Method.ofExcept status).call { w with pair } [] flash := by
  unfold initializeStore
  rw [Method.call_bind_nil, Method.call_attempt_nil, onPair, Method.call_within_nil, initializePair_call,
    hconclude]
  rfl

theorem initializeStore_call_silent {status : Except Status Unit}
    (hconclude : conclude revocationFormat (scanOf revocationFormat flash) = (status, pair))
    (hactive : pair.hasActive = false) :
    initializeStore.call w [] flash = (some (status, { pair }), flash) := by
  rw [initializeStore_call hconclude]
  cases status <;>
    simp [serveIfActive, Method.call, bind, Prog.bind, Prog.run, Method.get, Method.set, Method.ofExcept, pure,
      hactive]

theorem initializeStore_call_serves {set : RevocationSet}
    (hconclude : conclude revocationFormat (scanOf revocationFormat flash) = (.ok (), pair))
    (hactive : pair.hasActive = true) (hheld : slotRecord revocationFormat (flash pair.activeSlot) = some a)
    (hdecode : revocationRecordDecode a.2 = .ok (set, object)) :
    initializeStore.call w [] flash = (some (.ok (), ⟨pair, set, object != []⟩), flash) := by
  have hserve : ∀ w : RevocationStore, w.pair = pair → serveActive.call w [] flash =
      (some (.ok (), ⟨pair, set, object != []⟩), flash) := by
    rintro w rfl
    unfold serveActive
    rw [Method.call_bind_nil, onPair, Method.call_within_nil, loadActive_call hactive hheld]
    simp [Method.call, bind, Prog.bind, Prog.run, Method.get, Method.set, Method.ofExcept, hdecode]
  rw [initializeStore_call hconclude, Method.call_bind_nil]
  have hserveIf : serveIfActive.call { w with pair } [] flash =
      serveActive.call { w with pair, set := {}, hasSet := false } [] flash := by
    unfold serveIfActive
    simp [Method.call, bind, Prog.bind, Method.get, Method.set, hactive]
  rw [hserveIf, hserve _ rfl]
  rfl

theorem decode_of_slotRecord {raw : List UInt8} (h : slotRecord revocationFormat raw = some a) :
    ∃ set object, revocationRecordDecode a.2 = .ok (set, object) := by
  obtain ⟨hvalid, _, hrecord⟩ := valid_of_slotRecord h
  have hsemantic := (holdsRecord hvalid).semantic
  rw [hrecord] at hsemantic
  cases hdecode : revocationRecordDecode a.2 with
  | error e =>
    unfold revocationFormat at hsemantic
    simp only [hdecode] at hsemantic
    cases hsemantic
  | ok decoded => exact ⟨decoded.1, decoded.2, rfl⟩

/-- The set that the slots stand for is at least as strong as everything served. -/
theorem Stored.stronger (h : Stored siteId network store flash history) {i : Fin 2}
    (hstands : Stands revocationFormat flash i a) {set : RevocationSet} (hset : HoldsSet a.2 set) :
    ∀ old ∈ history, Stronger old set := by
  intro old hold
  obtain ⟨j, b, set', hstands', hset', hall⟩ := h.durable (ne_nil_of_mem hold)
  obtain ⟨_, rfl⟩ := hstands.newest.unique hstands'.newest
  rw [hset.unique hset']
  exact hall old hold

theorem Stored.history_nil (h : Stored siteId network store flash history)
    (hnone : ∀ i a set, Stands revocationFormat flash i a → ¬ HoldsSet a.2 set) : history = [] := by
  by_contra hne
  obtain ⟨i, a, set, hstands, hset, _⟩ := h.durable hne
  exact hnone i a set hstands hset

/-- **A start keeps the invariant.** -/
theorem Stored.start (h : Stored siteId network store flash history) :
    After siteId network history (initializeStore.call w [] flash).1 (initializeStore.call w [] flash).2 := by
  by_cases hcoherent : Coherent (slotRecords revocationFormat flash)
  case neg =>
    obtain rfl := h.history_nil fun _ _ _ hstands => absurd hstands.coherent hcoherent
    obtain ⟨e, hconclude⟩ := conclude_diverge hcoherent
    rw [initializeStore_call_silent hconclude rfl]
    refine .silent h.slots fun _ _ hresult => ?_
    cases hresult
    exact ⟨rfl, anchored_of_not_usable fun husable => Bool.false_ne_true husable.quarantined.symm⟩
  by_cases hsome : ∃ slot a, slotRecord revocationFormat (flash slot) = some a
  case neg =>
    push Not at hsome
    have hnone : ∀ slot, slotRecord revocationFormat (flash slot) = none := fun slot =>
      Option.eq_none_iff_forall_ne_some.mpr (hsome slot)
    obtain rfl := h.history_nil fun i a _ hstands => absurd hstands.newest.held (hsome i a)
    rw [initializeStore_call_silent (conclude_fresh h.slots.clean hnone) rfl]
    refine .silent h.slots fun _ _ hresult => ?_
    cases hresult
    exact ⟨rfl, fun _ hactive => (by cases hactive), fun _ _ => hnone 1⟩
  obtain ⟨_, _, hheld⟩ := hsome
  obtain ⟨i, a, hnewest⟩ : ∃ i a, Newest seqOf (slotRecords revocationFormat flash) i a := exists_newest hheld
  have hstands : Stands revocationFormat flash i a := ⟨h.slots.clean, hcoherent, hnewest⟩
  obtain ⟨stale, hconclude⟩ := conclude_clean rfl h.slots.clean hcoherent hnewest
  obtain ⟨set, object, hdecode⟩ := decode_of_slotRecord hnewest.held
  rw [initializeStore_call_serves hconclude rfl hnewest.held hdecode]
  by_cases hobject : object = []
  · -- a tombstone
    have hempty : ∀ set', ¬ HoldsSet a.2 set' := by
      rintro set' ⟨object', hne, hdecode'⟩
      rw [hdecode] at hdecode'
      cases hdecode'
      exact hne hobject
    obtain rfl := h.history_nil fun j b set' hstands' hset' => by
      obtain ⟨_, rfl⟩ := hstands.newest.unique hstands'.newest
      exact hempty set' hset'
    refine .silent h.slots fun _ _ hresult => ?_
    cases hresult
    exact ⟨by simp [hobject], fun _ _ => ⟨UInt32.le_refl _, a.2, hnewest.held⟩, fun _ hactive => by cases hactive⟩
  · have hset : HoldsSet a.2 set := ⟨object, hobject, hdecode⟩
    exact .serve h.slots hstands hset (.refl _) ⟨⟨rfl, rfl, rfl⟩, rfl, UInt32.le_refl _, a.2, hnewest.held, hset⟩
      (by simpa using hobject) (h.stronger hstands hset) h.chain

/-! ## Runs -/

/-- The store, unless it is off, and its slots. -/
structure Node where
  store : Option RevocationStore := none
  flash : Flash

/-- Calls on the store, and a loss of power between them. -/
inductive Event
  | start
  | accept (verify : Es256Verify) (object : List UInt8) (outcomes : List (Outcome Status))
  | recover (verify : Es256Verify) (object : List UInt8) (outcomes : List (Outcome Status))
  | crash

def Node.call (siteId : UInt64) (network : NetworkId) (node : Node) :
    Event → Option (Except Status Unit × RevocationStore) × Flash
  | .start => initializeStore.call (node.store.getD {}) [] node.flash
  | .accept verify object outcomes =>
    match node.store with
    | some store => (RevocationStore.accept verify object siteId network).call store outcomes node.flash
    | none => (none, node.flash)
  | .recover verify object outcomes =>
    match node.store with
    | some store => (RevocationStore.recover verify object siteId network).call store outcomes node.flash
    | none => (none, node.flash)
  | .crash => (none, node.flash)

/-- Runs from any slots of the site; the output is the set that is served after each event. -/
def revocations (siteId : UInt64) (network : NetworkId) : Machine Node Event RevocationSet where
  Init node := node.store = none ∧ SiteSlots siteId network node.flash
  Enabled _ _ := True
  next node event := ⟨(node.call siteId network event).1.map (·.2), (node.call siteId network event).2⟩
  out node event := servedBy (node.call siteId network event).1

theorem stored_of_run {node : Node} (h : (revocations siteId network).Run node history) :
    Stored siteId network node.store node.flash history := by
  refine Machine.Run.invariant (I := fun node history => Stored siteId network node.store node.flash history)
    (fun node hinit => ?_) (fun node history event hstored _ => ?_) h
  · obtain ⟨hoff, hslots⟩ := hinit
    rw [hoff]
    exact ⟨hslots, fun hne => absurd rfl hne, fun _ hw => (by cases hw), fun _ hw => (by cases hw), .nil⟩
  · have hoff : Stored siteId network none node.flash (history ++ []) := by
      rw [append_nil]
      exact hstored.drop
    cases event with
    | start => exact hstored.start
    | crash => exact hoff
    | accept verify object outcomes =>
      simp only [revocations, Node.call]
      split
      · next store hstore =>
        exact Method.wp.after (P := After siteId network history) (wp_accept (hstore ▸ hstored)) outcomes
      · exact hoff
    | recover verify object outcomes =>
      simp only [revocations, Node.call]
      split
      · next store hstore =>
        exact Method.wp.after (P := After siteId network history) (wp_recover (hstore ▸ hstored)) outcomes
      · exact hoff

/-- **A revocation is never weakened**: over every run of starts, `accept` and `recover` calls, failed writes
and crashes, whatever a served set rejects, every set served later rejects too. -/
theorem revocations_never_weakened (siteId : UInt64) (network : NetworkId) (node : Node)
    (history : List RevocationSet) (h : (revocations siteId network).Run node history) :
    history.Pairwise fun old new => ∀ member generation siteEpoch,
      revocationRejects old member generation siteEpoch = true →
        revocationRejects new member generation siteEpoch = true :=
  (stored_of_run h).chain

/-- A signed object that revokes member 7 up to generation `generation`. -/
def sampleObject (epoch generation : UInt8) : List UInt8 :=
  kSign1Head ++ [0x58, 45, 2, 0, 0, 1, 0, 0, 0, 0, 0, 0, 0, 9, 0, 0, 0, 3, 0, 0, 0, 5, 0, 0, 0, epoch,
    0, 0, 0, 1, 0, 0, 0, 0, 0, 0, 0, 7, 0, 0, 0, generation, 1, 0, 0, 0, 0, 0x58, 64] ++ List.replicate 64 0

/-- Accept a set, fail to write a stronger one, and refuse one that is weaker. -/
def sampleRun : Node × List RevocationSet :=
  (revocations 9 0x300000005).exec ⟨none, fun _ => List.replicate kRevocationSlotBytes 0xFF⟩ []
    [.start, .accept (fun _ _ _ => .ok true) (sampleObject 1 2) [],
      .accept (fun _ _ _ => .ok true) (sampleObject 2 4) [.failBefore ⟨.busy, ""⟩],
      .accept (fun _ _ _ => .ok true) (sampleObject 3 1) []]

theorem content_erased : (classify revocationFormat (List.replicate kRevocationSlotBytes 0xFF)).content =
    .empty := by
  decide +kernel

theorem revocations_never_weakened_sample : sampleRun.2.map (·.rsEpoch) = [1, 1, 1] ∧
    sampleRun.2.Pairwise fun old new => ∀ member generation siteEpoch,
      revocationRejects old member generation siteEpoch = true →
        revocationRejects new member generation siteEpoch = true := by
  have hslots : SiteSlots 9 0x300000005 fun _ => List.replicate kRevocationSlotBytes 0xFF := by
    refine ⟨fun _ => .inl content_erased, fun slot a set ha => ?_⟩
    rw [slotRecord_of_ne (by rw [content_erased]; decide)] at ha
    cases ha
  refine ⟨by decide +kernel, revocations_never_weakened 9 0x300000005 sampleRun.1 _ ?_⟩
  exact Machine.run_exec (M := revocations 9 0x300000005) ⟨rfl, hslots⟩ _ (by simp [Machine.AllEnabled, revocations])

end RevocationStore

end RouteLoom.Storage
