import RouteLoom.Storage.LocalRevocationStore

/-!
# A removed generation does not come back

Runs of the local revocation store with failing reads and writes, crashes and starts. The store keeps one
record, so the evidence of a removal lasts until the removal of another site is recorded over it, which the
store allows once the first one has been cleaned up.

* `Evident` : the slots stand for a removal of the site at the generation or above
* `removed_generation_refused` : **until the removal of another site is tried after the cleanup, neither
  `checkJoin` nor `localMember` accepts the removed generation**
* `other_removal_readmits` : after the removal of another site they do
-/

namespace RouteLoom.Storage.LocalRevocationStore

open Lib Lib.TwoSlot SealedSlotPair

/-! ## Runs -/

/-- The store, unless it is off, and its slots. -/
structure Node where
  store : Option LocalRevocationStore := none
  flash : Flash

/-- Calls on the store, and a loss of power between them. -/
inductive Event
  | start (outcomes : List (Outcome Status))
  | refresh (outcomes : List (Outcome Status))
  | commitBlocked (record : LocalRevocationRecord) (outcomes : List (Outcome Status))
  | commitCleaned (outcomes : List (Outcome Status))
  | clear (outcomes : List (Outcome Status))
  | crash

abbrev CallResult := Option (Except Status Unit × LocalRevocationStore) × Flash

/-- A call on a store that is on. -/
def Node.on (node : Node) (method : LocalRevocationOp Unit) (outcomes : List (Outcome Status)) : CallResult :=
  match node.store with
  | some store => method.call store outcomes node.flash
  | none => (none, node.flash)

def Node.call (node : Node) : Event → CallResult
  | .start outcomes => initializeStore.call (node.store.getD {}) outcomes node.flash
  | .refresh outcomes => node.on LocalRevocationStore.refresh outcomes
  | .commitBlocked record outcomes => node.on (LocalRevocationStore.commitBlocked record) outcomes
  | .commitCleaned outcomes => node.on LocalRevocationStore.commitCleaned outcomes
  | .clear outcomes => node.on LocalRevocationStore.clear outcomes
  | .crash => (none, node.flash)

def Node.next (node : Node) (event : Event) : Node :=
  ⟨(node.call event).1.map (·.2), (node.call event).2⟩

/-- The removal that a successful call has recorded. -/
def Node.removed (node : Node) (event : Event) : List LocalRevocationRecord :=
  match event, (node.call event).1 with
  | .commitBlocked record _, some (.ok (), _) => [record]
  | _, _ => []

/-- Every run, from any slots; the output is each removal that was recorded. -/
def removals : Machine Node Event LocalRevocationRecord where
  Init node := node.store = none
  Enabled _ _ := True
  next := Node.next
  out := Node.removed

/-- What may follow the removal of `siteId`: no clear, and no removal of another site once the store is
cleaned. -/
def Allowed (siteId : UInt64) (node : Node) : Event → Prop
  | .clear _ => False
  | .commitBlocked record _ => ∀ store, node.store = some store →
      record.siteId = siteId ∨ store.record.state = .blocked
  | _ => True

/-- Runs from a removal of `siteId` at `generation` that was recorded in any run. -/
def afterRemoval (siteId : UInt64) (generation : UInt32) : Machine Node Event LocalRevocationRecord where
  Init node := ∃ prior history record outcomes, removals.Run prior history ∧ record.siteId = siteId ∧
    record.removedGeneration = generation ∧ prior.removed (.commitBlocked record outcomes) = [record] ∧
    node = prior.next (.commitBlocked record outcomes)
  Enabled := Allowed siteId
  next := Node.next
  out := Node.removed

/-! ## The invariant -/

variable {siteId : UInt64} {generation : UInt32} {flash s : Flash} {w : LocalRevocationStore}
  {record : LocalRevocationRecord}

/-- A removal of the site at the generation or above. -/
def Evidence (siteId : UInt64) (generation : UInt32) (record : LocalRevocationRecord) : Prop :=
  record.siteId = siteId ∧ generation ≤ record.removedGeneration

def Evident (siteId : UInt64) (generation : UInt32) (flash : Flash) : Prop :=
  ∃ record, Records record flash ∧ Evidence siteId generation record

/-- A usable store has the evidence, or the default record. -/
theorem Tracks.evidence (h : Tracks w flash) (hevident : Evident siteId generation flash)
    (husable : Usable w.pair) :
    w.pair.hasActive = true ∧ (w.record = {} ∨ Evidence siteId generation w.record) := by
  obtain ⟨record, ⟨i, a, hstands, hdecode⟩, hevidence⟩ := hevident
  cases hactive : w.pair.hasActive with
  | false =>
    have hheld := hstands.newest.held
    rw [slotRecords, (h.standing.fresh husable hactive i).2] at hheld
    cases hheld
  | true =>
    refine ⟨rfl, (h.record husable hactive).imp_right ?_⟩
    rintro ⟨b, hb, hdecode'⟩
    obtain ⟨_, held, hstands'⟩ := h.standing.active husable hactive
    obtain ⟨rfl, rfl⟩ := hstands.newest.unique hstands'.newest
    obtain rfl : b = _ := Option.some.inj (hb.symm.trans hstands'.newest.held)
    rw [hdecode] at hdecode'
    cases hdecode'
    exact hevidence

theorem Tracks.written (h : Tracks w flash) (hevident : Evident siteId generation flash)
    (hvalid : localRevocationValidate record = .ok ()) (hevidence : Evidence siteId generation record)
    (husable : Usable w.pair) (hadmitted : Admitted localRevocationFormat w.pair (localRecordFor record))
    (hs : Written localRevocationFormat flash w.pair.target (localRecordFor record) (w.pair.seqFloor + 1) s) :
    Evident siteId generation s := by
  obtain ⟨hactive, _⟩ := h.evidence hevident husable
  obtain ⟨hle, held, hstands⟩ := h.standing.active husable hactive
  obtain ⟨old, ⟨i, a, hstands', hdecode⟩, hold⟩ := hevident
  obtain ⟨rfl, rfl⟩ := hstands'.newest.unique hstands.newest
  rw [show w.pair.target = w.pair.activeSlot + 1 from if_pos hactive] at hs
  rcases hs.stands rfl (prepared_localRevocation hvalid _) hadmitted hstands.newest.held hle with
    rfl | ⟨j, b, hb, _, rfl | rfl⟩
  · exact ⟨old, ⟨_, _, hstands, hdecode⟩, hold⟩
  · exact ⟨old, ⟨_, _, hb, hdecode⟩, hold⟩
  · exact ⟨record, ⟨_, _, hb, localRevocationRecordDecode_committed hvalid _⟩, hevidence⟩

theorem localNode_of_valid (h : localRevocationValidate record = .ok ()) : record.localNode ≠ 0 := by
  unfold localRevocationValidate at h
  rw [refuse_eq_ok] at h
  simp only [Bool.or_eq_false_iff, Bool.not_eq_false'] at h
  intro hzero
  rw [hzero] at h
  exact absurd h.1.1.1.1.1.1 (by decide)

theorem evidence_of_checkRemoval (h : Tracks w flash) (hevident : Evident siteId generation flash)
    (husable : Usable w.pair) (hvalid : localRevocationValidate record = .ok ())
    (hcheck : w.checkRemoval record = .ok ())
    (hallowed : record.siteId = siteId ∨ w.record.state = .blocked) : Evidence siteId generation record := by
  obtain ⟨hactive, hrecord⟩ := h.evidence hevident husable
  unfold checkRemoval at hcheck
  rw [refuse_eq_ok, hactive] at hcheck
  simp only [Bool.true_and, Bool.or_eq_false_iff, bne_eq_false_iff_eq, Bool.and_eq_false_imp, beq_iff_eq,
    Bool.not_eq_false', Bool.and_eq_true, decide_eq_false_iff_not] at hcheck
  obtain ⟨⟨hnode, hblocked⟩, hgeneration⟩ := hcheck
  rcases hrecord with hdefault | ⟨hsite, hle⟩
  · -- the default record names no node
    rw [hdefault] at hnode
    exact absurd hnode.symm (localNode_of_valid hvalid)
  · have hsame : w.record.siteId = record.siteId := by
      rcases hallowed with hsite' | hstate
      · rw [hsite, hsite']
      · exact (hblocked hstate).1.2
    exact ⟨hsame.symm.trans hsite, UInt32.le_trans hle (UInt32.not_lt.mp (hgeneration hsame))⟩

/-- The slots keep `D`, and a store that is on knows what they stand for. -/
structure Sound (D : Flash → Prop) (node : Node) : Prop where
  durable : D node.flash
  tracks : ∀ w, node.store = some w → Tracks w node.flash

variable {D : Flash → Prop} {node : Node}

/-- What a call leaves. -/
def Left (D : Flash → Prop) (result : Option (Except Status Unit × LocalRevocationStore)) (flash : Flash) :
    Prop :=
  Sound D ⟨result.map (·.2), flash⟩

theorem left_of_wp {method : LocalRevocationOp Unit} (outcomes : List (Outcome Status))
    (h : Method.wp method (fun _ w' s => Tracks w' s ∧ D s) (fun _ w' s => Tracks w' s ∧ D s) D w flash) :
    Left D (method.call w outcomes flash).1 (method.call w outcomes flash).2 := by
  refine Method.wp.after (P := Left D) (h.mono (fun _ w' s hpost => ?_) (fun _ w' s hpost => ?_) fun s hs => ?_)
    outcomes
  · exact ⟨hpost.2, fun w hw => by cases hw; exact hpost.1⟩
  · exact ⟨hpost.2, fun w hw => by cases hw; exact hpost.1⟩
  · exact ⟨hs, fun w hw => by cases hw⟩

theorem Sound.on (h : Sound D node) {method : LocalRevocationOp Unit} (outcomes : List (Outcome Status))
    (hwp : ∀ w, node.store = some w → Method.wp method (fun _ w' s => Tracks w' s ∧ D s)
      (fun _ w' s => Tracks w' s ∧ D s) D w node.flash) :
    Left D (node.on method outcomes).1 (node.on method outcomes).2 := by
  unfold Node.on
  cases hstore : node.store with
  | none => exact ⟨h.durable, fun w hw => by cases hw⟩
  | some w => exact left_of_wp outcomes (hwp w hstore)

theorem sound_of_run {history : List LocalRevocationRecord} (h : removals.Run node history) :
    Sound (fun _ => True) node := by
  refine Machine.Run.invariant (I := fun node _ => Sound (fun _ => True) node) (fun node hinit => ?_)
    (fun node history event hsound _ => ?_) h
  · refine ⟨trivial, fun w hw => ?_⟩
    rw [show node.store = none from hinit] at hw
    cases hw
  · cases event with
    | start outcomes => exact left_of_wp outcomes (wp_initializeStore trivial)
    | refresh outcomes => exact hsound.on outcomes fun w hw => wp_refresh (fun _ => hsound.tracks w hw) trivial
    | commitBlocked record outcomes =>
      refine hsound.on outcomes fun w hw => ?_
      exact (wp_commitBlocked (hsound.tracks w hw) trivial fun _ _ _ _ _ _ => trivial).mono
        (fun _ _ _ hpost => ⟨hpost.1, trivial⟩) (fun _ _ _ hpost => hpost) fun _ hs => hs
    | commitCleaned outcomes =>
      exact hsound.on outcomes fun w hw =>
        wp_commitCleaned (hsound.tracks w hw) trivial fun _ _ _ _ _ => trivial
    | clear outcomes =>
      exact hsound.on outcomes fun w _ => wp_clear.mono (fun _ _ _ hpost => ⟨hpost, trivial⟩)
        (fun _ _ _ hpost => ⟨hpost, trivial⟩) fun _ hs => hs
    | crash => exact ⟨trivial, fun w hw => by cases hw⟩

theorem ok_of_removed {outcomes : List (Outcome Status)}
    (h : node.removed (.commitBlocked record outcomes) = [record]) :
    ∃ w', (node.call (.commitBlocked record outcomes)).1 = some (.ok (), w') := by
  unfold Node.removed at h
  rcases hcall : (node.call (.commitBlocked record outcomes)).1 with _ | ⟨_ | _, w'⟩
  · rw [hcall] at h
    cases h
  · rw [hcall] at h
    cases h
  · exact ⟨w', rfl⟩

theorem sound_of_removed {outcomes : List (Outcome Status)} (h : Sound (fun _ => True) node)
    (hremoved : node.removed (.commitBlocked record outcomes) = [record]) :
    Sound (Evident record.siteId record.removedGeneration) (node.next (.commitBlocked record outcomes)) := by
  obtain ⟨w', hresult⟩ := ok_of_removed hremoved
  cases hstore : node.store with
  | none =>
    simp only [Node.call, Node.on, hstore] at hresult
    cases hresult
  | some w =>
    have hcall : node.call (.commitBlocked record outcomes) =
        (LocalRevocationStore.commitBlocked record).call w outcomes node.flash := by
      simp only [Node.call, Node.on, hstore]
    have hwp : Method.wp (LocalRevocationStore.commitBlocked record)
        (fun _ w' s => Tracks w' s ∧ True ∧ Records record s) (fun _ w' s => Tracks w' s ∧ True)
        (fun _ => True) w node.flash :=
      wp_commitBlocked (h.tracks w hstore) trivial fun _ _ _ _ _ _ => trivial
    have hafter : ∀ w', (node.call (.commitBlocked record outcomes)).1 = some (.ok (), w') →
        Tracks w' (node.call (.commitBlocked record outcomes)).2 ∧
          Records record (node.call (.commitBlocked record outcomes)).2 := by
      rw [hcall]
      refine Method.wp.after (P := fun r s => ∀ w', r = some (.ok (), w') → Tracks w' s ∧ Records record s)
        (hwp.mono (fun _ w' s hpost w'' hw => ?_) (fun _ w' s hpost w'' hw => ?_) fun s _ w'' hw => ?_) outcomes
      · cases hw
        exact ⟨hpost.1, hpost.2.2⟩
      · cases hw
      · cases hw
    obtain ⟨htracks, hrecords⟩ := hafter w' hresult
    refine ⟨⟨record, hrecords, rfl, UInt32.le_refl _⟩, fun w'' hw => ?_⟩
    unfold Node.next at hw
    rw [hresult] at hw
    cases hw
    exact htracks

theorem evident_of_run {history : List LocalRevocationRecord}
    (h : (afterRemoval siteId generation).Run node history) : Sound (Evident siteId generation) node := by
  refine Machine.Run.invariant (I := fun node _ => Sound (Evident siteId generation) node)
    (fun node hinit => ?_) (fun node history event hsound hallowed => ?_) h
  · obtain ⟨prior, history, record, outcomes, hrun, rfl, rfl, hremoved, rfl⟩ := hinit
    exact sound_of_removed (sound_of_run hrun) hremoved
  · have hevident := hsound.durable
    cases event with
    | start outcomes => exact left_of_wp outcomes (wp_initializeStore hevident)
    | refresh outcomes =>
      exact hsound.on outcomes fun w hw => wp_refresh (fun _ => hsound.tracks w hw) hevident
    | commitBlocked record outcomes =>
      refine hsound.on outcomes fun w hw => ?_
      have htracks := hsound.tracks w hw
      refine (wp_commitBlocked htracks hevident fun hvalid hcheck husable hadmitted s hs => ?_).mono
        (fun _ _ _ hpost => ⟨hpost.1, hpost.2.1⟩) (fun _ _ _ hpost => hpost) fun _ hs => hs
      have hevidence := evidence_of_checkRemoval htracks hevident husable hvalid hcheck (hallowed w hw)
      exact htracks.written hevident hvalid hevidence husable hadmitted hs
    | commitCleaned outcomes =>
      refine hsound.on outcomes fun w hw => ?_
      have htracks := hsound.tracks w hw
      refine wp_commitCleaned htracks hevident fun hvalid husable hadmitted s hs => ?_
      rcases (htracks.evidence hevident husable).2 with hdefault | hevidence
      · rw [hdefault] at hvalid
        exact absurd rfl (localNode_of_valid hvalid)
      · exact htracks.written hevident hvalid hevidence husable hadmitted hs
    | clear outcomes => exact absurd hallowed id
    | crash => exact ⟨hevident, fun w hw => by cases hw⟩

/-! ## Membership -/

theorem checkJoin_refused (h : Tracks w flash) (hevident : Evident siteId generation flash)
    {claimed : UInt32} (hclaimed : claimed ≤ generation) (holdoffElapsed : Bool) (u : Unit) :
    w.checkJoin siteId claimed holdoffElapsed ≠ .ok u := by
  intro hok
  unfold checkJoin at hok
  rw [refuse_bind_eq_ok, refuse_bind_eq_ok, Bool.or_eq_false_iff, Bool.not_eq_false'] at hok
  obtain ⟨hinitialized, ⟨hquarantined, huncertain⟩, hok⟩ := hok
  obtain ⟨hactive, hrecord⟩ := h.evidence hevident ⟨hinitialized, hquarantined, huncertain⟩
  rw [hactive] at hok
  simp only [Bool.not_true, Bool.false_eq_true, if_false] at hok
  rw [refuse_bind_eq_ok, refuse_eq_ok] at hok
  rcases hrecord with hdefault | ⟨hsite, hle⟩
  · rw [hdefault] at hok
    cases hok.1
  · have hrefused := hok.2
    simp [hsite, UInt32.le_trans hclaimed hle] at hrefused

theorem usable_of_storesHealthy {hooks : SdkMembershipHooks} (h : hooks.storesHealthy = true) :
    Usable hooks.localRevocation.pair := by
  unfold SdkMembershipHooks.storesHealthy at h
  split_ifs at h with hinitialized
  simp only [Bool.or_eq_true, Bool.not_eq_true', not_or, Bool.not_eq_false] at hinitialized
  simp only [Bool.not_eq_true', Bool.or_eq_false_iff] at h
  exact ⟨hinitialized.2, h.1, h.2⟩

theorem localMember_refused {hooks : SdkMembershipHooks} (h : Tracks hooks.localRevocation flash)
    (hevident : Evident siteId generation flash) (hsite : hooks.site.site.siteId = siteId)
    (hclaimed : hooks.site.site.assignmentGeneration ≤ generation) (network : NetworkId) :
    hooks.localMember network = false := by
  by_contra hmember
  rw [Bool.not_eq_false] at hmember
  unfold SdkMembershipHooks.localMember at hmember
  simp only at hmember
  split_ifs at hmember with hhealthy _ _ _ _ hblocks hremoved _
  have husable := usable_of_storesHealthy (by simpa using hhealthy)
  obtain ⟨hactive, hrecord⟩ := h.evidence hevident husable
  rcases hrecord with hdefault | ⟨hsite', hle⟩
  · apply hblocks
    unfold blocksMembership
    rw [husable.initialized, hactive, hdefault]
    rfl
  · apply hremoved
    simp [hactive, hsite', hsite, UInt32.le_trans hclaimed hle]

/-- **A removed generation is refused** in every state that starts, reads, further removals and cleanups can
reach, with any failures and crashes, up to a clear or the removal of another site after the cleanup. -/
theorem removed_generation_refused (siteId : UInt64) (generation : UInt32) (node : Node)
    (history : List LocalRevocationRecord) (h : (afterRemoval siteId generation).Run node history)
    (store : LocalRevocationStore) (hstore : node.store = some store) :
    (∀ claimed ≤ generation, ∀ holdoffElapsed, (store.checkJoin siteId claimed holdoffElapsed).isOk = false) ∧
    ∀ hooks : SdkMembershipHooks, hooks.localRevocation = store → hooks.site.site.siteId = siteId →
      hooks.site.site.assignmentGeneration ≤ generation → ∀ network, hooks.localMember network = false := by
  have hsound := evident_of_run h
  have htracks := hsound.tracks store hstore
  refine ⟨fun claimed hclaimed holdoffElapsed => ?_, fun hooks hlocal hsite hclaimed network => ?_⟩
  · cases hjoin : store.checkJoin siteId claimed holdoffElapsed with
    | error e => rfl
    | ok u => exact absurd hjoin (checkJoin_refused htracks hsound.durable hclaimed holdoffElapsed u)
  · subst hlocal
    exact localMember_refused htracks hsound.durable hsite hclaimed network

/-- A removal at generation 5. -/
def sampleRemoval (siteId : UInt64) : LocalRevocationRecord :=
  { localNode := 7, siteId, network := 0x100000001, removedGeneration := 5
    evidenceDigest := Vector.replicate 32 1 }

def sampleErased : Node := { flash := fun _ => List.replicate kLocalRevocationSlotBytes 0xFF }

/-- Member hooks over a store, with generation 5 of site 9. -/
def sampleHooks (store : LocalRevocationStore) : SdkMembershipHooks where
  identity := ⟨true, false, false, true, ⟨7, .nvsPlaintext⟩⟩
  site := ⟨true, false, false,
    { state := .member, siteId := 9, network := 0x100000001, assignmentGeneration := 5 }⟩
  revocations := { pair := { (default : SealedSlotPair) with initialized := true } }
  localRevocation := store
  siteMatchesIdentity _ _ := true
  boot := some fun _ => true
  holdoffElapsed := true

/-- A store that has recorded the removal of site 9. -/
def sampleRemoved : Node :=
  (sampleErased.next (.start [])).next (.commitBlocked (sampleRemoval 9) [])

theorem removed_generation_refused_sample :
    ∃ store, (sampleRemoved.next (.commitCleaned [])).store = some store ∧ store.record.state = .cleaned ∧
      (store.checkJoin 9 5 true).isOk = false ∧ (sampleHooks store).localMember 0x100000001 = false := by
  have hremoved : (sampleErased.next (.start [])).removed (.commitBlocked (sampleRemoval 9) []) =
        [sampleRemoval 9] ∧
      (sampleRemoved.next (.commitCleaned [])).store.map (·.record.state) = some .cleaned := by
    decide +kernel
  obtain ⟨store, hstore, hstate⟩ := Option.map_eq_some_iff.mp hremoved.2
  have hstart : removals.Run (sampleErased.next (.start [])) ([] ++ removals.out sampleErased (.start [])) :=
    .step (.init rfl) trivial
  have hinit : (afterRemoval 9 5).Run sampleRemoved [] :=
    .init ⟨_, _, sampleRemoval 9, [], hstart, rfl, rfl, hremoved.1, rfl⟩
  have hrun : (afterRemoval 9 5).Run (sampleRemoved.next (.commitCleaned []))
      ([] ++ (afterRemoval 9 5).out sampleRemoved (.commitCleaned [])) := .step hinit trivial
  obtain ⟨hjoin, hmember⟩ := removed_generation_refused 9 5 _ _ hrun store hstore
  exact ⟨store, hstore, hstate, hjoin 5 (UInt32.le_refl _) true,
    hmember (sampleHooks store) rfl rfl (UInt32.le_refl _) _⟩

/-- Remove site 9, clean up, remove site 8, clean up: generation 5 of site 9 is a member again. -/
theorem other_removal_readmits :
    ∃ node store, removals.Run node [sampleRemoval 9, sampleRemoval 8] ∧ node.store = some store ∧
      (store.checkJoin 9 5 true).isOk = true ∧ (sampleHooks store).localMember 0x100000001 = true := by
  have hrun := Machine.run_exec (M := removals) (s := sampleErased) rfl
    [.start [], .commitBlocked (sampleRemoval 9) [], .commitCleaned [], .commitBlocked (sampleRemoval 8) [],
      .commitCleaned []] ⟨trivial, trivial, trivial, trivial, trivial, trivial⟩
  set final := removals.exec sampleErased []
    [.start [], .commitBlocked (sampleRemoval 9) [], .commitCleaned [], .commitBlocked (sampleRemoval 8) [],
      .commitCleaned []] with hfinal
  have hmember : final.2 = [sampleRemoval 9, sampleRemoval 8] ∧ final.1.store.map (fun store =>
      ((store.checkJoin 9 5 true).isOk, (sampleHooks store).localMember 0x100000001)) = some (true, true) := by
    rw [hfinal]
    decide +kernel
  obtain ⟨store, hstore, hpair⟩ := Option.map_eq_some_iff.mp hmember.2
  rw [hmember.1] at hrun
  exact ⟨final.1, store, hrun, hstore, congrArg Prod.fst hpair, congrArg Prod.snd hpair⟩

end RouteLoom.Storage.LocalRevocationStore
