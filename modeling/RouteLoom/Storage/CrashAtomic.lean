import RouteLoom.Lib.Machine
import RouteLoom.Storage.Adoption

/-!
# Crashes during a commit

After a crash at any point of `commit_prepared`, the next start adopts the record that was active or the
one that was being committed. `commit_twin_prepared` has this property exactly if slot 1 holds the active
record: it writes slot 0 first, and while slot 0 is pending only slot 1 can be adopted.

* `Stands` : which record the slots stand for
* `crash_atomic_iff` : **when a commit is atomic, and that adopted numbers never decrease**
* `twin_commit_loses_record` : a twin commit over an active slot 0 loses the only record
-/

namespace RouteLoom.Storage

open Lib Lib.TwoSlot SealedSlotPair Function List

variable {format : SealedRecordFormat} {flash : Flash}

/-! ## The record that the slots stand for -/

/-- The next start succeeds with `pair` and finds `record`. -/
def Adopts (format : SealedRecordFormat) (flash : Flash) (pair : SealedSlotPair) (record : List UInt8) :
    Prop :=
  (initializePair format).call default [] flash = (some (.ok (), pair), flash) ∧
    (loadActive format).call pair [] flash = (some (.ok record, pair), flash)

/-- Both slots are clean, and `a` in slot `i` is the newest record. -/
structure Stands (format : SealedRecordFormat) (flash : Flash) (i : Fin 2) (a : UInt32 × List UInt8) :
    Prop where
  clean : ∀ slot, Clean format (flash slot)
  coherent : Coherent (slotRecords format flash)
  newest : Newest seqOf (slotRecords format flash) i a

variable {a : UInt32 × List UInt8} {i : Fin 2} {raw : List UInt8} {history : List UInt32}

theorem Stands.adopts (hsequenced : format.sequenced = true) (h : Stands format flash i a) :
    ∃ stale, Adopts format flash (adopted i a.1 stale) a.2 := by
  obtain ⟨stale, hconclude⟩ := conclude_clean hsequenced h.clean h.coherent h.newest
  refine ⟨stale, ?_, loadActive_call rfl h.newest.held⟩
  rw [initializePair_call, hconclude]

theorem hasActive_of_loadActive {pair : SealedSlotPair} {record : List UInt8}
    (h : (loadActive format).call pair [] flash = (some (.ok record, pair), flash)) :
    pair.hasActive = true := by
  by_contra hactive
  have hrefuse : refuse (!pair.hasActive) (⟨.notFound, "no active record"⟩ : Status) =
      .error ⟨.notFound, "no active record"⟩ := by
    simpa using hactive
  simp [loadActive, Method.call, bind, Prog.bind, Prog.run, Method.get, Method.ofExcept, hrefuse] at h

theorem Adopts.stands (hsequenced : format.sequenced = true) {pair : SealedSlotPair}
    {record : List UInt8} (h : Adopts format flash pair record) :
    ∃ i a stale, Stands format flash i a ∧ pair = adopted i a.1 stale ∧ record = a.2 := by
  obtain ⟨hinit, hload⟩ := h
  have hactive := hasActive_of_loadActive hload
  rw [initializePair_call, Prod.mk.injEq, Option.some.injEq] at hinit
  have hpair : (conclude format (scanOf format flash)).2 = pair := by rw [hinit.1]
  have hok : (conclude format (scanOf format flash)).1 = .ok () := by rw [hinit.1]
  have husable : Usable (conclude format (scanOf format flash)).2 := by
    rcases conclude_cases format (scanOf format flash) with ⟨⟨e, he⟩, _⟩ | ⟨_, husable, _⟩
    · rw [hok] at he
      cases he
    · exact husable
  have hscan : ScanOf format flash (scanOf format flash) := fun slot => .inl rfl
  obtain ⟨_, _, hclean, hcoherent⟩ := clean_of_usable hscan husable
  by_cases hnone : ∀ slot, slotRecord format (flash slot) = none
  · rw [conclude_fresh hclean hnone] at hpair
    rw [← hpair] at hactive
    cases hactive
  · simp only [not_forall, Option.ne_none_iff_exists'] at hnone
    obtain ⟨slot, a, ha⟩ := hnone
    obtain ⟨i, a, hnewest⟩ : ∃ i a, Newest seqOf (slotRecords format flash) i a := exists_newest ha
    have hstands : Stands format flash i a := ⟨hclean, hcoherent, hnewest⟩
    obtain ⟨stale, hconclude⟩ := conclude_clean hsequenced hclean hcoherent hnewest
    have hadopted : adopted i a.1 stale = pair := by rw [← hpair, hconclude]
    have hrecord : (loadActive format).call (adopted i a.1 stale) [] flash = _ :=
      loadActive_call rfl hnewest.held
    rw [hadopted, hload, Prod.mk.injEq, Option.some.injEq, Prod.mk.injEq, Except.ok.injEq] at hrecord
    exact ⟨i, a, stale, hstands, hadopted.symm, hrecord.1.1⟩

/-! ## Writes -/

theorem slotRecords_update {slot : Fin 2} :
    slotRecords format (update flash slot raw) =
      update (slotRecords format flash) slot (slotRecord format raw) := by
  funext other
  unfold slotRecords
  by_cases h : other = slot
  · subst h
    rw [update_self, update_self]
  · rw [update_of_ne h, update_of_ne h]

theorem clean_update (hi : Clean format (flash i)) (hraw : Clean format raw) (slot : Fin 2) :
    Clean format (update flash (i + 1) raw slot) := by
  rcases eq_or_eq_add_one i slot with rfl | rfl
  · rwa [update_of_ne (add_one_ne slot).symm]
  · rwa [update_self]

theorem coherent_of_imp {slots : Fin 2 → Option (UInt32 × List UInt8)}
    (h : ∀ a b, slots i = some a → slots (i + 1) = some b → a.1 = b.1 →
      Sha256.digest a.2 = Sha256.digest b.2) : Coherent slots := by
  intro a b ha hb hseq
  rcases eq_zero_or_one i with rfl | rfl
  · exact h a b ha hb hseq
  · exact (h b a hb ha hseq.symm).symm

theorem Stands.pending (hi : slotRecord format (flash i) = some a)
    (hraw : classify format raw = { content := .pending }) :
    Stands format (update flash (i + 1) raw) i a := by
  have hnone : slotRecord format raw = none := slotRecord_of_ne (by rw [hraw]; decide)
  have hclean : Clean format raw := .inr (.inl (by rw [hraw]))
  refine ⟨clean_update (clean_of_slotRecord hi) hclean, ?_, ?_⟩
  · rw [slotRecords_update, hnone]
    refine coherent_of_imp (i := i) fun _ b _ hb => ?_
    rw [update_self] at hb
    cases hb
  · rw [slotRecords_update, hnone]
    exact Newest.clear hi

theorem Stands.committed {b : UInt32 × List UInt8} (hi : slotRecord format (flash i) = some a)
    (hraw : slotRecord format raw = some b) (hlt : seqOf a < seqOf b) :
    Stands format (update flash (i + 1) raw) (i + 1) b := by
  refine ⟨clean_update (clean_of_slotRecord hi) (clean_of_slotRecord hraw), ?_, ?_⟩
  · rw [slotRecords_update, hraw]
    refine coherent_of_imp (i := i) fun c d hc hd hseq => ?_
    rw [update_of_ne (add_one_ne i).symm] at hc
    rw [update_self, Option.some.injEq] at hd
    have hac : a = c := Option.some.inj (hi.symm.trans hc)
    subst hac hd
    unfold seqOf at hlt
    rw [hseq] at hlt
    exact absurd hlt (lt_irrefl _)
  · rw [slotRecords_update, hraw]
    exact Newest.write hi hlt

theorem Stands.twin (h₀ : slotRecord format (flash 0) = some a)
    (h₁ : slotRecord format (flash 1) = some a) : Stands format flash 0 a where
  clean slot := by
    rcases eq_zero_or_one slot with rfl | rfl
    · exact clean_of_slotRecord h₀
    · exact clean_of_slotRecord h₁
  coherent b c hb hc _ := by
    have hab : a = b := Option.some.inj (h₀.symm.trans hb)
    have hac : a = c := Option.some.inj (h₁.symm.trans hc)
    rw [← hab, ← hac]
  newest := Newest.twin h₀ h₁

/-- The record that a commit of `record` leaves. -/
def newRecord (format : SealedRecordFormat) (pair : SealedSlotPair) (record : List UInt8) :
    UInt32 × List UInt8 :=
  (pair.seqFloor + 1, committedRecord format record (pair.seqFloor + 1))

section Commit

variable {pair : SealedSlotPair} {record : List UInt8}

theorem classify_pending_of_admitted (hprepared : Prepared format record (pair.seqFloor + 1))
    (h : Admitted format pair record) :
    classify format (landed format (pendingRecord format record (pair.seqFloor + 1))) =
      { content := .pending } :=
  classify_pending hprepared h.minLen h.maxLen

section

variable (hsequenced : format.sequenced = true)
include hsequenced

theorem slotRecord_committed (hprepared : Prepared format record (pair.seqFloor + 1))
    (h : Admitted format pair record) :
    slotRecord format (landed format (committedRecord format record (pair.seqFloor + 1))) =
      some (newRecord format pair record) := by
  obtain ⟨hclassify, hrecord⟩ := classify_committed hprepared h.minLen h.maxLen hsequenced
  rw [slotRecord_of_valid (by rw [hclassify]), hclassify, hrecord]
  rfl

omit hsequenced in
theorem lt_newRecord (hle : a.1 ≤ pair.seqFloor) (h : Admitted format pair record) :
    seqOf a < seqOf (newRecord format pair record) := by
  show a.1.toNat < (pair.seqFloor + 1).toNat
  rw [toNat_succ h.seqFloor]
  exact Nat.lt_succ_of_le hle

/-- What the slots can be at and after any point of a commit of `record` over `a`. -/
def Reached (format : SealedRecordFormat) (pair : SealedSlotPair) (record : List UInt8) (flash : Flash)
    (a : UInt32 × List UInt8) (s : Flash) : Prop :=
  s = flash ∨ ∃ j b, Stands format s j b ∧ a.1 ≤ b.1 ∧ (b = a ∨ b = newRecord format pair record)

/-- A write to the slot next to `a` leaves `a` or the new record. -/
theorem Written.stands (hprepared : Prepared format record (pair.seqFloor + 1))
    (hadmitted : Admitted format pair record) (hi : slotRecord format (flash i) = some a)
    (hle : a.1 ≤ pair.seqFloor) {s : Flash} (h : Written format flash (i + 1) record (pair.seqFloor + 1) s) :
    Reached format pair record flash a s := by
  cases h with
  | kept => exact .inl rfl
  | pending =>
    exact .inr ⟨i, a, .pending hi (classify_pending_of_admitted hprepared hadmitted), UInt32.le_refl _,
      .inl rfl⟩
  | committed =>
    have hlt := lt_newRecord hle hadmitted
    exact .inr ⟨i + 1, _, .committed hi (slotRecord_committed hsequenced hprepared hadmitted) hlt,
      Nat.le_of_lt hlt, .inr rfl⟩

/-- What was committed and read back can be committed again with the same number. -/
theorem Prepared.again {seq : UInt32} (hlong : 24 ≤ record.length) (h : Prepared format record seq) :
    Prepared format (committedRecord format record seq) seq where
  magic := by rw [be32_congr (segment_committedRecord_head format seq hlong (by decide)), h.magic]
  recordFormat := by
    rw [be16_congr (segment_committedRecord_head format seq hlong (by decide)), h.recordFormat]
  usedLen := by
    rw [be16_congr (segment_committedRecord_head format seq hlong (by decide)), h.usedLen,
      length_committedRecord format seq hlong]
  schema_ge := by
    rw [be32_congr (segment_committedRecord_head format seq hlong (by decide))]
    exact h.schema_ge
  schema_le := by
    rw [be32_congr (segment_committedRecord_head format seq hlong (by decide))]
    exact h.schema_le
  structural := by rw [committedRecord_idem format seq hlong hsequenced, h.structural]
  semantic := by rw [committedRecord_idem format seq hlong hsequenced, h.semantic]

/-- The second half of a twin commit, over the new record in slot 0. -/
theorem Written.stands_second
    (hprepared : Prepared format record (pair.seqFloor + 1)) (hadmitted : Admitted format pair record)
    (hzero : slotRecord format (flash 0) = some (newRecord format pair record)) {s : Flash}
    (hfirst : ∃ j b, Stands format flash j b ∧ b = newRecord format pair record)
    (h : Written format flash 1 (committedRecord format record (pair.seqFloor + 1)) (pair.seqFloor + 1) s) :
    ∃ j b, Stands format s j b ∧ b = newRecord format pair record := by
  have hlong := length_ge_of_minLen hadmitted.minLen
  have hlength := length_committedRecord format (pair.seqFloor + 1) hlong
  cases h with
  | kept => exact hfirst
  | pending =>
    have hagain := hprepared.again hsequenced hlong
    have hpending := classify_pending hagain (by rw [hlength]; exact hadmitted.minLen)
      (by rw [hlength]; exact hadmitted.maxLen)
    exact ⟨0, _, .pending (i := 0) hzero hpending, rfl⟩
  | committed =>
    rw [committedRecord_idem format _ hlong hsequenced]
    refine ⟨0, _, .twin ?_ ?_, rfl⟩
    · rw [update_of_ne (by decide)]
      exact hzero
    · rw [update_self]
      exact slotRecord_committed hsequenced hprepared hadmitted

/-- A commit call: which form, and the record the caller has prepared. -/
structure CommitCall where
  twin : Bool
  record : List UInt8

def CommitCall.run (call : CommitCall) (format : SealedRecordFormat) : PairOp Unit :=
  if call.twin then commitTwinPrepared format call.record else commitPrepared format call.record

/-- What a failed commit leaves of the pair. -/
structure Failed (pair pair' : SealedSlotPair) : Prop where
  activeSeq : pair'.activeSeq = pair.activeSeq
  seqFloor : pair.seqFloor ≤ pair'.seqFloor
  hasActive : pair'.hasActive = pair.hasActive

/-- What a successful commit of the record `b` over `a` leaves. -/
structure Succeeded (format : SealedRecordFormat) (a b : UInt32 × List UInt8) (pair' : SealedSlotPair)
    (s : Flash) : Prop where
  stands : Stands format s pair'.activeSlot b
  rises : a.1 ≤ b.1
  activeSeq : pair'.activeSeq = b.1
  seqFloor : pair'.seqFloor = b.1
  hasActive : pair'.hasActive = true

omit hsequenced in
theorem Failed.refl (pair : SealedSlotPair) : Failed pair pair :=
  ⟨rfl, UInt32.le_refl _, rfl⟩

theorem wp_commitPrepared_atomic (hprepared : Prepared format record (pair.seqFloor + 1))
    (hactive : pair.hasActive = true) (hheld : slotRecord format (flash pair.activeSlot) = some a)
    (hle : a.1 ≤ pair.seqFloor) :
    Method.wp (commitPrepared format record)
      (fun _ pair' s => Succeeded format a (newRecord format pair record) pair' s)
      (fun _ pair' s => Reached format pair record flash a s ∧ Failed pair pair')
      (Reached format pair record flash a) pair flash := by
  have htarget : pair.target = pair.activeSlot + 1 := if_pos hactive
  have hreach : Usable pair → Admitted format pair record →
      ∀ s, Written format flash pair.target record (pair.seqFloor + 1) s →
        Reached format pair record flash a s := by
    intro _ hadmitted s hs
    rw [htarget] at hs
    exact hs.stands hsequenced hprepared hadmitted hheld hle
  refine wp_commitPrepared hsequenced (fun e => ⟨.inl rfl, .refl pair⟩) hreach
    (fun husable hadmitted e s hs => ⟨hreach husable hadmitted s hs, .refl pair⟩) fun _ hadmitted => ?_
  have hlt := lt_newRecord hle hadmitted
  refine ⟨?_, Nat.le_of_lt hlt, rfl, rfl, rfl⟩
  show Stands format (update flash pair.target _) pair.target _
  rw [htarget]
  exact .committed hheld (slotRecord_committed hsequenced hprepared hadmitted) hlt

theorem wp_commitTwinPrepared_atomic (hprepared : Prepared format record (pair.seqFloor + 1))
    (hheld : Admitted format pair record → slotRecord format (flash 1) = some a) (hle : a.1 ≤ pair.seqFloor) :
    Method.wp (commitTwinPrepared format record)
      (fun _ pair' s => Succeeded format a (newRecord format pair record) pair' s)
      (fun _ pair' s => Reached format pair record flash a s ∧ Failed pair pair')
      (Reached format pair record flash a) pair flash := by
  have hfirst : Admitted format pair record → ∀ s, Written format flash 0 record (pair.seqFloor + 1) s →
      Reached format pair record flash a s := by
    intro hadmitted s hs
    exact Written.stands (i := 1) hsequenced hprepared hadmitted (hheld hadmitted) hle hs
  have hzero : Admitted format pair record → slotRecord format (update flash 0
      (landed format (committedRecord format record (pair.seqFloor + 1))) 0) =
        some (newRecord format pair record) := by
    intro hadmitted
    rw [update_self]
    exact slotRecord_committed hsequenced hprepared hadmitted
  have hsecond : Admitted format pair record → ∀ s, Written format (update flash 0
      (landed format (committedRecord format record (pair.seqFloor + 1)))) 1
        (committedRecord format record (pair.seqFloor + 1)) (pair.seqFloor + 1) s →
      Reached format pair record flash a s := by
    intro hadmitted s hs
    obtain ⟨j, b, hb, heq⟩ := hs.stands_second hsequenced hprepared hadmitted (hzero hadmitted)
      ⟨0, _, .committed (i := 1) (hheld hadmitted) (slotRecord_committed hsequenced hprepared hadmitted)
        (lt_newRecord hle hadmitted), rfl⟩
    refine .inr ⟨j, b, hb, ?_, .inr heq⟩
    rw [heq]
    exact Nat.le_of_lt (lt_newRecord hle hadmitted)
  refine wp_commitTwinPrepared hsequenced (fun e => ⟨.inl rfl, .refl pair⟩)
    (fun hadmitted s hs => hs.elim (hfirst hadmitted s) (hsecond hadmitted s))
    (fun hadmitted e s hs => ⟨hfirst hadmitted s hs, .refl pair⟩)
    (fun hadmitted e s hs => ⟨hsecond hadmitted s hs, rfl, ?_, rfl⟩) fun hadmitted => ?_
  · show pair.seqFloor.toNat ≤ (pair.seqFloor + 1).toNat
    rw [toNat_succ hadmitted.seqFloor]
    exact Nat.le_succ _
  · refine ⟨.twin ?_ ?_, Nat.le_of_lt (lt_newRecord hle hadmitted), rfl, rfl, rfl⟩
    · rw [update_of_ne (by decide)]
      exact hzero hadmitted
    · rw [update_self, committedRecord_idem format _ (length_ge_of_minLen hadmitted.minLen) hsequenced]
      exact slotRecord_committed hsequenced hprepared hadmitted

/-- A commit, at every point and under every outcome of its storage operations. -/
theorem wp_commit_atomic {call : CommitCall}
    (hprepared : Prepared format call.record (pair.seqFloor + 1)) (hactive : pair.hasActive = true)
    (hheld : slotRecord format (flash pair.activeSlot) = some a) (hle : a.1 ≤ pair.seqFloor)
    (htwin : call.twin = true → Admitted format pair call.record → slotRecord format (flash 1) = some a) :
    Method.wp (call.run format)
      (fun _ pair' s => Succeeded format a (newRecord format pair call.record) pair' s)
      (fun _ pair' s => Reached format pair call.record flash a s ∧ Failed pair pair')
      (Reached format pair call.record flash a) pair flash := by
  unfold CommitCall.run
  split
  · rename_i h
    exact wp_commitTwinPrepared_atomic hsequenced hprepared (htwin h) hle
  · exact wp_commitPrepared_atomic hsequenced hprepared hactive hheld hle

end

end Commit

/-! ## One commit -/

section One

variable {pair : SealedSlotPair} {record : List UInt8} {call : CommitCall}

/-- The crash between the two phases of the first write of a twin commit. -/
theorem commitTwinPrepared_cut (hsequenced : format.sequenced = true) (h : Admitted format pair record) :
    ((commitTwinPrepared format record).call pair [.ok, .crashBefore] flash).2 =
      update flash 0 (landed format (pendingRecord format record (pair.seqFloor + 1))) := by
  have hinit : refuse (!pair.initialized) (⟨.invalidState, "record store not initialized"⟩ : Status) = .ok () := by
    simp [h.initialized]
  have hlength : checkLength format record = .ok () := checkLength_eq_ok.mpr ⟨h.minLen, h.maxLen⟩
  have hseq : pair.nextSeq = .ok (pair.seqFloor + 1) := nextSeq_eq_ok.mpr ⟨h.seqFloor, rfl⟩
  simp [commitTwinPrepared, twinSeq, writeSlot, storeSlot, Method.call, bind, Prog.bind, Prog.run, Method.get,
    Method.ofExcept, Method.commit, hsequenced, hinit, hlength, hseq]

theorem seq_eq_be32 (hsequenced : format.sequenced = true) (h : slotRecord format raw = some a) :
    a.1 = be32 a.2 kRecordSeqOffset := by
  obtain ⟨hvalid, hseq, hrecord⟩ := valid_of_slotRecord h
  have hholds := holdsRecord hvalid
  have hlong := format.head_le
  have hmin := hholds.minLen
  rw [← hseq, ← hrecord, hholds.seq, if_pos hsequenced]
  refine be32_congr (segment_take ?_).symm
  rw [kRecordSeqOffset]
  rw [kSequencedHeadSize] at hlong
  omega

/-- A start from slots of which only slot 1 can hold a record. -/
theorem Stands.of_zero_pending (hraw : classify format raw = { content := .pending })
    (h : Stands format (update flash 0 raw) i a) :
    slotRecord format (flash 1) = some a := by
  have hheld := h.newest.held
  rcases eq_zero_or_one i with rfl | rfl
  · rw [slotRecords_update, update_self, slotRecord_of_ne (by rw [hraw]; decide)] at hheld
    cases hheld
  · rw [slotRecords_update, update_of_ne (by decide)] at hheld
    exact hheld

/-- A commit is atomic exactly if slot 1 holds the active record or the call is not a twin commit. -/
theorem commit_atomic_iff (hsequenced : format.sequenced = true) (h : Adopts format flash pair record)
    (hprepared : Prepared format call.record (pair.seqFloor + 1)) :
    (∀ outcomes, ∃ pair' record', Adopts format ((call.run format).call pair outcomes flash).2 pair' record' ∧
        (record' = record ∨ record' = committedRecord format call.record (pair.seqFloor + 1))) ↔
      (call.twin = true → Admitted format pair call.record →
        slotRecord format (flash 1) = some (pair.activeSeq, record)) := by
  obtain ⟨i, a, stale, hstands, rfl, rfl⟩ := h.stands hsequenced
  constructor
  · intro hall htwin hadmitted
    obtain ⟨pair', record', hadopts, hrecord'⟩ := hall [.ok, .crashBefore]
    unfold CommitCall.run at hadopts
    rw [if_pos htwin, commitTwinPrepared_cut hsequenced hadmitted] at hadopts
    obtain ⟨j, b, _, hb, _, rfl⟩ := hadopts.stands hsequenced
    have hone := hb.of_zero_pending (classify_pending_of_admitted hprepared hadmitted)
    rcases hrecord' with heq | heq
    · have hseq : b.1 = a.1 := by
        rw [seq_eq_be32 hsequenced hone, seq_eq_be32 hsequenced hstands.newest.held, heq]
      rw [hone, show b = (a.1, a.2) from Prod.ext hseq heq]
      rfl
    · -- slot 1 cannot have held the record before it was written
      have hseq : b.1 = a.1 + 1 := by
        rw [seq_eq_be32 hsequenced hone, heq]
        exact be32_committedRecord_seq format _ (length_ge_of_minLen hadmitted.minLen) hsequenced
      have hle : b.1.toNat ≤ a.1.toNat := hstands.newest.le hone
      have hfloor : a.1 ≠ 0xFFFFFFFF := hadmitted.seqFloor
      rw [hseq, toNat_succ hfloor] at hle
      exact absurd hle (Nat.not_succ_le_self _)
  · intro htwin outcomes
    have hwp := wp_commit_atomic hsequenced hprepared rfl (hstands.newest.held) (UInt32.le_refl _) htwin
    have hreached := Method.wp.after (P := fun _ s => Reached format (adopted i a.1 stale) call.record flash a s)
      (hwp.mono (fun _ _ s hs => .inr ⟨_, _, hs.stands, hs.rises, .inr rfl⟩) (fun _ _ s hs => hs.1) fun _ hs => hs) outcomes
    rcases hreached with heq | ⟨j, b, hb, _, hcases⟩
    · rw [heq]
      obtain ⟨stale', hadopts⟩ := hstands.adopts hsequenced
      exact ⟨_, _, hadopts, .inl rfl⟩
    · obtain ⟨stale', hadopts⟩ := hb.adopts hsequenced
      refine ⟨_, _, hadopts, ?_⟩
      rcases hcases with rfl | rfl
      · exact .inl rfl
      · exact .inr rfl

end One

/-! ## Commits and crashes -/

/-- A device: its pair, unless it is off, and its slots. -/
structure Device where
  pair : Option SealedSlotPair := none
  flash : Flash

inductive Event
  | start
  | commit (call : CommitCall) (outcomes : List (Outcome Status))

/-- What a method call leaves of a device; a crash turns it off. -/
def Device.after (result : Option (Except Status Unit × SealedSlotPair) × Flash) : Device :=
  { pair := result.1.map (·.2), flash := result.2 }

/-- The sequence number that a call adopts, if it succeeds. -/
def adoptedSeq (result : Option (Except Status Unit × SealedSlotPair) × Flash) : List UInt32 :=
  match result.1 with
  | some (.ok (), pair) => [pair.activeSeq]
  | _ => []

def Device.call (format : SealedRecordFormat) (device : Device) :
    Event → Option (Except Status Unit × SealedSlotPair) × Flash
  | .start => (initializePair format).call default [] device.flash
  | .commit call outcomes =>
    match device.pair with
    | some pair => (call.run format).call pair outcomes device.flash
    | none => (none, device.flash)

/-- The condition under which a device commits: the active slot still holds the active record (which only a
failed twin commit can change), and for a twin commit slot 1 holds it too. -/
structure Committable (format : SealedRecordFormat) (pair : SealedSlotPair) (flash : Flash)
    (call : CommitCall) : Prop where
  prepared : Prepared format call.record (pair.seqFloor + 1)
  held : ∃ record, slotRecord format (flash pair.activeSlot) = some (pair.activeSeq, record) ∧
    (call.twin = true → slotRecord format (flash 1) = some (pair.activeSeq, record))

/-- Runs of starts, commits and crashes from slots with a record; the output is each adopted number. -/
def commits (format : SealedRecordFormat) : Machine Device Event UInt32 where
  Init device := device.pair = none ∧ ∃ pair record, Adopts format device.flash pair record
  Enabled device event :=
    match event with
    | .start => True
    | .commit call _ => ∃ pair, device.pair = some pair ∧ Committable format pair device.flash call
  next device event := .after (device.call format event)
  out device event := adoptedSeq (device.call format event)

/-- The slots stand for a record, and no number adopted so far is above it or above the active one. -/
structure Rising (format : SealedRecordFormat) (device : Device) (history : List UInt32) : Prop where
  stands : ∃ i a, Stands format device.flash i a ∧ ∀ seq ∈ history, seq ≤ a.1
  active : ∀ pair, device.pair = some pair → pair.hasActive = true ∧ pair.activeSeq ≤ pair.seqFloor ∧
    ∀ seq ∈ history, seq ≤ pair.activeSeq
  rising : history.Pairwise (· ≤ ·)

variable {device : Device}

theorem Rising.concat {pair : SealedSlotPair} (hstands : Stands format device.flash i a)
    (hpair : device.pair = some pair) (hactive : pair.hasActive = true) (hseq : pair.activeSeq = a.1)
    (hfloor : pair.seqFloor = a.1) (hle : ∀ seq ∈ history, seq ≤ a.1) (hrising : history.Pairwise (· ≤ ·)) :
    Rising format device (history ++ [pair.activeSeq]) := by
  have hall : ∀ seq ∈ history ++ [pair.activeSeq], seq ≤ a.1 := by
    intro seq hmem
    rcases mem_append.mp hmem with h | h
    · exact hle seq h
    · rw [mem_singleton.mp h, hseq]
      exact UInt32.le_refl _
  refine ⟨⟨i, a, hstands, hall⟩, fun other hother => ?_, ?_⟩
  · rw [hpair, Option.some.injEq] at hother
    subst hother
    exact ⟨hactive, by rw [hseq, hfloor]; exact UInt32.le_refl _, by rw [hseq] at hall ⊢; exact hall⟩
  · refine pairwise_append.mpr ⟨hrising, pairwise_singleton _ _, fun seq hseq' last hlast => ?_⟩
    rw [mem_singleton.mp hlast, hseq]
    exact hle seq hseq'

theorem Rising.start (hsequenced : format.sequenced = true) (h : Rising format device history) :
    Rising format ((commits format).next device .start) (history ++ (commits format).out device .start) := by
  obtain ⟨i, a, hstands, hle⟩ := h.stands
  obtain ⟨stale, hadopts, _⟩ := hstands.adopts hsequenced
  have hcall : device.call format .start = (some (.ok (), adopted i a.1 stale), device.flash) := hadopts
  simp only [commits, hcall]
  exact .concat hstands rfl rfl rfl rfl hle h.rising

theorem Rising.commit (hsequenced : format.sequenced = true) {call : CommitCall}
    (h : Rising format device history) {pair : SealedSlotPair} (hpair : device.pair = some pair)
    (hcommittable : Committable format pair device.flash call) (outcomes : List (Outcome Status)) :
    Rising format ((commits format).next device (.commit call outcomes))
      (history ++ (commits format).out device (.commit call outcomes)) := by
  obtain ⟨record, hheld, htwin⟩ := hcommittable.held
  obtain ⟨hactive, hfloor, hle⟩ := h.active pair hpair
  have hcall : device.call format (.commit call outcomes) =
      (call.run format).call pair outcomes device.flash := by
    simp only [Device.call, hpair]
  have hwp := wp_commit_atomic hsequenced hcommittable.prepared hactive hheld hfloor fun ht _ => htwin ht
  have hreached : ∀ s, Reached format pair call.record device.flash (pair.activeSeq, record) s →
      ∃ i a, Stands format s i a ∧ ∀ seq ∈ history, seq ≤ a.1 := by
    rintro s (rfl | ⟨j, b, hb, hrise, _⟩)
    · exact h.stands
    · exact ⟨j, b, hb, fun seq hmem => UInt32.le_trans (hle seq hmem) hrise⟩
  simp only [commits, hcall]
  refine Method.wp.after (P := fun r s => Rising format (.after (r, s)) (history ++ adoptedSeq (r, s)))
    (hwp.mono (fun _ pair' s hs => ?_) (fun e pair' s hs => ?_) fun s hs => ?_) outcomes
  · exact .concat hs.stands rfl hs.hasActive hs.activeSeq hs.seqFloor
      (fun seq hmem => UInt32.le_trans (hle seq hmem) hs.rises) h.rising
  · obtain ⟨hstands, hfailed⟩ := hs
    simp only [adoptedSeq, append_nil]
    refine ⟨hreached s hstands, fun other hother => ?_, h.rising⟩
    obtain rfl : pair' = other := Option.some.inj hother
    exact ⟨hfailed.hasActive.trans hactive,
      hfailed.activeSeq ▸ UInt32.le_trans hfloor hfailed.seqFloor, hfailed.activeSeq ▸ hle⟩
  · simp only [adoptedSeq, append_nil]
    exact ⟨hreached s hs, fun other hother => (by cases hother), h.rising⟩

theorem rising_of_run (hsequenced : format.sequenced = true)
    (h : (commits format).Run device history) : Rising format device history := by
  refine Machine.Run.invariant (fun device hinit => ?_) (fun device history event hrising henabled => ?_) h
  · obtain ⟨hoff, pair, record, hadopts⟩ := hinit
    obtain ⟨i, a, _, hstands, _, _⟩ := hadopts.stands hsequenced
    refine ⟨⟨i, a, hstands, by simp⟩, fun other hother => ?_, List.Pairwise.nil⟩
    rw [hoff] at hother
    cases hother
  · cases event with
    | start => exact hrising.start hsequenced
    | commit call outcomes =>
      obtain ⟨pair, hpair, hcommittable⟩ := henabled
      exact hrising.commit hsequenced hpair hcommittable outcomes

/-- **Crash atomicity.** From a start that adopted `record`, a commit is atomic exactly if it is not a twin
commit or slot 1 holds `record`; and over any run of such commits, crashes and starts the adopted sequence
numbers never decrease. -/
theorem crash_atomic_iff (format : SealedRecordFormat) (hsequenced : format.sequenced = true) :
    (∀ flash pair record, Adopts format flash pair record →
      ∀ call : CommitCall, Prepared format call.record (pair.seqFloor + 1) → ((∀ outcomes, ∃ pair' record',
            Adopts format ((call.run format).call pair outcomes flash).2 pair' record' ∧
            (record' = record ∨ record' = committedRecord format call.record (pair.seqFloor + 1))) ↔
          (call.twin = true → Admitted format pair call.record →
            slotRecord format (flash 1) = some (pair.activeSeq, record)))) ∧
      ∀ device history, (commits format).Run device history → history.Pairwise (· ≤ ·) :=
  ⟨fun _ _ _ h _ hprepared => commit_atomic_iff hsequenced h hprepared,
    fun _ _ h => (rising_of_run hsequenced h).rising⟩

/-! ## Records of one head and checksum -/

def sampleFormat : SealedRecordFormat :=
  { magic := 0x52525331, sealCommitted := 0x2E5E7C0D, slotBytes := 24, minLen := 24, maxLen := 24
    sequenced := true, structural := fun _ => .ok (), semantic := fun _ => .ok ()
    sealCommitted_ne := by decide, head_le := by decide }

def sampleRecord : List UInt8 :=
  [0x52, 0x52, 0x53, 0x31, 0, 1, 0, 24, 0, 0, 0, 1, 0, 0, 0, 0, 0, 0, 0, 0, 0, 0, 0, 0]

/-- The slot with the record number `seq`. -/
def sampleSlot (seq : UInt32) : List UInt8 := landed sampleFormat (committedRecord sampleFormat sampleRecord seq)

/-- The first record in slot 0, and slot 1 erased. -/
def sampleFirst : Flash := ![sampleSlot 1, List.replicate 24 0xFF]

/-- The second record in slot 0, and the first in slot 1. -/
def sampleSecond : Flash := ![sampleSlot 2, sampleSlot 1]

theorem prepared_sampleRecord (seq : UInt32) : Prepared sampleFormat sampleRecord seq where
  magic := by decide
  recordFormat := by decide
  usedLen := by decide
  schema_ge := by decide
  schema_le := by decide
  structural := rfl
  semantic := rfl

theorem slotRecord_sampleSlot (seq : UInt32) : slotRecord sampleFormat (sampleSlot seq) =
    some (seq, committedRecord sampleFormat sampleRecord seq) := by
  obtain ⟨hclassify, hrecord⟩ :=
    classify_committed (prepared_sampleRecord seq) (by decide) (by decide) rfl
  unfold sampleSlot
  rw [slotRecord_of_valid (by rw [hclassify]), hclassify, hrecord]

theorem classify_sampleFirst_one : classify sampleFormat (sampleFirst 1) = {} := by
  show classify sampleFormat (List.replicate 24 0xFF) = {}
  decide

theorem slotRecord_sampleFirst_one : slotRecord sampleFormat (sampleFirst 1) = none :=
  slotRecord_of_ne (by rw [classify_sampleFirst_one]; decide)

theorem stands_sampleFirst :
    Stands sampleFormat sampleFirst 0 (1, committedRecord sampleFormat sampleRecord 1) := by
  refine ⟨fun slot => ?_, ?_, .alone (slotRecord_sampleSlot 1) slotRecord_sampleFirst_one⟩
  · rcases eq_zero_or_one slot with rfl | rfl
    · exact clean_of_slotRecord (slotRecord_sampleSlot 1)
    · exact .inl (by rw [classify_sampleFirst_one])
  · intro a b _ hb
    rw [slotRecords, slotRecord_sampleFirst_one] at hb
    cases hb

theorem stands_sampleSecond :
    Stands sampleFormat sampleSecond 0 (2, committedRecord sampleFormat sampleRecord 2) := by
  have hupdate : sampleSecond = update (fun _ => sampleSlot 1) 0 (sampleSlot 2) := by
    funext slot
    rcases eq_zero_or_one slot with rfl | rfl
    · rw [update_self]
      rfl
    · rw [update_of_ne (by decide)]
      rfl
  rw [hupdate]
  exact .committed (i := 1) (slotRecord_sampleSlot 1) (slotRecord_sampleSlot 2) (by decide)

theorem crash_atomic_sample : ∃ pair record, Adopts sampleFormat sampleFirst pair record ∧
    ∃ pair' record', Adopts sampleFormat
      ((commitPrepared sampleFormat sampleRecord).call pair [.ok, .crashAfter] sampleFirst).2 pair' record' ∧
      (record' = record ∨ record' = committedRecord sampleFormat sampleRecord (pair.seqFloor + 1)) := by
  obtain ⟨stale, hadopts⟩ := stands_sampleFirst.adopts rfl
  have hiff := (crash_atomic_iff sampleFormat rfl).1 _ _ _ hadopts ⟨false, sampleRecord⟩
    (prepared_sampleRecord _)
  exact ⟨_, _, hadopts, hiff.mpr (by intro h; cases h) [.ok, .crashAfter]⟩

/-- A twin commit over an active slot 0 is cut after its first write. The next start finds no record at all
if slot 1 was empty, and the previous one if slot 1 held it. -/
theorem twin_commit_loses_record :
    (∃ pair record pair', Adopts sampleFormat sampleFirst pair record ∧
      Prepared sampleFormat sampleRecord (pair.seqFloor + 1) ∧ ((initializePair sampleFormat).call default []
        ((commitTwinPrepared sampleFormat sampleRecord).call pair [.ok, .crashBefore] sampleFirst).2).1 =
          some (.ok (), pair') ∧ pair'.hasActive = false) ∧
    ∃ pair record pair' record', Adopts sampleFormat sampleSecond pair record ∧
      Prepared sampleFormat sampleRecord (pair.seqFloor + 1) ∧ Adopts sampleFormat
        ((commitTwinPrepared sampleFormat sampleRecord).call pair [.ok, .crashBefore] sampleSecond).2
        pair' record' ∧ pair'.activeSeq < pair.activeSeq := by
  have hpending : ∀ seq, classify sampleFormat (landed sampleFormat
      (pendingRecord sampleFormat sampleRecord seq)) = { content := .pending } := fun seq =>
    classify_pending (prepared_sampleRecord seq) (by decide) (by decide)
  constructor
  · obtain ⟨stale, hadopts⟩ := stands_sampleFirst.adopts rfl
    refine ⟨_, _, { initialized := true }, hadopts, prepared_sampleRecord _, ?_, rfl⟩
    have hone : ∀ raw, update sampleFirst 0 raw 1 = sampleFirst 1 := fun raw =>
      update_of_ne (by decide) _ _
    have hfloor : (1 : UInt32) ≠ 0xFFFFFFFF := by decide
    rw [commitTwinPrepared_cut rfl ⟨rfl, by decide, by decide, hfloor⟩, initializePair_call, conclude_fresh]
    · intro slot
      rcases eq_zero_or_one slot with rfl | rfl
      · exact .inr (.inl (by rw [update_self, hpending]))
      · rw [hone]
        exact stands_sampleFirst.clean 1
    · intro slot
      rcases eq_zero_or_one slot with rfl | rfl
      · exact slotRecord_of_ne (by rw [update_self, hpending]; decide)
      · rw [hone]
        exact slotRecord_sampleFirst_one
  · obtain ⟨stale, hadopts⟩ := stands_sampleSecond.adopts rfl
    have hcut : Stands sampleFormat (update sampleSecond 0 _) 1 _ :=
      .pending (i := 1) (slotRecord_sampleSlot 1) (hpending 3)
    obtain ⟨stale', hadopts'⟩ := hcut.adopts rfl
    have hfloor : (2 : UInt32) ≠ 0xFFFFFFFF := by decide
    refine ⟨_, _, adopted 1 1 stale', committedRecord sampleFormat sampleRecord 1, hadopts,
      prepared_sampleRecord _, ?_, show (1 : UInt32) < 2 by decide⟩
    rw [commitTwinPrepared_cut rfl ⟨rfl, by decide, by decide, hfloor⟩]
    exact hadopts'

end RouteLoom.Storage
