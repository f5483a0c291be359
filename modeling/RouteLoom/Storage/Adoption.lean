import RouteLoom.Storage.Sealing

/-!
# What a pair adopts, and what its methods do to the slots

`initialize` adopts the newest of the records that the two slots hold, if each slot is readable and
holds a record or provably none. A commit takes a slot through three contents: the old one, the pending
record, the committed record.

* `conclude_clean` : the verdict on clean slots
* `clean_of_conclude` : a success with an active record comes from clean slots
* `wp_initializePair`, `wp_writeSlot`, `wp_commitSequenced` : one rule for each method
-/

namespace RouteLoom.Storage

open Lib Lib.TwoSlot SealedSlotPair Function

variable {format : SealedRecordFormat} {flash : Flash}

/-! ## The records in the slots -/

/-- The record in a slot with its sequence number, if the classifier calls it valid. -/
def slotRecord (format : SealedRecordFormat) (raw : List UInt8) : Option (UInt32 × List UInt8) :=
  if (classify format raw).content = .valid then some ((classify format raw).seq, recordOf raw) else none

/-- The records in both slots. -/
def slotRecords (format : SealedRecordFormat) (flash : Flash) : Fin 2 → Option (UInt32 × List UInt8) :=
  fun slot => slotRecord format (flash slot)

/-- A record or provably none. -/
def Clean (format : SealedRecordFormat) (raw : List UInt8) : Prop :=
  (classify format raw).content = .empty ∨ (classify format raw).content = .pending ∨
    (classify format raw).content = .valid

/-- Every slot is readable. -/
def scanOf (format : SealedRecordFormat) (flash : Flash) : Fin 2 → Except Status Classified :=
  fun slot => .ok (classify format (flash slot))

/-- A pair that has adopted the record with number `seq` in `slot`. -/
def adopted (slot : Fin 2) (seq : UInt32) (stale : Bool) : SealedSlotPair :=
  { activeSlot := slot, activeSeq := seq, seqFloor := seq, hasActive := true, initialized := true
    staleSibling := stale }

variable {raw : List UInt8} {a : UInt32 × List UInt8}

theorem slotRecord_of_valid (h : (classify format raw).content = .valid) :
    slotRecord format raw = some ((classify format raw).seq, recordOf raw) :=
  if_pos h

theorem slotRecord_of_ne (h : (classify format raw).content ≠ .valid) : slotRecord format raw = none :=
  if_neg h

theorem valid_of_slotRecord (h : slotRecord format raw = some a) :
    (classify format raw).content = .valid ∧ (classify format raw).seq = a.1 ∧ recordOf raw = a.2 := by
  unfold slotRecord at h
  split at h
  · rename_i hvalid
    cases h
    exact ⟨hvalid, rfl, rfl⟩
  · cases h

theorem clean_of_slotRecord (h : slotRecord format raw = some a) : Clean format raw :=
  .inr (.inr (valid_of_slotRecord h).1)

/-- The number that orders records. -/
def seqOf (record : UInt32 × List UInt8) : Nat := record.1.toNat

/-- A slot without a valid record bounds nothing if it is clean. -/
theorem seqProven_of_clean (hclean : Clean format raw) (hvalid : (classify format raw).content ≠ .valid) :
    (classify format raw).seqProven = false := by
  have hcontent : (classify format raw).content = .empty ∨ (classify format raw).content = .pending := by
    rcases hclean with h | h | h
    · exact .inl h
    · exact .inr h
    · exact absurd h hvalid
  clear hclean hvalid
  unfold classify at hcontent ⊢
  simp only at hcontent ⊢
  split at hcontent
  · simp [*]
  split at hcontent
  · simp at hcontent
  split at hcontent
  · simp [*]
  split at hcontent
  · simp at hcontent
  split at hcontent
  · simp at hcontent
  split at hcontent
  · simp at hcontent
  split at hcontent
  · simp at hcontent
  · simp at hcontent

theorem observed_clean (hclean : ∀ slot, Clean format (flash slot)) (hsequenced : format.sequenced = true)
    {i : Fin 2} (hnewest : Newest seqOf (slotRecords format flash) i a) :
    observed (scanOf format flash) = { seqFloor := a.1 } := by
  have hreserved : ∀ slot, ((found (scanOf format flash slot)).content == .unsupported) = false := by
    intro slot
    show ((classify format (flash slot)).content == .unsupported) = false
    rcases hclean slot with h | h | h <;> rw [h] <;> rfl
  have hle : ∀ slot, provenSeq (scanOf format flash slot) ≤ a.1 := by
    intro slot
    show (if (classify format (flash slot)).seqProven then (classify format (flash slot)).seq else 0) ≤ a.1
    by_cases hvalid : (classify format (flash slot)).content = .valid
    · split
      · exact hnewest.le (slotRecord_of_valid hvalid)
      · exact UInt32.zero_le
    · rw [seqProven_of_clean (hclean slot) hvalid]
      exact UInt32.zero_le
  have heq : provenSeq (scanOf format flash i) = a.1 := by
    obtain ⟨hvalid, hseq, _⟩ := valid_of_slotRecord hnewest.held
    show (if (classify format (flash i)).seqProven then (classify format (flash i)).seq else 0) = a.1
    rw [(holdsRecord hvalid).seqProven, if_pos hsequenced, hseq]
  have hfloor : max (provenSeq (scanOf format flash 0)) (provenSeq (scanOf format flash 1)) = a.1 := by
    have h₀ := hle 0
    have h₁ := hle 1
    show (if _ ≤ _ then _ else _) = _
    obtain rfl | rfl := eq_or_eq_add_one 0 i
    · split
      · exact UInt32.le_antisymm h₁ (by rw [← heq]; assumption)
      · exact heq
    · split
      · exact heq
      · rename_i hlt
        exact absurd (show _ ≤ provenSeq (scanOf format flash 1) from heq ▸ h₀) hlt
  unfold observed
  rw [hfloor]
  simp only [hreserved, Bool.false_eq_true, if_false]
  rfl

/-! ## The verdict of `initialize` -/

@[simp] theorem found_scanOf (slot : Fin 2) :
    found (scanOf format flash slot) = classify format (flash slot) := rfl

@[simp] theorem unreadable_scanOf (slot : Fin 2) : unreadable (scanOf format flash slot) = false := rfl

theorem provablyAbsent_of_clean {slot : Fin 2} (hclean : Clean format (flash slot))
    (hvalid : (classify format (flash slot)).content ≠ .valid) :
    provablyAbsent (scanOf format flash slot) = true := by
  rcases hclean with h | h | h
  · simp [provablyAbsent, h]
  · simp [provablyAbsent, h]
  · exact absurd h hvalid

theorem conclude_clean (hsequenced : format.sequenced = true)
    (hclean : ∀ slot, Clean format (flash slot)) (hcoherent : Coherent (slotRecords format flash))
    {i : Fin 2} (hnewest : Newest seqOf (slotRecords format flash) i a) :
    ∃ stale, conclude format (scanOf format flash) = (.ok (), adopted i a.1 stale) := by
  obtain ⟨hvalid, hseq, _⟩ := valid_of_slotRecord hnewest.held
  unfold conclude
  rw [observed_clean hclean hsequenced hnewest]
  rcases eq_zero_or_one i with rfl | rfl
  · by_cases hvalid' : (classify format (flash 1)).content = .valid
    · rcases hnewest.newest _ (slotRecord_of_valid hvalid') with hlt | ⟨heq, _⟩
      · have hlt' : (classify format (flash 1)).seq < a.1 := hlt
        have hne : a.1 ≠ (classify format (flash 1)).seq := fun h => by simp [h] at hlt'
        refine ⟨true, ?_⟩
        simp [hvalid, hvalid', hseq, hsequenced, hne, UInt32.lt_asymm hlt', adopted, adopt]
      · have heq' : (classify format (flash 1)).seq = a.1 := UInt32.toNat_inj.mp heq
        have hdigest := hcoherent _ _ (slotRecord_of_valid hvalid) (slotRecord_of_valid hvalid')
          (hseq.trans heq'.symm)
        refine ⟨false, ?_⟩
        simp [hvalid, hvalid', hseq, heq', (holdsRecord hvalid).digest, (holdsRecord hvalid').digest,
          hdigest, adopted, adopt]
    · have hgone := provablyAbsent_of_clean (hclean 1) hvalid'
      refine ⟨(classify format (flash 1)).content == .pending, ?_⟩
      simp [hvalid, hvalid', hgone, hseq, adopted, adopt]
  · by_cases hvalid' : (classify format (flash 0)).content = .valid
    · rcases hnewest.newest _ (slotRecord_of_valid hvalid') with hlt | ⟨_, hne⟩
      · have hlt' : (classify format (flash 0)).seq < a.1 := hlt
        have hne : (classify format (flash 0)).seq ≠ a.1 := fun h => by simp [h] at hlt'
        refine ⟨true, ?_⟩
        simp [hvalid, hvalid', hseq, hsequenced, hne, hlt', adopted, adopt]
      · cases hne
    · have hgone := provablyAbsent_of_clean (hclean 0) hvalid'
      refine ⟨(classify format (flash 0)).content == .pending, ?_⟩
      simp [hvalid, hvalid', hgone, hseq, adopted, adopt]

/-- Two records with one number that diverge are quarantined. -/
theorem conclude_diverge (hdiverge : ¬ Coherent (slotRecords format flash)) :
    ∃ e, conclude format (scanOf format flash) = (.error e, (observed (scanOf format flash)).quarantine) := by
  unfold Coherent at hdiverge
  push Not at hdiverge
  obtain ⟨a, b, ha, hb, hseq, hdigest⟩ := hdiverge
  obtain ⟨hvalid₀, hseq₀, hrecord₀⟩ := valid_of_slotRecord ha
  obtain ⟨hvalid₁, hseq₁, hrecord₁⟩ := valid_of_slotRecord hb
  have hsame : (classify format (flash 0)).seq = (classify format (flash 1)).seq := by rw [hseq₀, hseq₁, hseq]
  have hdiffer : (classify format (flash 0)).digest ≠ (classify format (flash 1)).digest := by
    rwa [(holdsRecord hvalid₀).digest, (holdsRecord hvalid₁).digest, hrecord₀, hrecord₁]
  refine ⟨⟨.integrityError, "record slots diverge"⟩, ?_⟩
  unfold conclude
  simp [hvalid₀, hvalid₁, hsame, hdiffer, Status.error]

/-- A pair that accepts commits. -/
structure Usable (pair : SealedSlotPair) : Prop where
  initialized : pair.initialized = true
  quarantined : pair.quarantined = false
  uncertain : pair.uncertain = false

/-- Both slots were read and are clean, and two records with one number do not diverge. -/
structure Readable (format : SealedRecordFormat) (scan : Fin 2 → Except Status Classified) : Prop where
  readable : ∀ slot, unreadable (scan slot) = false
  clean : ∀ slot, (found (scan slot)).content = .empty ∨ (found (scan slot)).content = .pending ∨
    (found (scan slot)).content = .valid
  coherent : (found (scan 0)).content = .valid → (found (scan 1)).content = .valid →
    format.sequenced = true ∧ (found (scan 0)).seq ≠ (found (scan 1)).seq ∨
      (found (scan 0)).digest = (found (scan 1)).digest

theorem readable_of_valid {scan : Except Status Classified} (h : (found scan).content = .valid) :
    unreadable scan = false := by
  cases scan with
  | ok classified => rfl
  | error e => cases h

theorem absent_of_provablyAbsent {scan : Except Status Classified} (h : provablyAbsent scan = true) :
    unreadable scan = false ∧ ((found scan).content = .empty ∨ (found scan).content = .pending) := by
  simpa [provablyAbsent] using h

section Readable

variable {scan : Fin 2 → Except Status Classified}

theorem Readable.both (h₀ : (found (scan 0)).content = .valid) (h₁ : (found (scan 1)).content = .valid)
    (h : format.sequenced = true ∧ (found (scan 0)).seq ≠ (found (scan 1)).seq ∨
      (found (scan 0)).digest = (found (scan 1)).digest) : Readable format scan where
  readable slot := by
    rcases eq_zero_or_one slot with rfl | rfl
    · exact readable_of_valid h₀
    · exact readable_of_valid h₁
  clean slot := by
    rcases eq_zero_or_one slot with rfl | rfl
    · exact .inr (.inr h₀)
    · exact .inr (.inr h₁)
  coherent _ _ := h

theorem Readable.one {slot : Fin 2} (h : (found (scan slot)).content = .valid)
    (habsent : provablyAbsent (scan (slot + 1)) = true) : Readable format scan := by
  obtain ⟨hread, hcontent⟩ := absent_of_provablyAbsent habsent
  have hne : (found (scan (slot + 1))).content ≠ .valid := by
    rcases hcontent with h | h <;> simp [h]
  refine ⟨fun other => ?_, fun other => ?_, fun h₀ h₁ => ?_⟩
  · rcases eq_or_eq_add_one slot other with rfl | rfl
    · exact readable_of_valid h
    · exact hread
  · rcases eq_or_eq_add_one slot other with rfl | rfl
    · exact .inr (.inr h)
    · exact hcontent.imp_right .inl
  · rcases eq_zero_or_one slot with rfl | rfl
    · exact absurd h₁ hne
    · exact absurd h₀ hne

theorem Readable.none (hread : ∀ slot, unreadable (scan slot) = false)
    (hvalid : ∀ slot, (found (scan slot)).content ≠ .valid)
    (hunsupported : ∀ slot, (found (scan slot)).content ≠ .unsupported)
    (hcorrupt : ∀ slot, (found (scan slot)).content ≠ .corrupt) : Readable format scan where
  readable := hread
  clean slot := by
    cases h : (found (scan slot)).content with
    | empty => exact .inl rfl
    | pending => exact .inr (.inl rfl)
    | valid => exact .inr (.inr rfl)
    | unsupported => exact absurd h (hunsupported slot)
    | corrupt => exact absurd h (hcorrupt slot)
  coherent h₀ := absurd h₀ (hvalid 0)

/-- `initialize` succeeds on readable clean slots and otherwise leaves a pair that accepts no commit. -/
theorem conclude_cases (format : SealedRecordFormat) (scan : Fin 2 → Except Status Classified) :
    ((∃ e, (conclude format scan).1 = .error e) ∧ ¬ Usable (conclude format scan).2) ∨
      (conclude format scan).1 = .ok () ∧ Usable (conclude format scan).2 ∧ Readable format scan := by
  unfold conclude
  simp only
  split_ifs with h₀ h₁ h₂ h₃ h₄ h₅ h₆ h₇ h₈ h₉ h₁₀ h₁₁
  · exact .inl ⟨⟨_, rfl⟩, fun h => Bool.false_ne_true h.initialized⟩
  · simp only [Bool.and_eq_true, beq_iff_eq, bne_iff_ne] at h₁ h₂
    exact .inr ⟨rfl, ⟨rfl, rfl, rfl⟩, .both h₁.1 h₁.2 (.inl h₂)⟩
  · simp only [Bool.and_eq_true, beq_iff_eq, bne_iff_ne] at h₁ h₂
    exact .inr ⟨rfl, ⟨rfl, rfl, rfl⟩, .both h₁.1 h₁.2 (.inl h₂)⟩
  · exact .inl ⟨⟨_, rfl⟩, fun h => Bool.false_ne_true h.quarantined.symm⟩
  · simp only [Bool.and_eq_true, beq_iff_eq, bne_iff_ne, not_not] at h₁ h₄
    exact .inr ⟨rfl, ⟨rfl, rfl, rfl⟩, .both h₁.1 h₁.2 (.inr h₄)⟩
  · exact .inl ⟨⟨_, rfl⟩, fun h => Bool.false_ne_true h.uncertain.symm⟩
  · simp only [beq_iff_eq, Bool.not_eq_true', Bool.not_eq_false] at h₆ h₇
    exact .inr ⟨rfl, ⟨rfl, rfl, rfl⟩, .one h₆ h₇⟩
  · exact .inl ⟨⟨_, rfl⟩, fun h => Bool.false_ne_true h.uncertain.symm⟩
  · simp only [beq_iff_eq, Bool.or_eq_true, Bool.not_eq_true', Bool.not_eq_false] at h₅ h₆ h₈
    exact .inr ⟨rfl, ⟨rfl, rfl, rfl⟩, .one (h₅.resolve_left h₆) h₈⟩
  · exact .inl ⟨⟨_, rfl⟩, fun h => Bool.false_ne_true h.initialized⟩
  · exact .inl ⟨⟨_, rfl⟩, fun h => Bool.false_ne_true h.quarantined.symm⟩
  · exact .inl ⟨⟨_, rfl⟩, fun h => Bool.false_ne_true h.quarantined.symm⟩
  · simp only [Bool.or_eq_true, beq_iff_eq, not_or, Bool.not_eq_true] at h₅ h₉ h₁₀ h₁₁
    exact .inr ⟨rfl, ⟨rfl, rfl, rfl⟩, .none (Fin.forall_fin_two.mpr h₉) (Fin.forall_fin_two.mpr h₅)
      (Fin.forall_fin_two.mpr h₁₀) (Fin.forall_fin_two.mpr h₁₁)⟩

end Readable

/-- What was scanned, when the reads of `flash` may fail. -/
def ScanOf (format : SealedRecordFormat) (flash : Flash) (scan : Fin 2 → Except Status Classified) : Prop :=
  ∀ slot, scan slot = .ok (classify format (flash slot)) ∨ ∃ e, scan slot = .error e

/-- A usable pair has seen both slots as they are, and they are clean. -/
theorem clean_of_usable {scan : Fin 2 → Except Status Classified} (hscan : ScanOf format flash scan)
    (h : Usable (conclude format scan).2) :
    (conclude format scan).1 = .ok () ∧ scan = scanOf format flash ∧
      (∀ slot, Clean format (flash slot)) ∧ Coherent (slotRecords format flash) := by
  rcases conclude_cases format scan with ⟨_, hnot⟩ | ⟨hok, _, hreadable⟩
  · exact absurd h hnot
  have heq : scan = scanOf format flash := by
    funext slot
    rcases hscan slot with hread | ⟨e, hread⟩
    · exact hread
    · have := hreadable.readable slot
      rw [hread] at this
      cases this
  subst heq
  refine ⟨hok, rfl, hreadable.clean, fun a b ha hb hseq => ?_⟩
  obtain ⟨hvalid₀, hseq₀, hrecord₀⟩ := valid_of_slotRecord ha
  obtain ⟨hvalid₁, hseq₁, hrecord₁⟩ := valid_of_slotRecord hb
  rcases hreadable.coherent hvalid₀ hvalid₁ with ⟨_, hne⟩ | hdigest
  · exact absurd (hseq₀.trans (hseq.trans hseq₁.symm)) hne
  · rw [found_scanOf, found_scanOf, (holdsRecord hvalid₀).digest, (holdsRecord hvalid₁).digest, hrecord₀,
      hrecord₁] at hdigest
    exact hdigest

theorem conclude_fresh (hclean : ∀ slot, Clean format (flash slot))
    (hnone : ∀ slot, slotRecord format (flash slot) = none) :
    conclude format (scanOf format flash) = (.ok (), { initialized := true }) := by
  have hvalid : ∀ slot, (classify format (flash slot)).content ≠ .valid := by
    intro slot h
    have hsome := slotRecord_of_valid h
    rw [hnone slot] at hsome
    cases hsome
  have hproven : ∀ slot, provenSeq (scanOf format flash slot) = 0 := by
    intro slot
    show (if (classify format (flash slot)).seqProven then (classify format (flash slot)).seq else 0) = 0
    rw [seqProven_of_clean (hclean slot) (hvalid slot)]
    rfl
  have hother : ∀ slot, (classify format (flash slot)).content ≠ .unsupported ∧
      (classify format (flash slot)).content ≠ .corrupt := by
    intro slot
    rcases hclean slot with h | h | h <;> simp [h]
  have hobserved : observed (scanOf format flash) = {} := by
    unfold observed
    simp only [hproven, found_scanOf, beq_iff_eq, (hother _).1, if_false]
    rfl
  unfold conclude
  rw [hobserved]
  simp [hvalid, (hother _).1, (hother _).2]

/-! ## Methods -/

section Methods

variable {pair : SealedSlotPair} {E : Status → SealedSlotPair → Flash → Prop} {R : Flash → Prop}

theorem vec_eq_scanOf : (![.ok (classify format (flash 0)), .ok (classify format (flash 1))] :
    Fin 2 → Except Status Classified) = scanOf format flash := by
  funext slot
  rcases eq_zero_or_one slot with rfl | rfl <;> rfl

theorem initializePair_call :
    (initializePair format).call pair [] flash = (some (conclude format (scanOf format flash)), flash) := by
  rw [← vec_eq_scanOf]
  rfl

variable {Q : Unit → SealedSlotPair → Flash → Prop}

theorem wp_initializePair (hR : R flash)
    (hQ : ∀ scan, ScanOf format flash scan → (conclude format scan).1 = .ok () →
      Q () (conclude format scan).2 flash)
    (hE : ∀ scan e, ScanOf format flash scan → (conclude format scan).1 = .error e →
      E e (conclude format scan).2 flash) : Method.wp (initializePair format) Q E R pair flash := by
  have hscan : ∀ r₀ r₁ : Except Status Classified,
      (r₀ = .ok (classify format (flash 0)) ∨ ∃ e, r₀ = .error e) →
      (r₁ = .ok (classify format (flash 1)) ∨ ∃ e, r₁ = .error e) → ScanOf format flash ![r₀, r₁] := by
    intro r₀ r₁ h₀ h₁ slot
    rcases eq_zero_or_one slot with rfl | rfl
    · exact h₀
    · exact h₁
  have hfinish : ∀ scan, ScanOf format flash scan →
      Method.wp (do Method.set (conclude format scan).2; Method.ofExcept (conclude format scan).1)
        Q E R {} flash := by
    intro scan hscan
    rw [Method.wp_bind, Method.wp_set, Method.wp_ofExcept]
    exact ⟨fun _ h => hQ scan hscan h, fun e h => hE scan e hscan h⟩
  unfold initializePair
  simp only [Method.wp_bind, Method.wp_set, Method.wp_tryLoad] at hfinish ⊢
  refine ⟨hR, ⟨hR, hfinish _ ?_, fun e => hfinish _ ?_⟩, fun e => ⟨hR, hfinish _ ?_, fun e' => hfinish _ ?_⟩⟩
  · exact hscan _ _ (.inl rfl) (.inl rfl)
  · exact hscan _ _ (.inl rfl) (.inr ⟨e, rfl⟩)
  · exact hscan _ _ (.inr ⟨e, rfl⟩) (.inl rfl)
  · exact hscan _ _ (.inr ⟨e, rfl⟩) (.inr ⟨e', rfl⟩)

/-- What is loaded is the record in the active slot, if it holds one. -/
theorem wp_loadActive {Q : List UInt8 → SealedSlotPair → Flash → Prop} (hR : R flash)
    (hQ : ∀ record, (∀ a, slotRecord format (flash pair.activeSlot) = some a → record = a.2) →
      Q record pair flash) (hE : ∀ e, E e pair flash) : Method.wp (loadActive format) Q E R pair flash := by
  unfold loadActive readSlot
  simp only [Method.wp_bind, Method.wp_get, Method.wp_ofExcept, Method.wp_load, Method.wp_pure]
  refine ⟨fun _ _ => ⟨hR, ⟨fun _ _ => hQ _ fun a ha => ?_, fun e _ => hE e⟩, hE⟩, fun e _ => hE e⟩
  exact (valid_of_slotRecord ha).2.2

theorem loadActive_call (hactive : pair.hasActive = true)
    (hheld : slotRecord format (flash pair.activeSlot) = some a) :
    (loadActive format).call pair [] flash = (some (.ok a.2, pair), flash) := by
  obtain ⟨hvalid, _, hrecord⟩ := valid_of_slotRecord hheld
  have hholds := holdsRecord hvalid
  have hlength : refuse (decide ((be16 (flash pair.activeSlot) 6).toNat < format.minLen) ||
      decide (format.maxLen < (be16 (flash pair.activeSlot) 6).toNat))
      (⟨.integrityError, "active record changed"⟩ : Status) = .ok () := by
    simp [hholds.minLen, hholds.maxLen]
  have hactive' : refuse (!pair.hasActive) (⟨.notFound, "no active record"⟩ : Status) = .ok () := by
    simp [hactive]
  simp [loadActive, readSlot, Method.call, bind, Prog.bind, Prog.run, Method.get, Method.ofExcept, Method.load,
    hactive', hlength, hrecord, pure]

/-- The slot contents that a write of `record` passes through. -/
inductive Written (format : SealedRecordFormat) (flash : Flash) (slot : Fin 2) (record : List UInt8)
    (seq : UInt32) : Flash → Prop
  | kept : Written format flash slot record seq flash
  | pending : Written format flash slot record seq
      (update flash slot (landed format (pendingRecord format record seq)))
  | committed : Written format flash slot record seq
      (update flash slot (landed format (committedRecord format record seq)))

variable {record : List UInt8}

theorem wp_writeSlot {Q : List UInt8 → SealedSlotPair → Flash → Prop} {slot : Fin 2} {seq : UInt32}
    (hlong : 24 ≤ record.length) (hR : ∀ s, Written format flash slot record seq s → R s)
    (hE : ∀ e s, Written format flash slot record seq s → E e pair s)
    (hQ : Q (committedRecord format record seq) pair
      (update flash slot (landed format (committedRecord format record seq)))) :
    Method.wp (writeSlot format slot record seq) Q E R pair flash := by
  have htake : (landed format (committedRecord format record seq)).take record.length =
      committedRecord format record seq := by
    unfold landed
    rw [List.take_append_of_le_length (by rw [length_committedRecord format seq hlong])]
    exact List.take_of_length_le (by rw [length_committedRecord format seq hlong])
  unfold writeSlot storeSlot readSlot
  simp only [Method.wp_bind, Method.wp_commit, Method.wp_ofExcept, Method.wp_load, Method.wp_pure,
    update_idem, update_self, htake]
  refine ⟨hR _ .kept, hR _ .pending, ⟨hR _ .pending, hR _ .committed, ⟨hR _ .committed,
    ⟨fun _ _ => hQ, fun e _ => hE e _ .committed⟩, fun e => hE e _ .committed⟩,
    fun e => ⟨hE e _ .pending, hE e _ .committed⟩⟩, fun e => ⟨hE e _ .kept, hE e _ .pending⟩⟩

/-- A commit that gets to its writes. -/
structure Admitted (format : SealedRecordFormat) (pair : SealedSlotPair) (record : List UInt8) : Prop where
  initialized : pair.initialized = true
  minLen : format.minLen ≤ record.length
  maxLen : record.length ≤ format.maxLen
  seqFloor : pair.seqFloor ≠ 0xFFFFFFFF

theorem checkLength_eq_ok {u : Unit} :
    checkLength format record = .ok u ↔ format.minLen ≤ record.length ∧ record.length ≤ format.maxLen := by
  simp [checkLength]

theorem nextSeq_eq_ok {seq : UInt32} :
    pair.nextSeq = .ok seq ↔ pair.seqFloor ≠ 0xFFFFFFFF ∧ pair.seqFloor + 1 = seq := by
  unfold nextSeq
  rw [refuse_bind_eq_ok, Except.ok.injEq, beq_eq_false_iff_ne]

theorem checkCommit_eq_ok {u : Unit} :
    pair.checkCommit format record = .ok u ↔
      Usable pair ∧ format.minLen ≤ record.length ∧ record.length ≤ format.maxLen := by
  unfold checkCommit
  rw [refuse_bind_eq_ok, refuse_bind_eq_ok, refuse_bind_eq_ok, checkLength_eq_ok]
  simp only [Bool.not_eq_false']
  exact ⟨fun ⟨hi, hq, hu, hlength⟩ => ⟨⟨hi, hq, hu⟩, hlength⟩,
    fun ⟨h, hlength⟩ => ⟨h.initialized, h.quarantined, h.uncertain, hlength⟩⟩

/-- The pair after `commit_prepared`. -/
def SealedSlotPair.advanced (pair : SealedSlotPair) : SealedSlotPair :=
  { pair with activeSlot := pair.target, activeSeq := pair.seqFloor + 1, seqFloor := pair.seqFloor + 1
              hasActive := true }

/-- `commit_prepared` on a sequenced format: the slot that is not active goes through the contents of one
write, and the pair changes only at the end. -/
theorem wp_commitPrepared (hsequenced : format.sequenced = true) (hE₀ : ∀ e, E e pair flash)
    (hR : Usable pair → Admitted format pair record →
      ∀ s, Written format flash pair.target record (pair.seqFloor + 1) s → R s)
    (hE : Usable pair → Admitted format pair record →
      ∀ e s, Written format flash pair.target record (pair.seqFloor + 1) s → E e pair s)
    (hQ : Usable pair → Admitted format pair record → Q () pair.advanced
      (update flash pair.target (landed format (committedRecord format record (pair.seqFloor + 1))))) :
    Method.wp (commitPrepared format record) Q E R pair flash := by
  unfold commitPrepared commitSequenced
  simp only [hsequenced, if_true, Method.wp_bind, Method.wp_get, Method.wp_ofExcept, Method.wp_set]
  refine ⟨fun _ hcheck => ⟨fun _ _ => ⟨fun seq hseq => ?_, fun e _ => hE₀ e⟩, fun e _ => hE₀ e⟩,
    fun e _ => hE₀ e⟩
  obtain ⟨husable, hmin, hmax⟩ := checkCommit_eq_ok.mp hcheck
  obtain ⟨hfloor, rfl⟩ := nextSeq_eq_ok.mp hseq
  have hadmitted : Admitted format pair record := ⟨husable.initialized, hmin, hmax, hfloor⟩
  exact wp_writeSlot (length_ge_of_minLen hmin) (hR husable hadmitted) (hE husable hadmitted)
    (hQ husable hadmitted)

/-- The pair between the two slots of a twin commit. -/
def SealedSlotPair.raised (pair : SealedSlotPair) : SealedSlotPair :=
  { pair with seqFloor := pair.seqFloor + 1 }

/-- `commit_twin_prepared` on a sequenced format: slot 0 goes through the contents of one write, then
slot 1 does, with the bytes read back from slot 0. -/
theorem wp_commitTwinPrepared (hsequenced : format.sequenced = true) (hE₀ : ∀ e, E e pair flash)
    (hR : Admitted format pair record → ∀ s, Written format flash 0 record (pair.seqFloor + 1) s ∨
      Written format (update flash 0 (landed format (committedRecord format record (pair.seqFloor + 1)))) 1
        (committedRecord format record (pair.seqFloor + 1)) (pair.seqFloor + 1) s → R s)
    (hE₁ : Admitted format pair record →
      ∀ e s, Written format flash 0 record (pair.seqFloor + 1) s → E e pair s)
    (hE₂ : Admitted format pair record → ∀ e s, Written format (update flash 0
        (landed format (committedRecord format record (pair.seqFloor + 1)))) 1
        (committedRecord format record (pair.seqFloor + 1)) (pair.seqFloor + 1) s → E e pair.raised s)
    (hQ : Admitted format pair record → Q () pair.twinned (update (update flash 0
        (landed format (committedRecord format record (pair.seqFloor + 1)))) 1
        (landed format (committedRecord format (committedRecord format record (pair.seqFloor + 1))
          (pair.seqFloor + 1))))) : Method.wp (commitTwinPrepared format record) Q E R pair flash := by
  unfold commitTwinPrepared twinSeq
  simp only [hsequenced, if_true, Method.wp_bind, Method.wp_get, Method.wp_ofExcept, Method.wp_set]
  refine ⟨fun _ hinit => ⟨fun _ hlength => ⟨fun seq hseq => ?_, fun e _ => hE₀ e⟩, fun e _ => hE₀ e⟩,
    fun e _ => hE₀ e⟩
  obtain ⟨hmin, hmax⟩ := checkLength_eq_ok.mp hlength
  obtain ⟨hfloor, rfl⟩ := nextSeq_eq_ok.mp hseq
  have hlong := length_ge_of_minLen hmin
  have hadmitted : Admitted format pair record := ⟨by simpa using hinit, hmin, hmax, hfloor⟩
  refine wp_writeSlot hlong (fun s hs => hR hadmitted s (.inl hs)) (hE₁ hadmitted) ?_
  refine wp_writeSlot (by rw [length_committedRecord format _ hlong]; exact hlong)
    (fun s hs => hR hadmitted s (.inr hs)) (hE₂ hadmitted) (hQ hadmitted)

end Methods

end RouteLoom.Storage
