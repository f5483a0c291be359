import RouteLoom.Host.OperationStore
import RouteLoom.Lib.Machine

/-!
# Operations are accepted once

An identity that was accepted is found in the store until its epoch is retired, and a retired epoch is
below the floor of its scope, which no open epoch ever is. The clock decides when an epoch is closed
and retired, but not in which order.

* `ScopeEpochs.Sound` : the floor, the closed epochs and the open one cover what was issued
* `Retires` : what retiring a scope does, and which records it may forget
* `storeMachine` : the calls in any order, with any clock
* `operations_accepted_once` : **what is accepted, replayed, retired and prepared in a run**
-/

namespace RouteLoom.Host

open Lib

/-! ## Saturating sums -/

theorem toNat_kU64Max : kU64Max.toNat = 2 ^ 64 - 1 := rfl

theorem toNat_saturatingAdd_one {a : UInt64} (h : a ≠ kU64Max) : (saturatingAdd a 1).toNat = a.toNat + 1 := by
  have hlt : a.toNat + (1 : UInt64).toNat < 2 ^ 64 := by
    have hne : a.toNat ≠ kU64Max.toNat := fun he => h (UInt64.toNat_inj.mp he)
    have := a.toNat_lt
    rw [toNat_kU64Max] at hne
    change a.toNat + 1 < 2 ^ 64
    omega
  rw [saturatingAdd, if_pos hlt, UInt64.toNat_add, Nat.mod_eq_of_lt hlt]
  rfl

/-- A saturated sum is reached in time, or at the end of time. -/
theorem le_of_saturatingAdd_le {a b c : UInt64} (h : saturatingAdd a b ≤ c) :
    a.toNat + b.toNat ≤ c.toNat ∨ c = kU64Max := by
  unfold saturatingAdd at h
  rw [UInt64.le_iff_toNat_le] at h
  split at h
  · next hlt =>
    rw [UInt64.toNat_add, Nat.mod_eq_of_lt hlt] at h
    exact .inl h
  · have := c.toNat_lt
    rw [toNat_kU64Max] at h
    exact .inr (UInt64.toNat_inj.mp (by rw [toNat_kU64Max]; omega))

/-! ## The epochs of a scope -/

variable {epoch seq : UInt64}

namespace ScopeEpochs

variable {e : ScopeEpochs}

/-- Above the floor are the closed epochs and the open one, below the next. -/
structure Sound (e : ScopeEpochs) : Prop where
  floor : e.floor < e.next
  closed : ∀ epoch ∈ e.closed, e.floor < epoch ∧ epoch < e.next
  opened : ∀ epoch t, e.opened = some (epoch, t) →
    e.floor < epoch ∧ epoch < e.next ∧ epoch ∉ e.closed

theorem sound_fresh (now : UInt64) : (fresh now).Sound where
  floor := (by decide : (0 : UInt64) < 2)
  closed := by simp [fresh]
  opened := by
    intro epoch t h
    cases h
    exact ⟨(by decide : (0 : UInt64) < 1), (by decide : (1 : UInt64) < 2), by simp [fresh]⟩

theorem Sound.close (h : e.Sound) : e.close.Sound := by
  unfold ScopeEpochs.close
  split
  · exact h
  · next epoch t hopen =>
    refine ⟨h.floor, fun other hother => ?_, fun _ _ hnone => absurd hnone (by simp)⟩
    rcases Finset.mem_insert.mp hother with rfl | hclosed
    · exact ⟨(h.opened _ t hopen).1, (h.opened _ t hopen).2.1⟩
    · exact h.closed _ hclosed

theorem close_floor (e : ScopeEpochs) : e.close.floor = e.floor := by
  unfold close
  split <;> rfl

theorem Sound.rotated (h : e.Sound) (hmax : e.next ≠ kU64Max) (now : UInt64) :
    Sound { e with next := saturatingAdd e.next 1, opened := some (e.next, now) } := by
  have hnext : e.next < saturatingAdd e.next 1 := by
    rw [UInt64.lt_iff_toNat_lt, toNat_saturatingAdd_one hmax]
    exact Nat.lt_succ_self _
  refine ⟨UInt64.lt_trans h.floor hnext, fun epoch hepoch => ?_, fun epoch t hopen => ?_⟩
  · exact ⟨(h.closed _ hepoch).1, UInt64.lt_trans (h.closed _ hepoch).2 hnext⟩
  · cases hopen
    exact ⟨h.floor, hnext, fun hmem => UInt64.lt_irrefl _ (h.closed _ hmem).2⟩

theorem Sound.toNat_candidate (h : e.Sound) : e.candidate.toNat = e.floor.toNat + 1 := by
  refine toNat_saturatingAdd_one fun hmax => ?_
  have hlt := h.floor
  have := e.next.toNat_lt
  rw [hmax, UInt64.lt_iff_toNat_lt, toNat_kU64Max] at hlt
  omega

theorem Sound.candidate_lt (h : e.Sound) (hlt : e.floor < epoch) (hne : epoch ≠ e.candidate) :
    e.candidate < epoch := by
  have hnat : epoch.toNat ≠ e.candidate.toNat := fun he => hne (UInt64.toNat_inj.mp he)
  rw [UInt64.lt_iff_toNat_lt] at hlt ⊢
  rw [h.toNat_candidate] at hnat ⊢
  omega

theorem isOpen_iff : e.isOpen epoch = true ↔ ∃ t, e.opened = some (epoch, t) := by
  unfold isOpen
  cases e.opened with
  | none => simp
  | some o =>
    obtain ⟨opened, t⟩ := o
    rw [Option.any_some, beq_iff_eq]
    constructor
    · rintro rfl
      exact ⟨t, rfl⟩
    · rintro ⟨t', h⟩
      cases h
      rfl

theorem Sound.retire (h : e.Sound) (hopen : ¬ e.isOpen e.candidate) (hclosed : e.candidate ∈ e.closed) :
    e.retire.Sound where
  floor := (h.closed _ hclosed).2
  closed := by
    intro epoch hmem
    obtain ⟨hne, hmem⟩ := Finset.mem_erase.mp hmem
    exact ⟨h.candidate_lt (h.closed _ hmem).1 hne, (h.closed _ hmem).2⟩
  opened := by
    intro epoch t ho
    obtain ⟨hlt, hnext, hnot⟩ := h.opened epoch t ho
    have hne : epoch ≠ e.candidate := by
      rintro rfl
      exact hopen (isOpen_iff.mpr ⟨t, ho⟩)
    exact ⟨h.candidate_lt hlt hne, hnext, fun hmem => hnot (Finset.mem_of_mem_erase hmem)⟩

theorem opened_of_status {now : UInt64} (h : e.status epoch now = .open_) :
    ∃ t, e.opened = some (epoch, t) := by
  unfold status at h
  split at h
  · next open' t hfilter =>
    obtain ⟨hopen, heq⟩ := Option.filter_eq_some_iff.mp hfilter
    rw [beq_iff_eq] at heq
    exact ⟨t, by rw [hopen, ← heq]⟩
  · split at h <;> cases h

end ScopeEpochs

/-! ## Retiring a scope -/

namespace MemoryOperationStore

variable {s s' s'' : MemoryOperationStore} {scope : EpochScope} {now : UInt64}

def Retired (s : MemoryOperationStore) (scope : EpochScope) (epoch : UInt64) : Prop :=
  0 < epoch ∧ ∃ e, s.epochs.lookup scope = some e ∧ epoch ≤ e.floor

/-- The last number is shared by all operations that come after it. -/
structure Sound (s : MemoryOperationStore) : Prop where
  scopes : ∀ scope e, s.epochs.lookup scope = some e → e.Sound
  records : ∀ id seq, s.byIdentity.lookup id = some seq → seq ≠ kU64Max →
    seq < s.nextSeq ∧ ∃ op, s.bySeq.lookup seq = some op ∧ op.identity = id

theorem Sound.record_unique (h : s.Sound) {id other : OpIdentity} (hid : s.byIdentity.lookup id = some seq)
    (hother : s.byIdentity.lookup other = some seq) (hmax : seq ≠ kU64Max) : id = other := by
  obtain ⟨-, op, hop, rfl⟩ := h.records id seq hid hmax
  obtain ⟨-, op', hop', rfl⟩ := h.records other seq hother hmax
  rw [hop] at hop'
  cases hop'
  rfl

/-- What is left when the identities `ids` are forgotten. -/
structure Forgets (ids : List OpIdentity) (s s' : MemoryOperationStore) : Prop where
  epochs : s'.epochs = s.epochs
  nextSeq : s'.nextSeq = s.nextSeq
  identities : ∀ id, s'.byIdentity.lookup id = if id ∈ ids then none else s.byIdentity.lookup id
  records : ∀ seq op, s'.bySeq.lookup seq = some op → s.bySeq.lookup seq = some op
  kept : ∀ seq, (∀ id ∈ ids, s.byIdentity.lookup id ≠ some seq) →
    s'.bySeq.lookup seq = s.bySeq.lookup seq

theorem forgets_forget (s : MemoryOperationStore) (id : OpIdentity) : Forgets [id] s (s.forget id) := by
  unfold forget
  split
  · next hnone =>
    refine ⟨rfl, rfl, fun other => ?_, fun _ _ h => h, fun _ _ => rfl⟩
    split
    · next hmem => rw [List.mem_singleton.mp hmem, hnone]
    · rfl
  · next seq hseq =>
    refine ⟨rfl, rfl, fun other => ?_, fun n op hop => ?_, fun n hn => ?_⟩
    · split
      · next hmem => rw [List.mem_singleton.mp hmem, AList.lookup_erase]
      · next hmem => exact AList.lookup_erase_ne fun he => hmem (by simp [he])
    · by_cases he : n = seq
      · rw [he, AList.lookup_erase] at hop
        cases hop
      · rwa [AList.lookup_erase_ne he] at hop
    · exact AList.lookup_erase_ne fun he => hn id (by simp) (by rw [he, hseq])

theorem Forgets.trans {ids ids' : List OpIdentity} (h : Forgets ids s s') (h' : Forgets ids' s' s'') :
    Forgets (ids ++ ids') s s'' where
  epochs := h'.epochs.trans h.epochs
  nextSeq := h'.nextSeq.trans h.nextSeq
  identities := by
    intro id
    rw [h'.identities id, h.identities id]
    by_cases hmem : id ∈ ids <;> by_cases hmem' : id ∈ ids' <;> simp [hmem, hmem']
  records := fun seq op hop => h.records _ _ (h'.records _ _ hop)
  kept := by
    intro seq hseq
    have hfirst := h.kept seq fun id hid => hseq id (List.mem_append_left _ hid)
    rw [← hfirst]
    refine h'.kept seq fun id hid => ?_
    rw [h.identities id]
    split
    · simp
    · exact hseq id (List.mem_append_right _ hid)

theorem forgets_foldl (ids : List OpIdentity) (s : MemoryOperationStore) :
    Forgets ids s (ids.foldl forget s) := by
  induction ids generalizing s with
  | nil => exact ⟨rfl, rfl, fun _ => by simp, fun _ _ h => h, fun _ _ => rfl⟩
  | cons id ids ih => exact (forgets_forget s id).trans (ih _)

theorem mem_stale {id : OpIdentity} :
    id ∈ s.stale scope epoch ↔ id ∈ s.byIdentity ∧ id.scope = scope ∧ id.epoch = epoch := by
  simp [stale, AList.mem_keys]

theorem eligible_iff :
    s.eligible scope epoch now = true ↔ ∀ seq op, s.bySeq.lookup seq = some op → op.scope = scope →
      op.epoch = epoch → op.concluded = true ∧ op.lapsed now = true := by
  simp only [eligible, values, List.all_eq_true, List.mem_filter, List.mem_map, Bool.and_eq_true, beq_iff_eq]
  constructor
  · intro h seq op hop hs he
    exact h op ⟨⟨⟨seq, op⟩, AList.mem_lookup_iff.mp hop, rfl⟩, hs, he⟩
  · rintro h op ⟨⟨⟨seq, op'⟩, hmem, rfl⟩, hs, he⟩
    exact h seq op' (AList.mem_lookup_iff.mpr hmem) hs he

/-- Retiring forgets the identities of retired epochs only, and retires an epoch only when its
records have concluded and are old enough at `now`. -/
structure Retires (now : UInt64) (s s' : MemoryOperationStore) : Prop where
  nextSeq : s'.nextSeq = s.nextSeq
  retired : ∀ scope epoch, s.Retired scope epoch → s'.Retired scope epoch
  identities : ∀ id, s'.byIdentity.lookup id = s.byIdentity.lookup id ∨
    s'.byIdentity.lookup id = none ∧ s'.Retired id.scope id.epoch
  records : ∀ seq op, s'.bySeq.lookup seq = some op → s.bySeq.lookup seq = some op
  old : ∀ id seq, s.byIdentity.lookup id = some seq → seq ≠ kU64Max →
    s'.Retired id.scope id.epoch → s.Retired id.scope id.epoch ∨
      ∃ op, s.bySeq.lookup seq = some op ∧ op.identity = id ∧ op.concluded = true ∧ op.lapsed now = true

theorem Retires.refl (now : UInt64) (s : MemoryOperationStore) : Retires now s s :=
  ⟨rfl, fun _ _ h => h, fun _ => .inl rfl, fun _ _ h => h, fun _ _ _ _ h => .inl h⟩

theorem Retires.trans (h : Retires now s s') (h' : Retires now s' s'') : Retires now s s'' where
  nextSeq := h'.nextSeq.trans h.nextSeq
  retired := fun _ _ hr => h'.retired _ _ (h.retired _ _ hr)
  identities := by
    intro id
    rcases h'.identities id with hsame' | hgone'
    · rcases h.identities id with hsame | ⟨hnone, hr⟩
      · exact .inl (hsame'.trans hsame)
      · exact .inr ⟨hsame'.trans hnone, h'.retired _ _ hr⟩
    · exact .inr hgone'
  records := fun _ _ hop => h.records _ _ (h'.records _ _ hop)
  old := by
    intro id seq hid hmax hr
    rcases h.identities id with hsame | ⟨-, hr'⟩
    · rcases h'.old id seq (hsame.trans hid) hmax hr with hr' | ⟨op, hop, hrest⟩
      · exact h.old id seq hid hmax hr'
      · exact .inr ⟨op, h.records _ _ hop, hrest⟩
    · exact h.old id seq hid hmax hr'

section RetireEpoch

variable {e : ScopeEpochs} (hs : s.Sound) (hlookup : s.epochs.lookup scope = some e)

include hs hlookup

theorem retired_insert_retire {scope' : EpochScope} :
    Retired { s with epochs := s.epochs.insert scope e.retire } scope' epoch ↔
      s.Retired scope' epoch ∨ scope' = scope ∧ epoch = e.candidate := by
  have hcand := (hs.scopes _ _ hlookup).toNat_candidate
  unfold Retired
  dsimp only
  by_cases hsc : scope' = scope
  · subst hsc
    rw [AList.lookup_insert, hlookup]
    simp only [Option.some.injEq, exists_eq_left', ScopeEpochs.retire, true_and,
      UInt64.lt_iff_toNat_lt, UInt64.le_iff_toNat_le, ← UInt64.toNat_inj]
    rw [hcand]
    change 0 < _ ∧ _ ↔ 0 < _ ∧ _ ∨ _
    omega
  · rw [AList.lookup_insert_ne hsc]
    simp [hsc]

theorem sound_retireEpoch (hopen : ¬ e.isOpen e.candidate) (hclosed : e.candidate ∈ e.closed) :
    (s.retireEpoch scope e).Sound := by
  have hf := forgets_foldl (s.stale scope e.candidate) { s with epochs := s.epochs.insert scope e.retire }
  refine ⟨fun scope' e' he' => ?_, fun id seq hid hmax => ?_⟩
  · rw [retireEpoch, hf.epochs] at he'
    dsimp only at he'
    by_cases hsc : scope' = scope
    · rw [hsc, AList.lookup_insert] at he'
      cases he'
      exact (hs.scopes _ _ hlookup).retire hopen hclosed
    · rw [AList.lookup_insert_ne hsc] at he'
      exact hs.scopes _ _ he'
  · rw [retireEpoch, hf.identities id] at hid
    split at hid
    · cases hid
    · next hmem =>
      dsimp only at hid
      rw [retireEpoch, hf.nextSeq]
      obtain ⟨hlt, op, hop, hopid⟩ := hs.records id seq hid hmax
      refine ⟨hlt, op, ?_, hopid⟩
      rw [hf.kept seq ?_]
      · exact hop
      · intro other hother heq
        exact hmem (hs.record_unique hid heq hmax ▸ hother)

theorem retires_retireEpoch (helig : s.eligible scope e.candidate now = true) :
    Retires now s (s.retireEpoch scope e) := by
  have hf := forgets_foldl (s.stale scope e.candidate) { s with epochs := s.epochs.insert scope e.retire }
  have hretired : ∀ scope' epoch, (s.retireEpoch scope e).Retired scope' epoch ↔
      s.Retired scope' epoch ∨ scope' = scope ∧ epoch = e.candidate := by
    intro scope' epoch
    rw [← retired_insert_retire hs hlookup, Retired, retireEpoch, hf.epochs, Retired]
  refine ⟨hf.nextSeq, fun scope' epoch h => (hretired _ _).mpr (.inl h), fun id => ?_, hf.records,
    fun id seq hid hmax hr => ?_⟩
  · rw [retireEpoch, hf.identities id]
    split
    · next hmem =>
      obtain ⟨-, hscope, hepoch⟩ := mem_stale.mp hmem
      exact .inr ⟨rfl, (hretired _ _).mpr (.inr ⟨hscope, hepoch⟩)⟩
    · exact .inl rfl
  · rcases (hretired _ _).mp hr with hr | ⟨hscope, hepoch⟩
    · exact .inl hr
    · obtain ⟨-, op, hop, rfl⟩ := hs.records id seq hid hmax
      have hold := eligible_iff.mp helig seq op hop hscope hepoch
      exact .inr ⟨op, hop, rfl, hold⟩

end RetireEpoch

theorem retireStep_spec (hs : s.Sound) (h : s.retireStep scope now = some s') :
    s'.Sound ∧ Retires now s s' := by
  unfold retireStep at h
  split at h
  · cases h
  · next e hlookup =>
    split at h
    · cases h
    · next hnot =>
      split at h
      · next helig =>
        cases h
        rw [Bool.or_eq_true, not_or] at hnot
        have hclosed : e.candidate ∈ e.closed := by simpa using hnot.2
        exact ⟨sound_retireEpoch hs hlookup hnot.1 hclosed, retires_retireEpoch hs hlookup helig⟩
      · cases h

theorem retireLoop_spec (n : Nat) (hs : s.Sound) :
    (retireLoop scope now n s).Sound ∧ Retires now s (retireLoop scope now n s) := by
  induction n generalizing s with
  | zero => exact ⟨hs, .refl now s⟩
  | succ n ih =>
    unfold retireLoop
    split
    · exact ⟨hs, .refl now s⟩
    · next s' hstep =>
      obtain ⟨hs', hr⟩ := retireStep_spec hs hstep
      exact ⟨(ih hs').1, hr.trans (ih hs').2⟩

theorem retireScope_spec (scope : EpochScope) (now : UInt64) (hs : s.Sound) :
    (s.retireScope scope now).Sound ∧ Retires now s (s.retireScope scope now) := by
  unfold retireScope
  split
  · exact ⟨hs, .refl now s⟩
  · exact retireLoop_spec _ hs

/-! ## Rewriting a record -/

/-- Records are rewritten in place, with their identity. -/
structure Rewrites (s s' : MemoryOperationStore) : Prop where
  epochs : s'.epochs = s.epochs
  byIdentity : s'.byIdentity = s.byIdentity
  nextSeq : s'.nextSeq = s.nextSeq
  identities : ∀ seq, (s'.bySeq.lookup seq).map StoredOperation.identity =
    (s.bySeq.lookup seq).map StoredOperation.identity

theorem Rewrites.refl (s : MemoryOperationStore) : Rewrites s s := ⟨rfl, rfl, rfl, fun _ => rfl⟩

theorem Rewrites.trans (h : Rewrites s s') (h' : Rewrites s' s'') : Rewrites s s'' where
  epochs := h'.epochs.trans h.epochs
  byIdentity := h'.byIdentity.trans h.byIdentity
  nextSeq := h'.nextSeq.trans h.nextSeq
  identities := fun seq => (h'.identities seq).trans (h.identities seq)

variable {opSeq : UInt64}

theorem Rewrites.insert {op : StoredOperation} (hop : s.bySeq.lookup opSeq = some op) (p : Progress) :
    Rewrites s { s with bySeq := s.bySeq.insert opSeq (op.withProgress p) } := by
  refine ⟨rfl, rfl, rfl, fun seq => ?_⟩
  dsimp only
  by_cases h : seq = opSeq
  · rw [h, AList.lookup_insert, hop]
    rfl
  · rw [AList.lookup_insert_ne h]

theorem Rewrites.sound (h : Rewrites s s') (hs : s.Sound) : s'.Sound := by
  refine ⟨by rw [h.epochs]; exact hs.scopes, fun id seq hid hmax => ?_⟩
  rw [h.byIdentity] at hid
  rw [h.nextSeq]
  obtain ⟨hlt, op, hop, rfl⟩ := hs.records id seq hid hmax
  have hmap := h.identities seq
  rw [hop, Option.map_some, Option.map_eq_some_iff] at hmap
  exact ⟨hlt, hmap⟩

theorem Rewrites.retired (h : Rewrites s s') : s'.Retired scope epoch ↔ s.Retired scope epoch := by
  rw [Retired, h.epochs, Retired]

theorem rewrites_updateOperation (s : MemoryOperationStore) (opSeq : UInt64)
    (mutate : StoredOperation → Option Progress) : Rewrites s (s.updateOperation opSeq mutate).2 := by
  unfold updateOperation
  split
  · exact .refl s
  · next op hop =>
    split
    · exact .refl s
    · next p _ => exact .insert hop p

/-- The number of positions the record can still be given without losing one: none if it holds one. -/
def spare (s : MemoryOperationStore) (seq : UInt64) : Nat :=
  match s.bySeq.lookup seq with
  | none => 0
  | some op => op.dispatch.isNone.toNat

theorem spare_insert {op : StoredOperation} (h : s'.bySeq = s.bySeq.insert opSeq op) (seq : UInt64) :
    s'.spare seq = if seq = opSeq then op.dispatch.isNone.toNat else s.spare seq := by
  unfold spare
  rw [h]
  by_cases he : seq = opSeq
  · rw [he, AList.lookup_insert, if_pos rfl]
  · rw [AList.lookup_insert_ne he, if_neg he]

theorem spare_eq {op : StoredOperation} (h : s.bySeq.lookup seq = some op) :
    s.spare seq = op.dispatch.isNone.toNat := by
  rw [spare, h]

theorem spare_le_one (s : MemoryOperationStore) (seq : UInt64) : s.spare seq ≤ 1 := by
  unfold spare
  split
  · exact Nat.zero_le _
  · exact Bool.toNat_le _

theorem spare_updateOperation_ne (h : seq ≠ opSeq) (mutate : StoredOperation → Option Progress) :
    (s.updateOperation opSeq mutate).2.spare seq = s.spare seq := by
  unfold updateOperation
  split
  · rfl
  · split
    · rfl
    · rw [spare_insert (s := s) rfl, if_neg h]

theorem spare_updateOperation_le (opSeq : UInt64) {mutate : StoredOperation → Option Progress}
    (hkeep : ∀ op p, mutate op = some p → op.dispatch.isSome → p.dispatch.isSome) (seq : UInt64) :
    (s.updateOperation opSeq mutate).2.spare seq ≤ s.spare seq := by
  unfold updateOperation
  split
  · exact Nat.le_refl _
  · next op hop =>
    split
    · exact Nat.le_refl _
    · next p hp =>
      rw [spare_insert (s := s) rfl]
      split
      · next h =>
        subst h
        rw [spare_eq hop, StoredOperation.dispatch_withProgress]
        have := hkeep op p hp
        cases hd : op.dispatch <;> cases hp' : p.dispatch <;> simp [hd, hp'] at this ⊢
      · exact Nat.le_refl _

/-- What the preparation of a dispatch answers and does. -/
inductive Prepared (s : MemoryOperationStore) (opSeq : UInt64) :
    PrepareOutcome → MemoryOperationStore → Prop
  | refused {outcome : PrepareOutcome} (hnp : ∀ a, outcome ≠ .prepared a) : Prepared s opSeq outcome s
  | prepared {attachment : DispatchAttachment} {s' : MemoryOperationStore} (hr : Rewrites s s')
      (hbefore : s.spare opSeq = 1) (hafter : s'.spare opSeq = 0)
      (hother : ∀ seq, seq ≠ opSeq → s'.spare seq = s.spare seq) :
      Prepared s opSeq (.prepared attachment) s'

theorem prepareDispatch_spec (s : MemoryOperationStore) (opSeq : UInt64) (lease dispatcher : Id128) :
    Prepared s opSeq (s.prepareDispatch opSeq lease dispatcher).1
      (s.prepareDispatch opSeq lease dispatcher).2 := by
  unfold prepareDispatch
  split
  · exact .refused (by simp)
  · next op hop =>
    split
    · exact .refused (by simp)
    · next hqueued =>
      have hnone : op.dispatch = none := by
        rw [not_or] at hqueued
        simpa using hqueued.2
      dsimp only [allocDispatchSeq]
      refine .prepared ((Rewrites.insert hop _).trans ⟨rfl, rfl, rfl, fun _ => rfl⟩) ?_ ?_ fun seq hne => ?_
      · rw [spare_eq hop, hnone]
        rfl
      · rw [spare_insert (s := s) rfl, if_pos rfl]
        rfl
      · rw [spare_insert (s := s) rfl, if_neg hne]

theorem Prepared.rewrites {outcome : PrepareOutcome} (h : Prepared s opSeq outcome s') : Rewrites s s' := by
  cases h with
  | refused _ => exact .refl s
  | prepared hr => exact hr

theorem rewrites_cancelOperation (s : MemoryOperationStore) (opSeq now : UInt64) :
    Rewrites s (s.cancelOperation opSeq now).2 := by
  unfold cancelOperation
  split
  · exact .refl s
  · exact rewrites_updateOperation s opSeq _

theorem spare_cancelOperation_le (s : MemoryOperationStore) (opSeq now seq : UInt64) :
    (s.cancelOperation opSeq now).2.spare seq ≤ s.spare seq := by
  unfold cancelOperation
  split
  · exact Nat.le_refl _
  · refine spare_updateOperation_le opSeq (fun op p hp hd => ?_) seq
    cases hp
    unfold cancelTransition
    split <;> simpa using hd

theorem supersedeTransition_keeps {newSeq : UInt64} (op : StoredOperation) (p : Progress)
    (hp : supersedeTransition op newSeq now = some p) (hd : op.dispatch.isSome) : p.dispatch.isSome := by
  unfold supersedeTransition at hp
  split at hp
  · cases hp
    simpa using hd
  · cases hp

theorem supersedeLatestForDest_spec (s : MemoryOperationStore) (principal : Principal)
    (req : SendRequest) (keepSeq now : UInt64) :
    Rewrites s (s.supersedeLatestForDest principal req keepSeq now).2 ∧
      ∀ seq, (s.supersedeLatestForDest principal req keepSeq now).2.spare seq ≤ s.spare seq := by
  unfold supersedeLatestForDest
  refine List.foldlRecOn (motive := fun r : List UInt64 × MemoryOperationStore =>
    Rewrites s r.2 ∧ ∀ seq, r.2.spare seq ≤ s.spare seq) _ _ ⟨.refl s, fun _ => Nat.le_refl _⟩ ?_
  rintro ⟨superseded, t⟩ ⟨hr, hspare⟩ op -
  refine ⟨hr.trans (rewrites_updateOperation t op.seq _), fun seq => ?_⟩
  exact Nat.le_trans (spare_updateOperation_le op.seq supersedeTransition_keeps seq) (hspare seq)

end MemoryOperationStore

/-! ## Runs -/

inductive StoreCall
  | openEpoch (scope : EpochScope) (now : UInt64)
  | submit (principal : Principal) (req : SendRequest) (now mono : UInt64)
  | prepareDispatch (opSeq : UInt64) (lease dispatcher : Id128)
  | updateOperation (opSeq : UInt64) (mutate : StoredOperation → Option Progress)
  | cancelOperation (opSeq now : UInt64)
  | supersedeLatestForDest (principal : Principal) (req : SendRequest) (keepSeq now : UInt64)

/-- `released`: an update took the position from a record. -/
inductive StoreReport
  | accepted (id : OpIdentity) (seq : UInt64)
  | prepared (opSeq : UInt64) (attachment : DispatchAttachment)
  | released (opSeq : UInt64)
  deriving DecidableEq, Repr

namespace StoreReport

def accepts (id : OpIdentity) : StoreReport → Bool
  | accepted id' _ => id' == id
  | _ => false

def numbers (seq : UInt64) : StoreReport → Bool
  | accepted _ seq' => seq' == seq
  | _ => false

def prepares (seq : UInt64) : StoreReport → Bool
  | prepared seq' _ => seq' == seq
  | _ => false

def releases (seq : UInt64) : StoreReport → Bool
  | released seq' => seq' == seq
  | _ => false

end StoreReport

namespace StoreCall

/-- The clock of a call that may retire epochs. -/
def now : StoreCall → Option UInt64
  | openEpoch _ now => some now
  | submit _ _ now _ => some now
  | _ => none

def next (s : MemoryOperationStore) : StoreCall → MemoryOperationStore
  | openEpoch scope now => (s.openEpoch scope now).2
  | submit principal req now mono => (s.submit principal req now mono).2
  | prepareDispatch opSeq lease dispatcher => (s.prepareDispatch opSeq lease dispatcher).2
  | updateOperation opSeq mutate => (s.updateOperation opSeq mutate).2
  | cancelOperation opSeq now => (s.cancelOperation opSeq now).2
  | supersedeLatestForDest principal req keepSeq now =>
    (s.supersedeLatestForDest principal req keepSeq now).2

def out (s : MemoryOperationStore) : StoreCall → List StoreReport
  | submit principal req now mono =>
    match (s.submit principal req now mono).1 with
    | some (.accepted seq) => [.accepted (req.identity principal) seq]
    | _ => []
  | prepareDispatch opSeq lease dispatcher =>
    match (s.prepareDispatch opSeq lease dispatcher).1 with
    | .prepared attachment => [.prepared opSeq attachment]
    | _ => []
  | updateOperation opSeq mutate =>
    if s.spare opSeq < (s.updateOperation opSeq mutate).2.spare opSeq then [.released opSeq] else []
  | _ => []

end StoreCall

/-- Any calls, with any clock. -/
def storeMachine : Machine MemoryOperationStore StoreCall StoreReport where
  Init s := s = {}
  Enabled _ _ := True
  next := StoreCall.next
  out := StoreCall.out

open StoreReport MemoryOperationStore

/-- What the store remembers of a run. -/
structure StoreInv (s : MemoryOperationStore) (h : List StoreReport) : Prop where
  sound : s.Sound
  known : ∀ id seq, s.byIdentity.lookup id = some seq → accepted id seq ∈ h
  kept : ∀ id seq, accepted id seq ∈ h →
    s.byIdentity.lookup id = some seq ∨ s.Retired id.scope id.epoch
  once : ∀ id, h.countP (accepts id) ≤ 1
  below : ∀ id seq, accepted id seq ∈ h → seq ≠ kU64Max → seq < s.nextSeq
  number : ∀ seq, seq ≠ kU64Max → h.countP (numbers seq) ≤ 1
  positions : ∀ seq, h.countP (prepares seq) + s.spare seq ≤
    h.countP (releases seq) + h.countP (numbers seq)

theorem nextSeq_accept {n : UInt64} : n ≤ max (saturatingAdd n 1) 1 ∧
    (n ≠ kU64Max → n < max (saturatingAdd n 1) 1) := by
  by_cases h : n = kU64Max
  · rw [h]
    exact ⟨by decide, fun hne => absurd rfl hne⟩
  · have hnat := toNat_saturatingAdd_one h
    have hmax : max (saturatingAdd n 1) 1 = saturatingAdd n 1 := by
      change (if saturatingAdd n 1 ≤ 1 then 1 else saturatingAdd n 1) = _
      split
      · next hle =>
        rw [UInt64.le_iff_toNat_le, hnat] at hle
        rw [← UInt64.toNat_inj, hnat]
        change n.toNat + 1 ≤ 1 at hle
        change 1 = n.toNat + 1
        omega
      · rfl
    rw [hmax, UInt64.le_iff_toNat_le, UInt64.lt_iff_toNat_lt, hnat]
    exact ⟨Nat.le_succ _, fun _ => Nat.lt_succ_self _⟩

/-- The epochs of a scope are opened and closed, with its floor. -/
structure Reopens (s s' : MemoryOperationStore) : Prop where
  byIdentity : s'.byIdentity = s.byIdentity
  bySeq : s'.bySeq = s.bySeq
  nextSeq : s'.nextSeq = s.nextSeq
  scopes : ∀ scope e, s'.epochs.lookup scope = some e → e.Sound
  retired : ∀ scope epoch, s'.Retired scope epoch ↔ s.Retired scope epoch

section Calls

variable {s s' : MemoryOperationStore} {h : List StoreReport} {now : UInt64}

theorem Reopens.refl (hs : s.Sound) : Reopens s s := ⟨rfl, rfl, rfl, hs.scopes, fun _ _ => Iff.rfl⟩

theorem Reopens.insert {scope : EpochScope} {e : ScopeEpochs} (hs : s.Sound) (he : e.Sound)
    (hfloor : ∀ epoch, 0 < epoch →
      (epoch ≤ e.floor ↔ ∃ e', s.epochs.lookup scope = some e' ∧ epoch ≤ e'.floor)) :
    Reopens s { s with epochs := s.epochs.insert scope e } := by
  refine ⟨rfl, rfl, rfl, fun scope' e' he' => ?_, fun scope' epoch => ?_⟩
  · dsimp only at he'
    by_cases hsc : scope' = scope
    · rw [hsc, AList.lookup_insert] at he'
      cases he'
      exact he
    · rw [AList.lookup_insert_ne hsc] at he'
      exact hs.scopes _ _ he'
  · unfold Retired
    dsimp only
    refine and_congr_right fun hpos => ?_
    by_cases hsc : scope' = scope
    · rw [hsc, AList.lookup_insert, ← hfloor epoch hpos]
      simp
    · rw [AList.lookup_insert_ne hsc]

theorem reopens_rotate {scope : EpochScope} {e : ScopeEpochs} (hs : s.Sound)
    (hlookup : s.epochs.lookup scope = some e) (now : UInt64) : Reopens s (s.rotate scope e now).2 := by
  have he := hs.scopes _ _ hlookup
  have hfloor : ∀ epoch, 0 < epoch →
      (epoch ≤ e.floor ↔ ∃ e', s.epochs.lookup scope = some e' ∧ epoch ≤ e'.floor) := by
    intro epoch _
    simp [hlookup]
  unfold rotate
  split
  · exact .refl hs
  · dsimp only
    split
    · exact .insert hs he.close (by rwa [ScopeEpochs.close_floor])
    · next hcap =>
      rw [not_or] at hcap
      exact .insert hs (he.close.rotated hcap.2 now) (by dsimp only; rwa [ScopeEpochs.close_floor])

theorem openEpoch_spec (hs : s.Sound) (scope : EpochScope) (now : UInt64) :
    ∃ s₁, s₁.Sound ∧ Retires now s s₁ ∧ Reopens s₁ (s.openEpoch scope now).2 := by
  unfold openEpoch
  split
  · next hnone =>
    refine ⟨s, hs, .refl now s, ?_⟩
    split
    · exact .refl hs
    · refine .insert hs (ScopeEpochs.sound_fresh now) fun epoch hpos => ?_
      rw [hnone]
      exact ⟨fun hle => absurd hpos (UInt64.not_lt.mpr hle), fun ⟨_, hsome, _⟩ => by cases hsome⟩
  · obtain ⟨hs₁, hr⟩ := retireScope_spec scope now hs
    refine ⟨_, hs₁, hr, ?_⟩
    dsimp only
    split
    · exact .refl hs₁
    · next e hlookup => exact reopens_rotate hs₁ hlookup now

/-- What a submission answers and does. -/
inductive Submitted (s : MemoryOperationStore) (principal : Principal) (req : SendRequest)
    (now mono : UInt64) : Option SubmitOutcome → MemoryOperationStore → Prop
  | known {outcome : Option SubmitOutcome} (hna : ∀ seq, outcome ≠ some (.accepted seq)) :
      Submitted s principal req now mono outcome s
  | refused {outcome : SubmitOutcome} {s₁ : MemoryOperationStore}
      (hna : ∀ seq, outcome ≠ .accepted seq) (hs₁ : s₁.Sound) (hr : Retires now s s₁) :
      Submitted s principal req now mono (some outcome) s₁
  | accepted {s₁ : MemoryOperationStore} (hs₁ : s₁.Sound) (hr : Retires now s s₁)
      (hnew : s₁.byIdentity.lookup (req.identity principal) = none)
      (hopen : ¬ s₁.Retired (principal, req.network) req.epoch) :
      Submitted s principal req now mono (some (.accepted s₁.nextSeq))
        (s₁.accept principal req now mono)

theorem submitNew_spec (hs : s.Sound) {principal : Principal} {req : SendRequest}
    (hnone : s.byIdentity.lookup (req.identity principal) = none) (now mono : UInt64) :
    Submitted s principal req now mono (some (s.submitNew principal req now mono).1)
      (s.submitNew principal req now mono).2 := by
  obtain ⟨hs₁, hr⟩ := retireScope_spec (principal, req.network) now hs
  unfold submitNew
  generalize s.retireScope (principal, req.network) now = s₁ at hs₁ hr ⊢
  dsimp only
  split
  · next hstatus =>
    split
    · exact .refused (by simp) hs₁ hr
    · obtain ⟨e, hlookup, hopen⟩ := Option.map_eq_some_iff.mp hstatus
      obtain ⟨t, ht⟩ := ScopeEpochs.opened_of_status hopen
      refine .accepted hs₁ hr ?_ ?_
      · rcases hr.identities (req.identity principal) with hsame | hgone
        · rw [hsame, hnone]
        · exact hgone.1
      · rintro ⟨-, e', hlookup', hle⟩
        rw [hlookup] at hlookup'
        cases hlookup'
        exact absurd ((hs₁.scopes _ _ hlookup).opened _ t ht).1 (UInt64.not_lt.mpr hle)
  · exact .refused (by simp) hs₁ hr
  · exact .refused (by simp) hs₁ hr
  · exact .refused (by simp) hs₁ hr

theorem submit_spec (hs : s.Sound) (principal : Principal) (req : SendRequest) (now mono : UInt64) :
    Submitted s principal req now mono (s.submit principal req now mono).1
      (s.submit principal req now mono).2 := by
  unfold submit
  split
  · next seq hseq =>
    refine .known fun seq' hmap => ?_
    obtain ⟨op, -, hop⟩ := Option.map_eq_some_iff.mp hmap
    split at hop <;> cases hop
  · next hnone => exact submitNew_spec hs hnone now mono

end Calls

namespace StoreInv

variable {s s' : MemoryOperationStore} {h : List StoreReport} {now : UInt64}

theorem initial : StoreInv {} [] where
  sound := ⟨fun _ _ h => (by cases h), fun _ _ h => (by cases h)⟩
  known := fun _ _ h => by cases h
  kept := fun _ _ h => by cases h
  once := fun _ => Nat.zero_le _
  below := fun _ _ h => by cases h
  number := fun _ _ => Nat.zero_le _
  positions := fun _ => Nat.le_refl _

theorem retires (hi : StoreInv s h) (hs' : s'.Sound) (hr : Retires now s s') : StoreInv s' h where
  sound := hs'
  known := by
    intro id seq hid
    rcases hr.identities id with hsame | ⟨hnone, -⟩
    · exact hi.known id seq (hsame ▸ hid)
    · rw [hnone] at hid
      cases hid
  kept := by
    intro id seq hmem
    rcases hi.kept id seq hmem with hid | hretired
    · rcases hr.identities id with hsame | ⟨-, hretired⟩
      · exact .inl (hsame.trans hid)
      · exact .inr hretired
    · exact .inr (hr.retired _ _ hretired)
  once := hi.once
  below := by rw [hr.nextSeq]; exact hi.below
  number := hi.number
  positions := by
    intro seq
    refine Nat.le_trans (Nat.add_le_add_left ?_ _) (hi.positions seq)
    cases hop : s'.bySeq.lookup seq with
    | none => rw [spare, hop]; exact Nat.zero_le _
    | some op => rw [spare_eq hop, spare_eq (hr.records _ _ hop)]

theorem reopens (hi : StoreInv s h) (hr : Reopens s s') : StoreInv s' h where
  sound := ⟨hr.scopes, by rw [hr.byIdentity, hr.bySeq, hr.nextSeq]; exact hi.sound.records⟩
  known := by rw [hr.byIdentity]; exact hi.known
  kept := by
    intro id seq hmem
    rw [hr.byIdentity, hr.retired]
    exact hi.kept id seq hmem
  once := hi.once
  below := by rw [hr.nextSeq]; exact hi.below
  number := hi.number
  positions := by
    intro seq
    rw [spare, hr.bySeq]
    exact hi.positions seq

theorem rewrites (hi : StoreInv s h) (hr : Rewrites s s') {o : List StoreReport}
    (ho : ∀ id seq, accepted id seq ∉ o)
    (hspare : ∀ seq, o.countP (prepares seq) + s'.spare seq ≤ o.countP (releases seq) + s.spare seq) :
    StoreInv s' (h ++ o) := by
  have hmem : ∀ id seq, accepted id seq ∈ h ++ o ↔ accepted id seq ∈ h := by
    intro id seq
    simp [ho id seq]
  have haccepts : ∀ id, o.countP (accepts id) = 0 := by
    intro id
    rw [List.countP_eq_zero]
    rintro (⟨id', seq⟩ | _ | _) hx hid
    · exact ho _ _ hx
    · cases hid
    · cases hid
  have hnumbers : ∀ seq, o.countP (numbers seq) = 0 := by
    intro seq
    rw [List.countP_eq_zero]
    rintro (⟨id', seq'⟩ | _ | _) hx hid
    · exact ho _ _ hx
    · cases hid
    · cases hid
  refine ⟨hr.sound hi.sound, ?_, ?_, ?_, ?_, ?_, ?_⟩
  · intro id seq hid
    rw [hr.byIdentity] at hid
    exact (hmem id seq).mpr (hi.known id seq hid)
  · intro id seq hx
    rw [hr.byIdentity, hr.retired]
    exact hi.kept id seq ((hmem id seq).mp hx)
  · intro id
    rw [List.countP_append, haccepts, Nat.add_zero]
    exact hi.once id
  · intro id seq hx
    rw [hr.nextSeq]
    exact hi.below id seq ((hmem id seq).mp hx)
  · intro seq hmax
    rw [List.countP_append, hnumbers, Nat.add_zero]
    exact hi.number seq hmax
  · intro seq
    have hold := hi.positions seq
    have hnew := hspare seq
    rw [List.countP_append, List.countP_append, List.countP_append, hnumbers]
    omega

theorem accept (hi : StoreInv s h) {principal : Principal} {req : SendRequest}
    (hnew : s.byIdentity.lookup (req.identity principal) = none)
    (hopen : ¬ s.Retired (principal, req.network) req.epoch) (now mono : UInt64) :
    StoreInv (s.accept principal req now mono) (h ++ [accepted (req.identity principal) s.nextSeq]) := by
  have hnext := nextSeq_accept (n := s.nextSeq)
  have hfresh : ∀ seq, accepted (req.identity principal) seq ∉ h := by
    intro seq hmem
    rcases hi.kept _ _ hmem with hid | hretired
    · rw [hnew] at hid
      cases hid
    · exact hopen hretired
  refine ⟨⟨hi.sound.scopes, ?_⟩, ?_, ?_, ?_, ?_, ?_, ?_⟩
  · intro id seq hid hmax
    unfold MemoryOperationStore.accept at hid ⊢
    dsimp only at hid ⊢
    by_cases he : id = req.identity principal
    · rw [he, AList.lookup_insert] at hid
      cases hid
      exact ⟨hnext.2 hmax, _, AList.lookup_insert _, he.symm⟩
    · rw [AList.lookup_insert_ne he] at hid
      obtain ⟨hlt, op, hop, hid⟩ := hi.sound.records id seq hid hmax
      refine ⟨UInt64.lt_of_lt_of_le hlt hnext.1, op, ?_, hid⟩
      rw [AList.lookup_insert_ne (UInt64.ne_of_lt hlt)]
      exact hop
  · intro id seq hid
    unfold MemoryOperationStore.accept at hid
    dsimp only at hid
    by_cases he : id = req.identity principal
    · rw [he, AList.lookup_insert] at hid
      cases hid
      rw [he]
      exact List.mem_append_right _ (List.mem_singleton_self _)
    · rw [AList.lookup_insert_ne he] at hid
      exact List.mem_append_left _ (hi.known id seq hid)
  · intro id seq hmem
    unfold MemoryOperationStore.accept
    dsimp only
    rcases List.mem_append.mp hmem with hmem | hmem
    · rcases hi.kept id seq hmem with hid | hretired
      · have he : id ≠ req.identity principal := by
          rintro rfl
          exact hfresh seq hmem
        rw [AList.lookup_insert_ne he]
        exact .inl hid
      · exact .inr hretired
    · cases List.mem_singleton.mp hmem
      exact .inl (AList.lookup_insert _)
  · intro id
    rw [List.countP_append, List.countP_singleton]
    by_cases he : req.identity principal = id
    · have hzero : h.countP (accepts id) = 0 := by
        rw [List.countP_eq_zero]
        rintro (⟨id', seq⟩ | _ | _) hx hid
        · rw [accepts, beq_iff_eq] at hid
          rw [hid, ← he] at hx
          exact hfresh seq hx
        · cases hid
        · cases hid
      rw [hzero]
      split <;> omega
    · rw [if_neg (by simpa [accepts] using he), Nat.add_zero]
      exact hi.once id
  · intro id seq hmem hmax
    unfold MemoryOperationStore.accept
    dsimp only
    rcases List.mem_append.mp hmem with hmem | hmem
    · exact UInt64.lt_of_lt_of_le (hi.below id seq hmem hmax) hnext.1
    · cases List.mem_singleton.mp hmem
      exact hnext.2 hmax
  · intro seq hmax
    rw [List.countP_append, List.countP_singleton]
    by_cases he : s.nextSeq = seq
    · have hzero : h.countP (numbers seq) = 0 := by
        rw [List.countP_eq_zero]
        rintro (⟨id', seq'⟩ | _ | _) hx hid
        · rw [numbers, beq_iff_eq] at hid
          rw [hid] at hx
          exact UInt64.lt_irrefl _ (he ▸ hi.below _ _ hx hmax)
        · cases hid
        · cases hid
      rw [hzero]
      split <;> omega
    · rw [if_neg (by simpa [numbers] using he), Nat.add_zero]
      exact hi.number seq hmax
  · intro seq
    have hold := hi.positions seq
    have hinsert : (s.accept principal req now mono).bySeq =
        s.bySeq.insert s.nextSeq (.accept s.nextSeq principal req now mono) := rfl
    have hspare : (s.accept principal req now mono).spare seq =
        if seq = s.nextSeq then 1 else s.spare seq := spare_insert hinsert seq
    rw [hspare, List.countP_append, List.countP_append, List.countP_append]
    simp only [List.countP_singleton, prepares, releases, numbers, beq_iff_eq, Bool.false_eq_true, if_false]
    by_cases he : seq = s.nextSeq
    · rw [if_pos he, if_pos he.symm]
      omega
    · rw [if_neg he, if_neg (Ne.symm he)]
      omega

theorem quiet (hi : StoreInv s h) (hr : Rewrites s s') (hspare : ∀ seq, s'.spare seq ≤ s.spare seq) :
    StoreInv s' (h ++ []) :=
  hi.rewrites hr (fun _ _ => List.not_mem_nil) fun seq => by simpa using hspare seq

theorem prepareDispatch (hi : StoreInv s h) (opSeq : UInt64) (lease dispatcher : Id128) :
    StoreInv ((StoreCall.prepareDispatch opSeq lease dispatcher).next s)
      (h ++ (StoreCall.prepareDispatch opSeq lease dispatcher).out s) := by
  have hspec := prepareDispatch_spec s opSeq lease dispatcher
  rw [StoreCall.next, StoreCall.out]
  generalize (s.prepareDispatch opSeq lease dispatcher).1 = outcome at hspec ⊢
  generalize (s.prepareDispatch opSeq lease dispatcher).2 = s' at hspec ⊢
  cases hspec with
  | refused hnp =>
    split
    · next a => exact absurd rfl (hnp a)
    · rwa [List.append_nil]
  | prepared hr hbefore hafter hother =>
    refine hi.rewrites hr (fun _ _ hx => by cases List.mem_singleton.mp hx) fun seq => ?_
    simp only [List.countP_singleton, prepares, releases, beq_iff_eq, Bool.false_eq_true, if_false]
    by_cases he : seq = opSeq
    · rw [if_pos he.symm, he, hbefore, hafter]
    · rw [if_neg (Ne.symm he), hother seq he]

theorem updateOperation (hi : StoreInv s h) (opSeq : UInt64) (mutate : StoredOperation → Option Progress) :
    StoreInv ((StoreCall.updateOperation opSeq mutate).next s)
      (h ++ (StoreCall.updateOperation opSeq mutate).out s) := by
  unfold StoreCall.next StoreCall.out
  dsimp only
  refine hi.rewrites (rewrites_updateOperation s opSeq mutate) (fun id seq => ?_) fun seq => ?_
  · split <;> simp
  · by_cases he : seq = opSeq
    · subst he
      have hone := spare_le_one (s.updateOperation seq mutate).2 seq
      split
      · simp only [List.countP_singleton, prepares, releases, beq_self_eq_true, Bool.false_eq_true,
          if_false, if_true]
        omega
      · simp only [List.countP_nil]
        omega
    · rw [spare_updateOperation_ne he]
      split
      · simp [prepares]
      · exact Nat.le_refl _

theorem next (hi : StoreInv s h) (call : StoreCall) : StoreInv (call.next s) (h ++ call.out s) := by
  cases call with
  | openEpoch scope now =>
    obtain ⟨s₁, hs₁, hr, ho⟩ := openEpoch_spec hi.sound scope now
    change StoreInv _ (h ++ [])
    rw [List.append_nil]
    exact (hi.retires hs₁ hr).reopens ho
  | submit principal req now mono =>
    have hspec := submit_spec hi.sound principal req now mono
    rw [StoreCall.next, StoreCall.out]
    generalize (s.submit principal req now mono).1 = outcome at hspec ⊢
    generalize (s.submit principal req now mono).2 = s' at hspec ⊢
    cases hspec with
    | known hna =>
      split
      · next seq => exact absurd rfl (hna seq)
      · rwa [List.append_nil]
    | refused hna hs₁ hr =>
      split
      · next seq hsome =>
        cases hsome
        exact absurd rfl (hna seq)
      · rw [List.append_nil]
        exact hi.retires hs₁ hr
    | accepted hs₁ hr hnew hopen => exact (hi.retires hs₁ hr).accept hnew hopen now mono
  | prepareDispatch opSeq lease dispatcher => exact hi.prepareDispatch opSeq lease dispatcher
  | updateOperation opSeq mutate => exact hi.updateOperation opSeq mutate
  | cancelOperation opSeq now =>
    exact hi.quiet (rewrites_cancelOperation s opSeq now) (spare_cancelOperation_le s opSeq now)
  | supersedeLatestForDest principal req keepSeq now =>
    obtain ⟨hr, hspare⟩ := supersedeLatestForDest_spec s principal req keepSeq now
    exact hi.quiet hr hspare

end StoreInv

theorem storeInv_run {s : MemoryOperationStore} {h : List StoreReport} (hr : storeMachine.Run s h) :
    StoreInv s h := by
  refine hr.invariant (I := StoreInv) ?_ fun s h call hi _ => hi.next call
  rintro s rfl
  exact .initial

/-! ## The result -/

namespace MemoryOperationStore

variable {s : MemoryOperationStore}

theorem submitNew_ne_replay (s : MemoryOperationStore) (principal : Principal) (req : SendRequest)
    (now mono seq : UInt64) : (s.submitNew principal req now mono).1 ≠ .replay seq := by
  unfold submitNew
  dsimp only
  split
  · split <;> simp
  · simp
  · simp
  · simp

/-- The record that a replay names has the content of the request. -/
theorem replay_identical {principal : Principal} {req : SendRequest} {now mono : UInt64}
    (hreplay : (s.submit principal req now mono).1 = some (.replay seq)) :
    s.byIdentity.lookup (req.identity principal) = some seq ∧
      ∃ op, s.bySeq.lookup seq = some op ∧ op.canonical = req.canonical ∧ op.queueMode = req.queueMode := by
  unfold submit at hreplay
  split at hreplay
  · next seq' hseq =>
    obtain ⟨op, hop, hout⟩ := Option.map_eq_some_iff.mp hreplay
    split at hout
    · next hsame =>
      cases hout
      exact ⟨hseq, op, hop, hsame⟩
    · cases hout
  · exact absurd (Option.some.inj hreplay) (submitNew_ne_replay s principal req now mono seq)

/-- A call that retires an epoch has a clock, and retires nothing younger. -/
theorem retires_next (hs : s.Sound) {call : StoreCall} {scope : EpochScope}
    (hbefore : ¬ s.Retired scope epoch) (hafter : (call.next s).Retired scope epoch) :
    ∃ now s₁, call.now = some now ∧ Retires now s s₁ ∧ s₁.Retired scope epoch := by
  cases call with
  | openEpoch scope' now =>
    obtain ⟨s₁, -, hr, ho⟩ := openEpoch_spec hs scope' now
    exact ⟨now, s₁, rfl, hr, (ho.retired _ _).mp hafter⟩
  | submit principal req now mono =>
    have hspec := submit_spec hs principal req now mono
    rw [StoreCall.next] at hafter
    generalize (s.submit principal req now mono).1 = outcome at hspec
    generalize (s.submit principal req now mono).2 = s' at hspec hafter
    cases hspec with
    | known hna => exact absurd hafter hbefore
    | refused hna hs₁ hr | accepted hs₁ hr hnew hopen => exact ⟨now, _, rfl, hr, hafter⟩
  | prepareDispatch opSeq lease dispatcher =>
    have hr := (prepareDispatch_spec s opSeq lease dispatcher).rewrites
    exact absurd (hr.retired.mp hafter) hbefore
  | updateOperation opSeq mutate =>
    exact absurd ((rewrites_updateOperation s opSeq mutate).retired.mp hafter) hbefore
  | cancelOperation opSeq now =>
    exact absurd ((rewrites_cancelOperation s opSeq now).retired.mp hafter) hbefore
  | supersedeLatestForDest principal req keepSeq now =>
    have hr := (supersedeLatestForDest_spec s principal req keepSeq now).1
    exact absurd (hr.retired.mp hafter) hbefore

end MemoryOperationStore

/-- **In every run, with any clock: an identity is accepted once; a replay names a record that was
accepted for the identity and has the content of the request; an epoch is retired only when each
operation accepted in it has concluded and its retention has passed; and a record is given one more
position than it lost at most.** Numbers are given once but for the last, which is never passed. -/
theorem operations_accepted_once {s : MemoryOperationStore} {h : List StoreReport} (hr : storeMachine.Run s h) :
    (∀ id, h.countP (accepts id) ≤ 1) ∧
    (∀ principal req now mono seq, (s.submit principal req now mono).1 = some (.replay seq) →
      accepted (req.identity principal) seq ∈ h ∧
        ∃ op, s.bySeq.lookup seq = some op ∧ op.canonical = req.canonical ∧ op.queueMode = req.queueMode) ∧
    (∀ (call : StoreCall) scope epoch, ¬ s.Retired scope epoch → (call.next s).Retired scope epoch →
      ∃ now, call.now = some now ∧ ∀ id seq, accepted id seq ∈ h → seq ≠ kU64Max →
        id.scope = scope → id.epoch = epoch → ∃ op t, s.bySeq.lookup seq = some op ∧
          op.identity = id ∧ op.concluded = true ∧ op.terminalMs = some t ∧
          (t.toNat + kRetentionMs.toNat ≤ now.toNat ∨ now = kU64Max)) ∧
    (∀ seq, h.countP (prepares seq) ≤ h.countP (releases seq) + h.countP (numbers seq)) ∧
    (∀ seq, seq ≠ kU64Max → h.countP (numbers seq) ≤ 1) := by
  have hi := storeInv_run hr
  refine ⟨hi.once, fun principal req now mono seq hreplay => ?_, ?_, fun seq => ?_, hi.number⟩
  · obtain ⟨hid, hop⟩ := replay_identical hreplay
    exact ⟨hi.known _ _ hid, hop⟩
  · intro call scope epoch hbefore hafter
    obtain ⟨now, s₁, hnow, hret, hret₁⟩ := retires_next hi.sound hbefore hafter
    refine ⟨now, hnow, fun id seq hmem hmax hscope hepoch => ?_⟩
    subst hscope hepoch
    have hid := (hi.kept id seq hmem).resolve_right hbefore
    obtain ⟨op, hop, hopid, hconcluded, hlapsed⟩ := (hret.old id seq hid hmax hret₁).resolve_left hbefore
    obtain ⟨t, ht, hle⟩ := (Option.any_eq_true _ _).mp hlapsed
    exact ⟨op, t, hop, hopid, hconcluded, ht, le_of_saturatingAdd_le (of_decide_eq_true hle)⟩
  · exact Nat.le_trans (Nat.le_add_right _ _) (hi.positions seq)

instance (s : MemoryOperationStore) (scope : EpochScope) (epoch : UInt64) :
    Decidable (s.Retired scope epoch) :=
  decidable_of_iff (0 < epoch ∧ (s.epochs.lookup scope).any fun e => decide (epoch ≤ e.floor))
    (and_congr_right fun _ => by simp [Option.any_eq_true])

def sampleScope : EpochScope := (.unixUid 501, 1)

def sampleRequest : SendRequest where
  network := 1
  epoch := 1
  key := Vector.replicate 16 7
  canonical := [1, 2]

/-- Accepted, cancelled, and the epoch rotated. -/
def rotated : List StoreCall :=
  [.openEpoch sampleScope 0, .submit (.unixUid 501) sampleRequest 1000 1, .cancelOperation 1 2000,
    .openEpoch sampleScope 3600000]

theorem operations_accepted_once_sample :
    ∃ s h, storeMachine.Run s h ∧ accepted (sampleRequest.identity (.unixUid 501)) 1 ∈ h ∧
      ((StoreCall.openEpoch sampleScope 86402000).next s).Retired sampleScope 1 ∧
      ∃ op t, s.bySeq.lookup 1 = some op ∧ op.identity = sampleRequest.identity (.unixUid 501) ∧
        op.concluded = true ∧ op.terminalMs = some t ∧
        (t.toNat + kRetentionMs.toNat ≤ (86402000 : UInt64).toNat ∨ (86402000 : UInt64) = kU64Max) := by
  have hr := Machine.run_exec (M := storeMachine) (s := {}) rfl rotated
    ⟨trivial, trivial, trivial, trivial, trivial⟩
  have hmem : accepted (sampleRequest.identity (.unixUid 501)) 1 ∈
      (storeMachine.exec {} [] rotated).2 := by decide +kernel
  have hafter : ((StoreCall.openEpoch sampleScope 86402000).next
      (storeMachine.exec {} [] rotated).1).Retired sampleScope 1 := by decide +kernel
  obtain ⟨-, -, hretired, -, -⟩ := operations_accepted_once hr
  obtain ⟨now, hnow, hold⟩ := hretired (.openEpoch sampleScope 86402000) sampleScope 1
    (by decide +kernel) hafter
  cases hnow
  exact ⟨_, _, hr, hmem, hafter, hold _ 1 hmem (by decide) rfl rfl⟩

/-- Prepared, queued again when the lease changed before the write, and prepared once more. -/
def requeued : List StoreCall :=
  [.openEpoch sampleScope 0, .submit (.unixUid 501) sampleRequest 1000 1,
    .prepareDispatch 1 (Vector.replicate 16 8) (Vector.replicate 16 9),
    .updateOperation 1 (leaseChanged false),
    .prepareDispatch 1 (Vector.replicate 16 10) (Vector.replicate 16 9)]

/-- One record is given two positions. -/
theorem requeued_operation_prepared_twice :
    ∃ s h, storeMachine.Run s h ∧ h.countP (numbers 1) = 1 ∧ h.countP (prepares 1) = 2 := by
  have hr := Machine.run_exec (M := storeMachine) (s := {}) rfl requeued
    ⟨trivial, trivial, trivial, trivial, trivial, trivial⟩
  exact ⟨_, _, hr, by decide +kernel, by decide +kernel⟩

/-- **A retry is answered from its record while its epoch is not retired**, with any clock and load: it
never panics, finds the store full or its epoch closed, and changes nothing. -/
theorem retry_answered {s : MemoryOperationStore} {h : List StoreReport} (hr : storeMachine.Run s h)
    (principal : Principal) (req : SendRequest) (seq now mono : UInt64)
    (hmem : accepted (req.identity principal) seq ∈ h) (hmax : seq ≠ kU64Max)
    (hkept : ¬ s.Retired (principal, req.network) req.epoch) :
    ∃ op, s.bySeq.lookup seq = some op ∧ op.identity = req.identity principal ∧
      s.submit principal req now mono =
        (some (if op.canonical = req.canonical ∧ op.queueMode = req.queueMode then .replay seq
          else .conflict seq), s) := by
  have hi := storeInv_run hr
  have hid := (hi.kept _ _ hmem).resolve_right hkept
  obtain ⟨-, op, hop, hopid⟩ := hi.sound.records _ _ hid hmax
  exact ⟨op, hop, hopid, by simp [submit, hid, hop]⟩

theorem retry_answered_rotated : ∃ s h outcome, storeMachine.Run s h ∧
    s.submit (.unixUid 501) sampleRequest 7200000 2 = (some outcome, s) := by
  have hr := Machine.run_exec (M := storeMachine) (s := {}) rfl rotated
    ⟨trivial, trivial, trivial, trivial, trivial⟩
  obtain ⟨_, -, -, hsame⟩ := retry_answered hr (.unixUid 501) sampleRequest 1 7200000 2
    (by decide +kernel) (by decide) (by decide +kernel)
  exact ⟨_, _, _, hr, hsame⟩

end RouteLoom.Host
