import RouteLoom.Security.CounterStore
import RouteLoom.Lib.Allocation
import RouteLoom.Lib.Machine

/-!
# No counter is issued twice

Any number of leases over one store, with failing commits and crashes at any store operation. A
counter that a lease, a parked checkpoint or a taken one may still issue lies below the stored
high-water mark of its epoch, and no two of them may issue the same one. A lease is parked when it
is dropped, and a taken checkpoint is resumed at most once.

* `CounterLease.System`, `CounterLease.leaseSystem` : leases, parked and taken checkpoints, the
  store and their runs
* `CounterLease.Inv` : the invariant, with the rules `Inv.shrink`, `Inv.commit`, `Inv.reserve`,
  `Inv.issue` and `Inv.handOver`
* `CounterLease.issued_once` : **no run issues a counter of one slot and epoch twice**
-/

namespace RouteLoom.CounterLease

open Lib Function List

/-! ## What each method can do -/

/-- The cursor is inside the block, and only a lease with a block size is initialized. -/
structure Sound (l : CounterLease) : Prop where
  ordered : l.cursor ≤ l.endExclusive
  blockSize : l.initialized = true → l.blockSize ≠ 0

/-- The same slot and epoch, with the same block or an empty one. -/
structure Keeps (l l' : CounterLease) : Prop where
  slot : l'.slot = l.slot
  keyEpoch : l'.keyEpoch = l.keyEpoch
  block : (l'.cursor = l.cursor ∧ l'.endExclusive = l.endExclusive) ∨ l'.cursor = l'.endExclusive
  blockSize : l'.blockSize = l.blockSize

/-- The lease stands where the checkpoint was cut. -/
structure StandsAt (l : CounterLease) (c : CounterLeaseCheckpoint) : Prop where
  slot : l.slot = c.slot
  keyEpoch : l.keyEpoch = c.keyEpoch
  cursor : l.cursor = c.cursor
  endExclusive : l.endExclusive = c.endExclusive
  lt : c.cursor < c.endExclusive

/-- The stored record is not ahead of the lease. -/
def Leads (s : CounterStore) (l : CounterLease) : Prop :=
  ∀ r, s l.slot = some r → r.keyEpoch ≤ l.keyEpoch ∧
    (r.keyEpoch = l.keyEpoch → r.highWaterExclusive ≤ l.endExclusive)

/-- The store after the next block of the lease is reserved. -/
def reserved (s : CounterStore) (l : CounterLease) : CounterStore :=
  update s l.slot (some l.nextRecord)

/-- The block fits below the last counter. -/
def Fits (l : CounterLease) : Prop :=
  l.endExclusive ≤ kMaxCryptoCounter + 1 - l.blockSize.toUInt64

@[simp] theorem nextRecord_keyEpoch (l : CounterLease) : l.nextRecord.keyEpoch = l.keyEpoch := rfl

@[simp] theorem nextRecord_highWaterExclusive (l : CounterLease) :
    l.nextRecord.highWaterExclusive = l.endExclusive + l.blockSize.toUInt64 := rfl

theorem initializedOver_keeps {l l' : CounterLease} {found : Option CounterRecord}
    (h : l.initializedOver found = .ok l') : Keeps l l' := by
  unfold initializedOver at h
  cases found with
  | none =>
    cases h
    exact ⟨rfl, rfl, Or.inl ⟨rfl, rfl⟩, rfl⟩
  | some record =>
    obtain ⟨_, _, h⟩ := bind_eq_ok.mp h
    obtain ⟨_, h⟩ := refuse_bind_eq_ok.mp h
    obtain ⟨_, h⟩ := refuse_bind_eq_ok.mp h
    split at h
    · cases h
      exact ⟨rfl, rfl, Or.inr rfl, rfl⟩
    · cases h
      exact ⟨rfl, rfl, Or.inl ⟨rfl, rfl⟩, rfl⟩

theorem adopt_spec {l l' : CounterLease} {s : CounterStore} (h : l.adopt (s l.slot) = .ok l') :
    Keeps l l' ∧ Leads s l' := by
  unfold adopt at h
  split at h
  · rename_i hs
    cases h
    refine ⟨⟨rfl, rfl, Or.inl ⟨rfl, rfl⟩, rfl⟩, fun r hr => ?_⟩
    rw [hs] at hr
    cases hr
  · rename_i persisted hs
    obtain ⟨_, _, h⟩ := bind_eq_ok.mp h
    obtain ⟨hepoch, h⟩ := refuse_bind_eq_ok.mp h
    rw [decide_eq_false_iff_not, UInt32.not_lt] at hepoch
    split at h
    · cases h
      refine ⟨⟨rfl, rfl, Or.inr rfl, rfl⟩, fun r hr => ?_⟩
      change s l.slot = some r at hr
      rw [hs] at hr
      cases hr
      exact ⟨hepoch, fun _ => UInt64.le_refl _⟩
    · rename_i hahead
      split at h
      · cases h
      · cases h
        refine ⟨⟨rfl, rfl, Or.inl ⟨rfl, rfl⟩, rfl⟩, fun r hr => ?_⟩
        rw [hs] at hr
        cases hr
        exact ⟨hepoch, fun he => by simpa [he] using hahead⟩

theorem continues_standsAt {l : CounterLease} {c : CounterLeaseCheckpoint}
    (h : l.continues c = true) : StandsAt { l with cursor := c.cursor } c := by
  simp only [continues, sameLeaseIdentity, checkpoint, Bool.and_eq_true, beq_iff_eq, bne_iff_ne,
    decide_eq_true_eq] at h
  obtain ⟨⟨⟨⟨⟨⟨⟨hslot, _⟩, hepoch⟩, _⟩, hlt⟩, _⟩, hend⟩, _⟩ := h
  exact ⟨hslot, hepoch, rfl, hend, hlt⟩

section Specs

variable {E : Status → CounterLease → CounterStore → Prop} {R : CounterStore → Prop}
  {l : CounterLease} {s : CounterStore}

variable {Q : Unit → CounterLease → CounterStore → Prop}

theorem wp_initializeLease (hR : R s) (hE : ∀ e, E e l s)
    (hQ : ∀ l', Keeps l l' → l.blockSize ≠ 0 → Q () l' s) : Method.wp initializeLease Q E R l s := by
  unfold initializeLease loadRecord
  rw [Method.wp_bind, Method.wp_get]
  split
  · exact hE _
  · rename_i hsize
    simp only [Method.wp_bind, Method.wp_load, Method.wp_pure, Method.wp_set]
    refine ⟨hR, ?_, hE⟩
    rw [Method.wp_ofExcept]
    exact ⟨fun l' hl' => hQ l' (initializedOver_keeps hl') (by simpa using hsize), fun e _ => hE e⟩

theorem wp_resume {c : CounterLeaseCheckpoint} (hR : R s) (hE : ∀ e, E e l s)
    (hkeep : ∀ l', Keeps l l' → l.blockSize ≠ 0 → Q () l' s)
    (hcontinue : ∀ l', l'.blockSize ≠ 0 → StandsAt l' c → Q () l' s) : Method.wp (resume c) Q E R l s := by
  unfold resume
  rw [Method.wp_bind]
  refine wp_initializeLease hR hE fun l' hl' hsize => ?_
  rw [Method.wp_bind, Method.wp_get]
  split
  · rename_i hc
    refine hcontinue { l' with cursor := c.cursor } ?_ (continues_standsAt hc)
    rw [← hl'.blockSize] at hsize
    exact hsize
  · exact hkeep l' hl' hsize

theorem wp_reserveBlock (hR : R s) (hE : ∀ e, E e l s)
    (hreserve : ∀ l', Keeps l l' → Leads s l' → (∀ e, E e l' s) ∧
      (Fits l' → R (reserved s l') ∧ (∀ e, E e l' (reserved s l')) ∧
        Q () l'.advanced (reserved s l'))) : Method.wp reserveBlock Q E R l s := by
  unfold reserveBlock loadRecord
  rw [Method.wp_bind, Method.wp_get]
  split
  · exact hE _
  · simp only [Method.wp_bind, Method.wp_load, Method.wp_pure, Method.wp_set]
    refine ⟨hR, ?_, hE⟩
    rw [Method.wp_ofExcept]
    refine ⟨fun l' hl' => ?_, fun e _ => hE e⟩
    obtain ⟨hkeeps, hleads⟩ := adopt_spec hl'
    obtain ⟨hE', hcommit⟩ := hreserve l' hkeeps hleads
    split
    · exact hE' _
    · rename_i hfits
      obtain ⟨hR'', hE'', hQ''⟩ := hcommit (UInt64.not_lt.mp hfits)
      unfold commitRecord
      simp only [Method.wp_bind, Method.wp_commit, Method.wp_set]
      exact ⟨hR, hR'', hQ'', fun e => ⟨hE' e, hE'' e⟩⟩

/-- A counter comes from the current block, or from one that was reserved just before. -/
theorem wp_next {Q : UInt64 → CounterLease → CounterStore → Prop} (hR : R s) (hE : ∀ e, E e l s)
    (hissue : l.initialized = true → l.cursor ≠ l.endExclusive → Q l.cursor { l with cursor := l.cursor + 1 } s)
    (hreserve : l.initialized = true → ∀ l', Keeps l l' → Leads s l' → (∀ e, E e l' s) ∧
      (Fits l' → R (reserved s l') ∧ (∀ e, E e l' (reserved s l')) ∧
        Q l'.endExclusive { l'.advanced with cursor := l'.endExclusive + 1 } (reserved s l'))) :
    Method.wp next Q E R l s := by
  unfold next refill
  rw [Method.wp_bind, Method.wp_get]
  split
  · exact hE _
  · rename_i hinit
    rw [Bool.not_eq_true', Bool.not_eq_false] at hinit
    rw [Method.wp_bind, Method.wp_bind, Method.wp_get]
    split
    · exact wp_reserveBlock hR hE (hreserve hinit)
    · rename_i hleft
      exact hissue hinit (by simpa using hleft)

end Specs

/-! ## Leases over one store -/

/-- Slot, epoch and counter. -/
abbrev Number := UInt32 × UInt32 × UInt64

/-- The store, all leases, the cache of parked checkpoints and the checkpoints taken from it. -/
structure System (capacity : Nat) where
  store : CounterStore := fun _ => none
  leases : Nat → Option CounterLease := fun _ => none
  cache : CounterCheckpointCache capacity := {}
  taken : Nat → Option CounterLeaseCheckpoint := fun _ => none

/-- A call on lease `i`, with the outcomes of its store operations, or a crash between calls. -/
inductive Event
  | construct (i : Nat) (slot contextId keyEpoch : UInt32) (direction : UInt8) (blockSize : UInt32)
  | initializeLease (i : Nat) (outcomes : List (Outcome Status))
  | resume (i j : Nat) (outcomes : List (Outcome Status))
  | next (i : Nat) (outcomes : List (Outcome Status))
  | park (i : Nat)
  | destroy (i : Nat)
  | take (i j : Nat)
  | clear
  | crash

variable {capacity : Nat}

section

variable (st : System capacity)

def System.put (i : Nat) (l : CounterLease) (s : CounterStore) : System capacity :=
  { st with store := s, leases := update st.leases i (some l) }

def System.destroy (i : Nat) : System capacity :=
  { st with leases := update st.leases i none }

/-- A taken checkpoint is used up by the call that gets it, whether the lease could continue or not. -/
def System.spend (j : Nat) : System capacity :=
  { st with taken := update st.taken j none }

/-- What a call leaves: lease `i` as the method left it, or only the store after a crash. -/
def System.finish {α : Type} (i : Nat)
    (result : Option (Except Status α × CounterLease) × CounterStore) : System capacity :=
  match result.1 with
  | none => { store := result.2 }
  | some (_, l) => st.put i l result.2

/-- One event; a call on a lease that does not exist is no call. -/
def step : Event → System capacity
  | .construct i slot contextId keyEpoch direction blockSize =>
    st.put i { slot, contextId, keyEpoch, direction, blockSize } st.store
  | .initializeLease i outcomes =>
    match st.leases i with
    | none => st
    | some l => st.finish i (initializeLease.call l outcomes st.store)
  | .resume i j outcomes =>
    match st.leases i, st.taken j with
    | some l, some c => (st.spend j).finish i ((resume c).call l outcomes st.store)
    | _, _ => st
  | .next i outcomes =>
    match st.leases i with
    | none => st
    | some l => st.finish i (next.call l outcomes st.store)
  | .park i =>
    match st.leases i with
    | none => st
    | some l => { st.destroy i with cache := st.cache.park l.checkpoint }
  | .destroy i => st.destroy i
  | .take i j =>
    match st.leases i with
    | none => st
    | some l =>
      match st.cache.take l.checkpoint with
      | none => st
      | some (c, cache) => { st with cache, taken := update st.taken j (some c) }
  | .clear => { st with cache := st.cache.clear }
  | .crash => { store := st.store }

/-- The number a returned `next` hands out. -/
def issuedBy (result : Option (Except Status UInt64 × CounterLease) × CounterStore) : List Number :=
  match result.1 with
  | some (.ok value, l) => [(l.slot, l.keyEpoch, value)]
  | _ => []

def issued : Event → List Number
  | .next i outcomes =>
    match st.leases i with
    | none => []
    | some l => issuedBy (next.call l outcomes st.store)
  | _ => []

end

/-- Leases over any initial store. -/
def leaseSystem (capacity : Nat) : Machine (System capacity) Event Number where
  Init st := (∀ i, st.leases i = none) ∧ st.cache.entries = .empty ∧ ∀ j, st.taken j = none
  Enabled _ _ := True
  next := step
  out := issued

instance (st : System capacity) (e : Event) : Decidable ((leaseSystem capacity).Enabled st e) :=
  isTrue trivial

/-! ## The invariant -/

/-- Who may still issue numbers. -/
inductive Holder (capacity : Nat)
  | lease (i : Nat)
  | parked (k : Fin capacity)
  | taken (j : Nat)
  deriving DecidableEq

def System.held (st : System capacity) : Holder capacity → Option CounterLeaseCheckpoint
  | .lease i => (st.leases i).map checkpoint
  | .parked k => (st.cache.entries.slots k).map (·.checkpoint)
  | .taken j => st.taken j

def unissued (c : CounterLeaseCheckpoint) : Set Number :=
  {x | x.1 = c.slot ∧ x.2.1 = c.keyEpoch ∧ c.cursor ≤ x.2.2 ∧ x.2.2 < c.endExclusive}

def System.owned (st : System capacity) (k : Holder capacity) : Set Number :=
  {x | ∃ c, st.held k = some c ∧ x ∈ unissued c}

/-- The number lies below the stored high-water mark, or its epoch is over. -/
def Covered (s : CounterStore) (x : Number) : Prop :=
  x.2.2 ≤ kMaxCryptoCounter ∧ ∃ r, s x.1 = some r ∧
    (x.2.1 < r.keyEpoch ∨ x.2.1 = r.keyEpoch ∧ x.2.2 < r.highWaterExclusive)

/-- What survives a crash. -/
structure StoreInv (s : CounterStore) (h : List Number) : Prop where
  nodup : h.Nodup
  covered : ∀ x ∈ h, Covered s x

structure Inv (st : System capacity) (h : List Number) : Prop where
  allocation : Allocation st.owned h
  covered : ∀ x ∈ h, Covered st.store x
  reserved : ∀ k, ∀ x ∈ st.owned k, Covered st.store x
  sound : ∀ i l, st.leases i = some l → l.Sound

variable {st st' : System capacity} {h : List Number} {s : CounterStore} {l l' : CounterLease}
  {i : Nat}

theorem Keeps.sound (hk : Keeps l l') (hl : l.Sound) (hsize : l.blockSize ≠ 0) : l'.Sound := by
  refine ⟨?_, fun _ => by rw [hk.blockSize]; exact hsize⟩
  rcases hk.block with ⟨hcursor, hend⟩ | hempty
  · rw [hcursor, hend]
    exact hl.ordered
  · rw [hempty]
    exact UInt64.le_refl _

variable {x : Number} {k : Holder capacity}

theorem Keeps.unissued (hk : Keeps l l') (hx : x ∈ unissued l'.checkpoint) : x ∈ unissued l.checkpoint := by
  obtain ⟨hslot, hepoch, hle, hlt⟩ := hx
  change x.1 = l'.slot at hslot
  change x.2.1 = l'.keyEpoch at hepoch
  change l'.cursor ≤ x.2.2 at hle
  change x.2.2 < l'.endExclusive at hlt
  rcases hk.block with ⟨hcursor, hend⟩ | hempty
  · rw [hcursor] at hle
    rw [hend] at hlt
    exact ⟨hslot.trans hk.slot, hepoch.trans hk.keyEpoch, hle, hlt⟩
  · rw [hempty] at hle
    exact absurd hlt (UInt64.not_lt.mpr hle)

theorem StandsAt.unissued {c : CounterLeaseCheckpoint} (hc : StandsAt l c) :
    unissued l.checkpoint = unissued c := by
  unfold CounterLease.unissued checkpoint
  rw [hc.slot, hc.keyEpoch, hc.cursor, hc.endExclusive]

/-! ### Blocks and the store -/

theorem Fits.toNat (hf : Fits l) :
    (l.endExclusive + l.blockSize.toUInt64).toNat = l.endExclusive.toNat + l.blockSize.toNat ∧
      l.endExclusive.toNat + l.blockSize.toNat ≤ kMaxCryptoCounter.toNat + 1 := by
  have hb : l.blockSize.toUInt64.toNat = l.blockSize.toNat := UInt32.toNat_toUInt64 _
  have hlt : l.blockSize.toNat < 2 ^ 32 := l.blockSize.toNat_lt
  have hk : kMaxCryptoCounter + 1 = 0x1000000000000 := by decide
  have hkn : kMaxCryptoCounter.toNat = 0xFFFFFFFFFFFF := by decide
  have hc : (0x1000000000000 : UInt64).toNat = 0x1000000000000 := by decide
  have hle : l.endExclusive ≤ kMaxCryptoCounter + 1 - l.blockSize.toUInt64 := hf
  have hsub : l.blockSize.toUInt64 ≤ 0x1000000000000 := by
    rw [UInt64.le_iff_toNat_le, hb, hc]
    omega
  rw [hk, UInt64.le_iff_toNat_le, UInt64.toNat_sub_of_le _ _ hsub, hb, hc] at hle
  rw [UInt64.toNat_add, hb, hkn]
  omega

theorem advanced_sound (hf : Fits l) (hsize : l.blockSize ≠ 0) : l.advanced.Sound := by
  refine ⟨?_, fun _ => hsize⟩
  change l.endExclusive ≤ l.endExclusive + l.blockSize.toUInt64
  rw [UInt64.le_iff_toNat_le, hf.toNat.1]
  omega

theorem advanced_cursor_ne (hf : Fits l) (hsize : l.blockSize ≠ 0) :
    l.advanced.cursor ≠ l.advanced.endExclusive := by
  change l.endExclusive ≠ l.endExclusive + l.blockSize.toUInt64
  have hpos : l.blockSize.toNat ≠ 0 := fun h0 => hsize (UInt32.toNat_inj.mp h0)
  intro heq
  have := congrArg UInt64.toNat heq
  rw [hf.toNat.1] at this
  omega

theorem reserved_self (s : CounterStore) (l : CounterLease) :
    reserved s l l.slot = some l.nextRecord := update_self _ _ _

theorem Covered.commit (hx : Covered s x) (hleads : Leads s l) (hf : Fits l) : Covered (reserved s l) x := by
  obtain ⟨hmax, r, hr, hcase⟩ := hx
  refine ⟨hmax, ?_⟩
  by_cases hslot : x.1 = l.slot
  · refine ⟨l.nextRecord, by rw [hslot]; exact reserved_self s l, ?_⟩
    rw [hslot] at hr
    obtain ⟨hepoch, hwater⟩ := hleads r hr
    rw [nextRecord_keyEpoch, nextRecord_highWaterExclusive]
    rcases hcase with hlt | ⟨heq, hlt⟩
    · exact Or.inl (UInt32.lt_of_lt_of_le hlt hepoch)
    · by_cases hsame : r.keyEpoch = l.keyEpoch
      · refine Or.inr ⟨heq.trans hsame, ?_⟩
        have hle := hwater hsame
        rw [UInt64.lt_iff_toNat_lt] at hlt ⊢
        rw [UInt64.le_iff_toNat_le] at hle
        rw [hf.toNat.1]
        omega
      · rw [heq]
        exact Or.inl (UInt32.lt_of_le_of_ne hepoch hsame)
  · refine ⟨r, ?_, hcase⟩
    unfold reserved
    rw [update_of_ne hslot]
    exact hr

/-- A new block is covered as soon as it is reserved, and nothing in it was covered before. -/
theorem covered_advanced (hleads : Leads s l) (hf : Fits l)
    (hx : x ∈ unissued l.advanced.checkpoint) : Covered (reserved s l) x ∧ ¬ Covered s x := by
  obtain ⟨hslot, hepoch, hle, hlt⟩ := hx
  change x.1 = l.slot at hslot
  change x.2.1 = l.keyEpoch at hepoch
  change l.endExclusive ≤ x.2.2 at hle
  change x.2.2 < l.endExclusive + l.blockSize.toUInt64 at hlt
  constructor
  · refine ⟨?_, l.nextRecord, by rw [hslot]; exact reserved_self s l, Or.inr ⟨hepoch, hlt⟩⟩
    rw [UInt64.lt_iff_toNat_lt, hf.toNat.1] at hlt
    rw [UInt64.le_iff_toNat_le]
    have := hf.toNat.2
    omega
  · rintro ⟨_, r, hr, hcase⟩
    rw [hslot] at hr
    obtain ⟨hre, hwater⟩ := hleads r hr
    rw [hepoch] at hcase
    rcases hcase with hlt' | ⟨heq, hlt'⟩
    · exact absurd hre (UInt32.not_le.mpr hlt')
    · exact absurd (UInt64.lt_of_lt_of_le hlt' (hwater heq.symm)) (UInt64.not_lt.mpr hle)

/-! ### Rules -/

theorem Inv.storeInv (H : Inv st h) : StoreInv st.store h := ⟨H.allocation.nodup, H.covered⟩

theorem owned_of_held_none (hk : st.held k = none) (x : Number) : x ∉ st.owned k := by
  rintro ⟨c, hc, _⟩
  rw [hk] at hc
  cases hc

theorem StoreInv.blank (H : StoreInv st.store h) (hnone : ∀ k, st.held k = none) : Inv st h where
  allocation :=
    { nodup := H.nodup
      unused := fun k x hx => absurd hx (owned_of_held_none (hnone k) x)
      disjoint := fun k _ _ x hx => absurd hx (owned_of_held_none (hnone k) x) }
  covered := H.covered
  reserved k x hx := absurd hx (owned_of_held_none (hnone k) x)
  sound i l hl := by
    have := hnone (.lease i)
    rw [System.held, hl] at this
    cases this

theorem StoreInv.crash (H : StoreInv s h) : Inv ({ store := s } : System capacity) h := by
  have hstore : StoreInv ({ store := s } : System capacity).store h := H
  refine hstore.blank fun k => ?_
  cases k with
  | lease i => rfl
  | parked k => rfl
  | taken j => rfl

theorem Inv.shrink (H : Inv st h) (hstore : st'.store = st.store)
    (hsub : ∀ k, ∀ x ∈ st'.owned k, x ∈ st.owned k)
    (hsound : ∀ i l, st'.leases i = some l → l.Sound) : Inv st' h where
  allocation := H.allocation.mono hsub
  covered x hx := by
    rw [hstore]
    exact H.covered x hx
  reserved k x hx := by
    rw [hstore]
    exact H.reserved k x (hsub k x hx)
  sound := hsound

theorem Inv.handOver (H : Inv st h) {i j : Holder capacity} (hstore : st'.store = st.store)
    (hgive : ∀ x, x ∉ st'.owned i) (hto : ∀ x ∈ st'.owned j, x ∈ st.owned i)
    (hsub : ∀ k, k ≠ j → ∀ x ∈ st'.owned k, x ∈ st.owned k)
    (hsound : ∀ i l, st'.leases i = some l → l.Sound) : Inv st' h where
  allocation := H.allocation.move hgive hto hsub
  covered x hx := by
    rw [hstore]
    exact H.covered x hx
  reserved k x hx := by
    rw [hstore]
    by_cases hk : k = j
    · rw [hk] at hx
      exact H.reserved i x (hto x hx)
    · exact H.reserved k x (hsub k hk x hx)
  sound := hsound

theorem Inv.commit (H : Inv st h) (hleads : Leads st.store l) (hf : Fits l) :
    Inv { st with store := CounterLease.reserved st.store l } h where
  allocation := H.allocation
  covered x hx := (H.covered x hx).commit hleads hf
  reserved k x hx := (H.reserved k x hx).commit hleads hf
  sound := H.sound

theorem owned_put_self : x ∈ (st.put i l s).owned (.lease i) ↔ x ∈ unissued l.checkpoint := by
  have hheld : (st.put i l s).held (.lease i) = some l.checkpoint := by
    simp [System.held, System.put]
  constructor
  · rintro ⟨c, hc, hx⟩
    rw [hheld] at hc
    cases hc
    exact hx
  · exact fun hx => ⟨l.checkpoint, hheld, hx⟩

theorem held_put_ne (hk : k ≠ .lease i) : (st.put i l s).held k = st.held k := by
  cases k with
  | lease j =>
    have hj : j ≠ i := fun hj => hk (by rw [hj])
    simp [System.held, System.put, hj]
  | parked k => rfl
  | taken j => rfl

theorem owned_put_ne (hk : k ≠ .lease i) : (st.put i l s).owned k = st.owned k := by
  unfold System.owned
  rw [held_put_ne hk]

theorem sound_put (H : ∀ j m, st.leases j = some m → m.Sound) (hl : l.Sound) :
    ∀ j m, (st.put i l s).leases j = some m → m.Sound := by
  intro j m hm
  by_cases hj : j = i
  · subst hj
    simp only [System.put, update_self, Option.some.injEq] at hm
    rw [← hm]
    exact hl
  · simp only [System.put, update_of_ne hj] at hm
    exact H j m hm

theorem Inv.put (H : Inv st h) (hsub : ∀ x ∈ unissued l.checkpoint, x ∈ st.owned (.lease i))
    (hl : l.Sound) : Inv (st.put i l st.store) h := by
  refine H.shrink rfl (fun k x hx => ?_) (sound_put H.sound hl)
  by_cases hk : k = .lease i
  · subst hk
    exact hsub x (owned_put_self.mp hx)
  · rwa [owned_put_ne hk] at hx

theorem Inv.put_keeps (H : Inv st h) (hl : st.leases i = some l) (hk : Keeps l l')
    (hsize : l.blockSize ≠ 0) : Inv (st.put i l' st.store) h := by
  refine H.put (fun x hx => ⟨l.checkpoint, ?_, hk.unissued hx⟩) (hk.sound (H.sound i l hl) hsize)
  rw [System.held, hl]
  rfl

theorem Inv.reserve (H : Inv st h) (hleads : Leads st.store l) (hf : Fits l)
    (hsize : l.blockSize ≠ 0) : Inv (st.put i l.advanced (CounterLease.reserved st.store l)) h where
  allocation := by
    refine H.allocation.grow (.lease i) (G := unissued l.advanced.checkpoint) (fun x hx => ?_)
      (fun k hk x hx => by rwa [owned_put_ne hk] at hx) (fun x hx => Or.inr (owned_put_self.mp hx))
    have hfresh := (covered_advanced hleads hf hx).2
    exact ⟨fun hmem => hfresh (H.covered x hmem), fun k _ hk => hfresh (H.reserved k x hk)⟩
  covered x hx := (H.covered x hx).commit hleads hf
  reserved k x hx := by
    by_cases hk : k = .lease i
    · subst hk
      exact (covered_advanced hleads hf (owned_put_self.mp hx)).1
    · rw [owned_put_ne hk] at hx
      exact (H.reserved k x hx).commit hleads hf
  sound := sound_put H.sound (advanced_sound hf hsize)

theorem cursor_unissued (hl : l.Sound) (hleft : l.cursor ≠ l.endExclusive) :
    ((l.slot, l.keyEpoch, l.cursor) : Number) ∈ unissued l.checkpoint :=
  ⟨rfl, rfl, UInt64.le_refl _, UInt64.lt_of_le_of_ne hl.ordered hleft⟩

theorem lt_cursor_succ (hl : l.Sound) (hleft : l.cursor ≠ l.endExclusive) :
    l.cursor < l.cursor + 1 ∧ l.cursor + 1 ≤ l.endExclusive := by
  have hlt := UInt64.lt_of_le_of_ne hl.ordered hleft
  have hbound := l.endExclusive.toNat_lt
  rw [UInt64.lt_iff_toNat_lt] at hlt ⊢
  rw [UInt64.le_iff_toNat_le, UInt64.toNat_add]
  have hone : (1 : UInt64).toNat = 1 := rfl
  omega

theorem Inv.issue (H : Inv st h) (hl : st.leases i = some l) (hleft : l.cursor ≠ l.endExclusive) :
    Inv (st.put i { l with cursor := l.cursor + 1 } st.store)
      (h ++ [(l.slot, l.keyEpoch, l.cursor)]) := by
  have hsound := H.sound i l hl
  obtain ⟨hlt, hle⟩ := lt_cursor_succ hsound hleft
  have hheld : st.held (.lease i) = some l.checkpoint := by
    rw [System.held, hl]
    rfl
  have hmine : ((l.slot, l.keyEpoch, l.cursor) : Number) ∈ st.owned (.lease i) :=
    ⟨l.checkpoint, hheld, cursor_unissued hsound hleft⟩
  have hsub : ∀ x ∈ unissued { l with cursor := l.cursor + 1 }.checkpoint, x ∈ st.owned (.lease i) := by
    rintro x ⟨hslot, hepoch, hx, hend⟩
    exact ⟨l.checkpoint, hheld, hslot, hepoch, UInt64.le_of_lt (UInt64.lt_of_lt_of_le hlt hx), hend⟩
  have H' := H.put hsub ⟨hle, hsound.blockSize⟩
  refine ⟨H.allocation.take hmine (fun k x hx => ?_) fun hx => ?_, fun x hx => ?_, H'.reserved, H'.sound⟩
  · by_cases hk : k = .lease i
    · subst hk
      exact hsub x (owned_put_self.mp hx)
    · rwa [owned_put_ne hk] at hx
  · obtain ⟨_, _, hx, _⟩ := owned_put_self.mp hx
    exact absurd hlt (UInt64.not_lt.mpr hx)
  · rcases mem_append.mp hx with hx | hx
    · exact H.covered x hx
    · rw [mem_singleton.mp hx]
      exact H.reserved (.lease i) _ hmine

/-! ## Whole runs -/

theorem put_put (st : System capacity) (i : Nat) (l l' : CounterLease) (s s' : CounterStore) :
    (st.put i l s).put i l' s' = st.put i l' s' := by
  simp [System.put]

theorem put_self (hl : st.leases i = some l) : st.put i l st.store = st := by
  have : update st.leases i (some l) = st.leases := by
    rw [← hl]
    exact update_eq_self i st.leases
  unfold System.put
  rw [this]

theorem Inv.initializeLease (H : Inv st h) (hl : st.leases i = some l) :
    Method.wp initializeLease (fun _ l' s => Inv (st.put i l' s) h)
      (fun _ l' s => Inv (st.put i l' s) h) (fun s => StoreInv s h) l st.store := by
  refine wp_initializeLease H.storeInv (fun _ => ?_) fun l' hk hsize => H.put_keeps hl hk hsize
  rw [put_self hl]
  exact H

theorem held_spend_self (st : System capacity) (j : Nat) : (st.spend j).held (.taken j) = none := by
  simp [System.held, System.spend]

theorem owned_of_spend {j : Nat} (hx : x ∈ (st.spend j).owned k) : x ∈ st.owned k := by
  cases k with
  | lease i => exact hx
  | parked k => exact hx
  | taken m =>
    by_cases hm : m = j
    · subst hm
      exact absurd hx (owned_of_held_none (held_spend_self st m) x)
    · obtain ⟨c, hc, hx⟩ := hx
      exact ⟨c, by simpa [System.held, System.spend, hm] using hc, hx⟩

theorem Inv.spend (H : Inv st h) (j : Nat) : Inv (st.spend j) h :=
  H.shrink rfl (fun _ _ => owned_of_spend) H.sound

theorem Inv.resume (H : Inv st h) (hl : st.leases i = some l) {j : Nat}
    {c : CounterLeaseCheckpoint} (hc : st.taken j = some c) :
    Method.wp (resume c) (fun _ l' s => Inv ((st.spend j).put i l' s) h)
      (fun _ l' s => Inv ((st.spend j).put i l' s) h) (fun s => StoreInv s h) l st.store := by
  have hl' : (st.spend j).leases i = some l := hl
  refine wp_resume H.storeInv (fun _ => ?_) (fun l' hk hsize => (H.spend j).put_keeps hl' hk hsize)
    fun l' hsize hstands => ?_
  · have := H.spend j
    rw [← put_self hl'] at this
    exact this
  · -- the taken checkpoint hands its rest to lease `i`
    have hsound : l'.Sound := by
      refine ⟨?_, fun _ => hsize⟩
      rw [hstands.cursor, hstands.endExclusive]
      exact UInt64.le_of_lt hstands.lt
    refine H.handOver (i := .taken j) (j := .lease i) rfl (fun x => owned_of_held_none ?_ x)
      (fun x hx => ?_) (fun k hk x hx => ?_) (sound_put H.sound hsound)
    · rw [held_put_ne (by simp)]
      exact held_spend_self st j
    · refine ⟨c, hc, ?_⟩
      rw [← hstands.unissued]
      exact owned_put_self.mp hx
    · rw [owned_put_ne hk] at hx
      exact owned_of_spend hx

theorem Inv.next (H : Inv st h) (hl : st.leases i = some l) :
    Method.wp next (fun value l' s => Inv (st.put i l' s) (h ++ [(l'.slot, l'.keyEpoch, value)]))
      (fun _ l' s => Inv (st.put i l' s) h) (fun s => StoreInv s h) l st.store := by
  refine wp_next H.storeInv (fun _ => ?_) (fun _ hleft => H.issue hl hleft) fun hinit l' hk hleads => ?_
  · rw [put_self hl]
    exact H
  · have hsize : l.blockSize ≠ 0 := (H.sound i l hl).blockSize hinit
    have hsize' : l'.blockSize ≠ 0 := by rwa [hk.blockSize]
    have Hkept := H.put_keeps hl hk hsize
    refine ⟨fun _ => Hkept, fun hf => ⟨(H.commit hleads hf).storeInv, fun _ => ?_, ?_⟩⟩
    · exact Hkept.commit hleads hf
    · -- the block is reserved, and its first counter issued at once
      have Hreserved : Inv (st.put i l'.advanced (CounterLease.reserved st.store l')) h :=
        H.reserve hleads hf hsize'
      have Hissued := Hreserved.issue (i := i) (l := l'.advanced) (by simp [System.put])
        (advanced_cursor_ne hf hsize')
      rw [put_put] at Hissued
      exact Hissued

/-- Every entry of `cache'` was there before, except for at most one that holds `c`. -/
def Parks (cache cache' : CounterCheckpointCache capacity) (c : CounterLeaseCheckpoint) : Prop :=
  (∀ k e, cache'.entries.slots k = some e → cache.entries.slots k = some e) ∨
    ∃ k, (∀ e, cache'.entries.slots k = some e → e.checkpoint = c) ∧
      ∀ k', k' ≠ k → ∀ e, cache'.entries.slots k' = some e → cache.entries.slots k' = some e

section Cache

variable {cache cache' : CounterCheckpointCache capacity} {c : CounterLeaseCheckpoint}

theorem parks_write (cache : CounterCheckpointCache capacity) (k : Fin capacity)
    (c : CounterLeaseCheckpoint) : Parks cache (cache.write k c) c := by
  refine Or.inr ⟨k, fun e he => ?_, fun k' hk' e he => ?_⟩
  · unfold CounterCheckpointCache.write at he
    rw [Pool.set_slots_self] at he
    cases he
    rfl
  · unfold CounterCheckpointCache.write at he
    rwa [Pool.set_slots_ne _ _ hk'] at he

theorem parks_writeFree (cache : CounterCheckpointCache capacity) (c : CounterLeaseCheckpoint) :
    Parks cache (cache.writeFree c) c := by
  unfold CounterCheckpointCache.writeFree
  split
  · exact Or.inl fun _ _ he => he
  · exact parks_write cache _ c

theorem Parks.of_release {k : Fin capacity}
    (hp : Parks { cache with entries := cache.entries.release k } cache' c) :
    Parks cache cache' c := by
  have hback : ∀ k' e, (cache.entries.release k).slots k' = some e → cache.entries.slots k' = some e := by
    intro k' e he
    by_cases hk : k' = k
    · rw [hk, Pool.release_slots_self] at he
      cases he
    · rwa [Pool.release_slots_ne _ hk] at he
  rcases hp with hkeep | ⟨k', hnew, hkeep⟩
  · exact Or.inl fun m e he => hback m e (hkeep m e he)
  · exact Or.inr ⟨k', hnew, fun m hm e he => hback m e (hkeep m hm e he)⟩

theorem parks_park (cache : CounterCheckpointCache capacity) (c : CounterLeaseCheckpoint) :
    Parks cache (cache.park c) c := by
  unfold CounterCheckpointCache.park
  split
  · exact Or.inl fun _ _ he => he
  · split
    · exact parks_write cache _ c
    · split
      · exact parks_writeFree cache c
      · split
        · exact Or.inl fun _ _ he => he
        · exact (parks_writeFree _ c).of_release

theorem take_spec {identity : CounterLeaseCheckpoint} (ht : cache.take identity = some (c, cache')) :
    ∃ k e, cache.entries.slots k = some e ∧ e.checkpoint = c ∧ cache'.entries = cache.entries.release k := by
  unfold CounterCheckpointCache.take at ht
  obtain ⟨k, _, ht⟩ := Option.bind_eq_some_iff.mp ht
  obtain ⟨e, he, ht⟩ := Option.bind_eq_some_iff.mp ht
  cases ht
  exact ⟨k, e, he, rfl, rfl⟩

end Cache

theorem held_destroy_self (st : System capacity) (i : Nat) : (st.destroy i).held (.lease i) = none := by
  simp [System.held, System.destroy]

theorem leases_of_destroy {j : Nat} (hl : (st.destroy i).leases j = some l) : st.leases j = some l := by
  by_cases hj : j = i
  · subst hj
    simp [System.destroy] at hl
  · simpa [System.destroy, hj] using hl

theorem owned_of_destroy (hx : x ∈ (st.destroy i).owned k) : x ∈ st.owned k := by
  cases k with
  | lease j =>
    obtain ⟨c, hc, hx⟩ := hx
    obtain ⟨l, hl, hc⟩ := Option.map_eq_some_iff.mp hc
    refine ⟨c, ?_, hx⟩
    rw [System.held, leases_of_destroy hl, ← hc]
    rfl
  | parked k => exact hx
  | taken j => exact hx

theorem Inv.destroy (H : Inv st h) (i : Nat) : Inv (st.destroy i) h :=
  H.shrink rfl (fun _ _ => owned_of_destroy) fun j m hm => H.sound j m (leases_of_destroy hm)

/-- The dropped lease hands the rest of its block to the cache. -/
theorem Inv.park (H : Inv st h) (hl : st.leases i = some l) :
    Inv { st.destroy i with cache := st.cache.park l.checkpoint } h := by
  have hsound : ∀ j m, (st.destroy i).leases j = some m → m.Sound :=
    fun j m hm => H.sound j m (leases_of_destroy hm)
  have hmine : st.held (.lease i) = some l.checkpoint := by
    rw [System.held, hl]
    rfl
  rcases parks_park st.cache l.checkpoint with hkeep | ⟨k, hnew, hkeep⟩
  · refine H.shrink rfl (fun k x hx => ?_) hsound
    cases k with
    | lease j => exact owned_of_destroy (k := .lease j) hx
    | taken j => exact hx
    | parked k =>
      obtain ⟨c, hc, hx⟩ := hx
      obtain ⟨e, he, hc⟩ := Option.map_eq_some_iff.mp hc
      exact ⟨c, Option.map_eq_some_iff.mpr ⟨e, hkeep k e he, hc⟩, hx⟩
  · refine H.handOver (i := .lease i) (j := .parked k) rfl
      (fun x => owned_of_held_none (held_destroy_self st i) x) (fun x hx => ?_)
      (fun k' hk' x hx => ?_) hsound
    · obtain ⟨c, hc, hx⟩ := hx
      obtain ⟨e, he, hc⟩ := Option.map_eq_some_iff.mp hc
      rw [← hc, hnew e he] at hx
      exact ⟨l.checkpoint, hmine, hx⟩
    · cases k' with
      | lease j => exact owned_of_destroy (k := .lease j) hx
      | taken j => exact hx
      | parked k' =>
        obtain ⟨c, hc, hx⟩ := hx
        obtain ⟨e, he, hc⟩ := Option.map_eq_some_iff.mp hc
        have hne : k' ≠ k := fun hk => hk' (by rw [hk])
        exact ⟨c, Option.map_eq_some_iff.mpr ⟨e, hkeep k' hne e he, hc⟩, hx⟩

theorem Inv.take (H : Inv st h) {identity c : CounterLeaseCheckpoint}
    {cache : CounterCheckpointCache capacity} (ht : st.cache.take identity = some (c, cache))
    (j : Nat) : Inv { st with cache, taken := update st.taken j (some c) } h := by
  obtain ⟨k, e, hk, hc, hcache⟩ := take_spec ht
  refine H.handOver (i := .parked k) (j := .taken j) rfl (fun x => owned_of_held_none ?_ x)
    (fun x hx => ?_) (fun m hm x hx => ?_) H.sound
  · simp [System.held, hcache]
  · obtain ⟨c', hc', hx⟩ := hx
    simp only [System.held, update_self, Option.some.injEq] at hc'
    rw [← hc', ← hc] at hx
    exact ⟨e.checkpoint, by rw [System.held, hk]; rfl, hx⟩
  · obtain ⟨c', hc', hx⟩ := hx
    refine ⟨c', ?_, hx⟩
    cases m with
    | lease i => exact hc'
    | parked m =>
      obtain ⟨e', he', hc'⟩ := Option.map_eq_some_iff.mp hc'
      refine Option.map_eq_some_iff.mpr ⟨e', ?_, hc'⟩
      change cache.entries.slots m = some e' at he'
      rw [hcache] at he'
      by_cases hm : m = k
      · rw [hm, Pool.release_slots_self] at he'
        cases he'
      · rwa [Pool.release_slots_ne _ hm] at he'
    | taken m =>
      have hne : m ≠ j := fun hj => hm (by rw [hj])
      simpa [System.held, hne] using hc'

theorem Inv.clear (H : Inv st h) : Inv { st with cache := st.cache.clear } h := by
  refine H.shrink rfl (fun k x hx => ?_) H.sound
  cases k with
  | lease i => exact hx
  | parked k => exact absurd hx (owned_of_held_none rfl x)
  | taken j => exact hx

theorem Inv.finish {α : Type} {method : Leased α} (outcomes : List (Outcome Status))
    (hwp : Method.wp method (fun _ l' s => Inv (st.put i l' s) h)
      (fun _ l' s => Inv (st.put i l' s) h) (fun s => StoreInv s h) l s) :
    Inv (st.finish i (method.call l outcomes s)) h :=
  Method.wp.after (P := fun r s => Inv (st.finish i (r, s)) h)
    (hwp.mono (fun _ _ _ H => H) (fun _ _ _ H => H) fun _ H => H.crash) outcomes

theorem Inv.finish_next (H : Inv st h) (hl : st.leases i = some l) (outcomes : List (Outcome Status)) :
    Inv (st.finish i (CounterLease.next.call l outcomes st.store))
      (h ++ issuedBy (CounterLease.next.call l outcomes st.store)) := by
  refine Method.wp.after (P := fun r s => Inv (st.finish i (r, s)) (h ++ issuedBy (r, s)))
    ((H.next hl).mono (fun _ _ _ H => H) (fun _ _ _ H => ?_) fun _ H => ?_) outcomes
  · show Inv _ (h ++ [])
    rwa [append_nil]
  · show Inv _ (h ++ [])
    rw [append_nil]
    exact H.crash

theorem Inv.construct (H : Inv st h) (i : Nat) (hl : l.Sound) (hempty : l.cursor = l.endExclusive) :
    Inv (st.put i l st.store) h := by
  refine H.put (fun x hx => ?_) hl
  obtain ⟨_, _, hle, hlt⟩ := hx
  change l.cursor ≤ x.2.2 at hle
  rw [hempty] at hle
  exact absurd hlt (UInt64.not_lt.mpr hle)

theorem Inv.step (H : Inv st h) (e : Event) (hquiet : ∀ i outcomes, e ≠ .next i outcomes) :
    Inv (step st e) h := by
  cases e with
  | construct i slot contextId keyEpoch direction blockSize =>
    exact H.construct i ⟨UInt64.le_refl _, fun hinit => by cases hinit⟩ rfl
  | initializeLease i outcomes =>
    simp only [CounterLease.step]
    split
    · exact H
    · rename_i l hl
      exact Inv.finish outcomes (H.initializeLease hl)
  | resume i j outcomes =>
    simp only [CounterLease.step]
    split
    · rename_i l c hl hc
      exact Inv.finish outcomes (H.resume hl hc)
    · exact H
  | next i outcomes => exact absurd rfl (hquiet i outcomes)
  | park i =>
    simp only [CounterLease.step]
    split
    · exact H
    · rename_i l hl
      exact H.park hl
  | destroy i => exact H.destroy i
  | take i j =>
    simp only [CounterLease.step]
    split
    · exact H
    · split
      · exact H
      · rename_i ht
        exact H.take ht j
  | clear => exact H.clear
  | crash => exact H.storeInv.crash

theorem inv_step (H : Inv st h) (e : Event) : Inv (step st e) (h ++ issued st e) := by
  by_cases hnext : ∃ i outcomes, e = .next i outcomes
  · obtain ⟨i, outcomes, rfl⟩ := hnext
    simp only [step, issued]
    cases hl : st.leases i with
    | none =>
      rw [append_nil]
      exact H
    | some l => exact H.finish_next hl outcomes
  · have hquiet : ∀ i outcomes, e ≠ .next i outcomes := fun i outcomes he => hnext ⟨i, outcomes, he⟩
    have hnone : issued st e = [] := by
      cases e with
      | next i outcomes => exact absurd rfl (hquiet i outcomes)
      | _ => rfl
    rw [hnone, append_nil]
    exact H.step e hquiet

theorem inv_of_run (hr : (leaseSystem capacity).Run st h) : Inv st h := by
  refine hr.invariant (I := Inv) (fun st hinit => ?_) fun st h e H _ => inv_step H e
  obtain ⟨hleases, hcache, htaken⟩ := hinit
  refine StoreInv.blank ⟨nodup_nil, fun x hx => by cases hx⟩ fun k => ?_
  cases k with
  | lease i => rw [System.held, hleases i]; rfl
  | parked k => rw [System.held, hcache]; rfl
  | taken j => exact htaken j

/-- **No counter is issued twice**: in every run of any number of leases over one store, with
checkpoints parked, taken and resumed, failing commits and crashes at any store operation, no slot
hands out an epoch and counter twice, and every counter fits into the 48 bits of the wire. -/
theorem issued_once (capacity : Nat) (st : System capacity) (h : List Number)
    (hr : (leaseSystem capacity).Run st h) : h.Nodup ∧ ∀ x ∈ h, x.2.2.toNat ≤ 2 ^ 48 - 1 := by
  have H := inv_of_run hr
  refine ⟨H.allocation.nodup, fun x hx => ?_⟩
  have hle := (H.covered x hx).1
  rw [UInt64.le_iff_toNat_le] at hle
  exact hle

/-- A lease with blocks of two is dropped with one counter left and continued from its checkpoint;
later a commit takes effect and reports a failure, and a new lease starts after a crash. -/
def sampleRun : List Event :=
  [.construct 0 3 9 1 0 2, .initializeLease 0 [], .next 0 [], .park 0, .construct 1 3 9 1 0 2,
    .take 1 0, .resume 1 0 [], .next 1 [], .next 1 [.ok, .failAfter ⟨.storageFailure, "commit"⟩],
    .crash, .construct 0 3 9 1 0 2, .initializeLease 0 [], .next 0 []]

theorem issued_once_sample :
    ((leaseSystem 1).exec {} [] sampleRun).2 = [(3, 1, 0), (3, 1, 1), (3, 1, 4)] ∧
      ((leaseSystem 1).exec {} [] sampleRun).2.Nodup := by
  have hinit : (leaseSystem 1).Init {} := ⟨fun _ => rfl, rfl, fun _ => rfl⟩
  exact ⟨by decide +kernel, (issued_once 1 _ _ (Machine.run_exec hinit sampleRun (by decide +kernel))).1⟩

end RouteLoom.CounterLease
