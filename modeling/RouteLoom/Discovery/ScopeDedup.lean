import RouteLoom.Basic
import RouteLoom.Lib.Pool

/-!
# Replay memory of discovery frames

`ScopeDedupTable` remembers discovery frames by source, nonce, scope class and generation. Class 0
marks the unauthenticated lane. A full table gives up the oldest record past its TTL, an
unauthenticated one if there is any; a verified frame may also take the oldest unauthenticated record
that is still live. The choice among records past their TTL does not ask who the new frame is from.

* `check_replaces` : which record a call replaces
* `verified_guarded_iff` : when no unauthenticated frame replaces a verified record
-/

namespace RouteLoom.Discovery

open Lib

def kScopeDedupCapacity : Nat := 32
def kScopeDedupTtlMs : UInt64 := 8000

structure ScopeKey where
  source : Vector UInt8 6
  nonce : Vector UInt8 16
  scopeClass : UInt8
  generation : UInt32
  deriving DecidableEq

/-- The arguments of a `check` call. -/
structure ScopeFrame extends ScopeKey where
  content : Vector UInt8 16
  now : MonotonicMs

structure ScopeRecord extends ScopeKey where
  content : Vector UInt8 16
  firstSeenMs : MonotonicMs
  deriving DecidableEq

inductive ScopeDedupResult
  | new | duplicate | conflict | full
  deriving DecidableEq

def ScopeKey.legacy (k : ScopeKey) : Bool := k.scopeClass == 0

def ScopeFrame.record (f : ScopeFrame) : ScopeRecord :=
  { f with firstSeenMs := f.now }

def ScopeRecord.expired (now : MonotonicMs) (r : ScopeRecord) : Bool :=
  now ≥ r.firstSeenMs + kScopeDedupTtlMs

abbrev ScopeDedupTable := Pool ScopeRecord kScopeDedupCapacity

namespace ScopeDedupTable

/-- The oldest record that `p` accepts. -/
def oldest (t : ScopeDedupTable) (p : ScopeRecord → Bool) : Option (Fin kScopeDedupCapacity) :=
  (t.best p fun a b => a.firstSeenMs < b.firstSeenMs).map (·.1)

/-- The slot for a new record. -/
def slotFor (t : ScopeDedupTable) (f : ScopeFrame) : Option (Fin kScopeDedupCapacity) :=
  let expiredLegacy := t.oldest fun r => r.expired f.now && r.legacy
  let expiredScoped := t.oldest fun r => r.expired f.now && !r.legacy
  let liveLegacy := t.oldest fun r => !r.expired f.now && r.legacy
  t.freeIdx.or (expiredLegacy.or (expiredScoped.or (if !f.legacy then liveLegacy else none)))

def check (t : ScopeDedupTable) (f : ScopeFrame) : ScopeDedupResult × ScopeDedupTable :=
  match t.find fun r => r.toScopeKey == f.toScopeKey with
  | some r => (if r.content == f.content then .duplicate else .conflict, t)
  | none =>
    match t.slotFor f with
    | none => (.full, t)
    | some i => (.new, t.set i f.record)

def run (t : ScopeDedupTable) (fs : List ScopeFrame) : ScopeDedupTable :=
  fs.foldl (fun t f => (t.check f).2) t

/-- Slot `i` holds `x` and the call puts another record there. -/
def Replaces (t : ScopeDedupTable) (f : ScopeFrame) (x : ScopeRecord) : Prop :=
  ∃ i, t.slots i = some x ∧ (t.check f).2.slots i ≠ some x

/-- An unauthenticated frame with a new key comes to a full table in which only verified records
are past their TTL. -/
structure Exposed (t : ScopeDedupTable) (f : ScopeFrame) : Prop where
  legacy : f.legacy = true
  fresh : t.find (fun r => r.toScopeKey == f.toScopeKey) = none
  full : t.freeIdx = none
  noLegacy : ∀ r ∈ t, r.legacy = true → r.expired f.now = false
  verified : ∃ r ∈ t, r.legacy = false ∧ r.expired f.now = true

variable {t : ScopeDedupTable} {f : ScopeFrame} {x : ScopeRecord} {i : Fin kScopeDedupCapacity}
  {p : ScopeRecord → Bool}

theorem oldest_some (h : t.oldest p = some i) : ∃ a, t.slots i = some a ∧ p a = true := by
  obtain ⟨⟨j, a⟩, hbest, rfl⟩ := Option.map_eq_some_iff.mp h
  exact ⟨a, Pool.best_some hbest⟩

theorem oldest_none (h : t.oldest p = none) : ∀ r ∈ t, p r = false :=
  Pool.best_none (Option.map_eq_none_iff.mp h)

/-- A verified record gives way only past its TTL, in a full table, and after every unauthenticated
record past its own. -/
theorem slotFor_verified (h : t.slotFor f = some i) (hx : t.slots i = some x) (hverified : x.legacy = false) :
    x.expired f.now = true ∧ t.freeIdx = none ∧ ∀ r ∈ t, r.legacy = true → r.expired f.now = false := by
  have hpicked : ∀ {p}, t.oldest p = some i → p x = true := fun hold => by
    obtain ⟨a, ha, hp⟩ := oldest_some hold
    cases hx.symm.trans ha
    exact hp
  simp only [slotFor, Option.or_eq_some_iff] at h
  rcases h with hfree | ⟨hfull, hlegacy | ⟨hnone, hscoped | ⟨-, hlive⟩⟩⟩
  · have := firstSlot_some hfree
    rw [hx] at this
    cases this
  · have := hpicked hlegacy
    rw [hverified, Bool.and_false] at this
    cases this
  · refine ⟨(Bool.and_eq_true _ _ ▸ hpicked hscoped).1, hfull, fun r hr hleg => ?_⟩
    have := oldest_none hnone r hr
    rwa [hleg, Bool.and_true] at this
  · split at hlive
    · have := hpicked hlive
      rw [hverified, Bool.and_false] at this
      cases this
    · cases hlive

theorem check_replaces (hx : t.slots i = some x) (hne : (t.check f).2.slots i ≠ some x) :
    t.find (fun r => r.toScopeKey == f.toScopeKey) = none ∧ t.slotFor f = some i := by
  unfold check at hne
  split at hne
  · exact absurd hx hne
  · next hfind =>
    refine ⟨hfind, ?_⟩
    split at hne
    · exact absurd hx hne
    · next j hslot =>
      by_cases hij : i = j
      · rw [hij, hslot]
      · exact absurd ((Pool.set_slots_ne t _ hij).trans hx) hne

/-- **What replaces a verified record.** -/
theorem exposed_iff : Exposed t f ↔ f.legacy = true ∧ ∃ x, x.legacy = false ∧ Replaces t f x := by
  constructor
  · rintro ⟨hlegacy, hfresh, hfull, hnone, r, hr, hrv, hre⟩
    have hold : t.oldest (fun r => r.expired f.now && r.legacy) = none := by
      refine Option.eq_none_iff_forall_ne_some.mpr fun i hi => ?_
      obtain ⟨a, ha, hp⟩ := oldest_some hi
      rw [Bool.and_eq_true] at hp
      exact absurd hp.1 (by rw [hnone a ⟨i, ha⟩ hp.2]; decide)
    cases hpick : t.oldest fun r => r.expired f.now && !r.legacy with
    | none =>
      have := oldest_none hpick r hr
      rw [hre, hrv] at this
      cases this
    | some i =>
      obtain ⟨x, hx, hp⟩ := oldest_some hpick
      have hverified : x.legacy = false := by
        rw [Bool.and_eq_true, Bool.not_eq_true'] at hp
        exact hp.2
      have hslot : t.slotFor f = some i := by
        simp only [slotFor, hfull, hold, hpick, Option.none_or, Option.some_or]
      refine ⟨hlegacy, x, hverified, i, hx, fun hkept => ?_⟩
      simp only [check, hfresh, hslot, Pool.set_slots_self, Option.some.injEq] at hkept
      subst hkept
      exact absurd hlegacy (by rw [show f.legacy = f.record.legacy from rfl, hverified]; decide)
  · rintro ⟨hlegacy, x, hverified, i, hx, hne⟩
    obtain ⟨hfresh, hslot⟩ := check_replaces hx hne
    obtain ⟨hexpired, hfull, hnone⟩ := slotFor_verified hslot hx hverified
    exact ⟨hlegacy, hfresh, hfull, hnone, x, ⟨i, hx⟩, hverified, hexpired⟩

/-! ## Runs -/

/-- The run `fs` from an empty table makes the call `f` on the table `t`. -/
def Calls (fs : List ScopeFrame) (t : ScopeDedupTable) (f : ScopeFrame) : Prop :=
  ∃ before after, fs = before ++ f :: after ∧ t = run Pool.empty before

theorem mem_check (h : x ∈ (t.check f).2) : x = f.record ∨ x ∈ t := by
  unfold check at h
  split at h
  · exact .inr h
  · split at h
    · exact .inr h
    · exact Pool.mem_set h

theorem run_firstSeenMs {fs : List ScopeFrame} (h : x ∈ run t fs) :
    x ∈ t ∨ ∃ f ∈ fs, x.firstSeenMs = f.now := by
  induction fs generalizing t with
  | nil => exact .inl h
  | cons f fs ih =>
    rcases ih h with hmem | ⟨g, hg, heq⟩
    · rcases mem_check hmem with rfl | hmem
      · exact .inr ⟨f, List.mem_cons_self, rfl⟩
      · exact .inl hmem
    · exact .inr ⟨g, List.mem_cons_of_mem _ hg, heq⟩

/-- A record whose key is not found any more was replaced by one of the calls. -/
theorem replaced_between {fs : List ScopeFrame} (hx : t.slots i = some x)
    (hgone : ∀ r ∈ run t fs, (r.toScopeKey == x.toScopeKey) = false) :
    ∃ fs₁ h fs₂, fs = fs₁ ++ h :: fs₂ ∧ Replaces (run t fs₁) h x := by
  induction fs generalizing t with
  | nil => exact absurd (hgone x ⟨i, hx⟩) (by rw [beq_self_eq_true]; decide)
  | cons f fs ih =>
    by_cases hkept : (t.check f).2.slots i = some x
    · obtain ⟨fs₁, h, fs₂, rfl, hrep⟩ := ih hkept hgone
      exact ⟨f :: fs₁, h, fs₂, rfl, hrep⟩
    · exact ⟨[], f, fs, rfl, i, hx, hkept⟩

theorem check_new (h : (t.check f).1 = .new) :
    (∀ r ∈ t, (r.toScopeKey == f.toScopeKey) = false) ∧ ∃ i, (t.check f).2.slots i = some f.record := by
  unfold check at h ⊢
  split at h
  · split at h <;> cases h
  · next hfind =>
    refine ⟨Pool.find_none.mp hfind, ?_⟩
    split at h
    · cases h
    · next i hslot =>
      exact ⟨i, Pool.set_slots_self t i _⟩

/-- **Verified replay memory.** A verified record is only replaced past its TTL; it is never replaced
because of an unauthenticated frame exactly if no call is `Exposed`; and then a verified key that is
new twice had its slot taken in between by a verified frame, past the TTL. -/
theorem verified_guarded_iff (fs : List ScopeFrame)
    (hfs : ∀ f ∈ fs, f.now.toNat + kScopeDedupTtlMs.toNat < 2 ^ 64) :
    (∀ t f x, Calls fs t f → x.legacy = false → Replaces t f x →
      x.firstSeenMs.toNat + kScopeDedupTtlMs.toNat ≤ f.now.toNat) ∧
    ((∀ t f x, Calls fs t f → x.legacy = false → Replaces t f x → f.legacy = false) ↔
      ∀ t f, Calls fs t f → ¬ Exposed t f) ∧ ((∀ t f, Calls fs t f → ¬ Exposed t f) → ∀ before f mid g after,
      fs = before ++ f :: (mid ++ g :: after) → f.legacy = false → g.toScopeKey = f.toScopeKey →
      ((run Pool.empty before).check f).1 = .new → ((run Pool.empty (before ++ f :: mid)).check g).1 = .new →
      ∃ mid₁ h mid₂, mid = mid₁ ++ h :: mid₂ ∧ h.legacy = false ∧
        Replaces (run Pool.empty (before ++ f :: mid₁)) h f.record ∧
        f.now.toNat + kScopeDedupTtlMs.toNat ≤ h.now.toNat) := by
  have hlive : ∀ t f x, Calls fs t f → x.legacy = false → Replaces t f x →
      x.firstSeenMs.toNat + kScopeDedupTtlMs.toNat ≤ f.now.toNat := by
    rintro t f x ⟨before, after, rfl, rfl⟩ hverified ⟨i, hx, hne⟩
    have hexpired := (slotFor_verified (check_replaces hx hne).2 hx hverified).1
    rcases run_firstSeenMs ⟨i, hx⟩ with hmem | ⟨g, hg, heq⟩
    · exact absurd hmem (Pool.not_mem_empty x)
    · have hsmall := hfs g (List.mem_append_left _ hg)
      rw [← heq] at hsmall
      have hle := UInt64.le_iff_toNat_le.mp (of_decide_eq_true hexpired)
      rwa [UInt64.toNat_add, Nat.mod_eq_of_lt hsmall] at hle
  have hguard : (∀ t f x, Calls fs t f → x.legacy = false → Replaces t f x → f.legacy = false) ↔
      ∀ t f, Calls fs t f → ¬ Exposed t f := by
    constructor
    · intro h t f hcall hexposed
      obtain ⟨hlegacy, x, hverified, hrep⟩ := exposed_iff.mp hexposed
      exact absurd hlegacy (by rw [h t f x hcall hverified hrep]; decide)
    · intro h t f x hcall hverified hrep
      refine Bool.eq_false_iff.mpr fun hlegacy => ?_
      exact h t f hcall (exposed_iff.mpr ⟨hlegacy, x, hverified, hrep⟩)
  refine ⟨hlive, hguard, ?_⟩
  intro hnone before f mid g after hsplit hverified hkey hnew hagain
  obtain ⟨i, hi⟩ := (check_new hnew).2
  have hgone := (check_new hagain).1
  rw [hkey, show run Pool.empty (before ++ f :: mid) = run ((run Pool.empty before).check f).2 mid by
    rw [run, List.foldl_append]; rfl] at hgone
  obtain ⟨mid₁, h, mid₂, rfl, hrep⟩ := replaced_between hi hgone
  have hcall : Calls fs (run Pool.empty (before ++ f :: mid₁)) h :=
    ⟨before ++ f :: mid₁, mid₂ ++ g :: after, by rw [hsplit]; simp, rfl⟩
  have hrep' : Replaces (run Pool.empty (before ++ f :: mid₁)) h f.record := by
    rwa [run, List.foldl_append]
  exact ⟨mid₁, h, mid₂, rfl, hguard.mpr hnone _ _ _ hcall hverified hrep', hrep',
    hlive _ _ _ hcall hverified hrep'⟩

/-- A frame with all bytes of its nonce equal. -/
def sampleFrame (nonce scopeClass : UInt8) (now : MonotonicMs) : ScopeFrame :=
  { source := .replicate 6 0, nonce := .replicate 16 nonce, scopeClass, generation := 0
    content := .replicate 16 0, now }

/-- As many verified frames as the table has slots, all at time 0. -/
def sampleFull : List ScopeFrame :=
  (List.range kScopeDedupCapacity).map fun k => sampleFrame (UInt8.ofNat k) 1 0

/-- Eight seconds after verified frames filled the table, one unauthenticated frame takes a slot. -/
theorem verified_replaced_by_legacy :
    Replaces (run Pool.empty sampleFull) (sampleFrame 0 0 8000) (sampleFrame 0 1 0).record :=
  ⟨⟨0, by decide⟩, by decide +kernel, by decide +kernel⟩

theorem verified_guarded_iff_sample :
    ¬ ∀ t f, Calls (sampleFull ++ [sampleFrame 0 0 8000]) t f → ¬ Exposed t f := by
  intro h
  have hguarded := (verified_guarded_iff _ (by decide +kernel)).2.1.mpr h
  have hlegacy := hguarded _ _ (sampleFrame 0 1 0).record ⟨sampleFull, [], rfl, rfl⟩ rfl
    ⟨⟨0, by decide⟩, by decide +kernel, by decide +kernel⟩
  exact absurd hlegacy (by decide)

end ScopeDedupTable

end RouteLoom.Discovery
