import RouteLoom.Storage.RevocationSet
import RouteLoom.Lib.Stateful

/-!
# Resumption slots and their lookup

The storage slots are split between two purposes. A lookup scans the slots of its purpose at once,
or a few per call with a cursor that the caller keeps. By peer the first usable slot is taken; by
resumption id all slots are scanned, and two with one id are refused.

How a slot is encoded is left out: a storage slot is erased, does not decode, or holds a slot.

* `ResumeCache2.findByPeer`, `ResumeCache2.findById` : the lookups at once
* `ResumeCache2.findByPeerStep`, `ResumeCache2.findByIdStep` : the lookups in steps
* `ResumeCache2.stepped_lookup_agrees` : **both find the same slot, if any**
-/

namespace RouteLoom.Storage

open Lib Function

inductive ResumePurpose
  | link | endToEnd
  deriving DecidableEq

structure ResumeSlot2 where
  valid : Bool := false
  purpose : ResumePurpose := .link
  flags : UInt8 := 0
  peer : NodeId := kInvalidNodeId
  network : NetworkId := 0
  peerCertId : Vector UInt8 8 := .replicate 8 0
  localCertId : Vector UInt8 8 := .replicate 8 0
  peerGeneration : UInt32 := 0
  peerRole : UInt32 := 0
  createdGkEpoch : UInt32 := 0
  lastUsedBoot : UInt32 := 0
  reservedUses : UInt32 := 0
  rms : Vector UInt8 32 := .replicate 32 0
  deriving DecidableEq

structure ResumeContext where
  network : NetworkId := 0
  gkEpoch : UInt32 := 0
  revocations : Option RevocationSet := none

/-- What a storage slot holds. -/
inductive StoredSlot
  | erased
  | torn
  | record (slot : ResumeSlot2)

/-- The slot that `read_slot` returns, and whether the bytes were intact. -/
def StoredSlot.read : StoredSlot → ResumeSlot2 × Bool
  | .erased => ({}, true)
  | .torn => ({}, false)
  | .record slot => (slot, true)

def usable (slot : ResumeSlot2) (context : ResumeContext) : Bool :=
  slot.valid && slot.network == context.network && slot.peerGeneration != 0 && slot.peerRole != 0 &&
    slot.createdGkEpoch ≤ context.gkEpoch &&
    context.gkEpoch.toNat < slot.createdGkEpoch.toNat + 2 &&
    !context.revocations.any fun set =>
      revocationRejects set slot.peer slot.peerGeneration (slot.network >>> 32).toUInt32

def kLookupStepSlots : Nat := 16

structure LookupCursor where
  next : Nat := 0
  index : Nat := 0
  slot : ResumeSlot2 := {}
  initialized : Bool := false
  found : Bool := false
  ambiguous : Bool := false

/-- A finished cursor that hands out a slot. -/
def LookupCursor.Reports (c : LookupCursor) (index : Nat) (slot : ResumeSlot2) : Prop :=
  c.found = true ∧ c.ambiguous = false ∧ c.index = index ∧ c.slot = slot

/-- The quotas of the purposes, and the number of slots of the storage. -/
structure ResumeCache2 where
  slotCount : Nat
  linkQuota : Nat
  endQuota : Nat

/-- What each read returns. -/
abbrev SlotReads := Nat → Except Status StoredSlot

def readSlot (reads : SlotReads) (index : Nat) : Except Status (ResumeSlot2 × Bool) :=
  (reads index).map StoredSlot.read

namespace ResumeCache2

variable (cache : ResumeCache2) (purpose : ResumePurpose)

def checkQuota : Except Status Unit :=
  refuse (cache.slotCount != cache.linkQuota + cache.endQuota)
    ⟨.invalidState, "resume2 quota mismatch"⟩

def first : ResumePurpose → Nat
  | .link => 0
  | .endToEnd => cache.linkQuota

def stop : ResumePurpose → Nat
  | .link => cache.linkQuota
  | .endToEnd => cache.linkQuota + cache.endQuota

/-- The slots of a purpose. -/
def partition : List Nat :=
  List.range' (cache.first purpose) (cache.stop purpose - cache.first purpose)

/-! ## Lookups at once -/

def noSlot : Status := ⟨.notFound, "no resumption slot"⟩

def matchesPeer (peer : NodeId) (context : ResumeContext) (slot : ResumeSlot2) : Bool :=
  slot.valid && slot.purpose == purpose && slot.peer == peer && usable slot context

def scanPeer (reads : SlotReads) (hit : ResumeSlot2 → Bool) :
    List Nat → Except Status (Nat × ResumeSlot2)
  | [] => .error noSlot
  | i :: rest => do
    let (slot, _) ← readSlot reads i
    if hit slot then pure (i, slot) else scanPeer reads hit rest

def findByPeer (reads : SlotReads) (purpose : ResumePurpose) (peer : NodeId)
    (context : ResumeContext) : Except Status (Nat × ResumeSlot2) := do
  cache.checkQuota
  scanPeer reads (matchesPeer purpose peer context) (cache.partition purpose)

/-- The slots that the scan by id passes over. -/
def skipsId (resumeId : Vector UInt8 32 → ResumePurpose → Vector UInt8 8) (purpose : ResumePurpose)
    (rid : Vector UInt8 8) (claimedPeer : NodeId) (context : ResumeContext) (slot : ResumeSlot2) :
    Bool :=
  (!slot.valid || slot.purpose != purpose || !usable slot context) ||
    (claimedPeer != kInvalidNodeId && slot.peer != claimedPeer) ||
    resumeId slot.rms purpose != rid

def scanId (reads : SlotReads) (skip : ResumeSlot2 → Bool) (found : Option (Nat × ResumeSlot2)) :
    List Nat → Except Status (Nat × ResumeSlot2)
  | [] => found.elim (.error noSlot) .ok
  | i :: rest => do
    let (slot, _) ← readSlot reads i
    if skip slot then scanId reads skip found rest
    else if found.isSome then .error ⟨.notFound, "resumption id ambiguous"⟩
    else scanId reads skip (some (i, slot)) rest

section

variable (cache : ResumeCache2) (reads : SlotReads) (purpose : ResumePurpose)
  (resumeId : Vector UInt8 32 → ResumePurpose → Vector UInt8 8) (rid : Vector UInt8 8)
  (claimedPeer peer : NodeId) (context : ResumeContext)

def findById : Except Status (Nat × ResumeSlot2) := do
  cache.checkQuota
  scanId reads (skipsId resumeId purpose rid claimedPeer context) none (cache.partition purpose)

/-! ## Lookups in steps -/

/-- The loop of a step, over at most so many reads. -/
def stepLoop (stop : Nat) (visit : LookupCursor → ResumeSlot2 → LookupCursor) :
    Nat → Op LookupCursor Status Unit
  | 0 => pure ()
  | left + 1 => do
    let cursor ← Op.get
    if cursor.next < stop then do
      let (slot, _) ← Op.check (readSlot reads cursor.next)
      Op.set (visit cursor slot)
      stepLoop stop visit left
    else pure ()

/-- What the two stepped lookups share; `visit` takes note of one slot. The result is `done`. -/
def lookupStep (visit : LookupCursor → ResumeSlot2 → LookupCursor) : Op LookupCursor Status Bool := do
  Op.check cache.checkQuota
  let cursor ← Op.get
  Op.set (if cursor.initialized then cursor else { next := cache.first purpose, initialized := true })
  let cursor ← Op.get
  Op.check (refuse (cursor.next < cache.first purpose || cache.stop purpose < cursor.next)
    ⟨.invalidArgument, "resume2 lookup cursor"⟩)
  stepLoop reads (cache.stop purpose) visit kLookupStepSlots
  let cursor ← Op.get
  pure (cursor.next == cache.stop purpose)

def visitPeer (stop : Nat) (hit : ResumeSlot2 → Bool) (cursor : LookupCursor) (slot : ResumeSlot2) :
    LookupCursor :=
  if hit slot then { cursor with slot := slot, index := cursor.next, found := true, next := stop }
  else { cursor with next := cursor.next + 1 }

def findByPeerStep : Op LookupCursor Status Bool :=
  cache.lookupStep reads purpose (visitPeer (cache.stop purpose) (matchesPeer purpose peer context))

def matchesId (slot : ResumeSlot2) : Bool :=
  slot.valid && slot.purpose == purpose && usable slot context &&
    (claimedPeer == kInvalidNodeId || slot.peer == claimedPeer) && resumeId slot.rms purpose == rid

def visitId (stop : Nat) (hit : ResumeSlot2 → Bool) (cursor : LookupCursor) (slot : ResumeSlot2) :
    LookupCursor :=
  if hit slot then
    if cursor.found then { cursor with slot := {}, ambiguous := true, next := stop }
    else { cursor with slot := slot, index := cursor.next, found := true, next := cursor.next + 1 }
  else { cursor with next := cursor.next + 1 }

def findByIdStep : Op LookupCursor Status Bool :=
  cache.lookupStep reads purpose
    (visitId (cache.stop purpose) (matchesId purpose resumeId rid claimedPeer context))

end

/-- Call until done, at most so many times. -/
def untilDone (step : Op LookupCursor Status Bool) : Nat → LookupCursor → Option LookupCursor
  | 0, _ => none
  | calls + 1, cursor =>
    match step cursor with
    | (.ok true, cursor) => some cursor
    | (.ok false, cursor) => untilDone step calls cursor
    | (.error _, _) => none

/-! ## Steps against the scan at once -/

/-- Every slot can be read. -/
def readable (slots : Nat → StoredSlot) : SlotReads := fun i => .ok (slots i)

section

variable (slots : Nat → StoredSlot) (stop : Nat) (visit : LookupCursor → ResumeSlot2 → LookupCursor)

/-- One round of the loop. -/
def tick (c : LookupCursor) : LookupCursor :=
  if c.next < stop then visit c (slots c.next).read.1 else c

variable {slots stop visit} in
theorem tick_iterate_of_le {c : LookupCursor} (h : ¬ c.next < stop) (n : Nat) :
    (tick slots stop visit)^[n] c = c := by
  have hfix : tick slots stop visit c = c := if_neg h
  exact iterate_fixed hfix n

theorem stepLoop_readable (n : Nat) (c : LookupCursor) :
    stepLoop (readable slots) stop visit n c = (.ok (), (tick slots stop visit)^[n] c) := by
  induction n generalizing c with
  | zero => rfl
  | succ n ih =>
    by_cases hlt : c.next < stop
    · rw [iterate_succ_apply, tick, if_pos hlt, ← ih]
      simp [stepLoop, bind, Op.get, Op.set, Op.check, readSlot, readable, Except.map, hlt]
    · rw [tick_iterate_of_le hlt]
      simp [stepLoop, bind, Op.get, pure, hlt]

end

variable {slots : Nat → StoredSlot} {stop : Nat} {hit skip : ResumeSlot2 → Bool}
  {visit : LookupCursor → ResumeSlot2 → LookupCursor} {c : LookupCursor}

/-- Visiting a slot moves the cursor on. -/
def Moves (stop : Nat) (visit : LookupCursor → ResumeSlot2 → LookupCursor) : Prop :=
  ∀ c slot, c.next < stop → c.next < (visit c slot).next ∧ (visit c slot).next ≤ stop ∧
    (visit c slot).initialized = c.initialized

variable (slots) in
theorem Moves.ticks (h : Moves stop visit) (n : Nat) (hle : c.next ≤ stop) :
    c.next ≤ ((tick slots stop visit)^[n] c).next ∧ ((tick slots stop visit)^[n] c).next ≤ stop ∧
      ((tick slots stop visit)^[n] c).initialized = c.initialized ∧
      stop - ((tick slots stop visit)^[n] c).next ≤ stop - c.next - n := by
  induction n generalizing c with
  | zero => exact ⟨Nat.le_refl _, hle, rfl, Nat.le_refl _⟩
  | succ n ih =>
    by_cases hlt : c.next < stop
    · obtain ⟨hgt, hle', hinit⟩ := h c (slots c.next).read.1 hlt
      rw [iterate_succ_apply, tick, if_pos hlt]
      obtain ⟨h₁, h₂, h₃, h₄⟩ := ih hle'
      exact ⟨by omega, h₂, h₃.trans hinit, by omega⟩
    · rw [tick_iterate_of_le hlt]
      exact ⟨Nat.le_refl _, hle, rfl, by omega⟩

section

variable {cache : ResumeCache2} {purpose : ResumePurpose}
  (h : Moves (cache.stop purpose) visit)
  (hquota : cache.slotCount = cache.linkQuota + cache.endQuota)
  (hinit : c.initialized = true) (hfirst : cache.first purpose ≤ c.next)
  (hstop : c.next ≤ cache.stop purpose)

include hquota hinit hfirst hstop in
theorem lookupStep_readable : cache.lookupStep (readable slots) purpose visit c =
    (.ok (((tick slots (cache.stop purpose) visit)^[kLookupStepSlots] c).next == cache.stop purpose),
      (tick slots (cache.stop purpose) visit)^[kLookupStepSlots] c) := by
  have hrange : ¬ (c.next < cache.first purpose ∨ cache.stop purpose < c.next) := by omega
  simp [lookupStep, checkQuota, hquota, hinit, hrange, bind, Op.get, Op.set, Op.check, refuse, pure,
    stepLoop_readable]

include h hquota hinit hfirst hstop in
/-- Enough calls for the slots that are left end with `done`. -/
theorem untilDone_readable {calls : Nat} (hleft : cache.stop purpose - c.next ≤ kLookupStepSlots * calls) :
    untilDone (cache.lookupStep (readable slots) purpose visit) (calls + 1) c =
      some ((tick slots (cache.stop purpose) visit)^[kLookupStepSlots * (calls + 1)] c) := by
  induction calls generalizing c with
  | zero =>
    have hend : c.next = cache.stop purpose := by omega
    have hfix : ∀ n, (tick slots (cache.stop purpose) visit)^[n] c = c :=
      tick_iterate_of_le (Nat.not_lt.mpr hend.ge)
    rw [untilDone, lookupStep_readable hquota hinit hfirst hstop, hfix, hfix, hend, beq_self_eq_true]
  | succ calls ih =>
    obtain ⟨hge, hle, hinit', hleft'⟩ := h.ticks slots kLookupStepSlots hstop
    rw [untilDone, lookupStep_readable hquota hinit hfirst hstop, Nat.mul_succ, iterate_add_apply]
    generalize (tick slots (cache.stop purpose) visit)^[kLookupStepSlots] c = c' at *
    cases hdone : c'.next == cache.stop purpose with
    | true => rw [tick_iterate_of_le (by simp [beq_iff_eq.mp hdone])]
    | false =>
      rw [Nat.mul_succ] at hleft
      exact ih (hinit'.trans hinit) (by omega) hle (by omega)

end

@[simp] theorem readSlot_readable (i : Nat) : readSlot (readable slots) i = .ok (slots i).read := rfl

theorem scanPeer_iff {n N : Nat} (hn : stop - c.next = n) (hN : n ≤ N) (hfound : c.found = false)
    (hamb : c.ambiguous = false) {index : Nat} {slot : ResumeSlot2} :
    scanPeer (readable slots) hit (List.range' c.next n) = .ok (index, slot) ↔
      ((tick slots stop (visitPeer stop hit))^[N] c).Reports index slot := by
  induction n generalizing c N with
  | zero =>
    rw [tick_iterate_of_le (by omega)]
    simp [scanPeer, LookupCursor.Reports, hfound]
  | succ n ih =>
    obtain ⟨N, rfl⟩ : ∃ M, N = M + 1 := ⟨N - 1, by omega⟩
    have hlt : c.next < stop := by omega
    rw [iterate_succ_apply, tick, if_pos hlt, List.range'_succ]
    cases hh : hit (slots c.next).read.1 with
    | true =>
      rw [tick_iterate_of_le (by simp [visitPeer, hh])]
      simp [scanPeer, visitPeer, hh, LookupCursor.Reports, hamb, bind, Except.bind, pure, Except.pure]
    | false =>
      have hv : visitPeer stop hit c (slots c.next).read.1 = { c with next := c.next + 1 } := by
        simp [visitPeer, hh]
      have hrest := ih (c := { c with next := c.next + 1 }) (N := N)
        (Nat.sub_succ .. ▸ hn ▸ rfl) (by omega) hfound hamb
      rw [hv, ← hrest]
      simp [scanPeer, hh, bind, Except.bind]

theorem scanId_iff (hskip : ∀ slot, skip slot = !hit slot) {n N : Nat} (hn : stop - c.next = n)
    (hN : n ≤ N) (hamb : c.ambiguous = false) {index : Nat} {slot : ResumeSlot2} :
    scanId (readable slots) skip (if c.found then some (c.index, c.slot) else none)
        (List.range' c.next n) = .ok (index, slot) ↔
      ((tick slots stop (visitId stop hit))^[N] c).Reports index slot := by
  induction n generalizing c N with
  | zero =>
    rw [tick_iterate_of_le (by omega)]
    cases hf : c.found with
    | false | true => simp [scanId, LookupCursor.Reports, hf, hamb]
  | succ n ih =>
    obtain ⟨N, rfl⟩ : ∃ M, N = M + 1 := ⟨N - 1, by omega⟩
    have hlt : c.next < stop := by omega
    rw [iterate_succ_apply, tick, if_pos hlt, List.range'_succ]
    cases hh : hit (slots c.next).read.1 with
    | false =>
      have hv : visitId stop hit c (slots c.next).read.1 = { c with next := c.next + 1 } := by
        simp [visitId, hh]
      have hrest := ih (c := { c with next := c.next + 1 }) (N := N) (by dsimp only; omega) (by omega) hamb
      rw [hv, ← hrest]
      simp [scanId, hskip, hh, bind, Except.bind]
    | true =>
      cases hf : c.found with
      | true =>
        rw [tick_iterate_of_le (by simp [visitId, hh, hf])]
        simp [scanId, visitId, hskip, hh, hf, LookupCursor.Reports, bind, Except.bind]
      | false =>
        have hrest := ih (N := N) (c := { c with
          slot := (slots c.next).read.1, index := c.next, found := true, next := c.next + 1 })
          (by dsimp only; omega) (by omega) hamb
        have hv : visitId stop hit c (slots c.next).read.1 = { c with
            slot := (slots c.next).read.1, index := c.next, found := true,
            next := c.next + 1 } := by
          simp [visitId, hh, hf]
        rw [hv, ← hrest]
        simp [scanId, hskip, hh, bind, Except.bind]

variable (hit) in
theorem visitPeer_moves : Moves stop (visitPeer stop hit) := by
  intro c slot hlt
  cases hh : hit slot with
  | false | true => simp [visitPeer, hh]; omega

variable (hit) in
theorem visitId_moves : Moves stop (visitId stop hit) := by
  intro c slot hlt
  cases hh : hit slot with
  | false => simp [visitId, hh]; omega
  | true =>
    cases hf : c.found with
    | false | true => simp [visitId, hh, hf]; omega

theorem skipsId_eq (resumeId : Vector UInt8 32 → ResumePurpose → Vector UInt8 8)
    (purpose : ResumePurpose) (rid : Vector UInt8 8) (claimedPeer : NodeId) (context : ResumeContext)
    (slot : ResumeSlot2) : skipsId resumeId purpose rid claimedPeer context slot =
      !matchesId purpose resumeId rid claimedPeer context slot := by
  simp [skipsId, matchesId, Bool.not_and, bne, Bool.not_or]

/-- One call for each batch of slots of the partition, and one more. -/
def stepCalls : Nat :=
  ((cache.partition purpose).length + (kLookupStepSlots - 1)) / kLookupStepSlots + 1

/-- Where a fresh cursor starts. -/
def start : LookupCursor :=
  { next := cache.first purpose, initialized := true }

variable (slots) in
theorem untilDone_fresh (h : Moves (cache.stop purpose) visit)
    (hquota : cache.slotCount = cache.linkQuota + cache.endQuota) :
    ∃ n, cache.stop purpose - cache.first purpose ≤ n ∧
      untilDone (cache.lookupStep (readable slots) purpose visit) (cache.stepCalls purpose) {} =
        some ((tick slots (cache.stop purpose) visit)^[n] (cache.start purpose)) := by
  have hle : cache.first purpose ≤ cache.stop purpose := by
    cases purpose with
    | link => exact Nat.zero_le _
    | endToEnd => exact Nat.le_add_right ..
  have hlen : (cache.partition purpose).length = cache.stop purpose - cache.first purpose := by
    rw [partition, List.length_range']
  have hleft : cache.stop purpose - (cache.start purpose).next ≤ kLookupStepSlots *
      (((cache.partition purpose).length + (kLookupStepSlots - 1)) / kLookupStepSlots) := by
    dsimp only [hlen, start, kLookupStepSlots]
    omega
  have hfresh : cache.lookupStep (readable slots) purpose visit {} =
      cache.lookupStep (readable slots) purpose visit (cache.start purpose) := by
    simp [lookupStep, start, checkQuota, hquota, bind, Op.get, Op.set, Op.check, refuse]
  refine ⟨_, hleft.trans (Nat.mul_le_mul_left _ (Nat.le_succ _)), ?_⟩
  rw [stepCalls, untilDone, hfresh]
  exact untilDone_readable h hquota rfl (Nat.le_refl _) hle hleft

/-- **A lookup in steps over storage that can be read is done in time and finds the slot that the
lookup at once finds.** -/
theorem stepped_lookup_agrees (linkQuota endQuota : Nat) (slots : Nat → StoredSlot)
    (purpose : ResumePurpose) (context : ResumeContext) :
    let cache : ResumeCache2 := ⟨linkQuota + endQuota, linkQuota, endQuota⟩
    (∀ peer, ∃ c,
      untilDone (cache.findByPeerStep (readable slots) purpose peer context)
        (cache.stepCalls purpose) {} = some c ∧
      ∀ index slot, cache.findByPeer (readable slots) purpose peer context = .ok (index, slot) ↔
        c.Reports index slot) ∧
    ∀ resumeId rid claimedPeer, ∃ c,
      untilDone (cache.findByIdStep (readable slots) purpose resumeId rid claimedPeer context)
        (cache.stepCalls purpose) {} = some c ∧
      ∀ index slot,
        cache.findById (readable slots) purpose resumeId rid claimedPeer context =
          .ok (index, slot) ↔ c.Reports index slot := by
  intro cache
  have hchecked : cache.checkQuota = .ok () := by simp [cache, checkQuota, refuse]
  constructor
  · intro peer
    obtain ⟨n, hn, heq⟩ := untilDone_fresh cache purpose slots
      (visitPeer_moves (matchesPeer purpose peer context)) rfl
    refine ⟨_, heq, fun index slot => ?_⟩
    rw [findByPeer, hchecked]
    exact scanPeer_iff (c := cache.start purpose) rfl hn rfl rfl
  · intro resumeId rid claimedPeer
    obtain ⟨n, hn, heq⟩ := untilDone_fresh cache purpose slots
      (visitId_moves (matchesId purpose resumeId rid claimedPeer context)) rfl
    refine ⟨_, heq, fun index slot => ?_⟩
    rw [findById, hchecked]
    exact scanId_iff (c := cache.start purpose) (skipsId_eq resumeId purpose rid claimedPeer context)
      rfl hn rfl

end ResumeCache2

end RouteLoom.Storage
