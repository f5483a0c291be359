import RouteLoom.Lib.Bitmask
import RouteLoom.Lib.Machine
import RouteLoom.Lib.Stateful
import RouteLoom.Basic

/-!
# The reply lease table

`ExpectedReplyLeases` holds up to three peer bindings that a reply may still need. Every acquire
takes one of eight use slots and refers to the entry of its binding, which all uses of that binding
share. An entry counts its uses, marks their slots in a bit map and keeps their largest deadline. A
slot whose serials are used up is retired for good.

* `acquire`, `probeAcquire`, `release`, `validate`, `invalidateBinding`, `invalidateAll` : the calls
* `Summary` : an entry is what its uses make it
* `leases_consistent` : the table passes its own audit after any calls, tokens never repeat, and a
  stale token does nothing
-/

namespace RouteLoom.ReplyLeases

open Lib Function List

def kExpectedReplyBindingsMax : Nat := 3
def kReplyLeaseUsesMax : Nat := 8
def kReplyLeaseTtlMs : UInt64 := 1500
def kUint64Max : UInt64 := 0xFFFFFFFFFFFFFFFF

/-- The serial after `current`, unless they are used up. -/
def nextUseSerial (current : UInt32) : Option UInt32 :=
  if current == 0xFFFFFFFF then none else some (current + 1)

/-- A peer binding as captured for one reply. -/
structure ReplyBinding where
  peer : NodeId := kInvalidNodeId
  id : UInt32 := 0
  generation : UInt32 := 0
  rxContextId : UInt32 := 0
  deriving DecidableEq, Repr, Inhabited

/-- One use of a reply lease. -/
structure ReplyLeaseToken where
  useSlot : UInt32
  serial : UInt32
  deriving DecidableEq, Repr

/-- What the table was called for. -/
inductive LeaseCall
  | acquired (use : ReplyLeaseToken)
  | released (use : ReplyLeaseToken)
  deriving DecidableEq, Repr

/-! ## The table -/

structure Entry where
  binding : ReplyBinding := {}
  refcount : UInt16 := 0
  /-- bit `i` : use slot `i` refers to this entry -/
  holderMask : UInt16 := 0
  deadlineMax : MonotonicMs := 0
  used : Bool := false
  retired : Bool := false
  deriving DecidableEq, Repr

structure Use where
  entry : UInt8 := UInt8.ofNat kExpectedReplyBindingsMax
  used : Bool := false
  /-- the serials are used up -/
  retired : Bool := false
  serial : UInt32 := 0
  deadline : MonotonicMs := 0
  deriving DecidableEq, Repr

abbrev Uses := Fin kReplyLeaseUsesMax → Use

structure ExpectedReplyLeases where
  entries : Fin kExpectedReplyBindingsMax → Entry := fun _ => {}
  uses : Uses := fun _ => {}
  lastNow : MonotonicMs := 0

def slots : List (Fin kReplyLeaseUsesMax) := List.finRange kReplyLeaseUsesMax

/-- `1u << i` as a mask. -/
def holderBit (i : Fin kReplyLeaseUsesMax) : UInt16 := UInt16.ofBitVec (1#16 <<< i.val)

/-- The use refers to entry `e`. -/
def Use.holds (use : Use) (e : Fin kExpectedReplyBindingsMax) : Bool :=
  use.used && use.entry.toNat == e.val

/-- The largest deadline of the uses of an entry. -/
def recomputeDeadline (uses : Uses) (e : Fin kExpectedReplyBindingsMax) : MonotonicMs :=
  slots.foldl (fun max i => if (uses i).holds e && max < (uses i).deadline then (uses i).deadline else max) 0

namespace ExpectedReplyLeases

variable (t : ExpectedReplyLeases)

def findEntry (id generation : UInt32) : Option (Fin kExpectedReplyBindingsMax) :=
  (List.finRange kExpectedReplyBindingsMax).find? fun e =>
    (t.entries e).used && (t.entries e).binding.id == id && (t.entries e).binding.generation == generation

def freeEntry : Option (Fin kExpectedReplyBindingsMax) :=
  (List.finRange kExpectedReplyBindingsMax).find? fun e => !(t.entries e).used

/-- Where a new use is entered, when the search for its binding gave `found`. -/
def entryIndex (found : Option (Fin kExpectedReplyBindingsMax)) :
    Except Status (Fin kExpectedReplyBindingsMax) :=
  match found.or t.freeEntry with
  | some e => .ok e
  | none => Status.error .noCapacity "3 reply bindings live"

/-- The slot of the live use that a token names. -/
def resolve (token : ReplyLeaseToken) : Option (Fin kReplyLeaseUsesMax) :=
  if h : token.useSlot.toNat < kReplyLeaseUsesMax then
    let i : Fin kReplyLeaseUsesMax := ⟨token.useSlot.toNat, h⟩
    if !(t.uses i).used || (t.uses i).serial != token.serial then none else some i
  else none

end ExpectedReplyLeases

/-! ## Acquire -/

variable (token : ReplyLeaseToken) (captured : ReplyBinding)

/-- A binding without a peer, an id, a generation or a receive context. -/
def zeroIdentity : Bool :=
  captured.peer == kInvalidNodeId || captured.id == 0 || captured.generation == 0 ||
    captured.rxContextId == 0

/-- What the search of `acquire` for a use slot found, with the slots it retired on the way. -/
structure UseChoice where
  slot : Option (Fin kReplyLeaseUsesMax × UInt32)
  retiredSeen : Bool
  uses : Uses

def chooseUse : List (Fin kReplyLeaseUsesMax) → Bool → Uses → UseChoice
  | [], retiredSeen, uses => ⟨none, retiredSeen, uses⟩
  | i :: is, retiredSeen, uses =>
    if (uses i).used then chooseUse is retiredSeen uses
    else if (uses i).retired then chooseUse is true uses
    else
      match nextUseSerial (uses i).serial with
      | none => chooseUse is true (update uses i { uses i with retired := true })
      | some serial => ⟨some (i, serial), retiredSeen, uses⟩

def noUse (retiredSeen : Bool) : Status :=
  if retiredSeen then ⟨.counterExhausted, "use serials exhausted"⟩ else ⟨.noCapacity, "8 uses live"⟩

/-- The commit of `acquire`: slot `i` becomes a use of entry `e`, whose record is `entry` so far. -/
def ExpectedReplyLeases.grant (t : ExpectedReplyLeases) (i : Fin kReplyLeaseUsesMax) (serial : UInt32)
    (e : Fin kExpectedReplyBindingsMax) (entry : Entry) (deadline now : MonotonicMs) :
    ExpectedReplyLeases :=
  let uses := update t.uses i
    { t.uses i with serial, entry := UInt8.ofNat e, used := true, deadline }
  { entries := update t.entries e
      { entry with
        refcount := entry.refcount + 1
        holderMask := entry.holderMask ||| holderBit i
        deadlineMax := recomputeDeadline uses e }
    uses
    lastNow := now }

def acquire (deadline now : MonotonicMs) :
    Op ExpectedReplyLeases Status ReplyLeaseToken := do
  let t ← Op.get
  Op.check (refuse (now < t.lastNow) ⟨.timeUncertain, "clock regressed"⟩)
  Op.check (refuse (zeroIdentity captured) ⟨.invalidArgument, "zero identity field"⟩)
  Op.check (refuse (deadline ≤ now) ⟨.invalidArgument, "deadline already passed"⟩)
  Op.check (refuse (kUint64Max - kReplyLeaseTtlMs < now) ⟨.counterExhausted, "ttl unrepresentable"⟩)
  let cap := now + kReplyLeaseTtlMs
  let grant := if deadline < cap then deadline else cap
  let found := t.findEntry captured.id captured.generation
  Op.check (refuse (found.any fun e => (t.entries e).retired) ⟨.conflict, "binding retired"⟩)
  Op.check (refuse (found.any fun e => (t.entries e).binding != captured)
    ⟨.conflict, "binding identity changed"⟩)
  let e ← Op.check (t.entryIndex found)
  let choice := chooseUse slots false t.uses
  -- slots that were retired on the way stay retired when the call fails
  Op.set { t with uses := choice.uses }
  match choice.slot with
  | none => Op.throw (noUse choice.retiredSeen)
  | some (i, serial) =>
    Op.check (refuse (found.any fun e => (t.entries e).refcount == 0xFFFF)
      ⟨.internalError, "entry refcount saturated"⟩)
    let entry := match found with
      | some e => t.entries e
      | none => { binding := captured, used := true }
    Op.set (ExpectedReplyLeases.grant { t with uses := choice.uses } i serial e entry grant now)
    pure ⟨UInt32.ofNat i, serial⟩

/-- Whether a use slot is left, and whether one was met whose serials are used up. -/
def probeUse : List (Fin kReplyLeaseUsesMax) → Bool → Uses → Bool × Bool
  | [], retiredSeen, _ => (false, retiredSeen)
  | i :: is, retiredSeen, uses =>
    if (uses i).used then probeUse is retiredSeen uses
    else if (uses i).retired then probeUse is true uses
    else if (nextUseSerial (uses i).serial).isNone then probeUse is true uses
    else (true, retiredSeen)

def probeAcquire (deadline now : MonotonicMs) (t : ExpectedReplyLeases) :
    Except Status Unit := do
  refuse (now < t.lastNow) ⟨.timeUncertain, "clock regressed"⟩
  refuse (zeroIdentity captured) ⟨.invalidArgument, "zero identity field"⟩
  refuse (deadline ≤ now) ⟨.invalidArgument, "deadline already passed"⟩
  refuse (kUint64Max - kReplyLeaseTtlMs < now) ⟨.counterExhausted, "ttl unrepresentable"⟩
  let found := t.findEntry captured.id captured.generation
  refuse (found.any fun e => (t.entries e).retired) ⟨.conflict, "binding retired"⟩
  refuse (found.any fun e => (t.entries e).binding != captured) ⟨.conflict, "binding identity changed"⟩
  refuse (found.isNone && t.freeEntry.isNone) ⟨.noCapacity, "3 reply bindings live"⟩
  let (freeUse, retiredSeen) := probeUse slots false t.uses
  refuse (!freeUse) (noUse retiredSeen)
  refuse (found.any fun e => (t.entries e).refcount == 0xFFFF)
    ⟨.internalError, "entry refcount saturated"⟩

/-! ## The other calls -/

/-- The use of slot `i` is gone, and its entry with the last of its uses. -/
def ExpectedReplyLeases.drop (t : ExpectedReplyLeases) (i : Fin kReplyLeaseUsesMax)
    (e : Fin kExpectedReplyBindingsMax) : ExpectedReplyLeases :=
  let uses := update t.uses i { t.uses i with used := false }
  let entry := t.entries e
  let refcount := entry.refcount - 1
  let holderMask := entry.holderMask &&& ~~~(holderBit i)
  { t with
    uses
    entries := update t.entries e
      (if refcount == 0 then { refcount, holderMask }
       else { entry with refcount, holderMask, deadlineMax := recomputeDeadline uses e }) }

def release : Op ExpectedReplyLeases Status Unit := do
  let t ← Op.get
  Op.check (refuse (kReplyLeaseUsesMax ≤ token.useSlot.toNat) ⟨.notFound, "unknown use slot"⟩)
  match t.resolve token with
  | none => Op.throw ⟨.notFound, "stale token"⟩
  | some i =>
    if h : (t.uses i).entry.toNat < kExpectedReplyBindingsMax then
      let e : Fin kExpectedReplyBindingsMax := ⟨(t.uses i).entry.toNat, h⟩
      let entry := t.entries e
      Op.check (refuse (!entry.used || entry.refcount == 0 || entry.holderMask &&& holderBit i == 0)
        ⟨.internalError, "entry link broken"⟩)
      Op.set (t.drop i e)
    else Op.throw ⟨.internalError, "use without entry"⟩

def validate (now : MonotonicMs) : Op ExpectedReplyLeases Status Unit := do
  let t ← Op.get
  Op.check (refuse (now < t.lastNow) ⟨.timeUncertain, "clock regressed"⟩)
  Op.set { t with lastNow := now }
  match t.resolve token with
  | none => Op.throw ⟨.notFound, "stale token"⟩
  | some i =>
    if h : (t.uses i).entry.toNat < kExpectedReplyBindingsMax then
      let entry := t.entries ⟨(t.uses i).entry.toNat, h⟩
      Op.check (refuse (!entry.used || entry.retired) ⟨.conflict, "binding retired"⟩)
      Op.check (refuse ((t.uses i).deadline ≤ now) ⟨.expired, "use deadline passed"⟩)
    else Op.throw ⟨.internalError, "use without entry"⟩

/-- Retire an entry; one without uses is free at once. -/
def Entry.retire (entry : Entry) : Entry :=
  if entry.refcount == 0 then
    { entry with retired := false, used := false, binding := {}, deadlineMax := 0 }
  else { entry with retired := true }

def invalidateBinding (id : UInt32) (t : ExpectedReplyLeases) : ExpectedReplyLeases :=
  { t with
    entries := fun e =>
      if (t.entries e).used && (t.entries e).binding.id == id then (t.entries e).retire else t.entries e }

def invalidateAll (t : ExpectedReplyLeases) : ExpectedReplyLeases :=
  { t with entries := fun e => if (t.entries e).used then (t.entries e).retire else t.entries e }

/-! ## The audit -/

/-- The slots that an entry has marked. -/
def Entry.marked (entry : Entry) : List (Fin kReplyLeaseUsesMax) :=
  slots.filter fun i => entry.holderMask &&& holderBit i != 0

def checkEntry (uses : Uses) (e : Fin kExpectedReplyBindingsMax) (entry : Entry) : Bool :=
  if !entry.used then entry.refcount == 0 && entry.holderMask == 0
  else
    (entry.marked.all fun i =>
      (uses i).used && (uses i).entry.toNat == e.val && (uses i).serial != 0) &&
    entry.refcount == UInt16.ofNat entry.marked.length && entry.refcount != 0 &&
    entry.deadlineMax ==
      entry.marked.foldl (fun max i => if max < (uses i).deadline then (uses i).deadline else max) 0

def checkUse (t : ExpectedReplyLeases) (i : Fin kReplyLeaseUsesMax) : Bool :=
  let use := t.uses i
  if use.retired && use.used then false
  else if !use.used then true
  else if h : use.entry.toNat < kExpectedReplyBindingsMax then
    let entry := t.entries ⟨use.entry.toNat, h⟩
    use.serial != 0 && entry.used && entry.holderMask &&& holderBit i != 0
  else false

def checkInvariants (t : ExpectedReplyLeases) : Bool :=
  (List.finRange kExpectedReplyBindingsMax).all (fun e => checkEntry t.uses e (t.entries e)) &&
    slots.all (checkUse t)

/-! ## Entries as summaries of their uses -/

section Summaries

variable {uses uses' : Uses} {e : Fin kExpectedReplyBindingsMax} {entry : Entry}
  {i : Fin kReplyLeaseUsesMax}

/-- The slots whose uses refer to entry `e`. -/
def holders (uses : Uses) (e : Fin kExpectedReplyBindingsMax) : Finset (Fin kReplyLeaseUsesMax) :=
  Finset.univ.filter fun i => (uses i).holds e = true

theorem mem_holders : i ∈ holders uses e ↔ (uses i).holds e = true := by
  simp [holders]

/-- An entry says of its uses what they are. -/
structure Summary (uses : Uses) (e : Fin kExpectedReplyBindingsMax) (entry : Entry) : Prop where
  refcount : entry.refcount.toNat = (holders uses e).card
  mask : Masks entry.holderMask.toBitVec (holders uses e)
  deadline : entry.deadlineMax = recomputeDeadline uses e
  used : entry.used = true ↔ (holders uses e).Nonempty

structure Use.Live (use : Use) : Prop where
  retired : use.retired = false
  serial : use.serial ≠ 0
  entry : use.entry.toNat < kExpectedReplyBindingsMax

structure Sound (t : ExpectedReplyLeases) : Prop where
  entries : ∀ e, Summary t.uses e (t.entries e)
  live : ∀ i, (t.uses i).used = true → (t.uses i).Live

theorem recomputeDeadline_congr (hholds : ∀ i, (uses' i).holds e = (uses i).holds e)
    (hdeadline : ∀ i, (uses i).holds e = true → (uses' i).deadline = (uses i).deadline) :
    recomputeDeadline uses' e = recomputeDeadline uses e := by
  unfold recomputeDeadline
  congr 1
  funext max i
  rw [hholds i]
  cases hi : (uses i).holds e with
  | false => simp
  | true => rw [hdeadline i hi]

theorem holders_congr (hholds : ∀ i, (uses' i).holds e = (uses i).holds e) :
    holders uses' e = holders uses e := by
  ext i
  rw [mem_holders, mem_holders, hholds i]

theorem recomputeDeadline_of_none (h : holders uses e = ∅) : recomputeDeadline uses e = 0 := by
  refine foldl_fixed' (fun i => ?_) slots
  rw [Bool.eq_false_iff.mpr fun hi => Finset.notMem_empty i (h ▸ mem_holders.mpr hi), Bool.false_and]
  rfl

theorem Summary.congr (hs : Summary uses e entry) (hholds : ∀ i, (uses' i).holds e = (uses i).holds e)
    (hdeadline : ∀ i, (uses i).holds e = true → (uses' i).deadline = (uses i).deadline) :
    Summary uses' e entry := by
  have hsame := holders_congr hholds
  refine ⟨hsame ▸ hs.refcount, hsame ▸ hs.mask, ?_, hsame ▸ hs.used⟩
  rw [recomputeDeadline_congr hholds hdeadline]
  exact hs.deadline

theorem Summary.marks (hs : Summary uses e entry) (i : Fin kReplyLeaseUsesMax) :
    (entry.holderMask &&& holderBit i != 0) = (uses i).holds e := by
  rw [Bool.eq_iff_iff, bne_iff_ne, ← mem_holders, ← hs.mask.test (by decide) i, ne_eq, ne_eq,
    ← UInt16.toBitVec_inj]
  exact Iff.rfl

theorem Summary.marked_eq (hs : Summary uses e entry) :
    entry.marked = slots.filter fun i => (uses i).holds e := by
  unfold Entry.marked
  simp only [hs.marks]

theorem length_holding : (slots.filter fun i => (uses i).holds e).length = (holders uses e).card := by
  have hnodup : (slots.filter fun i => (uses i).holds e).Nodup := (nodup_finRange _).filter _
  rw [← toFinset_card_of_nodup hnodup]
  congr 1
  ext i
  simp [slots, mem_holders]

theorem card_holders_le : (holders uses e).card ≤ kReplyLeaseUsesMax := by
  rw [← length_holding]
  exact (length_filter_le _ _).trans (length_finRange).le

theorem Summary.checkEntry (hs : Summary uses e entry)
    (hlive : ∀ i, (uses i).used = true → (uses i).Live) : checkEntry uses e entry = true := by
  unfold ReplyLeases.checkEntry
  by_cases hused : entry.used = true
  · rw [hused, Bool.not_true, if_neg Bool.false_ne_true, hs.marked_eq, length_holding]
    have hcard : 0 < (holders uses e).card := Finset.card_pos.mpr (hs.used.mp hused)
    simp only [Bool.and_eq_true, beq_iff_eq, bne_iff_ne]
    refine ⟨⟨⟨?_, ?_⟩, ?_⟩, ?_⟩
    · rw [all_eq_true]
      intro i hi
      have hholds := (mem_filter.mp hi).2
      unfold Use.holds at hholds
      rw [hholds, Bool.true_and, bne_iff_ne]
      exact (hlive i (Bool.and_eq_true_iff.mp hholds).1).serial
    · rw [← UInt16.toNat_inj, hs.refcount, UInt16.toNat_ofNat', Nat.mod_eq_of_lt]
      exact Nat.lt_of_le_of_lt card_holders_le (by decide)
    · rw [ne_eq, ← UInt16.toNat_inj, hs.refcount]
      exact Nat.ne_of_gt hcard
    · rw [hs.deadline, foldl_filter, recomputeDeadline]
      congr 1
      funext max i
      cases (uses i).holds e with
      | false => simp
      | true => simp
  · have hnone : holders uses e = ∅ :=
      Finset.not_nonempty_iff_eq_empty.mp fun h => hused (hs.used.mpr h)
    have hzero : entry.holderMask = 0 := UInt16.toBitVec_inj.mp (hs.mask.eq_zero hnone)
    have hcount : entry.refcount = 0 := by
      rw [← UInt16.toNat_inj, hs.refcount, hnone]
      rfl
    rw [Bool.eq_false_iff.mpr hused, Bool.not_false, if_pos rfl, hcount, hzero]
    rfl

theorem Sound.checkInvariants {t : ExpectedReplyLeases} (hs : Sound t) : checkInvariants t = true := by
  unfold ReplyLeases.checkInvariants
  rw [Bool.and_eq_true, all_eq_true, all_eq_true]
  refine ⟨fun e _ => (hs.entries e).checkEntry hs.live, fun i _ => ?_⟩
  unfold checkUse
  dsimp only
  by_cases hused : (t.uses i).used = true
  · have hlive := hs.live i hused
    have hholds : (t.uses i).holds ⟨(t.uses i).entry.toNat, hlive.entry⟩ = true := by
      unfold Use.holds
      rw [hused, Bool.true_and, beq_self_eq_true]
    rw [hlive.retired, hused, Bool.false_and, if_neg Bool.false_ne_true, Bool.not_true,
      if_neg Bool.false_ne_true, dif_pos hlive.entry, (hs.entries _).marks, hholds, Bool.and_true,
      Bool.and_eq_true, bne_iff_ne]
    exact ⟨hlive.serial, (hs.entries _).used.mpr ⟨i, mem_holders.mpr hholds⟩⟩
  · rw [Bool.eq_false_iff.mpr hused, Bool.and_false, if_neg Bool.false_ne_true, Bool.not_false, if_pos rfl]

end Summaries

/-! ## How a call ends -/

/-- Some free slots were retired, and nothing else. -/
def Parks (uses uses' : Uses) : Prop :=
  ∀ i, uses' i = uses i ∨ (uses i).used = false ∧ uses' i = { uses i with retired := true }

theorem Parks.refl (uses : Uses) : Parks uses uses := fun _ => .inl rfl

theorem Parks.trans {uses₁ uses₂ uses₃ : Uses} (h₁ : Parks uses₁ uses₂) (h₂ : Parks uses₂ uses₃) :
    Parks uses₁ uses₃ := by
  intro i
  rcases h₁ i with heq | ⟨hfree, heq⟩
  · rw [← heq]
    exact h₂ i
  · rcases h₂ i with heq' | ⟨-, heq'⟩
    · exact .inr ⟨hfree, heq'.trans heq⟩
    · exact .inr ⟨hfree, by rw [heq', heq]⟩

section Parked

variable {uses uses' : Uses} (hp : Parks uses uses') (i : Fin kReplyLeaseUsesMax)

include hp

theorem Parks.used : (uses' i).used = (uses i).used := by
  rcases hp i with heq | ⟨-, heq⟩ <;> rw [heq]

theorem Parks.serial : (uses' i).serial = (uses i).serial := by
  rcases hp i with heq | ⟨-, heq⟩ <;> rw [heq]

theorem Parks.deadline : (uses' i).deadline = (uses i).deadline := by
  rcases hp i with heq | ⟨-, heq⟩ <;> rw [heq]

theorem Parks.holds (e : Fin kExpectedReplyBindingsMax) : (uses' i).holds e = (uses i).holds e := by
  rcases hp i with heq | ⟨-, heq⟩
  · rw [heq]
  · rw [heq, Use.holds, Use.holds]

theorem Parks.eq_of_used (hused : (uses i).used = true) : uses' i = uses i := by
  rcases hp i with heq | ⟨hfree, -⟩
  · exact heq
  · rw [hfree] at hused
    cases hused

end Parked

variable {i : Fin kReplyLeaseUsesMax} {t : ExpectedReplyLeases} {e : Fin kExpectedReplyBindingsMax}
  {uses : Uses} {entry : Entry} {serial : UInt32} {use : Use}

theorem nextUseSerial_eq_some {current : UInt32} (h : nextUseSerial current = some serial) :
    serial.toNat = current.toNat + 1 := by
  unfold nextUseSerial at h
  split at h
  · cases h
  next hne =>
    cases h
    rw [beq_iff_eq, ← UInt32.toNat_inj] at hne
    rw [UInt32.toNat_add, Nat.mod_eq_of_lt]
    · rfl
    · have := current.toNat_lt
      have hmax : (0xFFFFFFFF : UInt32).toNat = 2 ^ 32 - 1 := rfl
      have hone : (1 : UInt32).toNat = 1 := rfl
      omega

theorem ne_zero_of_nextUseSerial {current : UInt32} (h : nextUseSerial current = some serial) :
    serial ≠ 0 := by
  rintro rfl
  exact Nat.succ_ne_zero _ (nextUseSerial_eq_some h).symm

/-- A slot that `acquire` can give out with this serial. -/
structure Grantable (uses : Uses) (i : Fin kReplyLeaseUsesMax) (serial : UInt32) : Prop where
  free : (uses i).used = false
  kept : (uses i).retired = false
  next : nextUseSerial (uses i).serial = some serial

theorem parks_retire (hfree : (uses i).used = false) :
    Parks uses (update uses i { uses i with retired := true }) := by
  intro j
  by_cases hj : j = i
  · subst hj
    exact .inr ⟨hfree, update_self ..⟩
  · exact .inl (update_of_ne hj ..)

theorem chooseUse_spec (is : List (Fin kReplyLeaseUsesMax)) (seen : Bool) (uses : Uses) :
    Parks uses (chooseUse is seen uses).uses ∧ ∀ i serial, (chooseUse is seen uses).slot = some (i, serial) →
        Grantable (chooseUse is seen uses).uses i serial := by
  fun_induction chooseUse is seen uses with
  | case1 seen uses => exact ⟨.refl uses, fun i serial h => by cases h⟩
  | case2 i is seen uses hused ih => exact ih
  | case3 i is seen uses hused hretired ih => exact ih
  | case4 i is seen uses hused hretired hnext ih =>
    exact ⟨(parks_retire (Bool.eq_false_iff.mpr hused)).trans ih.1, ih.2⟩
  | case5 i is seen uses hused hretired serial hnext =>
    refine ⟨.refl uses, fun j serial' h => ?_⟩
    cases h
    exact ⟨Bool.eq_false_iff.mpr hused, Bool.eq_false_iff.mpr hretired, hnext⟩

/-- The record that `acquire` extends by a use: the entry of the binding, or a new one. -/
def EntryFor (t : ExpectedReplyLeases) (e : Fin kExpectedReplyBindingsMax) (entry : Entry) : Prop :=
  (t.entries e).used = true ∧ entry = t.entries e ∨
    (t.entries e).used = false ∧ entry = { binding := captured, used := true }

theorem entryFor_of_entryIndex {captured : ReplyBinding}
    (he : t.entryIndex (t.findEntry captured.id captured.generation) = .ok e) :
    EntryFor captured t e
      (match t.findEntry captured.id captured.generation with
        | some e => t.entries e
        | none => { binding := captured, used := true }) := by
  unfold ExpectedReplyLeases.entryIndex at he
  cases hfound : t.findEntry captured.id captured.generation with
  | some e' =>
    rw [hfound, Option.some_or] at he
    cases he
    have hused := find?_some hfound
    exact .inl ⟨(Bool.and_eq_true_iff.mp (Bool.and_eq_true_iff.mp hused).1).1, rfl⟩
  | none =>
    rw [hfound, Option.none_or] at he
    split at he
    next e' hfree =>
      cases he
      exact .inr ⟨by simpa using find?_some hfree, rfl⟩
    next => cases he

inductive Acquired (captured : ReplyBinding) (t : ExpectedReplyLeases) :
    Except Status ReplyLeaseToken → ExpectedReplyLeases → Prop
  | refused {uses : Uses} (status : Status) (hp : Parks t.uses uses) :
      Acquired captured t (.error status) { t with uses }
  | granted {uses : Uses} (hp : Parks t.uses uses) {i : Fin kReplyLeaseUsesMax} {serial : UInt32}
      (hi : Grantable uses i serial) {e : Fin kExpectedReplyBindingsMax} {entry : Entry}
      (he : EntryFor captured t e entry) (deadline now : MonotonicMs) :
      Acquired captured t (.ok ⟨UInt32.ofNat i, serial⟩)
        (ExpectedReplyLeases.grant { t with uses } i serial e entry deadline now)

theorem acquired_acquire (deadline now : MonotonicMs) (t : ExpectedReplyLeases) :
    Acquired captured t (acquire captured deadline now t).1 (acquire captured deadline now t).2 := by
  have hrefused : ∀ status, Acquired captured t (.error status) t :=
    fun status => .refused status (.refl t.uses)
  refine Op.wp.after (P := Acquired captured t) ?_
  unfold acquire
  rw [Op.wp_bind, Op.wp_get]
  refine Op.wp_check_bind (fun status _ => hrefused status) fun _ _ => ?_
  refine Op.wp_check_bind (fun status _ => hrefused status) fun _ _ => ?_
  refine Op.wp_check_bind (fun status _ => hrefused status) fun _ _ => ?_
  refine Op.wp_check_bind (fun status _ => hrefused status) fun _ _ => ?_
  refine Op.wp_check_bind (fun status _ => hrefused status) fun _ _ => ?_
  refine Op.wp_check_bind (fun status _ => hrefused status) fun _ _ => ?_
  refine Op.wp_check_bind (fun status _ => hrefused status) fun e hentry => ?_
  obtain ⟨hparks, hslot⟩ := chooseUse_spec slots false t.uses
  rw [Op.wp_bind, Op.wp_set]
  cases hchoice : (chooseUse slots false t.uses).slot with
  | none => exact .refused _ hparks
  | some slot =>
    obtain ⟨i, serial⟩ := slot
    refine Op.wp_check_bind (fun status _ => .refused status hparks) fun _ _ => ?_
    exact .granted hparks (hslot i serial hchoice) (entryFor_of_entryIndex hentry) _ now

/-! ## The probe -/

theorem probeUse_retire (hnext : nextUseSerial (uses i).serial = none)
    (is : List (Fin kReplyLeaseUsesMax)) (seen : Bool) :
    probeUse is seen (update uses i { uses i with retired := true }) = probeUse is seen uses := by
  induction is generalizing seen with
  | nil => rfl
  | cons j is ih =>
    rw [probeUse, probeUse]
    by_cases hj : j = i
    · subst hj
      simp only [update_self, hnext, Option.isNone_none, ih, if_true, ite_self]
    · simp only [update_of_ne hj, ih]

theorem probeUse_eq (is : List (Fin kReplyLeaseUsesMax)) (seen : Bool) (uses : Uses) :
    probeUse is seen uses = ((chooseUse is seen uses).slot.isSome, (chooseUse is seen uses).retiredSeen) := by
  fun_induction chooseUse is seen uses with
  | case1 seen uses => rfl
  | case2 i is seen uses hused ih => rw [probeUse, if_pos hused, ih]
  | case3 i is seen uses hused hretired ih => rw [probeUse, if_neg hused, if_pos hretired, ih]
  | case4 i is seen uses hused hretired hnext ih =>
    rw [probeUse, if_neg hused, if_neg hretired, hnext, if_pos Option.isNone_none, ← ih, probeUse_retire hnext]
  | case5 i is seen uses hused hretired serial hnext =>
    rw [probeUse, if_neg hused, if_neg hretired, hnext, if_neg (by simp)]
    rfl

theorem probeAcquire_eq (deadline now : MonotonicMs) (t : ExpectedReplyLeases) :
    (acquire captured deadline now t).1.map (fun _ => ()) = probeAcquire captured deadline now t := by
  refine Op.refuse_bind_map ?_
  refine Op.refuse_bind_map ?_
  refine Op.refuse_bind_map ?_
  refine Op.refuse_bind_map ?_
  refine Op.refuse_bind_map ?_
  refine Op.refuse_bind_map ?_
  have hindex : (t.entryIndex (t.findEntry captured.id captured.generation)).map (fun _ => ()) =
      refuse ((t.findEntry captured.id captured.generation).isNone && t.freeEntry.isNone)
        ⟨.noCapacity, "3 reply bindings live"⟩ := by
    unfold ExpectedReplyLeases.entryIndex
    cases t.findEntry captured.id captured.generation with
    | some e => rfl
    | none => cases t.freeEntry <;> rfl
  rw [← hindex, probeUse_eq]
  cases t.entryIndex (t.findEntry captured.id captured.generation) with
  | error status => rfl
  | ok e =>
    generalize chooseUse slots false t.uses = choice
    obtain ⟨slot, retiredSeen, uses⟩ := choice
    cases slot with
    | none => rfl
    | some slot =>
      cases (t.findEntry captured.id captured.generation).any fun e =>
          (t.entries e).refcount == 0xFFFF with
      | false => rfl
      | true => rfl

/-! ## What a call preserves -/

section Preservation

variable {t : ExpectedReplyLeases}

theorem Sound.parks (hs : Sound t) (hp : Parks t.uses uses) : Sound { t with uses } := by
  refine ⟨fun e => (hs.entries e).congr (fun i => hp.holds i e) fun i _ => hp.deadline i, fun i hi => ?_⟩
  have hused : (t.uses i).used = true := hp.used i ▸ hi
  show (uses i).Live
  rw [hp.eq_of_used i hused]
  exact hs.live i hused

/-- The entry of the binding sums up its uses; a new one has none. -/
theorem Sound.entryFor (hs : Sound t) {captured : ReplyBinding} (he : EntryFor captured t e entry) :
    entry.refcount.toNat = (holders t.uses e).card ∧
      Masks entry.holderMask.toBitVec (holders t.uses e) ∧ entry.used = true := by
  rcases he with ⟨hused, rfl⟩ | ⟨hfree, rfl⟩
  · exact ⟨(hs.entries e).refcount, (hs.entries e).mask, hused⟩
  · have hnone : holders t.uses e = ∅ := by
      refine Finset.not_nonempty_iff_eq_empty.mp fun h => ?_
      rw [(hs.entries e).used.mpr h] at hfree
      cases hfree
    rw [hnone]
    exact ⟨rfl, masks_zero, rfl⟩

theorem toNat_ofNat_entry (e : Fin kExpectedReplyBindingsMax) : (UInt8.ofNat e.val).toNat = e.val := by
  rw [UInt8.toNat_ofNat', Nat.mod_eq_of_lt]
  exact Nat.lt_trans e.isLt (by decide)

theorem holders_update_of_holds (uses : Uses) (i : Fin kReplyLeaseUsesMax) (h : use.holds e = true) :
    holders (update uses i use) e = insert i (holders uses e) := by
  ext j
  rw [Finset.mem_insert, mem_holders, mem_holders]
  by_cases hj : j = i
  · subst hj
    simp [h]
  · simp [hj]

theorem holders_update_of_not_holds (uses : Uses) (i : Fin kReplyLeaseUsesMax) (h : use.holds e = false) :
    holders (update uses i use) e = (holders uses e).erase i := by
  ext j
  rw [Finset.mem_erase, mem_holders, mem_holders]
  by_cases hj : j = i
  · subst hj
    simp [h]
  · simp [hj]

theorem Sound.write (hs : Sound t) {now : MonotonicMs}
    (hwas : ∀ e', e' ≠ e → (t.uses i).holds e' = false) (his : ∀ e', e' ≠ e → use.holds e' = false)
    (hlive : use.used = true → use.Live) (hsum : Summary (update t.uses i use) e entry) :
    Sound ⟨update t.entries e entry, update t.uses i use, now⟩ := by
  refine ⟨fun e' => ?_, fun j hj => ?_⟩
  · show Summary (update t.uses i use) e' (update t.entries e entry e')
    by_cases hne : e' = e
    · subst hne
      rw [update_self]
      exact hsum
    · rw [update_of_ne hne]
      refine (hs.entries e').congr (fun j => ?_) fun j hj => ?_
      · by_cases hji : j = i
        · rw [hji, update_self, hwas e' hne, his e' hne]
        · rw [update_of_ne hji]
      · by_cases hji : j = i
        · rw [hji, hwas e' hne] at hj
          cases hj
        · rw [update_of_ne hji]
  · change (update t.uses i use j).used = true at hj
    show (update t.uses i use j).Live
    by_cases hji : j = i
    · subst hji
      rw [update_self] at hj ⊢
      exact hlive hj
    · rw [update_of_ne hji] at hj ⊢
      exact hs.live j hj

theorem Sound.grant (hs : Sound t) {captured : ReplyBinding} (hi : Grantable t.uses i serial)
    (he : EntryFor captured t e entry) (deadline now : MonotonicMs) :
    Sound (t.grant i serial e entry deadline now) := by
  obtain ⟨hcount, hmask, hused⟩ := hs.entryFor he
  have hfree : ∀ e', (t.uses i).holds e' = false := by
    intro e'
    rw [Use.holds, hi.free, Bool.false_and]
  have hholds : ∀ e', Use.holds { t.uses i with serial, entry := UInt8.ofNat e, used := true, deadline } e' =
      decide (e = e') := by
    intro e'
    rw [Use.holds, Bool.true_and, toNat_ofNat_entry, Bool.eq_iff_iff, beq_iff_eq, decide_eq_true_eq,
      Fin.ext_iff]
  have hset := holders_update_of_holds t.uses i ((hholds e).trans (decide_eq_true rfl))
  have hnew : i ∉ holders t.uses e := by
    rw [mem_holders, hfree]
    exact Bool.false_ne_true
  refine hs.write (fun e' _ => hfree e') (fun e' hne => (hholds e').trans (decide_eq_false hne.symm))
    (fun _ => ⟨hi.kept, ne_zero_of_nextUseSerial hi.next, (toNat_ofNat_entry e).trans_lt e.isLt⟩)
    ⟨?_, ?_, rfl, ?_⟩
  · have hle : (holders t.uses e).card ≤ kReplyLeaseUsesMax := card_holders_le
    rw [hset, Finset.card_insert_of_notMem hnew, UInt16.toNat_add, hcount, Nat.mod_eq_of_lt]
    · rfl
    · exact Nat.lt_of_le_of_lt (Nat.add_le_add_right hle 1) (by decide)
  · rw [hset]
    exact hmask.insert (by decide) i
  · rw [hset]
    exact ⟨fun _ => Finset.insert_nonempty i _, fun _ => hused⟩

theorem Sound.drop (hs : Sound t) (hi : (t.uses i).holds e = true) : Sound (t.drop i e) := by
  have hmem : i ∈ holders t.uses e := mem_holders.mpr hi
  have hgone : ∀ e', Use.holds { t.uses i with used := false } e' = false := fun _ => rfl
  have hset := holders_update_of_not_holds t.uses i (hgone e)
  have hcount : ((t.entries e).refcount - 1).toNat =
      (holders (update t.uses i { t.uses i with used := false }) e).card := by
    have hpos := Finset.card_pos.mpr ⟨i, hmem⟩
    have hrefs := (hs.entries e).refcount
    rw [hset, Finset.card_erase_of_mem hmem, UInt16.toNat_sub_of_le, hrefs]
    · rfl
    · exact UInt16.le_iff_toNat_le.mpr (hrefs ▸ hpos)
  have hmask : Masks ((t.entries e).holderMask &&& ~~~(holderBit i)).toBitVec
      (holders (update t.uses i { t.uses i with used := false }) e) := by
    rw [hset]
    exact (hs.entries e).mask.erase (by decide) i
  have hwas : ∀ e', e' ≠ e → (t.uses i).holds e' = false := by
    intro e' hne
    rw [Bool.eq_false_iff]
    intro hholds
    rw [Use.holds, Bool.and_eq_true, beq_iff_eq] at hholds hi
    exact hne (Fin.ext (hholds.2.symm.trans hi.2))
  refine hs.write hwas (fun e' _ => hgone e') (fun h => by cases h) ?_
  by_cases hlast : (t.entries e).refcount - 1 = 0
  · rw [if_pos (beq_iff_eq.mpr hlast)]
    have hnone := Finset.card_eq_zero.mp (hcount.symm.trans (congrArg UInt16.toNat hlast))
    exact ⟨hcount, hmask, (recomputeDeadline_of_none hnone).symm, by simp [hnone]⟩
  · rw [if_neg (by rwa [beq_iff_eq])]
    refine ⟨hcount, hmask, rfl, ?_⟩
    have hleft : (holders (update t.uses i { t.uses i with used := false }) e).Nonempty := by
      rw [← Finset.card_pos, ← hcount]
      exact Nat.pos_of_ne_zero fun h => hlast (UInt16.toNat_inj.mp h)
    exact ⟨fun _ => hleft, fun _ => (hs.entries e).used.mpr ⟨i, hmem⟩⟩

theorem Summary.retire (hs : Summary uses e entry) (hused : entry.used = true) :
    Summary uses e entry.retire := by
  have hcount : ¬ (entry.refcount == 0) = true := by
    rw [beq_iff_eq, ← UInt16.toNat_inj, hs.refcount]
    exact (Finset.card_pos.mpr (hs.used.mp hused)).ne'
  unfold Entry.retire
  rw [if_neg hcount]
  exact ⟨hs.refcount, hs.mask, hs.deadline, hs.used⟩

theorem Sound.retire (hs : Sound t) (p : Entry → Bool) (hp : ∀ entry, p entry = true → entry.used = true) :
    Sound { t with entries := fun e => if p (t.entries e) then (t.entries e).retire else t.entries e } := by
  refine ⟨fun e => ?_, hs.live⟩
  show Summary t.uses e (if p (t.entries e) then (t.entries e).retire else t.entries e)
  split
  next h => exact (hs.entries e).retire (hp _ h)
  next => exact hs.entries e

end Preservation

/-! ## Tokens -/

theorem resolve_eq_some {token : ReplyLeaseToken} :
    t.resolve token = some i ↔ (t.uses i).used = true ∧ token = ⟨UInt32.ofNat i, (t.uses i).serial⟩ := by
  obtain ⟨slot, serial⟩ := token
  have hslot : slot.toNat = i.val ↔ slot = UInt32.ofNat i := by
    rw [← UInt32.toNat_inj, UInt32.toNat_ofNat', Nat.mod_eq_of_lt]
    exact Nat.lt_trans i.isLt (by decide)
  rw [ReplyLeaseToken.mk.injEq, ← hslot]
  unfold ExpectedReplyLeases.resolve
  constructor
  · intro h
    split at h
    next hlt =>
      dsimp only at h
      split at h
      · cases h
      next hlive =>
        cases h
        rw [Bool.or_eq_true, not_or, Bool.not_eq_true', bne_iff_ne, not_not, Bool.not_eq_false] at hlive
        exact ⟨hlive.1, rfl, hlive.2.symm⟩
    next => cases h
  · rintro ⟨hused, hval, rfl⟩
    have hi : (⟨slot.toNat, hval ▸ i.isLt⟩ : Fin kReplyLeaseUsesMax) = i := Fin.ext hval
    rw [dif_pos (hval ▸ i.isLt)]
    dsimp only
    rw [hi, hused]
    simp

theorem release_stale {token : ReplyLeaseToken} (h : t.resolve token = none) :
    (∃ detail, (release token t).1 = .error ⟨.notFound, detail⟩) ∧ (release token t).2 = t := by
  by_cases hslot : kReplyLeaseUsesMax ≤ token.useSlot.toNat
  · have heq : release token t = (.error ⟨.notFound, "unknown use slot"⟩, t) := by
      unfold release
      refine (Op.bind_ok (f := _) (show Op.get t = (.ok t, t) from rfl)).trans ?_
      rw [Op.refuse_bind, decide_eq_true hslot, if_pos rfl]
    rw [heq]
    exact ⟨⟨_, rfl⟩, rfl⟩
  · have heq : release token t = (.error ⟨.notFound, "stale token"⟩, t) := by
      unfold release
      refine (Op.bind_ok (f := _) (show Op.get t = (.ok t, t) from rfl)).trans ?_
      rw [Op.refuse_bind, decide_eq_false hslot, if_neg Bool.false_ne_true, h]
      rfl
    rw [heq]
    exact ⟨⟨_, rfl⟩, rfl⟩

theorem Sound.release (hs : Sound t) {token : ReplyLeaseToken} (h : t.resolve token = some i) :
    ∃ e, (t.uses i).holds e = true ∧ release token t = (.ok (), t.drop i e) := by
  obtain ⟨hused, rfl⟩ := resolve_eq_some.mp h
  have hentry := (hs.live i hused).entry
  have hholds : (t.uses i).holds ⟨(t.uses i).entry.toNat, hentry⟩ = true := by
    rw [Use.holds, hused, Bool.true_and, beq_self_eq_true]
  refine ⟨_, hholds, ?_⟩
  have hsum := hs.entries ⟨(t.uses i).entry.toNat, hentry⟩
  have hmem := mem_holders.mpr hholds
  have hslot : ¬ kReplyLeaseUsesMax ≤ (UInt32.ofNat i).toNat := by
    rw [UInt32.toNat_ofNat', Nat.mod_eq_of_lt (Nat.lt_trans i.isLt (by decide))]
    exact Nat.not_le.mpr i.isLt
  unfold ReplyLeases.release
  refine (Op.bind_ok (f := _) (show Op.get t = (.ok t, t) from rfl)).trans ?_
  rw [Op.refuse_bind, decide_eq_false hslot, if_neg Bool.false_ne_true, h]
  dsimp only
  rw [dif_pos hentry, Op.refuse_bind, if_neg]
  · rfl
  · rw [Bool.or_eq_true, Bool.or_eq_true, not_or, not_or]
    refine ⟨⟨?_, ?_⟩, ?_⟩
    · rw [hsum.used.mpr ⟨i, hmem⟩]
      exact Bool.false_ne_true
    · rw [beq_iff_eq, ← UInt16.toNat_inj, hsum.refcount]
      exact (Finset.card_pos.mpr ⟨i, hmem⟩).ne'
    · have hmark := hsum.marks i
      rw [hholds, bne_iff_ne] at hmark
      rwa [beq_iff_eq]

theorem validate_after (now : MonotonicMs) (t : ExpectedReplyLeases) :
    ∃ lastNow, (validate token now t).2 = { t with lastNow } := by
  refine Op.wp.after (P := fun _ t' => ∃ lastNow, t' = { t with lastNow }) ?_
  unfold validate
  rw [Op.wp_bind, Op.wp_get]
  refine Op.wp_check_bind (fun _ _ => ⟨_, rfl⟩) fun _ _ => ?_
  rw [Op.wp_bind, Op.wp_set]
  split
  · exact ⟨_, rfl⟩
  next i _ =>
    split
    · refine Op.wp_check_bind (fun _ _ => ⟨_, rfl⟩) fun _ _ => ?_
      rw [Op.wp_check]
      exact ⟨fun _ _ => ⟨_, rfl⟩, fun _ _ => ⟨_, rfl⟩⟩
    · exact ⟨_, rfl⟩

/-! ## Runs -/

inductive LeaseEvent
  | acquire (captured : ReplyBinding) (deadline now : MonotonicMs)
  | release (token : ReplyLeaseToken)
  | validate (token : ReplyLeaseToken) (now : MonotonicMs)
  | invalidateBinding (id : UInt32)
  | invalidateAll

namespace LeaseEvent

def next (t : ExpectedReplyLeases) : LeaseEvent → ExpectedReplyLeases
  | acquire captured deadline now => (ReplyLeases.acquire captured deadline now t).2
  | release token => (ReplyLeases.release token t).2
  | validate token now => (ReplyLeases.validate token now t).2
  | invalidateBinding id => ReplyLeases.invalidateBinding id t
  | invalidateAll => ReplyLeases.invalidateAll t

/-- The token handed out or taken back. -/
def out (t : ExpectedReplyLeases) : LeaseEvent → List LeaseCall
  | acquire captured deadline now =>
    match (ReplyLeases.acquire captured deadline now t).1 with
    | .ok token => [.acquired token]
    | .error _ => []
  | release token =>
    match (ReplyLeases.release token t).1 with
    | .ok _ => [.released token]
    | .error _ => []
  | _ => []

end LeaseEvent

/-- Any calls, on a fresh table. -/
def leaseMachine : Machine ExpectedReplyLeases LeaseEvent LeaseCall where
  Init t := t = {}
  Enabled _ _ := True
  next t ev := ev.next t
  out t ev := ev.out t

/-- The token of the last use of a slot. -/
def tokenOf (uses : Uses) (i : Fin kReplyLeaseUsesMax) : ReplyLeaseToken :=
  ⟨UInt32.ofNat i, (uses i).serial⟩

/-- The slots against the tokens handed out and taken back. -/
structure Ledger (h : List LeaseCall) (uses : Uses) : Prop where
  serials : ∀ token, .acquired token ∈ h →
    ∃ i : Fin kReplyLeaseUsesMax, token.useSlot = UInt32.ofNat i ∧ token.serial ≤ (uses i).serial
  live : ∀ i, (uses i).used = true → .acquired (tokenOf uses i) ∈ h ∧ .released (tokenOf uses i) ∉ h
  settled : ∀ token, .acquired token ∈ h →
    .released token ∈ h ∨ ∃ i, (uses i).used = true ∧ token = tokenOf uses i
  taken : ∀ token, .released token ∈ h → .acquired token ∈ h
  once : ∀ pre token post, h = pre ++ .acquired token :: post → .acquired token ∉ pre

section Ledgers

variable {h : List LeaseCall} {uses uses' : Uses}

theorem Ledger.congr (hl : Ledger h uses)
    (hsame : ∀ i, (uses' i).used = (uses i).used ∧ (uses' i).serial = (uses i).serial) : Ledger h uses' := by
  have htoken : ∀ i, tokenOf uses' i = tokenOf uses i := fun i => by rw [tokenOf, tokenOf, (hsame i).2]
  refine ⟨fun token ht => ?_, fun i hi => ?_, fun token ht => ?_, hl.taken, hl.once⟩
  · obtain ⟨i, hslot, hle⟩ := hl.serials token ht
    exact ⟨i, hslot, (hsame i).2 ▸ hle⟩
  · rw [htoken]
    exact hl.live i ((hsame i).1 ▸ hi)
  · rcases hl.settled token ht with hreleased | ⟨i, hi, rfl⟩
    · exact .inl hreleased
    · exact .inr ⟨i, (hsame i).1 ▸ hi, (htoken i).symm⟩

theorem slot_inj {i j : Fin kReplyLeaseUsesMax} (h : UInt32.ofNat i = UInt32.ofNat j) : i = j := by
  have hlt : ∀ i : Fin kReplyLeaseUsesMax, i.val < 2 ^ 32 := fun i => Nat.lt_trans i.isLt (by decide)
  have hval := congrArg UInt32.toNat h
  rw [UInt32.toNat_ofNat', UInt32.toNat_ofNat', Nat.mod_eq_of_lt (hlt i), Nat.mod_eq_of_lt (hlt j)] at hval
  exact Fin.ext hval

theorem Ledger.fresh (hl : Ledger h uses) (hi : Grantable uses i serial) :
    .acquired ⟨UInt32.ofNat i, serial⟩ ∉ h := by
  intro hmem
  obtain ⟨j, hslot, hle⟩ := hl.serials _ hmem
  obtain rfl := slot_inj hslot
  have hnext := nextUseSerial_eq_some hi.next
  rw [UInt32.le_iff_toNat_le] at hle
  dsimp only at hle
  omega

theorem Ledger.grant (hl : Ledger h uses) (hi : Grantable uses i serial) (hused : use.used = true)
    (hserial : use.serial = serial) :
    Ledger (h ++ [.acquired ⟨UInt32.ofNat i, serial⟩]) (update uses i use) := by
  have hnext := nextUseSerial_eq_some hi.next
  have hfresh := hl.fresh hi
  have hself : tokenOf (update uses i use) i = ⟨UInt32.ofNat i, serial⟩ := by
    rw [tokenOf, update_self, hserial]
  have hother : ∀ j, j ≠ i → tokenOf (update uses i use) j = tokenOf uses j := by
    intro j hj
    rw [tokenOf, tokenOf, update_of_ne hj]
  refine ⟨fun token ht => ?_, fun j hj => ?_, fun token ht => ?_, fun token ht => ?_, ?_⟩
  · rcases mem_append.mp ht with hold | hnew
    · obtain ⟨j, hslot, hle⟩ := hl.serials token hold
      refine ⟨j, hslot, ?_⟩
      by_cases hj : j = i
      · subst hj
        rw [update_self, hserial]
        rw [UInt32.le_iff_toNat_le] at hle ⊢
        omega
      · rw [update_of_ne hj]
        exact hle
    · cases mem_singleton.mp hnew
      refine ⟨i, rfl, ?_⟩
      rw [update_self, hserial]
      exact UInt32.le_refl _
  · by_cases hji : j = i
    · subst hji
      rw [hself]
      refine ⟨by simp, fun hreleased => ?_⟩
      rcases mem_append.mp hreleased with hold | hnew
      · exact hfresh (hl.taken _ hold)
      · cases mem_singleton.mp hnew
    · rw [update_of_ne hji] at hj
      rw [hother j hji]
      obtain ⟨hacquired, hreleased⟩ := hl.live j hj
      exact ⟨mem_append_left _ hacquired, by simpa using hreleased⟩
  · rcases mem_append.mp ht with hold | hnew
    · rcases hl.settled token hold with hreleased | ⟨j, hj, rfl⟩
      · exact .inl (mem_append_left _ hreleased)
      · have hji : j ≠ i := by
          rintro rfl
          rw [hi.free] at hj
          cases hj
        exact .inr ⟨j, by rw [update_of_ne hji]; exact hj, (hother j hji).symm⟩
    · cases mem_singleton.mp hnew
      exact .inr ⟨i, by rw [update_self]; exact hused, hself.symm⟩
  · exact mem_append_left _ (hl.taken token (by simpa using ht))
  · intro pre token post heq
    rcases eq_nil_or_concat post with rfl | ⟨post', last, rfl⟩
    · obtain ⟨rfl, hlast⟩ := append_inj' heq rfl
      cases hlast
      exact hfresh
    · rw [concat_eq_append, ← cons_append, ← append_assoc] at heq
      obtain ⟨rfl, -⟩ := append_inj' heq rfl
      exact hl.once pre token post' rfl

theorem Ledger.drop (hl : Ledger h uses) (hi : (uses i).used = true) (hused : use.used = false)
    (hserial : use.serial = (uses i).serial) :
    Ledger (h ++ [.released (tokenOf uses i)]) (update uses i use) := by
  have htoken : ∀ j, tokenOf (update uses i use) j = tokenOf uses j := by
    intro j
    rw [tokenOf, tokenOf]
    by_cases hj : j = i
    · rw [hj, update_self, hserial]
    · rw [update_of_ne hj]
  refine ⟨fun token ht => ?_, fun j hj => ?_, fun token ht => ?_, fun token ht => ?_, ?_⟩
  · obtain ⟨j, hslot, hle⟩ := hl.serials token (by simpa using ht)
    have hkept : (update uses i use j).serial = (uses j).serial :=
      congrArg ReplyLeaseToken.serial (htoken j)
    exact ⟨j, hslot, hkept ▸ hle⟩
  · have hji : j ≠ i := by
      rintro rfl
      rw [update_self, hused] at hj
      cases hj
    rw [update_of_ne hji] at hj
    rw [htoken]
    obtain ⟨hacquired, hreleased⟩ := hl.live j hj
    refine ⟨mem_append_left _ hacquired, fun hmem => ?_⟩
    rcases mem_append.mp hmem with hold | hnew
    · exact hreleased hold
    · have heq := LeaseCall.released.inj (mem_singleton.mp hnew)
      exact hji (slot_inj (congrArg ReplyLeaseToken.useSlot heq))
  · rcases hl.settled token (by simpa using ht) with hreleased | ⟨j, hj, rfl⟩
    · exact .inl (mem_append_left _ hreleased)
    · by_cases hji : j = i
      · subst hji
        exact .inl (by simp)
      · exact .inr ⟨j, by rw [update_of_ne hji]; exact hj, (htoken j).symm⟩
  · rcases mem_append.mp ht with hold | hnew
    · exact mem_append_left _ (hl.taken token hold)
    · cases mem_singleton.mp hnew
      exact mem_append_left _ (hl.live i hi).1
  · intro pre token post heq
    rcases eq_nil_or_concat post with rfl | ⟨post', last, rfl⟩
    · obtain ⟨-, hlast⟩ := append_inj' heq rfl
      cases hlast
    · rw [concat_eq_append, ← cons_append, ← append_assoc] at heq
      obtain ⟨rfl, -⟩ := append_inj' heq rfl
      exact hl.once pre token post' rfl

end Ledgers

/-- What holds of every run. -/
structure LeaseInv (t : ExpectedReplyLeases) (h : List LeaseCall) : Prop where
  sound : Sound t
  ledger : Ledger h t.uses

theorem LeaseInv.acquire {h : List LeaseCall} (hi : LeaseInv t h) (captured : ReplyBinding)
    (deadline now : MonotonicMs) :
    LeaseInv (LeaseEvent.next t (.acquire captured deadline now))
      (h ++ LeaseEvent.out t (.acquire captured deadline now)) := by
  have hacquired := acquired_acquire captured deadline now t
  unfold LeaseEvent.next LeaseEvent.out
  dsimp only
  generalize (ReplyLeases.acquire captured deadline now t).1 = r at hacquired ⊢
  generalize (ReplyLeases.acquire captured deadline now t).2 = t' at hacquired ⊢
  cases hacquired with
  | refused status hp =>
    rw [append_nil]
    exact ⟨hi.sound.parks hp, hi.ledger.congr fun i => ⟨hp.used i, hp.serial i⟩⟩
  | granted hp hgrant he deadline now =>
    have hledger := hi.ledger.congr fun i => ⟨hp.used i, hp.serial i⟩
    exact ⟨(hi.sound.parks hp).grant hgrant he deadline now, hledger.grant hgrant rfl rfl⟩

theorem LeaseInv.release {h : List LeaseCall} (hi : LeaseInv t h) (token : ReplyLeaseToken) :
    LeaseInv (LeaseEvent.next t (.release token)) (h ++ LeaseEvent.out t (.release token)) := by
  unfold LeaseEvent.next LeaseEvent.out
  dsimp only
  cases hresolve : t.resolve token with
  | none =>
    obtain ⟨⟨detail, hstatus⟩, hsame⟩ := release_stale hresolve
    rw [hstatus, hsame, append_nil]
    exact hi
  | some i =>
    obtain ⟨e, hholds, heq⟩ := hi.sound.release hresolve
    obtain ⟨hused, rfl⟩ := resolve_eq_some.mp hresolve
    rw [heq]
    exact ⟨hi.sound.drop hholds, hi.ledger.drop hused rfl rfl⟩

theorem leaseMachine_inv {h : List LeaseCall} (hr : leaseMachine.Run t h) : LeaseInv t h := by
  refine Machine.Run.invariant (M := leaseMachine) (I := LeaseInv) (fun t ht => ?_) (fun t h ev hi _ => ?_) hr
  · cases ht
    have hnone : ∀ e, holders (fun _ => {}) e = ∅ := fun e => by simp [holders, Use.holds]
    refine ⟨⟨fun e => ⟨?_, ?_, ?_, ?_⟩, fun i hi => by cases hi⟩, ?_⟩
    · rw [hnone]
      rfl
    · rw [hnone]
      exact masks_zero
    · exact (recomputeDeadline_of_none (hnone e)).symm
    · rw [hnone]
      simp
    · exact ⟨by simp, (fun i hi => by cases hi), by simp, by simp, fun pre token post heq => by simp at heq⟩
  · cases ev with
    | acquire captured deadline now => exact hi.acquire captured deadline now
    | release token => exact hi.release token
    | validate token now =>
      obtain ⟨lastNow, heq⟩ := validate_after token now t
      show LeaseInv (ReplyLeases.validate token now t).2 (h ++ [])
      rw [heq, append_nil]
      exact ⟨⟨hi.sound.entries, hi.sound.live⟩, hi.ledger⟩
    | invalidateBinding id =>
      show LeaseInv (ReplyLeases.invalidateBinding id t) (h ++ [])
      rw [append_nil]
      exact ⟨hi.sound.retire (fun entry => entry.used && entry.binding.id == id) fun entry hp =>
        (Bool.and_eq_true_iff.mp hp).1, hi.ledger⟩
    | invalidateAll =>
      show LeaseInv (ReplyLeases.invalidateAll t) (h ++ [])
      rw [append_nil]
      exact ⟨hi.sound.retire (fun entry => entry.used) fun entry hp => hp, hi.ledger⟩

/-- **The lease table stays consistent.** After any calls it passes its audit; no token is handed out
twice; a token that was taken back, or never handed out, is not found and nothing changes, and any
other is taken back; the probe reports the code that `acquire` would; and a refused `acquire` leaves
the entries and the live uses as they were. -/
theorem leases_consistent {t : ExpectedReplyLeases} {h : List LeaseCall} (hr : leaseMachine.Run t h) :
    checkInvariants t = true ∧
      (∀ pre token post, h = pre ++ .acquired token :: post → .acquired token ∉ pre) ∧
      (∀ token, .released token ∈ h ∨ .acquired token ∉ h →
        (∃ detail, (release token t).1 = .error ⟨.notFound, detail⟩) ∧ (release token t).2 = t) ∧
      (∀ token, .acquired token ∈ h → .released token ∉ h → (release token t).1 = .ok ()) ∧
      (∀ captured deadline now, (probeAcquire captured deadline now t).mapError Status.code =
        ((acquire captured deadline now t).1.map fun _ => ()).mapError Status.code) ∧
      ∀ captured deadline now status, (acquire captured deadline now t).1 = .error status →
        (acquire captured deadline now t).2.entries = t.entries ∧
          ∀ i, (t.uses i).used = true → (acquire captured deadline now t).2.uses i = t.uses i := by
  obtain ⟨hs, hl⟩ := leaseMachine_inv hr
  refine ⟨hs.checkInvariants, hl.once, fun token htoken => ?_, fun token hacquired hreleased => ?_,
    fun captured deadline now => ?_, fun captured deadline now status hstatus => ?_⟩
  · refine release_stale (Option.eq_none_iff_forall_ne_some.mpr fun i hi => ?_)
    obtain ⟨hused, rfl⟩ := resolve_eq_some.mp hi
    obtain ⟨hacquired, hreleased⟩ := hl.live i hused
    exact htoken.elim hreleased fun hnever => hnever hacquired
  · rcases hl.settled token hacquired with hgone | ⟨i, hused, rfl⟩
    · exact absurd hgone hreleased
    · obtain ⟨e, -, heq⟩ := hs.release (resolve_eq_some.mpr ⟨hused, rfl⟩)
      rw [show ReplyLeaseToken.mk _ _ = tokenOf t.uses i from rfl] at heq
      rw [heq]
  · rw [probeAcquire_eq]
  · have hacquired := acquired_acquire captured deadline now t
    rw [hstatus] at hacquired
    generalize (acquire captured deadline now t).2 = t' at hacquired ⊢
    cases hacquired with
    | refused _ hp => exact ⟨rfl, fun i hi => hp.eq_of_used i hi⟩

/-- A use is acquired and released, and its token does nothing more. -/
theorem leases_consistent_sample :
    ∃ t, leaseMachine.Run t [.acquired ⟨0, 1⟩, .released ⟨0, 1⟩] ∧ checkInvariants t = true ∧
      (release ⟨0, 1⟩ t).2 = t := by
  have hr : leaseMachine.Run _ [.acquired ⟨0, 1⟩, .released ⟨0, 1⟩] :=
    Machine.run_exec (M := leaseMachine) rfl
      [.acquire ⟨7, 1, 1, 1⟩ 100 0, .release ⟨0, 1⟩] ⟨trivial, trivial, trivial⟩
  obtain ⟨hcheck, -, hstale, -⟩ := leases_consistent hr
  exact ⟨_, hr, hcheck, (hstale ⟨0, 1⟩ (.inl (by simp))).2⟩

end RouteLoom.ReplyLeases
