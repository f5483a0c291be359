import RouteLoom.Lib.Machine
import RouteLoom.Lib.SlidingWindow
import RouteLoom.Lib.Stateful
import RouteLoom.Routing.Emission

/-!
# Replay windows of group senders

`GroupReplayTable` keeps one window for each group sender. A lower epoch than the window's is
refused, a higher one restarts the window, and inside one epoch a counter is accepted once. A new
sender is refused when the table is full.

* `accept` : one authenticated group frame
* `accept_outcome` : every way a call can end
* `group_counters_accepted_once` : no counter is accepted twice and no window is lost
-/

namespace RouteLoom.GroupReplay

open Lib List

def kCapacity : Nat := 2 * kMaxRouteGateways

def kWindow : UInt64 := 64

/-- Whose window an entry is: a sender, in a network, to a group. -/
structure Owner where
  network : NetworkId
  sender : NodeId
  group : NodeId
  deriving DecidableEq, Repr

structure Entry extends Owner where
  epoch : UInt32
  maximum : UInt64
  /-- bit `i` : counter `maximum - i` was accepted -/
  bitmap : UInt64
  deriving DecidableEq, Repr

structure GroupReplayTable where
  entries : Pool Entry kCapacity := .empty
  replays : UInt32 := 0
  staleEpochs : UInt32 := 0
  capacityRefusals : UInt32 := 0

def owner (context : SecurityContext) : Owner := ⟨context.network, context.sender, context.receiver⟩

def Entry.isFor (o : Owner) (e : Entry) : Bool :=
  e.network == o.network && e.sender == o.sender && e.group == o.group

/-- The entry of the sender and its slot. -/
def GroupReplayTable.findEntry (o : Owner) (t : GroupReplayTable) : Option (Fin kCapacity × Entry) :=
  (t.entries.findIdx (Entry.isFor o)).bind fun i => (t.entries.slots i).map fun e => (i, e)

/-- The first frame of a sender. -/
def openWindow (context : SecurityContext) (counter : UInt64) : Op GroupReplayTable Status Unit := do
  let t ← Op.get
  match t.entries.freeIdx with
  | none =>
    Op.set { t with capacityRefusals := t.capacityRefusals + 1 }
    Op.throw ⟨.noCapacity, "GROUP_REPLAY_TABLE_FULL"⟩
  | some i =>
    Op.set { t with
      entries := t.entries.set i
        { owner context with epoch := context.epoch, maximum := counter, bitmap := 1 } }

/-- A frame of a sender that has a window. -/
def useWindow (i : Fin kCapacity) (entry : Entry) (context : SecurityContext) (counter : UInt64) :
    Op GroupReplayTable Status Unit := do
  let t ← Op.get
  if context.epoch < entry.epoch then
    Op.set { t with staleEpochs := t.staleEpochs + 1 }
    Op.throw ⟨.replayRejected, "GROUP_EPOCH_STALE"⟩
  else if context.epoch > entry.epoch then
    -- the sender rebooted
    Op.set { t with
      entries := t.entries.set i
        { entry with epoch := context.epoch, maximum := counter, bitmap := 1 } }
  else if counter > entry.maximum then
    let shift := counter - entry.maximum
    let bitmap := if shift ≥ kWindow then 0 else entry.bitmap <<< shift
    Op.set { t with
      entries := t.entries.set i { entry with bitmap := bitmap ||| 1, maximum := counter } }
  else
    let distance := entry.maximum - counter
    if distance ≥ kWindow || (entry.bitmap >>> distance) &&& 1 != 0 then
      Op.set { t with replays := t.replays + 1 }
      Op.throw ⟨.replayRejected, "GROUP_REPLAY"⟩
    else
      Op.set { t with
        entries := t.entries.set i { entry with bitmap := entry.bitmap ||| (1 <<< distance) } }

def accept (context : SecurityContext) (counter : UInt64) : Op GroupReplayTable Status Unit := do
  Op.check (refuse (context.scope != .group || kMaxCryptoCounter < counter)
    ⟨.invalidArgument, "not a group replay context"⟩)
  let t ← Op.get
  match t.findEntry (owner context) with
  | none => openWindow context counter
  | some (i, entry) => useWindow i entry context counter

/-! ## How a call ends -/

def Entry.window (e : Entry) : SlidingWindow := ⟨e.maximum, e.bitmap⟩

/-- The entry with another window. -/
def Entry.withWindow (e : Entry) (w : SlidingWindow) : Entry :=
  { e with maximum := w.maximum, bitmap := w.bitmap }

/-- What a call can leave. -/
inductive Outcome (context : SecurityContext) (counter : UInt64) (t : GroupReplayTable) :
    Except Status Unit × GroupReplayTable → Prop
  | refused {e : Status} {t' : GroupReplayTable} (h : t'.entries = t.entries) :
      Outcome context counter t (.error e, t')
  | opened {i : Fin kCapacity} (hnone : t.entries.find (Entry.isFor (owner context)) = none)
      (hfree : t.entries.slots i = none) :
      Outcome context counter t (.ok (), { t with
        entries := t.entries.set i ⟨owner context, context.epoch, counter, 1⟩ })
  | restarted {i : Fin kCapacity} {e : Entry}
      (hidx : t.entries.findIdx (Entry.isFor (owner context)) = some i) (he : t.entries.slots i = some e)
      (hepoch : e.epoch < context.epoch) :
      Outcome context counter t (.ok (), { t with
        entries := t.entries.set i ⟨e.toOwner, context.epoch, counter, 1⟩ })
  | slid {i : Fin kCapacity} {e : Entry}
      (hidx : t.entries.findIdx (Entry.isFor (owner context)) = some i) (he : t.entries.slots i = some e)
      (hepoch : e.epoch = context.epoch) (hfresh : e.window.fresh counter = true) :
      Outcome context counter t (.ok (), { t with
        entries := t.entries.set i (e.withWindow (e.window.insert counter)) })

variable {t t' : GroupReplayTable} {context : SecurityContext} {counter : UInt64}
  {r : Except Status Unit × GroupReplayTable}

variable {e : Entry} {o : Owner} {i : Fin kCapacity}

theorem isFor_iff : e.isFor o = true ↔ e.toOwner = o := by
  unfold Entry.isFor
  simp only [Bool.and_eq_true, beq_iff_eq]
  constructor
  · rintro ⟨⟨hnetwork, hsender⟩, hgroup⟩
    exact Owner.mk.injEq .. ▸ ⟨hnetwork, hsender, hgroup⟩
  · rintro rfl
    exact ⟨⟨rfl, rfl⟩, rfl⟩

theorem openWindow_outcome (hnone : t.entries.find (Entry.isFor (owner context)) = none) :
    Outcome context counter t (openWindow context counter t) := by
  unfold openWindow
  rw [Op.bind_ok (show Op.get t = (.ok t, t) from rfl)]
  cases hfree : t.entries.freeIdx with
  | none => exact .refused rfl
  | some i => exact .opened hnone (Option.isNone_iff_eq_none.mp (firstSlot_some hfree))

theorem useWindow_outcome (hidx : t.entries.findIdx (Entry.isFor (owner context)) = some i)
    (he : t.entries.slots i = some e) : Outcome context counter t (useWindow i e context counter t) := by
  unfold useWindow
  rw [Op.bind_ok (show Op.get t = (.ok t, t) from rfl)]
  by_cases hstale : context.epoch < e.epoch
  · rw [if_pos hstale]
    exact .refused rfl
  rw [if_neg hstale]
  by_cases hlater : context.epoch > e.epoch
  · rw [if_pos hlater]
    exact .restarted hidx he hlater
  rw [if_neg hlater]
  have hepoch : e.epoch = context.epoch := UInt32.le_antisymm (UInt32.not_lt.mp hstale) (UInt32.not_lt.mp hlater)
  by_cases habove : counter > e.maximum
  · rw [if_pos habove]
    have hinsert : (⟨e.toOwner, e.epoch, counter,
        (if counter - e.maximum ≥ kWindow then 0 else e.bitmap <<< (counter - e.maximum)) ||| 1⟩ : Entry) =
        e.withWindow (e.window.insert counter) := by
      unfold SlidingWindow.insert
      rw [if_pos (show e.window.maximum < counter from habove)]
      by_cases hfar : counter - e.maximum ≥ kWindow
      · rw [if_pos hfar, if_pos (show 64 ≤ counter - e.window.maximum from hfar)]
        rfl
      · rw [if_neg hfar, if_neg (show ¬ 64 ≤ counter - e.window.maximum from hfar)]
        rfl
    have hslid := Outcome.slid hidx he hepoch (SlidingWindow.fresh_iff.mpr (.inl habove))
    rw [← hinsert] at hslid
    exact hslid
  rw [if_neg habove]
  by_cases hseen : (e.maximum - counter ≥ kWindow || (e.bitmap >>> (e.maximum - counter)) &&& 1 != 0) = true
  · rw [if_pos hseen]
    exact .refused rfl
  rw [if_neg hseen]
  simp only [Bool.or_eq_true, decide_eq_true_eq, not_or, ge_iff_le, UInt64.not_le, Bool.not_eq_true] at hseen
  have hfresh : e.window.fresh counter = true := by
    rw [SlidingWindow.bit_eq_shift_and hseen.1] at hseen
    exact SlidingWindow.fresh_iff.mpr (.inr hseen)
  have hslid := Outcome.slid hidx he hepoch hfresh
  unfold SlidingWindow.insert at hslid
  rw [if_neg (show ¬ e.window.maximum < counter from habove)] at hslid
  exact hslid

theorem accept_outcome (context : SecurityContext) (counter : UInt64) (t : GroupReplayTable) :
    Outcome context counter t (accept context counter t) := by
  unfold accept
  rw [Op.refuse_bind]
  split
  · exact .refused rfl
  rw [Op.bind_ok (show Op.get t = (.ok t, t) from rfl)]
  unfold GroupReplayTable.findEntry
  cases hidx : t.entries.findIdx (Entry.isFor (owner context)) with
  | none => exact openWindow_outcome (Pool.findIdx_isSome_iff.mp hidx)
  | some i =>
    obtain ⟨e, he, -⟩ := Pool.findIdx_some hidx
    rw [Option.bind_some, he, Option.map_some]
    exact useWindow_outcome hidx he

/-! ## Sequences of calls -/

/-- A frame that was accepted. -/
structure Accepted extends Owner where
  epoch : UInt32
  counter : UInt64
  deriving DecidableEq, Repr

/-- Frames that reach one table, in any order; a run emits the accepted ones. -/
def groupMachine : Machine GroupReplayTable (SecurityContext × UInt64) Accepted where
  Init t := t = {}
  Enabled _ _ := True
  next t frame := (accept frame.1 frame.2 t).2
  out t frame :=
    if (accept frame.1 frame.2 t).1.isOk then [⟨owner frame.1, frame.1.epoch, frame.2⟩] else []

/-- The table would refuse the frame. -/
def Spent (t : GroupReplayTable) (a : Accepted) : Prop :=
  ∃ e, t.entries.find (Entry.isFor a.toOwner) = some e ∧
    (a.epoch < e.epoch ∨ a.epoch = e.epoch ∧ e.window.fresh a.counter = false)

variable {a : Accepted} {h : List Accepted}

theorem fresh_start (counter : UInt64) : (⟨counter, 1⟩ : SlidingWindow).fresh counter = false := by
  rw [SlidingWindow.fresh, UInt64.sub_self]
  simp [UInt64.lt_irrefl, SlidingWindow.bit]

theorem find_set_other (hold : ∀ e₀, t.entries.slots i = some e₀ →
    e₀.toOwner = e.toOwner) (ho : e.toOwner ≠ o) :
    (t.entries.set i e).find (Entry.isFor o) = t.entries.find (Entry.isFor o) := by
  refine Pool.find_set_miss ?_ (Bool.eq_false_iff.mpr fun h => ho (isFor_iff.mp h))
  cases hi : t.entries.slots i with
  | none => rfl
  | some e₀ =>
    refine Bool.eq_false_iff.mpr fun h => ho ?_
    rw [← hold e₀ hi]
    exact isFor_iff.mp h

theorem owner_of_findIdx (hidx : t.entries.findIdx (Entry.isFor o) = some i) (he : t.entries.slots i = some e) :
    e.toOwner = o := by
  obtain ⟨e', he', hfor⟩ := Pool.findIdx_some hidx
  rw [he] at he'
  cases he'
  exact isFor_iff.mp hfor

theorem Outcome.find_other (ho : Outcome context counter t r) (hne : o ≠ owner context) :
    r.2.entries.find (Entry.isFor o) = t.entries.find (Entry.isFor o) := by
  cases ho with
  | refused hentries => rw [hentries]
  | opened hnone hfree =>
    exact find_set_other (fun e₀ h => by rw [hfree] at h; cases h) hne.symm
  | restarted hidx he hepoch | slid hidx he hepoch hfresh =>
    have howner := owner_of_findIdx hidx he
    refine find_set_other (fun e₀ h => ?_) (fun h => hne (h.symm.trans howner))
    rw [he] at h
    cases h
    rfl

theorem Spent.step (hs : Spent t a) (ho : Outcome context counter t r) : Spent r.2 a := by
  by_cases hother : a.toOwner = owner context
  · unfold Spent at hs ⊢
    rw [hother] at hs ⊢
    obtain ⟨e₀, hfind, hspent⟩ := hs
    cases ho with
    | refused hentries =>
      rw [hentries]
      exact ⟨e₀, hfind, hspent⟩
    | opened hnone hfree =>
      rw [hnone] at hfind
      cases hfind
    | restarted hidx he hepoch =>
      rw [Pool.find_eq_of_findIdx hidx, he] at hfind
      cases hfind
      have howner := owner_of_findIdx hidx he
      refine ⟨_, Pool.find_set_hit hidx (isFor_iff.mpr howner), .inl ?_⟩
      rcases hspent with hlt | ⟨heq, -⟩
      · exact UInt32.lt_trans hlt hepoch
      · exact heq ▸ hepoch
    | slid hidx he hepoch hfresh =>
      rw [Pool.find_eq_of_findIdx hidx, he] at hfind
      cases hfind
      have howner := owner_of_findIdx hidx he
      refine ⟨_, Pool.find_set_hit hidx (isFor_iff.mpr howner), ?_⟩
      refine hspent.imp id fun ⟨heq, hold⟩ => ⟨heq, Bool.eq_false_iff.mpr fun hnew => ?_⟩
      rw [(SlidingWindow.fresh_insert hfresh hnew).1] at hold
      cases hold
  · unfold Spent at hs ⊢
    rw [ho.find_other hother]
    exact hs

theorem Outcome.accepted (ho : Outcome context counter t (.ok (), t')) :
    ¬ Spent t ⟨owner context, context.epoch, counter⟩ ∧ Spent t' ⟨owner context, context.epoch, counter⟩ := by
  cases ho with
  | opened hnone hfree =>
    refine ⟨fun ⟨e, hfind, _⟩ => ?_, _, Pool.find_set_fresh hnone (isFor_iff.mpr rfl), .inr ⟨rfl, ?_⟩⟩
    · rw [hnone] at hfind
      cases hfind
    · exact fresh_start counter
  | restarted hidx he hepoch =>
    have hfor := isFor_iff.mpr (owner_of_findIdx hidx he)
    refine ⟨fun ⟨e, hfind, hspent⟩ => ?_, _, Pool.find_set_hit hidx hfor, .inr ⟨rfl, fresh_start counter⟩⟩
    rw [Pool.find_eq_of_findIdx hidx, he] at hfind
    cases hfind
    rcases hspent with hlt | ⟨heq, -⟩
    · exact UInt32.lt_irrefl _ (UInt32.lt_trans hlt hepoch)
    · exact UInt32.lt_irrefl _ (heq ▸ hepoch)
  | slid hidx he hepoch hfresh =>
    have hfor := isFor_iff.mpr (owner_of_findIdx hidx he)
    refine ⟨fun ⟨e, hfind, hspent⟩ => ?_, _, Pool.find_set_hit hidx hfor, .inr ⟨hepoch.symm, ?_⟩⟩
    · rw [Pool.find_eq_of_findIdx hidx, he] at hfind
      cases hfind
      rcases hspent with hlt | ⟨-, hold⟩
      · exact UInt32.lt_irrefl _ (hepoch ▸ hlt)
      · rw [hfresh] at hold
        cases hold
    · exact Bool.eq_false_iff.mpr fun hnew => (SlidingWindow.fresh_insert hfresh hnew).2 rfl

/-- **A window stays where it is**: every slot keeps its owner, and only its owner's frames touch it. -/
theorem Outcome.slots (ho : Outcome context counter t r) (hi : t.entries.slots i = some e) :
    ∃ e', r.2.entries.slots i = some e' ∧ e'.toOwner = e.toOwner ∧ (owner context ≠ e.toOwner → e' = e) := by
  have hkeep : ∀ {j : Fin kCapacity} {new : Entry}, (j = i → new.toOwner = e.toOwner ∧
      owner context = e.toOwner) → ∃ e', (t.entries.set j new).slots i = some e' ∧
        e'.toOwner = e.toOwner ∧ (owner context ≠ e.toOwner → e' = e) := by
    intro j new hnew
    by_cases hj : i = j
    · subst hj
      obtain ⟨howner, hcontext⟩ := hnew rfl
      exact ⟨new, Pool.set_slots_self _ _ _, howner, fun hne => absurd hcontext hne⟩
    · exact ⟨e, (Pool.set_slots_ne _ _ hj).trans hi, rfl, fun _ => rfl⟩
  cases ho with
  | refused hentries => exact ⟨e, by rw [hentries, hi], rfl, fun _ => rfl⟩
  | opened hnone hfree =>
    refine hkeep fun hj => ?_
    rw [hj, hi] at hfree
    cases hfree
  | restarted hidx he hepoch | slid hidx he hepoch hfresh =>
    refine hkeep fun hj => ?_
    have howner := owner_of_findIdx hidx he
    rw [hj, hi] at he
    cases he
    exact ⟨rfl, howner.symm⟩

theorem exec_slots (frames : List (SecurityContext × UInt64)) (hi : t.entries.slots i = some e) :
    ∃ e', (groupMachine.exec t h frames).1.entries.slots i = some e' ∧ e'.toOwner = e.toOwner ∧
      ((∀ frame ∈ frames, owner frame.1 ≠ e.toOwner) → e' = e) := by
  induction frames generalizing t h e with
  | nil => exact ⟨e, hi, rfl, fun _ => rfl⟩
  | cons frame frames ih =>
    obtain ⟨e₁, h₁, howner, hsame⟩ := (accept_outcome frame.1 frame.2 t).slots hi
    obtain ⟨e₂, h₂, howner₂, hsame₂⟩ := ih (h := h ++ groupMachine.out t frame) h₁
    refine ⟨e₂, h₂, howner₂.trans howner, fun hall => ?_⟩
    have hfirst := hsame (hall frame mem_cons_self)
    rw [hfirst] at hsame₂
    exact hsame₂ fun f hf => hall f (mem_cons_of_mem frame hf)

/-! ## Counters are accepted once -/

theorem groupMachine_inv (hr : groupMachine.Run t h) : h.Nodup ∧ ∀ a ∈ h, Spent t a := by
  refine Machine.Run.invariant (M := groupMachine) (I := fun t h => h.Nodup ∧ ∀ a ∈ h, Spent t a)
    (fun _ _ => ⟨nodup_nil, by simp⟩) (fun t h frame ⟨hnodup, hspent⟩ _ => ?_) hr
  have ho := accept_outcome frame.1 frame.2 t
  show (h ++ if (accept frame.1 frame.2 t).1.isOk then _ else []).Nodup ∧
    ∀ a ∈ h ++ (if (accept frame.1 frame.2 t).1.isOk then _ else []), Spent (accept frame.1 frame.2 t).2 a
  generalize accept frame.1 frame.2 t = r at ho ⊢
  have hkept : ∀ a ∈ h, Spent r.2 a := fun a ha => (hspent a ha).step ho
  obtain ⟨_ | _, t'⟩ := r
  · show (h ++ []).Nodup ∧ ∀ a ∈ h ++ [], Spent t' a
    rw [append_nil]
    exact ⟨hnodup, hkept⟩
  · obtain ⟨hnew, hspentNew⟩ := ho.accepted
    rw [if_pos (by rfl)]
    refine ⟨nodup_append.mpr ⟨hnodup, nodup_singleton _, fun a ha b hb => ?_⟩, fun a ha => ?_⟩
    · rw [mem_singleton.mp hb]
      rintro rfl
      exact hnew (hspent _ ha)
    · rcases mem_append.mp ha with ha | ha
      · exact hkept a ha
      · rw [mem_singleton.mp ha]
        exact hspentNew

/-- **Over any sequence of frames a counter is accepted once, a window stays with its sender, and a
refused frame leaves the entries as they were.** -/
theorem group_counters_accepted_once (hr : groupMachine.Run t h) :
    h.Nodup ∧ (∀ frames i e, t.entries.slots i = some e →
        ∃ e', (groupMachine.exec t h frames).1.entries.slots i = some e' ∧ e'.toOwner = e.toOwner ∧
          ((∀ frame ∈ frames, owner frame.1 ≠ e.toOwner) → e' = e)) ∧
      ∀ context counter status, (accept context counter t).1 = .error status →
        (accept context counter t).2.entries = t.entries := by
  refine ⟨(groupMachine_inv hr).1, fun frames i e hi => exec_slots frames hi, fun context counter status he => ?_⟩
  have ho := accept_outcome context counter t
  generalize accept context counter t = r at ho he ⊢
  cases ho with
  | refused hentries => exact hentries
  | opened hnone hfree => cases he
  | restarted hidx hslot hepoch => cases he
  | slid hidx hslot hepoch hfresh => cases he

/-- A group context of sender 7. -/
def gatewayContext (epoch : UInt32) : SecurityContext :=
  { scope := .group, network := 1, sender := 7, receiver := 9, epoch }

/-- Counters 70, 3 and 71 arrive, the second below the window, then 70 again. -/
theorem group_counters_accepted_once_sample :
    (∃ t, groupMachine.Run t [⟨⟨1, 7, 9⟩, 2, 70⟩, ⟨⟨1, 7, 9⟩, 2, 71⟩]) ∧
      [(⟨⟨1, 7, 9⟩, 2, 70⟩ : Accepted), ⟨⟨1, 7, 9⟩, 2, 71⟩].Nodup := by
  have hr := Machine.run_exec (M := groupMachine) rfl
    [(gatewayContext 2, 70), (gatewayContext 2, 3), (gatewayContext 2, 71), (gatewayContext 2, 70)]
    ⟨trivial, trivial, trivial, trivial, trivial⟩
  have hout : (groupMachine.exec {} [] [(gatewayContext 2, 70), (gatewayContext 2, 3),
      (gatewayContext 2, 71), (gatewayContext 2, 70)]).2 =
      [⟨⟨1, 7, 9⟩, 2, 70⟩, ⟨⟨1, 7, 9⟩, 2, 71⟩] := by decide
  rw [hout] at hr
  exact ⟨⟨_, hr⟩, (group_counters_accepted_once hr).1⟩

end RouteLoom.GroupReplay
