import RouteLoom.Security.Replay
import RouteLoom.Lib.Allocation
import RouteLoom.Lib.Machine

/-!
# No counter is accepted twice

Any number of guards and windows over one store, with failing commits and crashes at any store
operation. The bitmaps are lost at a crash, so what was accepted must always lie under a ceiling
that is already durable. Windows of one context may coexist: what each of them may still accept is
kept apart by the compare-and-swap on the stored record.

* `ReplayGuard.System`, `ReplayGuard.replaySystem` : the windows, the store and their runs
* `ReplayGuard.Cell` : the invariant between the stored floor and record of one slot, the windows
  that share it and the accepted counters
* `ReplayGuard.accepted_once` : **no run accepts a counter of one context twice**
-/

namespace RouteLoom.ReplayGuard

open Lib Function List

/-! ## What each method can do -/

variable {counter c : UInt64} {slid : SlidingWindow} {r record : ReplayWindowRecord} {i : Nat}

section Specs

variable {Q : Unit → Window → ReplayStore → Prop} {E : Status → Window → ReplayStore → Prop}
  {R : ReplayStore → Prop} {w : Window} {s : ReplayStore} {context : SecurityContext}

/-- The store becomes `s'`, which a crash, a failure or the return may leave. -/
abbrev Lands (Q : Unit → Window → ReplayStore → Prop) (E : Status → Window → ReplayStore → Prop)
    (R : ReplayStore → Prop) (w w' : Window) (s' : ReplayStore) : Prop :=
  R s' ∧ (∀ e, E e w s') ∧ Q () w' s'

theorem wp_floorState {Q : Option ReplayFloorRecord → Window → ReplayStore → Prop}
    (hR : R s) (hE : ∀ e, E e w s) (hQ : Q (s.floors (floorSlot context)) w s) :
    Method.wp (floorState context) Q E R w s := by
  unfold floorState loadFloor
  simp only [Method.wp_bind, Method.wp_load, Method.wp_pure]
  refine ⟨hR, ?_, hE⟩
  cases hf : s.floors (floorSlot context) with
  | none =>
    rw [hf] at hQ
    exact hQ
  | some floor =>
    simp only [Method.wp_bind, Method.wp_pure]
    rw [Method.wp_ofExcept]
    rw [hf] at hQ
    exact ⟨fun _ _ => hQ, fun e _ => hE e⟩

theorem stale_ok {epoch : UInt32} {floor : Option ReplayFloorRecord} (h : stale epoch floor = .ok ()) :
    ∀ f, floor = some f → f.minimumEpoch ≤ epoch := by
  rintro f rfl
  unfold stale at h
  split at h
  · cases h
  · rename_i hlt
    simpa using hlt

theorem wp_ratchetFloor {floor : Option ReplayFloorRecord} (hR : R s) (hE : ∀ e, E e w s)
    (hkeep : ∀ f, floor = some f → context.epoch ≤ f.minimumEpoch → Q () w s)
    (hraise : (∀ f, floor = some f → f.minimumEpoch < context.epoch) →
      Lands Q E R w w (s.setFloor (floorSlot context) (nextFloor context floor))) :
    Method.wp (ratchetFloor context floor) Q E R w s := by
  unfold ratchetFloor
  split
  · rename_i h
    cases floor with
    | none => cases h
    | some f => exact hkeep f rfl (by simpa using h)
  · rename_i h
    have hlt : ∀ f, floor = some f → f.minimumEpoch < context.epoch := by
      rintro f rfl
      simpa using h
    obtain ⟨hR', hE', hQ'⟩ := hraise hlt
    exact ⟨hR, hR', hQ', fun e => ⟨hE e, hE' e⟩⟩

/-- The store after the floor of a context was raised. -/
abbrev floorRaised (context : SecurityContext) (s : ReplayStore) : ReplayStore :=
  s.setFloor (floorSlot context) (nextFloor context (s.floors (floorSlot context)))

theorem wp_checkFloor (hR : R s) (hE : ∀ e, E e w s) (hQ : Q () w s)
    (hraise : (∀ f, s.floors (floorSlot context) = some f → f.minimumEpoch < context.epoch) →
      Lands Q E R w w (floorRaised context s)) : Method.wp (checkFloor context) Q E R w s := by
  unfold checkFloor
  rw [Method.wp_bind]
  refine wp_floorState hR hE ?_
  rw [Method.wp_bind, Method.wp_ofExcept]
  exact ⟨fun _ _ => wp_ratchetFloor hR hE (fun _ _ _ => hQ) hraise, fun e _ => hE e⟩

/-- Opening either finds the floor at its epoch, or raises the floor to it. -/
theorem wp_openContext (hR : R s) (hE : ∀ e, E e {} s)
    (hsame : ∀ f record, s.floors (floorSlot context) = some f → f.minimumEpoch = context.epoch →
      openRecord context (s.floors (floorSlot context)) (s.windows (floorSlot context)) = .ok record →
      Q () (openedWindow context record) s)
    (hraise : (∀ f, s.floors (floorSlot context) = some f → f.minimumEpoch < context.epoch) → ∀ record,
      openRecord context (s.floors (floorSlot context)) (s.windows (floorSlot context)) = .ok record →
      Lands Q E R {} (openedWindow context record) (floorRaised context s)) :
    Method.wp (openContext context) Q E R w s := by
  unfold openContext loadWindow
  rw [Method.wp_bind, Method.wp_set, Method.wp_bind]
  refine wp_floorState hR hE ?_
  rw [Method.wp_bind, Method.wp_ofExcept]
  refine ⟨fun _ hstale => ?_, fun e _ => hE e⟩
  simp only [Method.wp_bind, Method.wp_load, Method.wp_pure]
  refine ⟨hR, ?_, hE⟩
  rw [Method.wp_ofExcept]
  refine ⟨fun record hrecord => ?_, fun e _ => hE e⟩
  exact wp_ratchetFloor hR hE
    (fun f hf hle => hsame f record hf (UInt32.le_antisymm (stale_ok hstale f hf) hle) hrecord)
    fun hlt => hraise hlt record hrecord

theorem wp_checkWindowFloor (hR : R s) (hE : ∀ e, E e w s)
    (hQ : ∀ f, s.floors w.slot = some f → f.minimumEpoch ≤ w.epoch → Q () w s) :
    Method.wp checkWindowFloor Q E R w s := by
  unfold checkWindowFloor loadFloor
  simp only [Method.wp_bind, Method.wp_get, Method.wp_load, Method.wp_pure]
  refine ⟨hR, ?_, hE⟩
  cases hf : s.floors w.slot with
  | none => exact hE _
  | some floor =>
    simp only [Method.wp_bind]
    rw [Method.wp_ofExcept]
    refine ⟨fun _ _ => ?_, fun e _ => hE e⟩
    rw [Method.wp_ofExcept]
    exact ⟨fun _ hstale => hQ floor hf (stale_ok hstale floor rfl), fun e _ => hE e⟩

theorem wp_commitCeiling {ceiling : UInt64} (hR : R s) (hE : ∀ e, E e w s)
    (hcommit : notSuperseded w (s.windows w.slot) = true →
      Lands Q E R w { w with record := nextRecord w.record ceiling }
        (s.setWindow w.slot (nextRecord w.record ceiling))) :
    Method.wp (commitCeiling ceiling) Q E R w s := by
  unfold commitCeiling loadWindow
  simp only [Method.wp_bind, Method.wp_get, Method.wp_load, Method.wp_pure]
  refine ⟨hR, ?_, hE⟩
  split
  · rename_i hcas
    obtain ⟨hR', hE', hQ'⟩ := hcommit hcas
    unfold commitWindow
    simp only [Method.wp_bind, Method.wp_commit, Method.wp_set]
    exact ⟨hR, hR', hQ', fun e => ⟨hE e, hE' e⟩⟩
  · exact hE _

/-- Accepting either uses a counter under the ceiling of the window's record, or commits a higher
ceiling first. -/
theorem wp_acceptFrame {ahead : UInt32} (hR : R s) (hE : ∀ e, E e w s)
    (hquiet : ∀ f slid, w.isOpen = true → s.floors w.slot = some f → f.minimumEpoch ≤ w.epoch →
      slide w counter = .ok slid → w.record.initialized ≠ 0 →
      slid.maximum ≤ w.record.acceptedCeiling →
      Q () { w with maximumCounter := slid.maximum, bitmap := slid.bitmap, live := true } s)
    (hcommit : ∀ f slid, w.isOpen = true → s.floors w.slot = some f → f.minimumEpoch ≤ w.epoch →
      slide w counter = .ok slid →
      (w.record.initialized = 0 ∨ w.record.acceptedCeiling < slid.maximum) →
      notSuperseded w (s.windows w.slot) = true →
      Lands Q E R w { w with
          record := nextRecord w.record (raisedCeiling ahead slid.maximum)
          maximumCounter := slid.maximum, bitmap := slid.bitmap, live := true }
        (s.setWindow w.slot (nextRecord w.record (raisedCeiling ahead slid.maximum)))) :
    Method.wp (acceptFrame ahead counter) Q E R w s := by
  unfold acceptFrame
  rw [Method.wp_bind, Method.wp_get]
  split
  · exact hE _
  · rename_i hopen
    rw [Bool.not_eq_true', Bool.not_eq_false] at hopen
    rw [Method.wp_bind]
    refine wp_checkWindowFloor hR hE fun f hf hle => ?_
    rw [Method.wp_bind, Method.wp_ofExcept]
    refine ⟨fun slid hslid => ?_, fun e _ => hE e⟩
    unfold coverMaximum
    rw [Method.wp_bind, Method.wp_bind, Method.wp_get]
    split
    · rename_i hneed
      refine wp_commitCeiling hR hE fun hcas => ?_
      simp only [Bool.or_eq_true, beq_iff_eq, decide_eq_true_eq] at hneed
      exact hcommit f slid hopen hf hle hslid hneed hcas
    · rename_i hfree
      simp only [Bool.or_eq_true, beq_iff_eq, decide_eq_true_eq, not_or, UInt64.not_lt] at hfree
      exact hquiet f slid hopen hf hle hslid hfree.1 hfree.2

theorem wp_closeContext (hR : R s) (hE : ∀ e, E e {} s) (hQ : Q () {} s)
    (hcommit : ∀ f, tightens w = true → s.floors w.slot = some f → f.minimumEpoch ≤ w.epoch →
      notSuperseded w (s.windows w.slot) = true →
      Lands Q E R {} {} (s.setWindow w.slot (nextRecord w.record w.maximumCounter))) :
    Method.wp closeContext Q E R w s := by
  unfold closeContext
  rw [Method.wp_andFinally, Method.wp_bind, Method.wp_get]
  split
  · rename_i htight
    rw [Method.wp_bind]
    refine wp_checkWindowFloor hR hE fun f hf hle => ?_
    exact wp_commitCeiling hR hE fun hcas => hcommit f htight hf hle hcas
  · exact hQ

end Specs

/-! ## Windows over one store -/

/-- A window and the context it was opened for. -/
structure Held where
  context : SecurityContext := {}
  window : Window := {}
  deriving DecidableEq

/-- The store and all windows, of any guard. -/
structure System where
  store : ReplayStore := {}
  held : Nat → Held := fun _ => {}

/-- Scope, network, sender and receiver: a context without its epoch. -/
def pair (context : SecurityContext) : SecurityScope × NetworkId × NodeId × NodeId :=
  (context.scope, context.network, context.sender, context.receiver)

/-- A call on window `i`, with the outcomes of its store operations, or a crash between calls. -/
inductive Event
  | openContext (i : Nat) (context : SecurityContext) (outcomes : List (Outcome Status))
  | accept (i : Nat) (reservationAhead : UInt32) (counter : UInt64)
      (outcomes : List (Outcome Status))
  | closeContext (i : Nat) (outcomes : List (Outcome Status))
  | checkFloor (context : SecurityContext) (outcomes : List (Outcome Status))
  | crash

/-- What a call leaves: window `i` as the method left it, or no window at all after a crash. -/
def System.finish (st : System) (i : Nat) (context : SecurityContext)
    (result : Option (Except Status Unit × Window) × ReplayStore) : System :=
  match result.1 with
  | none => { store := result.2 }
  | some (_, window) =>
    { store := result.2, held := update st.held i ⟨context, window⟩ }

/-- What a call without a window leaves. -/
def System.finishStore (st : System)
    (result : Option (Except Status Unit × Window) × ReplayStore) : System :=
  match result.1 with
  | none => { store := result.2 }
  | some _ => { st with store := result.2 }

def System.call (st : System) (i : Nat) (method : Guarded Unit) (outcomes : List (Outcome Status)) :
    Option (Except Status Unit × Window) × ReplayStore :=
  method.call (st.held i).window outcomes st.store

def next (st : System) : Event → System
  | .openContext i context outcomes =>
    st.finish i context (st.call i (openContext context) outcomes)
  | .accept i ahead counter outcomes =>
    st.finish i (st.held i).context (st.call i (acceptFrame ahead counter) outcomes)
  | .closeContext i outcomes =>
    st.finish i (st.held i).context (st.call i closeContext outcomes)
  | .checkFloor context outcomes =>
    st.finishStore ((checkFloor context).call {} outcomes st.store)
  | .crash => { store := st.store }

/-- What a call reports: `added` if it succeeded. -/
def reported (result : Option (Except Status Unit × Window) × ReplayStore)
    (added : List (SecurityContext × UInt64)) : List (SecurityContext × UInt64) :=
  match result.1 with
  | some (.ok _, _) => added
  | _ => []

/-- The counter that an event accepts, with its context. -/
def out (st : System) : Event → List (SecurityContext × UInt64)
  | .accept i ahead counter outcomes =>
    reported (st.call i (acceptFrame ahead counter) outcomes) [((st.held i).context, counter)]
  | _ => []

/-- Only contexts in use are opened, and the generation of a record does not wrap. -/
def Enabled (used : SecurityContext → Prop) (st : System) : Event → Prop
  | .openContext _ context _ => used context
  | .accept i _ _ _ | .closeContext i _ => (st.held i).window.record.generation ≠ 0xFFFFFFFF
  | .checkFloor context _ => used context
  | .crash => True

/-- Runs from any store, with no window open. -/
def replaySystem (used : SecurityContext → Prop) :
    Machine System Event (SecurityContext × UInt64) where
  Init st := ∀ i, st.held i = {}
  Enabled := Enabled used
  next := next
  out := out

instance (used : SecurityContext → Prop) [DecidablePred used] (st : System) :
    (e : Event) → Decidable ((replaySystem used).Enabled st e)
  | .openContext _ context _ => inferInstanceAs (Decidable (used context))
  | .accept i _ _ _ => inferInstanceAs
      (Decidable ((st.held i).window.record.generation ≠ 0xFFFFFFFF))
  | .closeContext i _ => inferInstanceAs
      (Decidable ((st.held i).window.record.generation ≠ 0xFFFFFFFF))
  | .checkFloor context _ => inferInstanceAs (Decidable (used context))
  | .crash => isTrue trivial

/-! ## The invariant of one slot -/

/-- The window has a stored record behind it. -/
def Initialized (x : Held) : Prop := x.window.record.initialized ≠ 0

/-- What the window may accept without another commit. -/
def Free (x : Held) (c : UInt64) : Prop :=
  Initialized x ∧ x.window.sliding.fresh c = true ∧ c ≤ x.window.record.acceptedCeiling

/-- The window is open and uses slot `k`. -/
def InCell (k : UInt32) (x : Held) : Prop := x.window.isOpen = true ∧ x.window.slot = k

/-- What holds of an open window by itself; `F` is the epoch of the floor. -/
structure Opened (used : SecurityContext → Prop) (F : Option UInt32) (x : Held) : Prop where
  context : used x.context
  slot : x.window.slot = floorSlot x.context
  epoch : x.window.epoch = x.context.epoch
  fingerprint : x.window.record.contextFingerprint = replayContextFingerprint x.context
  live : x.window.live = true ↔ Initialized x
  maximum : Initialized x → x.window.maximumCounter ≤ x.window.record.acceptedCeiling
  floor : ∃ e, F = some e ∧ x.window.epoch ≤ e

/-- What the store of slot `k` guarantees after a crash: accepted counters of the floor's epoch lie
under the stored ceiling, and no accepted counter is of a later epoch. -/
structure Stored (k : UInt32) (F : Option UInt32) (p : Option ReplayWindowRecord)
    (h : List (SecurityContext × UInt64)) : Prop where
  floored : ∀ a ∈ h, floorSlot a.1 = k → ∃ e, F = some e ∧ a.1.epoch ≤ e
  covered : ∀ a ∈ h, floorSlot a.1 = k → F = some a.1.epoch →
    ∃ r, p = some r ∧ a.2 ≤ r.acceptedCeiling

/-- The windows of slot `k`, the floor epoch `F`, the stored record `p` and what was accepted. -/
structure Cell (used : SecurityContext → Prop) (k : UInt32) (F : Option UInt32)
    (p : Option ReplayWindowRecord) (held : Nat → Held) (h : List (SecurityContext × UInt64)) : Prop
    extends Stored k F p h where
  opened : ∀ i, InCell k (held i) → Opened used F (held i)
  /-- a window of the floor's epoch has the stored record or an older one -/
  behind : ∀ i, InCell k (held i) → F = some (held i).window.epoch → Initialized (held i) →
    ∃ r, p = some r ∧
      ((held i).window.record = r ∨ (held i).window.record.generation < r.generation) ∧
      ∀ c, Free (held i) c → c ≤ r.acceptedCeiling
  /-- a window with the stored record has seen the largest counter anybody has or may accept -/
  latest : ∀ i, InCell k (held i) → F = some (held i).window.epoch → Initialized (held i) →
    p = some (held i).window.record →
    (∀ a ∈ h, floorSlot a.1 = k → a.1.epoch = (held i).window.epoch →
      a.2 ≤ (held i).window.maximumCounter) ∧
    ∀ j, j ≠ i → InCell k (held j) → (held j).window.epoch = (held i).window.epoch →
      ∀ c, Free (held j) c → c ≤ (held i).window.maximumCounter
  /-- a window without a record is alone, or another record of its context was stored since -/
  blank : ∀ i, InCell k (held i) → F = some (held i).window.epoch → ¬ Initialized (held i) →
    (∃ r, p = some r ∧ r.contextFingerprint = (held i).window.record.contextFingerprint) ∨
    ((∀ a ∈ h, floorSlot a.1 = k → a.1.epoch ≠ (held i).window.epoch) ∧
      ∀ j, j ≠ i → InCell k (held j) → (held j).window.epoch ≠ (held i).window.epoch)

/-! ### The window and the record that a step writes -/

theorem slide_live {w : Window} (hl : w.live = true) (hs : slide w c = .ok slid) :
    w.sliding.fresh c = true ∧ slid = w.sliding.insert c := by
  unfold slide at hs
  rw [hl] at hs
  simp only [Bool.not_true, Bool.false_eq_true, if_false] at hs
  unfold SlidingWindow.insert Window.sliding
  split at hs
  · rename_i hgt
    cases hs
    exact ⟨SlidingWindow.fresh_iff.mpr (Or.inl hgt), (if_pos hgt).symm⟩
  · rename_i hgt
    split at hs
    · cases hs
    · rename_i hbit
      cases hs
      simp only [Bool.or_eq_true, decide_eq_true_eq, not_or, UInt64.not_le, Bool.not_eq_true] at hbit
      rw [SlidingWindow.bit_eq_and_mask hbit.1] at hbit
      exact ⟨SlidingWindow.fresh_iff.mpr (Or.inr hbit), (if_neg hgt).symm⟩

theorem slide_blank {w : Window} (hl : w.live ≠ true) (hs : slide w c = .ok slid) : slid = ⟨c, 1⟩ := by
  unfold slide at hs
  rw [if_pos (by simpa using hl)] at hs
  cases hs
  rfl

theorem le_slid {w : Window} (hs : slide w c = .ok slid) : c ≤ slid.maximum := by
  by_cases hl : w.live = true
  · rw [(slide_live hl hs).2]
    exact (w.sliding.le_maximum_insert c).2
  · rw [slide_blank hl hs]
    exact UInt64.le_refl c

theorem le_raisedCeiling (ahead : UInt32) (m : UInt64) : m ≤ raisedCeiling ahead m := by
  unfold raisedCeiling
  have hahead : ahead.toUInt64.toNat < 2 ^ 32 := by
    rw [UInt32.toNat_toUInt64]
    exact ahead.toNat_lt
  split
  · show m.toNat ≤ (0xFFFFFFFFFFFFFFFF : UInt64).toNat
    have := m.toNat_lt
    rw [show (0xFFFFFFFFFFFFFFFF : UInt64).toNat = 2 ^ 64 - 1 from rfl]
    omega
  · rename_i hle
    have hle' : m.toNat ≤ ((0xFFFFFFFFFFFFFFFF : UInt64) - ahead.toUInt64).toNat :=
      UInt64.not_lt.mp hle
    have hsub : ((0xFFFFFFFFFFFFFFFF : UInt64) - ahead.toUInt64).toNat = 2 ^ 64 - 1 - ahead.toUInt64.toNat :=
      UInt64.toNat_sub_of_le _ _ (by
        show ahead.toUInt64.toNat ≤ 2 ^ 64 - 1
        omega)
    show m.toNat ≤ (m + ahead.toUInt64).toNat
    rw [UInt64.toNat_add]
    omega

section

variable (r : ReplayWindowRecord) (ceiling : UInt64)

@[simp] theorem nextRecord_contextFingerprint :
    (nextRecord r ceiling).contextFingerprint = r.contextFingerprint := rfl

@[simp] theorem nextRecord_acceptedCeiling : (nextRecord r ceiling).acceptedCeiling = ceiling := rfl

@[simp] theorem nextRecord_initialized : (nextRecord r ceiling).initialized = 1 := rfl

@[simp] theorem nextRecord_generation : (nextRecord r ceiling).generation = r.generation + 1 := rfl

end

theorem generation_lt_next (h : r.generation ≠ 0xFFFFFFFF) (ceiling : UInt64) :
    r.generation < (nextRecord r ceiling).generation := by
  rw [nextRecord_generation]
  show r.generation.toNat < (r.generation + 1).toNat
  have hlt := r.generation.toNat_lt
  have hne : r.generation.toNat ≠ 0xFFFFFFFF := fun heq => h (UInt32.toNat_inj.mp heq)
  rw [UInt32.toNat_add, show (1 : UInt32).toNat = 1 from rfl]
  omega

variable {x : Held}

theorem notSuperseded_initialized {p : Option ReplayWindowRecord} (h : Initialized x)
    (hcas : notSuperseded x.window p = true) : p = some x.window.record := by
  unfold notSuperseded at hcas
  unfold Initialized at h
  rw [if_pos (by simpa using h)] at hcas
  simpa using hcas

theorem notSuperseded_blank {p : Option ReplayWindowRecord} (h : ¬ Initialized x)
    (hcas : notSuperseded x.window p = true) :
    ∀ r, p = some r → r.contextFingerprint ≠ x.window.record.contextFingerprint := by
  rintro r rfl
  unfold notSuperseded at hcas
  unfold Initialized at h
  rw [if_neg (by simpa using h)] at hcas
  simpa using hcas

theorem not_free_opened {context : SecurityContext} (c : UInt64) :
    ¬ Free ⟨context, openedWindow context record⟩ c := by
  rintro ⟨hinit, hfresh, hle⟩
  have hr : record.initialized ≠ 0 := hinit
  simp only [Window.sliding, openedWindow, bne_iff_ne, hr, ne_eq, not_false_iff, if_true] at hfresh hle
  exact UInt64.not_lt.mpr hle (SlidingWindow.lt_of_fresh_full hfresh)

theorem not_inCell_closed (k : UInt32) (context : SecurityContext) : ¬ InCell k ⟨context, {}⟩ :=
  fun hc => by cases hc.1

/-- A window that is not of the slot replaces window `i`: whoever is of the slot was so before. -/
theorem inCell_update {k : UInt32} {held : Nat → Held} {j : Nat} (hx : ¬ InCell k x)
    (hj : InCell k (update held i x j)) : j ≠ i ∧ update held i x j = held j := by
  by_cases hji : j = i
  · subst hji
    rw [update_self] at hj
    exact absurd hj hx
  · exact ⟨hji, update_of_ne hji _ _⟩

namespace Cell

variable {used : SecurityContext → Prop} {k : UInt32} {F : Option UInt32}
  {p : Option ReplayWindowRecord} {held held' : Nat → Held} {h h' : List (SecurityContext × UInt64)}

section

variable (H : Cell used k F p held h)
include H

/-- Windows that leave the slot, and whatever happens elsewhere, do no harm. -/
theorem mono (hheld : ∀ i, InCell k (held' i) → held' i = held i)
    (hh : ∀ a ∈ h', floorSlot a.1 = k → a ∈ h) : Cell used k F p held' h' where
  floored a ha hk := H.floored a (hh a ha hk) hk
  covered a ha hk := H.covered a (hh a ha hk) hk
  opened i hi := by
    have heq := hheld i hi
    rw [heq] at hi ⊢
    exact H.opened i hi
  behind i hi := by
    have heq := hheld i hi
    rw [heq] at hi ⊢
    exact H.behind i hi
  latest i hi hF hinit hp := by
    have heq := hheld i hi
    rw [heq] at hi hF hinit hp ⊢
    obtain ⟨h₁, h₂⟩ := H.latest i hi hF hinit hp
    refine ⟨fun a ha hk => h₁ a (hh a ha hk) hk, fun j hj hin => ?_⟩
    have heq' := hheld j hin
    rw [heq'] at hin ⊢
    exact h₂ j hj hin
  blank i hi hF hinit := by
    have heq := hheld i hi
    rw [heq] at hi hF hinit ⊢
    refine (H.blank i hi hF hinit).imp_right fun ⟨h₁, h₂⟩ => ⟨fun a ha hk => h₁ a (hh a ha hk) hk, ?_⟩
    intro j hj hin
    have heq' := hheld j hin
    rw [heq'] at hin ⊢
    exact h₂ j hj hin

/-- Raising the floor: no window and no accepted counter is of the new epoch. -/
theorem raise {e : UInt32} (he : ∀ e', F = some e' → e' < e) : Cell used k (some e) p held h := by
  have late : ∀ i, InCell k (held i) → some e ≠ some (held i).window.epoch := by
    rintro i hi ⟨⟩
    obtain ⟨e', hF, hle⟩ := (H.opened i hi).floor
    exact absurd (he e' hF) (UInt32.not_lt.mpr hle)
  refine
    { floored := fun a ha hk => ?_, covered := fun a ha hk heq => ?_, opened := fun i hi => ?_
      behind := fun i hi hF => absurd hF (late i hi), latest := fun i hi hF => absurd hF (late i hi)
      blank := fun i hi hF => absurd hF (late i hi) }
  · obtain ⟨e', hF, hle⟩ := H.floored a ha hk
    exact ⟨e, rfl, UInt32.le_of_lt (UInt32.lt_of_le_of_lt hle (he e' hF))⟩
  · obtain ⟨e', hF, hle⟩ := H.floored a ha hk
    cases heq
    exact absurd (he e' hF) (UInt32.not_lt.mpr hle)
  · obtain ⟨e', hF, hle⟩ := (H.opened i hi).floor
    exact { H.opened i hi with
      floor := ⟨e, rfl, UInt32.le_of_lt (UInt32.lt_of_le_of_lt hle (he e' hF))⟩ }

/-- Opening a window over the stored record: it starts with nothing free. -/
theorem adopt (hp : p = some r) {context : SecurityContext} (hu : used context) (hF : F = some context.epoch)
    (hr : r.initialized ≠ 0) (hfp : r.contextFingerprint = replayContextFingerprint context)
    (hsame : ∀ c, used c → floorSlot c = k → c.epoch = context.epoch →
      replayContextFingerprint c = replayContextFingerprint context) (i : Nat) :
    Cell used k F p (update held i ⟨context, openedWindow context r⟩) h := by
  have hmax : (openedWindow context r).maximumCounter = r.acceptedCeiling := by
    simp [openedWindow, hr]
  refine { H.toStored with opened := ?_, behind := ?_, latest := ?_, blank := ?_ }
  · intro j hj
    by_cases hji : j = i
    · subst hji
      rw [update_self]
      refine ⟨hu, rfl, rfl, hfp, ?_, fun _ => ?_, context.epoch, hF, UInt32.le_refl _⟩
      · simp [openedWindow, Initialized]
      · rw [hmax]
        exact UInt64.le_refl _
    · rw [update_of_ne hji] at hj ⊢
      exact H.opened j hj
  · intro j hj hFj hinit
    by_cases hji : j = i
    · subst hji
      rw [update_self]
      exact ⟨r, hp, Or.inl rfl, fun c hc => absurd hc (not_free_opened c)⟩
    · rw [update_of_ne hji] at hj hFj hinit ⊢
      exact H.behind j hj hFj hinit
  · intro j hj hFj hinit hpj
    by_cases hji : j = i
    · subst hji
      rw [update_self]
      refine ⟨fun a ha hak hae => ?_, fun l hl hin hepoch c hc => ?_⟩
      · obtain ⟨r', hr', hle⟩ := H.covered a ha hak (hF.trans (congrArg some hae.symm))
        rw [hp] at hr'
        cases hr'
        rw [hmax]
        exact hle
      · rw [update_of_ne hl] at hin hepoch hc
        obtain ⟨r', hr', _, hle⟩ := H.behind l hin (hF.trans (congrArg some hepoch.symm)) hc.1
        rw [hp] at hr'
        cases hr'
        rw [hmax]
        exact hle c hc
    · rw [update_of_ne hji] at hj hFj hinit hpj ⊢
      obtain ⟨h₁, h₂⟩ := H.latest j hj hFj hinit hpj
      refine ⟨h₁, fun l hl hin hepoch c hc => ?_⟩
      by_cases hli : l = i
      · subst hli
        rw [update_self] at hc
        exact absurd hc (not_free_opened c)
      · rw [update_of_ne hli] at hin hepoch hc
        exact h₂ l hl hin hepoch c hc
  · intro j hj hFj hinit
    by_cases hji : j = i
    · subst hji
      rw [update_self] at hinit
      exact absurd hr hinit
    · rw [update_of_ne hji] at hj hFj hinit ⊢
      -- the stored record is of the same context as the blank window
      refine Or.inl ⟨r, hp, ?_⟩
      have ho := H.opened j hj
      rw [ho.fingerprint, hfp]
      refine (hsame _ ho.context (ho.slot.symm.trans hj.2) ?_).symm
      rw [← ho.epoch]
      exact Option.some.inj (hFj.symm.trans hF)

/-- Opening a window without a record at an epoch that is new to the slot. -/
theorem open_blank {context : SecurityContext} (hu : used context) (hF : F = some context.epoch)
    (hnew : ∀ a ∈ h, floorSlot a.1 = k → a.1.epoch ≠ context.epoch)
    (halone : ∀ j, InCell k (held j) → (held j).window.epoch ≠ context.epoch) (i : Nat) :
    Cell used k F p (update held i ⟨context, openedWindow context
      { contextFingerprint := replayContextFingerprint context }⟩) h := by
  have old : ∀ j, j ≠ i → InCell k (held j) → F ≠ some (held j).window.epoch := by
    intro j _ hj hFj
    rw [hF] at hFj
    exact halone j hj (Option.some.inj hFj).symm
  refine { H.toStored with opened := ?_, behind := ?_, latest := ?_, blank := ?_ }
  · intro j hj
    by_cases hji : j = i
    · subst hji
      rw [update_self]
      refine ⟨hu, rfl, rfl, rfl, ?_, fun hinit => absurd rfl hinit, context.epoch, hF, UInt32.le_refl _⟩
      simp [openedWindow, Initialized]
    · rw [update_of_ne hji] at hj ⊢
      exact H.opened j hj
  · intro j hj hFj hinit
    by_cases hji : j = i
    · subst hji
      rw [update_self] at hinit
      exact absurd rfl hinit
    · rw [update_of_ne hji] at hj hFj
      exact absurd hFj (old j hji hj)
  · intro j hj hFj hinit
    by_cases hji : j = i
    · subst hji
      rw [update_self] at hinit
      exact absurd rfl hinit
    · rw [update_of_ne hji] at hj hFj
      exact absurd hFj (old j hji hj)
  · intro j hj hFj _
    by_cases hji : j = i
    · subst hji
      rw [update_self]
      refine Or.inr ⟨hnew, fun l hl hin => ?_⟩
      rw [update_of_ne hl] at hin ⊢
      exact halone l hin
    · rw [update_of_ne hji] at hj hFj
      exact absurd hFj (old j hji hj)

theorem persist (r : ReplayWindowRecord)
    (hcov : ∀ a ∈ h, floorSlot a.1 = k → F = some a.1.epoch → a.2 ≤ r.acceptedCeiling)
    (hold : ∀ j, InCell k (held j) → F = some (held j).window.epoch → Initialized (held j) →
      (held j).window.record.generation < r.generation ∧ ∀ c, Free (held j) c → c ≤ r.acceptedCeiling)
    (hblank : ∀ j, InCell k (held j) → F = some (held j).window.epoch → ¬ Initialized (held j) →
      r.contextFingerprint = (held j).window.record.contextFingerprint) : Cell used k F (some r) held h where
  floored := H.floored
  covered a ha hk hF := ⟨r, rfl, hcov a ha hk hF⟩
  opened := H.opened
  behind j hj hF hinit := ⟨r, rfl, Or.inr (hold j hj hF hinit).1, (hold j hj hF hinit).2⟩
  latest j hj hF hinit hp := by
    have hlt := (hold j hj hF hinit).1
    rw [Option.some.inj hp] at hlt
    exact absurd hlt (UInt32.lt_irrefl _)
  blank j hj hF hinit := Or.inl ⟨r, rfl, hblank j hj hF hinit⟩

theorem accept (hin : InCell k (held i))
    (hF : F = some (held i).window.epoch) (hcontext : x.context = (held i).context)
    (hslot : x.window.slot = (held i).window.slot) (hepoch : x.window.epoch = (held i).window.epoch)
    (hfp : x.window.record.contextFingerprint = (held i).window.record.contextFingerprint)
    (hinit : Initialized x) (hlive : x.window.live = true)
    (hmax : x.window.maximumCounter ≤ x.window.record.acceptedCeiling) (hp : p = some r)
    (hcov : counter ≤ r.acceptedCeiling)
    (hbehind : x.window.record = r ∨ x.window.record.generation < r.generation)
    (hfree : ∀ c, Free x c → c ≤ r.acceptedCeiling) (hself : x.window.record = r →
      (∀ a ∈ h, floorSlot a.1 = k → a.1.epoch = (held i).window.epoch →
        a.2 ≤ x.window.maximumCounter) ∧ counter ≤ x.window.maximumCounter ∧
      ∀ j, j ≠ i → InCell k (held j) → (held j).window.epoch = (held i).window.epoch →
        ∀ c, Free (held j) c → c ≤ x.window.maximumCounter)
    (hother : ∀ j, j ≠ i → InCell k (held j) → (held j).window.epoch = (held i).window.epoch →
      Initialized (held j) → (held j).window.record = r → counter ≤ (held j).window.maximumCounter ∧
        ∀ c, Free x c → c ≤ (held j).window.maximumCounter) :
    Cell used k F p (update held i x) (h ++ [(x.context, counter)]) := by
  have ho := H.opened i hin
  have hctx : x.context.epoch = (held i).window.epoch := by rw [hcontext, ho.epoch]
  have same : ∀ j, F = some (held j).window.epoch → (held j).window.epoch = (held i).window.epoch :=
    fun j hj => Option.some.inj (hj.symm.trans hF)
  refine { floored := ?_, covered := ?_, opened := ?_, behind := ?_, latest := ?_, blank := ?_ }
  · intro a ha hk
    rcases mem_append.mp ha with ha | ha
    · exact H.floored a ha hk
    · rw [mem_singleton.mp ha]
      exact ⟨_, hF, by rw [hctx]; exact UInt32.le_refl _⟩
  · intro a ha hk hFa
    rcases mem_append.mp ha with ha | ha
    · exact H.covered a ha hk hFa
    · rw [mem_singleton.mp ha]
      exact ⟨r, hp, hcov⟩
  · intro j hj
    by_cases hji : j = i
    · subst hji
      rw [update_self]
      refine ⟨hcontext ▸ ho.context, ?_, ?_, ?_, ?_, fun _ => hmax, ?_⟩
      · rw [hslot, ho.slot, hcontext]
      · rw [hepoch, ho.epoch, hcontext]
      · rw [hfp, ho.fingerprint, hcontext]
      · exact ⟨fun _ => hinit, fun _ => hlive⟩
      · rw [hepoch]
        exact ho.floor
    · rw [update_of_ne hji] at hj ⊢
      exact H.opened j hj
  · intro j hj hFj hinitj
    by_cases hji : j = i
    · subst hji
      rw [update_self]
      exact ⟨r, hp, hbehind, hfree⟩
    · rw [update_of_ne hji] at hj hFj hinitj ⊢
      exact H.behind j hj hFj hinitj
  · intro j hj hFj hinitj hpj
    by_cases hji : j = i
    · subst hji
      rw [update_self] at hpj ⊢
      rw [hp] at hpj
      obtain ⟨h₁, h₂, h₃⟩ := hself (Option.some.inj hpj).symm
      refine ⟨fun a ha hk hae => ?_, fun l hl hinl hel => ?_⟩
      · rw [hepoch] at hae
        rcases mem_append.mp ha with ha | ha
        · exact h₁ a ha hk hae
        · rw [mem_singleton.mp ha]
          exact h₂
      · rw [update_of_ne hl] at hinl hel ⊢
        exact h₃ l hl hinl (hel.trans hepoch)
    · rw [update_of_ne hji] at hj hFj hinitj hpj ⊢
      obtain ⟨h₁, h₂⟩ := H.latest j hj hFj hinitj hpj
      rw [hp] at hpj
      obtain ⟨h₃, h₄⟩ := hother j hji hj (same j hFj) hinitj (Option.some.inj hpj).symm
      refine ⟨fun a ha hk hae => ?_, fun l hl hinl hel => ?_⟩
      · rcases mem_append.mp ha with ha | ha
        · exact h₁ a ha hk hae
        · rw [mem_singleton.mp ha]
          exact h₃
      · by_cases hli : l = i
        · subst hli
          rw [update_self]
          exact h₄
        · rw [update_of_ne hli] at hinl hel ⊢
          exact h₂ l hl hinl hel
  · intro j hj hFj hinitj
    by_cases hji : j = i
    · subst hji
      rw [update_self] at hinitj
      exact absurd hinit hinitj
    · rw [update_of_ne hji] at hj hFj hinitj ⊢
      -- window `i` is of the same epoch, so window `j` is not alone
      rcases H.blank j hj hFj hinitj with hdead | ⟨_, halone⟩
      · exact Or.inl hdead
      · exact absurd (same j hFj).symm (halone i (Ne.symm hji) hin)

/-- Window `i` passed the compare-and-swap and is about to raise the ceiling over `m`: everybody else
is under `m`, has an older record, or is a blank window of the same context. -/
theorem under (hin : InCell k (held i)) (hF : F = some (held i).window.epoch)
    (hcas : notSuperseded (held i).window p = true) {m : UInt64}
    (hneed : Initialized (held i) → (held i).window.record.acceptedCeiling ≤ m) :
    (∀ a ∈ h, floorSlot a.1 = k → a.1.epoch = (held i).window.epoch → a.2 ≤ m) ∧
    (∀ j, j ≠ i → InCell k (held j) → (held j).window.epoch = (held i).window.epoch → Initialized (held j) →
      (held j).window.record.generation ≤ (held i).window.record.generation ∧ ∀ c, Free (held j) c → c ≤ m) ∧
    ∀ j, j ≠ i → InCell k (held j) → (held j).window.epoch = (held i).window.epoch →
      ¬ Initialized (held j) → (held i).window.record.contextFingerprint =
        (held j).window.record.contextFingerprint := by
  by_cases hinit : Initialized (held i)
  · have hp := notSuperseded_initialized hinit hcas
    have hle := hneed hinit
    refine ⟨fun a ha hk hae => ?_, fun j _ hj hej hjinit => ?_, fun j hji hj hej hjinit => ?_⟩
    · obtain ⟨r, hr, hcov⟩ := H.covered a ha hk (hF.trans (congrArg some hae.symm))
      rw [hp] at hr
      cases hr
      exact UInt64.le_trans hcov hle
    · obtain ⟨r, hr, hgen, hfree⟩ := H.behind j hj (hF.trans (congrArg some hej.symm)) hjinit
      rw [hp] at hr
      cases hr
      refine ⟨?_, fun c hc => UInt64.le_trans (hfree c hc) hle⟩
      rcases hgen with heq | hlt
      · rw [heq]
        exact UInt32.le_refl _
      · exact UInt32.le_of_lt hlt
    · rcases H.blank j hj (hF.trans (congrArg some hej.symm)) hjinit with ⟨r, hr, hfp⟩ | ⟨_, halone⟩
      · rw [hp] at hr
        cases hr
        exact hfp
      · exact absurd hej.symm (halone i (Ne.symm hji) hin)
  · rcases H.blank i hin hF hinit with ⟨r, hr, hfp⟩ | ⟨hnone, halone⟩
    · exact absurd hfp (notSuperseded_blank hinit hcas r hr)
    · exact ⟨fun a ha hk hae => absurd hae (hnone a ha hk),
        fun j hji hj hej _ => absurd hej (halone j hji hj),
        fun j hji hj hej _ => absurd hej (halone j hji hj)⟩

/-- Above the ceiling of a window that passed the compare-and-swap, nothing was accepted and nobody
else may accept. -/
theorem above (hin : InCell k (held i)) (hF : F = some (held i).window.epoch)
    (hcas : notSuperseded (held i).window p = true)
    (hc : Initialized (held i) → (held i).window.record.acceptedCeiling < c) :
    (∀ a ∈ h, floorSlot a.1 = k → a.1.epoch = (held i).window.epoch → a.2 ≠ c) ∧
    ∀ j, j ≠ i → InCell k (held j) → (held j).window.epoch = (held i).window.epoch → ¬ Free (held j) c := by
  by_cases hinit : Initialized (held i)
  · obtain ⟨hacc, hothers, _⟩ := H.under hin hF hcas fun _ => UInt64.le_refl _
    refine ⟨fun a ha hk hae => ?_, fun j hji hj hej hfree => ?_⟩
    · rintro rfl
      exact UInt64.not_lt.mpr (hacc a ha hk hae) (hc hinit)
    · exact UInt64.not_lt.mpr ((hothers j hji hj hej hfree.1).2 c hfree) (hc hinit)
  · rcases H.blank i hin hF hinit with ⟨r, hr, hfp⟩ | ⟨hnone, halone⟩
    · exact absurd hfp (notSuperseded_blank hinit hcas r hr)
    · exact ⟨fun a ha hk hae => absurd hae (hnone a ha hk), fun j hji hj hej => absurd hej (halone j hji hj)⟩

/-- The raised ceiling is stored, whether or not window `i` learns of it. -/
theorem commit_stored (hin : InCell k (held i)) (hF : F = some (held i).window.epoch)
    (hcas : notSuperseded (held i).window p = true) (hgen : (held i).window.record.generation ≠ 0xFFFFFFFF)
    {m ceiling : UInt64} (hneed : Initialized (held i) → (held i).window.record.acceptedCeiling ≤ m)
    (hm : m ≤ ceiling) : Cell used k F (some (nextRecord (held i).window.record ceiling)) held h := by
  obtain ⟨hacc, hinit, hblank⟩ := H.under hin hF hcas hneed
  have same : ∀ {e}, F = some e → e = (held i).window.epoch :=
    fun he => Option.some.inj (he.symm.trans hF)
  have hlt := generation_lt_next hgen ceiling
  refine H.persist _ (fun a ha hk hFa => ?_) (fun j hj hFj hj' => ?_) fun j hj hFj hj' => ?_
  · rw [nextRecord_acceptedCeiling]
    exact UInt64.le_trans (hacc a ha hk (same hFa)) hm
  · rw [nextRecord_acceptedCeiling]
    by_cases hji : j = i
    · subst hji
      exact ⟨hlt, fun c hc => UInt64.le_trans hc.2.2 (UInt64.le_trans (hneed hj') hm)⟩
    · obtain ⟨hle, hfree⟩ := hinit j hji hj (same hFj) hj'
      exact ⟨UInt32.lt_of_le_of_lt hle hlt, fun c hc => UInt64.le_trans (hfree c hc) hm⟩
  · rw [nextRecord_contextFingerprint]
    by_cases hji : j = i
    · subst hji
      rfl
    · exact hblank j hji hj (same hFj) hj'

omit H in
/-- The stored record is one that only window `i` takes over, with a counter it accepts. -/
theorem accept_over (H : Cell used k F (some r) held h) (hin : InCell k (held i))
    (hF : F = some (held i).window.epoch) (hcounter : counter ≤ slid.maximum)
    (hfp : r.contextFingerprint = (held i).window.record.contextFingerprint)
    (hr : r.initialized ≠ 0) (hceiling : slid.maximum ≤ r.acceptedCeiling)
    (hacc : ∀ a ∈ h, floorSlot a.1 = k → a.1.epoch = (held i).window.epoch → a.2 ≤ slid.maximum)
    (hold : ∀ j, j ≠ i → InCell k (held j) → (held j).window.epoch = (held i).window.epoch →
      Initialized (held j) → (held j).window.record.generation < r.generation ∧
        ∀ c, Free (held j) c → c ≤ slid.maximum) :
    Cell used k F (some r)
      (update held i ⟨(held i).context, { (held i).window with
        record := r, maximumCounter := slid.maximum, bitmap := slid.bitmap, live := true }⟩)
      (h ++ [((held i).context, counter)]) := by
  refine H.accept hin hF rfl rfl rfl hfp hr rfl hceiling rfl (UInt64.le_trans hcounter hceiling)
    (Or.inl rfl) (fun c hc => hc.2.2)
    (fun _ => ⟨hacc, hcounter, fun j hji hj hej c hc => (hold j hji hj hej hc.1).2 c hc⟩)
    fun j hji hj hej hj' hrec => ?_
  -- nobody else can have the record that was just written
  have hlt := (hold j hji hj hej hj').1
  rw [hrec] at hlt
  exact absurd hlt (UInt32.lt_irrefl _)

theorem commit_accept (hin : InCell k (held i)) (hF : F = some (held i).window.epoch)
    (hcas : notSuperseded (held i).window p = true) (hgen : (held i).window.record.generation ≠ 0xFFFFFFFF)
    (ahead : UInt32) (hslid : slide (held i).window counter = .ok slid)
    (hneed : Initialized (held i) → (held i).window.record.acceptedCeiling ≤ slid.maximum) :
    Cell used k F
      (some (nextRecord (held i).window.record (raisedCeiling ahead slid.maximum)))
      (update held i ⟨(held i).context, { (held i).window with
        record := nextRecord (held i).window.record (raisedCeiling ahead slid.maximum)
        maximumCounter := slid.maximum, bitmap := slid.bitmap, live := true }⟩)
      (h ++ [((held i).context, counter)]) := by
  have hraised := le_raisedCeiling ahead slid.maximum
  have hlt := generation_lt_next hgen (raisedCeiling ahead slid.maximum)
  obtain ⟨hacc, hinit, _⟩ := H.under hin hF hcas hneed
  have hstarted : (nextRecord (held i).window.record (raisedCeiling ahead slid.maximum)).initialized ≠ 0 := by
    rw [nextRecord_initialized]
    decide
  refine (H.commit_stored hin hF hcas hgen hneed hraised).accept_over hin hF (le_slid hslid)
    (nextRecord_contextFingerprint _ _) hstarted hraised hacc fun j hji hj hej hj' => ?_
  obtain ⟨hle, hfree⟩ := hinit j hji hj hej hj'
  exact ⟨UInt32.lt_of_le_of_lt hle hlt, hfree⟩

/-- Window `i` accepts a counter under the ceiling of its record. -/
theorem quiet_accept (hin : InCell k (held i)) (hF : F = some (held i).window.epoch)
    (hinit : Initialized (held i)) (hslid : slide (held i).window counter = .ok slid)
    (hle : slid.maximum ≤ (held i).window.record.acceptedCeiling) :
    Cell used k F p
      (update held i ⟨(held i).context, { (held i).window with
        maximumCounter := slid.maximum, bitmap := slid.bitmap, live := true }⟩)
      (h ++ [((held i).context, counter)]) := by
  obtain ⟨hfresh, hins⟩ := slide_live ((H.opened i hin).live.mpr hinit) hslid
  obtain ⟨r, hp, hbehind, hfree⟩ := H.behind i hin hF hinit
  have hcounter : Free (held i) counter :=
    ⟨hinit, hfresh, UInt64.le_trans (le_slid hslid) hle⟩
  have hkeep : ∀ c, Free ⟨(held i).context, { (held i).window with
      maximumCounter := slid.maximum, bitmap := slid.bitmap, live := true }⟩ c →
      Free (held i) c := by
    rintro c ⟨_, hc, hcle⟩
    have hc' : slid.fresh c = true := hc
    rw [hins] at hc'
    exact ⟨hinit, (SlidingWindow.fresh_insert hfresh hc').1, hcle⟩
  have hmax : (held i).window.maximumCounter ≤ slid.maximum := by
    rw [hins]
    exact ((held i).window.sliding.le_maximum_insert counter).1
  refine H.accept hin hF rfl rfl rfl rfl hinit rfl hle hp (hfree counter hcounter) hbehind
    (fun c hc => hfree c (hkeep c hc)) (fun hrec => ?_) fun j hji hj hej hj' hrec => ?_
  · obtain ⟨h₁, h₂⟩ := H.latest i hin hF hinit (hp.trans (congrArg some hrec.symm))
    exact ⟨fun a ha hk hae => UInt64.le_trans (h₁ a ha hk hae) hmax, le_slid hslid,
      fun j hji hj hej c hc => UInt64.le_trans (h₂ j hji hj hej c hc) hmax⟩
  · obtain ⟨_, h₂⟩ := H.latest j hj (hF.trans (congrArg some hej.symm)) hj'
      (hp.trans (congrArg some hrec.symm))
    exact ⟨h₂ i (Ne.symm hji) hin hej.symm counter hcounter,
      fun c hc => h₂ i (Ne.symm hji) hin hej.symm c (hkeep c hc)⟩

/-- Window `i` lowers the stored ceiling to its maximum and closes. -/
theorem tighten (hin : InCell k (held i)) (hF : F = some (held i).window.epoch)
    (hinit : Initialized (held i)) (hcas : notSuperseded (held i).window p = true)
    (hgen : (held i).window.record.generation ≠ 0xFFFFFFFF) (context : SecurityContext) :
    Cell used k F (some (nextRecord (held i).window.record (held i).window.maximumCounter))
      (update held i ⟨context, {}⟩) h := by
  have hp := notSuperseded_initialized hinit hcas
  obtain ⟨hacc, hothers⟩ := H.latest i hin hF hinit hp
  obtain ⟨_, hgens, hblank⟩ := H.under hin hF hcas fun _ => UInt64.le_refl _
  have same : ∀ {e}, F = some e → e = (held i).window.epoch :=
    fun he => Option.some.inj (he.symm.trans hF)
  have hlt := generation_lt_next hgen (held i).window.maximumCounter
  have other := fun j (hj : InCell k (update held i ⟨context, {}⟩ j)) =>
    inCell_update (not_inCell_closed k context) hj
  refine (H.mono (fun j hj => (other j hj).2) fun a ha _ => ha).persist _ (fun a ha hk hFa => ?_)
    (fun j hj hFj hj' => ?_) fun j hj hFj hj' => ?_
  · rw [nextRecord_acceptedCeiling]
    exact hacc a ha hk (same hFa)
  · obtain ⟨hji, heq⟩ := other j hj
    rw [heq] at hj hFj hj' ⊢
    rw [nextRecord_acceptedCeiling]
    exact ⟨UInt32.lt_of_le_of_lt (hgens j hji hj (same hFj) hj').1 hlt, hothers j hji hj (same hFj)⟩
  · obtain ⟨hji, heq⟩ := other j hj
    rw [heq] at hj hFj hj' ⊢
    rw [nextRecord_contextFingerprint]
    exact hblank j hji hj (same hFj) hj'

end

end Cell

/-! ## All slots -/

/-- The identity under which a counter must not be accepted again. -/
def key (a : SecurityContext × UInt64) : UInt32 × UInt32 × UInt64 :=
  (floorSlot a.1, a.1.epoch, a.2)

/-- The keys that a window may accept without another commit. -/
def owned (x : Held) : Set (UInt32 × UInt32 × UInt64) :=
  {y | InCell y.1 x ∧ x.window.epoch = y.2.1 ∧ Free x y.2.2}

theorem owned_update {held : Nat → Held} (hx : ∀ y ∈ owned x, y ∈ owned (held i)) {j : Nat}
    {y : UInt32 × UInt32 × UInt64} (hy : y ∈ owned (update held i x j)) : y ∈ owned (held j) := by
  by_cases hji : j = i
  · subst hji
    rw [update_self] at hy
    exact hx y hy
  · rwa [update_of_ne hji] at hy

def floorEpoch (store : ReplayStore) (k : UInt32) : Option UInt32 :=
  (store.floors k).map (·.minimumEpoch)

/-- What a store alone guarantees. -/
structure StoreInv (store : ReplayStore) (h : List (SecurityContext × UInt64)) : Prop where
  stored : ∀ k, Stored k (floorEpoch store k) (store.windows k) h
  nodup : (h.map key).Nodup

/-- The invariant of a run. -/
structure Inv (used : SecurityContext → Prop) (st : System) (h : List (SecurityContext × UInt64)) :
    Prop where
  cell : ∀ k, Cell used k (floorEpoch st.store k) (st.store.windows k) st.held h
  allocation : Allocation (fun i => owned (st.held i)) (h.map key)

variable {used : SecurityContext → Prop} {st : System} {h : List (SecurityContext × UInt64)}

theorem Inv.storeInv (H : Inv used st h) : StoreInv st.store h :=
  ⟨fun k => (H.cell k).toStored, H.allocation.nodup⟩

theorem StoreInv.crash {store : ReplayStore} (H : StoreInv store h) : Inv used { store := store } h where
  cell k :=
    { H.stored k with
      opened := fun _ hi => absurd hi (not_inCell_closed k _)
      behind := fun _ hi => absurd hi (not_inCell_closed k _)
      latest := fun _ hi => absurd hi (not_inCell_closed k _)
      blank := fun _ hi => absurd hi (not_inCell_closed k _) }
  allocation :=
    { nodup := H.nodup
      unused := fun _ x hx => absurd hx.1 (not_inCell_closed x.1 _)
      disjoint := fun _ _ _ x hx => absurd hx.1 (not_inCell_closed x.1 _) }

section

variable (H : Inv used st h)
include H

theorem Inv.drop (i : Nat) (context : SecurityContext) :
    Inv used { st with held := update st.held i ⟨context, {}⟩ } h where
  cell k := (H.cell k).mono (fun _ hj => (inCell_update (not_inCell_closed k context) hj).2)
    fun _ ha _ => ha
  allocation := H.allocation.mono fun _ _ hy =>
    owned_update (fun y hy => absurd hy.1 (not_inCell_closed y.1 context)) hy

omit H in
theorem floorEpoch_setFloor (store : ReplayStore) (slot : UInt32) (floor : ReplayFloorRecord)
    (k : UInt32) : floorEpoch (store.setFloor slot floor) k =
      if k = slot then some floor.minimumEpoch else floorEpoch store k := by
  unfold floorEpoch ReplayStore.setFloor
  by_cases hk : k = slot
  · subst hk
    simp
  · simp [hk]

theorem Inv.raise {context : SecurityContext} (floor : Option ReplayFloorRecord)
    (hlt : ∀ f, st.store.floors (floorSlot context) = some f → f.minimumEpoch < context.epoch) :
    Inv used { st with
      store := st.store.setFloor (floorSlot context) (nextFloor context floor) } h where
  cell k := by
    dsimp only
    rw [floorEpoch_setFloor]
    split
    · rename_i hk
      subst hk
      refine (H.cell _).raise fun e he => ?_
      obtain ⟨f, hf, rfl⟩ := Option.map_eq_some_iff.mp he
      exact hlt f hf
    · exact H.cell k
  allocation := H.allocation

/-- No two contexts in use share a slot, except epochs of one peer pair. -/
def NoSharedSlot (used : SecurityContext → Prop) : Prop :=
  ∀ c c', used c → used c' → floorSlot c = floorSlot c' → pair c = pair c'

omit H in
theorem fingerprint_congr {c c' : SecurityContext} (hpair : pair c = pair c')
    (hepoch : c.epoch = c'.epoch) : replayContextFingerprint c = replayContextFingerprint c' := by
  simp only [pair, Prod.mk.injEq] at hpair
  obtain ⟨h₁, h₂, h₃, h₄⟩ := hpair
  unfold replayContextFingerprint replayPairHash
  rw [h₁, h₂, h₃, h₄, hepoch]

theorem Inv.put {context : SecurityContext} (i : Nat)
    (hcell : Cell used (floorSlot context) (floorEpoch st.store (floorSlot context))
      (st.store.windows (floorSlot context))
      (update st.held i ⟨context, openedWindow context record⟩) h)
    (hfree : ∀ c, ¬ Free ⟨context, openedWindow context record⟩ c) :
    Inv used { st with
      held := update st.held i ⟨context, openedWindow context record⟩ } h where
  cell k := by
    by_cases hk : k = floorSlot context
    · subst hk
      exact hcell
    · exact (H.cell k).mono (fun _ hj => (inCell_update (fun hc => hk hc.2.symm) hj).2) fun _ ha _ => ha
  allocation := H.allocation.mono fun _ _ hy => owned_update (fun _ hy => absurd hy.2.2 (hfree _)) hy

omit H in
theorem openRecord_ok {context : SecurityContext} {floor : Option ReplayFloorRecord}
    {found : Option ReplayWindowRecord} (hok : openRecord context floor found = .ok record) :
    (found = some record ∧ record.initialized ≠ 0 ∧
      record.contextFingerprint = replayContextFingerprint context) ∨
    (record = { contextFingerprint := replayContextFingerprint context } ∧
      ∀ f, floor = some f → f.minimumEpoch ≠ context.epoch) := by
  unfold openRecord at hok
  split at hok
  · rename_i r
    split at hok
    · cases hok
    · rename_i hintact
      split at hok
      · split at hok
        · cases hok
        · rename_i hadvance
          cases hok
          refine Or.inr ⟨rfl, ?_⟩
          rintro f rfl heq
          rw [Option.any_some, heq] at hadvance
          exact hadvance (decide_eq_true (UInt32.le_refl _))
      · rename_i hfp
        cases hok
        simp only [ReplayWindowRecord.intact, Bool.not_eq_true', Bool.not_eq_false,
          Bool.and_eq_true, bne_iff_ne] at hintact
        exact Or.inl ⟨rfl, hintact.1.2, by simpa using hfp⟩
  · split at hok
    · cases hok
    · rename_i hlost
      cases hok
      refine Or.inr ⟨rfl, ?_⟩
      rintro f rfl heq
      rw [Option.any_some, heq] at hlost
      simp at hlost

theorem Inv.openedAt (hslots : NoSharedSlot used) {context : SecurityContext}
    (hu : used context) (i : Nat)
    (hF : floorEpoch st.store (floorSlot context) = some context.epoch)
    (hrecord : (st.store.windows (floorSlot context) = some record ∧ record.initialized ≠ 0 ∧
        record.contextFingerprint = replayContextFingerprint context) ∨
      (record = { contextFingerprint := replayContextFingerprint context } ∧
        (∀ a ∈ h, floorSlot a.1 = floorSlot context → a.1.epoch ≠ context.epoch) ∧
        ∀ j, InCell (floorSlot context) (st.held j) → (st.held j).window.epoch ≠ context.epoch)) :
    Inv used { st with
      held := update st.held i ⟨context, openedWindow context record⟩ } h := by
  refine H.put i ?_ not_free_opened
  rcases hrecord with ⟨hp, hr, hfp⟩ | ⟨rfl, hnew, halone⟩
  · refine (H.cell _).adopt hp hu hF hr hfp (fun c hc hslot hepoch => ?_) i
    exact fingerprint_congr (hslots c context hc hu hslot) hepoch
  · exact (H.cell _).open_blank hu hF hnew halone i

theorem Inv.openContext (hslots : NoSharedSlot used) {context : SecurityContext} (hu : used context) (i : Nat) :
    Method.wp (openContext context) (fun _ w s => Inv used ⟨s, update st.held i ⟨context, w⟩⟩ h)
      (fun _ w s => Inv used ⟨s, update st.held i ⟨context, w⟩⟩ h)
      (fun s => StoreInv s h) (st.held i).window st.store := by
  refine wp_openContext H.storeInv (fun _ => H.drop i context) (fun f record hf hmin hok => ?_)
    fun hlt record hok => ?_
  · have hF : floorEpoch st.store (floorSlot context) = some context.epoch := by
      rw [floorEpoch, hf, Option.map_some, hmin]
    refine H.openedAt hslots hu i hF ((openRecord_ok hok).imp_right ?_)
    rintro ⟨_, hne⟩
    exact absurd hmin (hne f hf)
  · have H' := H.raise (st.store.floors (floorSlot context)) hlt
    have hF : floorEpoch (floorRaised context st.store) (floorSlot context) = some context.epoch := by
      rw [floorEpoch_setFloor, if_pos rfl]
      rfl
    refine ⟨H'.storeInv, fun _ => H'.drop i context, ?_⟩
    refine H'.openedAt hslots hu i hF ((openRecord_ok hok).imp_right ?_)
    -- the epoch is above the old floor, so nothing of it was accepted or opened
    rintro ⟨rfl, _⟩
    have old : ∀ e, (∃ e', floorEpoch st.store (floorSlot context) = some e' ∧ e ≤ e') →
        e ≠ context.epoch := by
      rintro e ⟨e', he', hle⟩ rfl
      obtain ⟨f, hf, rfl⟩ := Option.map_eq_some_iff.mp he'
      exact absurd (hlt f hf) (UInt32.not_lt.mpr hle)
    exact ⟨rfl, fun a ha hk => old _ ((H.cell _).floored a ha hk),
      fun j hj => old _ ((H.cell _).opened j hj).floor⟩

/-- A step of window `i` at its own slot: the cell of that slot, and the keys the window owns. -/
theorem Inv.step {store : ReplayStore} {h' : List (SecurityContext × UInt64)} {slot : UInt32}
    (hslot : ∀ k, InCell k x → k = slot) (hfloors : store.floors = st.store.floors)
    (hwindows : ∀ k, k ≠ slot → store.windows k = st.store.windows k)
    (hh : ∀ a ∈ h', floorSlot a.1 ≠ slot → a ∈ h)
    (hcell : Cell used slot (floorEpoch st.store slot) (store.windows slot) (update st.held i x) h')
    (halloc : Allocation (fun j => owned (update st.held i x j)) (h'.map key)) :
    Inv used ⟨store, update st.held i x⟩ h' where
  cell k := by
    have hF : floorEpoch store k = floorEpoch st.store k := by rw [floorEpoch, hfloors]; rfl
    dsimp only
    rw [hF]
    by_cases hk : k = slot
    · subst hk
      exact hcell
    · rw [hwindows k hk]
      exact (H.cell k).mono (fun _ hj => (inCell_update (fun hc => hk (hslot k hc)) hj).2)
        fun a ha hak => hh a ha (hak ▸ hk)
  allocation := halloc

/-- The window is open and the stored floor is not above its epoch, so it is of the floor's epoch. -/
theorem Inv.atFloor (hopen : (st.held i).window.isOpen = true) {f : ReplayFloorRecord}
    (hf : st.store.floors (st.held i).window.slot = some f) (hle : f.minimumEpoch ≤ (st.held i).window.epoch) :
    floorEpoch st.store (st.held i).window.slot = some (st.held i).window.epoch := by
  obtain ⟨e, he, hle'⟩ := ((H.cell _).opened i ⟨hopen, rfl⟩).floor
  have hF : floorEpoch st.store (st.held i).window.slot = some f.minimumEpoch := by
    rw [floorEpoch, hf, Option.map_some]
  rw [hF] at he
  cases he
  rw [hF, UInt32.le_antisymm hle' hle]

theorem key_held (hopen : (st.held i).window.isOpen = true) (counter : UInt64) :
    key ((st.held i).context, counter) = ((st.held i).window.slot, (st.held i).window.epoch, counter) := by
  have ho := (H.cell _).opened i ⟨hopen, rfl⟩
  rw [key, ← ho.slot, ← ho.epoch]

theorem Inv.quiet_accept (hopen : (st.held i).window.isOpen = true)
    (hF : floorEpoch st.store (st.held i).window.slot = some (st.held i).window.epoch)
    (hinit : Initialized (st.held i)) (hslid : slide (st.held i).window counter = .ok slid)
    (hle : slid.maximum ≤ (st.held i).window.record.acceptedCeiling) :
    Inv used ⟨st.store, update st.held i ⟨(st.held i).context, { (st.held i).window with
        maximumCounter := slid.maximum, bitmap := slid.bitmap, live := true }⟩⟩
      (h ++ [((st.held i).context, counter)]) := by
  have hin : InCell (st.held i).window.slot (st.held i) := ⟨hopen, rfl⟩
  have ho := (H.cell _).opened i hin
  obtain ⟨hfresh, hins⟩ := slide_live (ho.live.mpr hinit) hslid
  refine H.step (fun k hk => hk.2.symm) rfl (fun _ _ => rfl) (fun a ha hne => ?_)
    ((H.cell _).quiet_accept hin hF hinit hslid hle) ?_
  · rcases mem_append.mp ha with ha | ha
    · exact ha
    · rw [mem_singleton.mp ha] at hne
      exact absurd ho.slot.symm hne
  · rw [map_append, map_singleton, key_held H hopen]
    refine H.allocation.take (i := i) ⟨hin, rfl, hinit, hfresh, ?_⟩
      (fun j y => owned_update fun y hy => ?_) ?_
    · exact UInt64.le_trans (le_slid hslid) hle
    · obtain ⟨hcell, hepoch, _, hfr, hce⟩ := hy
      have hfr' : slid.fresh y.2.2 = true := hfr
      rw [hins] at hfr'
      exact ⟨hcell, hepoch, hinit, (SlidingWindow.fresh_insert hfresh hfr').1, hce⟩
    · rw [update_self]
      rintro ⟨_, _, _, hfr, _⟩
      have hfr' : slid.fresh counter = true := hfr
      rw [hins] at hfr'
      exact (SlidingWindow.fresh_insert hfresh hfr').2 rfl

omit H in
/-- What a window owns after it raised the ceiling: what it owned before, or counters above the old
ceiling. -/
theorem owned_raised (hlive : x.window.live = true ↔ Initialized x)
    (hslid : slide x.window counter = .ok slid) (hfresh : slid.fresh c = true) :
    c ≠ counter ∧ (Initialized x → x.window.sliding.fresh c = true) := by
  by_cases hinit : Initialized x
  · obtain ⟨hfr, hins⟩ := slide_live (hlive.mpr hinit) hslid
    rw [hins] at hfresh
    obtain ⟨h₁, h₂⟩ := SlidingWindow.fresh_insert hfr hfresh
    exact ⟨h₂, fun _ => h₁⟩
  · refine ⟨?_, fun hi => absurd hi hinit⟩
    have hblank := slide_blank (fun hl => hinit (hlive.mp hl)) hslid
    rw [hblank] at hfresh
    rintro rfl
    rcases SlidingWindow.fresh_iff.mp hfresh with hlt | ⟨_, hbit⟩
    · exact absurd hlt (UInt64.lt_irrefl _)
    · rw [UInt64.sub_self] at hbit
      exact absurd (show SlidingWindow.bit 1 0 = false from hbit) (by decide)

theorem Inv.commit_accept (hopen : (st.held i).window.isOpen = true)
    (hF : floorEpoch st.store (st.held i).window.slot = some (st.held i).window.epoch)
    (hgen : (st.held i).window.record.generation ≠ 0xFFFFFFFF) {ahead : UInt32}
    (hslid : slide (st.held i).window counter = .ok slid) (hneed : (st.held i).window.record.initialized = 0 ∨
      (st.held i).window.record.acceptedCeiling < slid.maximum) (hcas : notSuperseded (st.held i).window
      (st.store.windows (st.held i).window.slot) = true) (hrecord : record =
      nextRecord (st.held i).window.record (raisedCeiling ahead slid.maximum)) :
    Inv used ⟨st.store.setWindow (st.held i).window.slot record,
        update st.held i ⟨(st.held i).context, { (st.held i).window with
          record := record
          maximumCounter := slid.maximum, bitmap := slid.bitmap, live := true }⟩⟩
      (h ++ [((st.held i).context, counter)]) := by
  have hin : InCell (st.held i).window.slot (st.held i) := ⟨hopen, rfl⟩
  have ho := (H.cell _).opened i hin
  have hcell := (H.cell _).commit_accept hin hF hcas hgen ahead hslid
    fun hinit => UInt64.le_of_lt (hneed.resolve_left hinit)
  rw [← hrecord] at hcell
  refine H.step (fun k hk => hk.2.symm) rfl (fun k hk => update_of_ne hk _ _) (fun a ha hne => ?_) ?_ ?_
  · rcases mem_append.mp ha with ha | ha
    · exact ha
    · rw [mem_singleton.mp ha] at hne
      exact absurd ho.slot.symm hne
  · rw [show (st.store.setWindow (st.held i).window.slot record).windows (st.held i).window.slot =
      some record from update_self _ _ _]
    exact hcell
  · rw [map_append, map_singleton, key_held H hopen]
    -- first the counters above the old ceiling come in, then the accepted one goes out
    let raised : Set (UInt32 × UInt32 × UInt64) :=
      {y | y.1 = (st.held i).window.slot ∧ y.2.1 = (st.held i).window.epoch ∧
        (Initialized (st.held i) → (st.held i).window.record.acceptedCeiling < y.2.2)}
    have hgrow : Allocation (update (fun j => owned (st.held j)) i
        (owned (st.held i) ∪ raised)) (h.map key) := by
      refine H.allocation.grow i (G := raised) ?_ (fun j hji x hx => ?_) fun x hx => ?_
      · rintro ⟨_, _, c⟩ ⟨rfl, rfl, hc⟩
        obtain ⟨hacc, hothers⟩ := (H.cell _).above hin hF hcas hc
        refine ⟨fun hmem => ?_, fun j hji ⟨hj, hej, hfree⟩ => hothers j hji hj hej hfree⟩
        obtain ⟨a, ha, hkey⟩ := mem_map.mp hmem
        simp only [key, Prod.mk.injEq] at hkey
        exact hacc a ha hkey.1 hkey.2.1 hkey.2.2
      · rwa [update_of_ne hji] at hx
      · rwa [update_self] at hx
    have hmem : ∀ c, (Initialized (st.held i) → (st.held i).window.sliding.fresh c = true) →
        ((st.held i).window.slot, (st.held i).window.epoch, c) ∈ owned (st.held i) ∪ raised := by
      intro c hc
      by_cases hinit : Initialized (st.held i)
      · by_cases hle : c ≤ (st.held i).window.record.acceptedCeiling
        · exact Or.inl ⟨hin, rfl, hinit, hc hinit, hle⟩
        · exact Or.inr ⟨rfl, rfl, fun _ => UInt64.not_le.mp hle⟩
      · exact Or.inr ⟨rfl, rfl, fun hi => absurd hi hinit⟩
    refine hgrow.take (i := i) ?_ (fun j x hx => ?_) ?_
    · rw [update_self]
      exact hmem counter fun hinit => (slide_live (ho.live.mpr hinit) hslid).1
    · by_cases hji : j = i
      · subst hji
        rw [update_self] at hx ⊢
        obtain ⟨k, e, c⟩ := x
        obtain ⟨⟨_, rfl⟩, rfl, _, hfresh, _⟩ := hx
        exact hmem c (owned_raised ho.live hslid hfresh).2
      · rw [update_of_ne hji] at hx ⊢
        exact hx
    · rw [update_self]
      rintro ⟨_, _, _, hfresh, _⟩
      exact (owned_raised ho.live hslid hfresh).1 rfl

/-- The commit took effect but the window did not learn of it. -/
theorem Inv.commit_stored (hopen : (st.held i).window.isOpen = true)
    (hF : floorEpoch st.store (st.held i).window.slot = some (st.held i).window.epoch)
    (hgen : (st.held i).window.record.generation ≠ 0xFFFFFFFF) {m ceiling : UInt64}
    (hneed : Initialized (st.held i) → (st.held i).window.record.acceptedCeiling ≤ m) (hm : m ≤ ceiling)
    (hcas : notSuperseded (st.held i).window (st.store.windows (st.held i).window.slot) = true) :
    Inv used { st with
      store := st.store.setWindow (st.held i).window.slot
        (nextRecord (st.held i).window.record ceiling) } h := by
  have hin : InCell (st.held i).window.slot (st.held i) := ⟨hopen, rfl⟩
  have hcell := (H.cell _).commit_stored hin hF hcas hgen hneed hm
  generalize nextRecord (st.held i).window.record ceiling = record at hcell ⊢
  have hsame : update st.held i (st.held i) = st.held := update_eq_self i st.held
  have hstep : Inv used ⟨st.store.setWindow (st.held i).window.slot record,
      update st.held i (st.held i)⟩ h := by
    refine H.step (fun k hk => hk.2.symm) rfl (fun k hk => update_of_ne hk _ _) (fun a ha _ => ha) ?_ ?_
    · rw [hsame, show (st.store.setWindow (st.held i).window.slot record).windows
        (st.held i).window.slot = some record from update_self _ _ _]
      exact hcell
    · rw [hsame]
      exact H.allocation
  rwa [hsame] at hstep

theorem Inv.tighten (hopen : (st.held i).window.isOpen = true)
    (hF : floorEpoch st.store (st.held i).window.slot = some (st.held i).window.epoch)
    (hgen : (st.held i).window.record.generation ≠ 0xFFFFFFFF) (hinit : Initialized (st.held i))
    (hcas : notSuperseded (st.held i).window (st.store.windows (st.held i).window.slot) = true)
    (context : SecurityContext) :
    Inv used ⟨st.store.setWindow (st.held i).window.slot
        (nextRecord (st.held i).window.record (st.held i).window.maximumCounter),
      update st.held i ⟨context, {}⟩⟩ h := by
  have hin : InCell (st.held i).window.slot (st.held i) := ⟨hopen, rfl⟩
  have hcell := (H.cell _).tighten hin hF hinit hcas hgen context
  generalize nextRecord (st.held i).window.record (st.held i).window.maximumCounter = record at hcell ⊢
  refine H.step (fun k hk => absurd hk (not_inCell_closed k context)) rfl
    (fun k hk => update_of_ne hk _ _) (fun a ha _ => ha) ?_ (H.drop i context).allocation
  rw [show (st.store.setWindow (st.held i).window.slot record).windows
    (st.held i).window.slot = some record from update_self _ _ _]
  exact hcell

theorem Inv.acceptFrame (i : Nat) (hgen : (st.held i).window.record.generation ≠ 0xFFFFFFFF)
    (ahead : UInt32) (counter : UInt64) :
    Method.wp (acceptFrame ahead counter)
      (fun _ w s => Inv used ⟨s, update st.held i ⟨(st.held i).context, w⟩⟩
        (h ++ [((st.held i).context, counter)]))
      (fun _ w s => Inv used ⟨s, update st.held i ⟨(st.held i).context, w⟩⟩ h)
      (fun s => StoreInv s h) (st.held i).window st.store := by
  have hsame : update st.held i ⟨(st.held i).context, (st.held i).window⟩ = st.held :=
    update_eq_self i st.held
  refine wp_acceptFrame H.storeInv (fun _ => ?_) ?_ ?_
  · rw [hsame]
    exact H
  · intro f slid hopen hf hle hslid hinit hceiling
    exact H.quiet_accept hopen (H.atFloor hopen hf hle) hinit hslid hceiling
  · intro f slid hopen hf hle hslid hneed hcas
    have hF := H.atFloor hopen hf hle
    have hstored := H.commit_stored hopen hF hgen
      (fun hinit => UInt64.le_of_lt (hneed.resolve_left hinit)) (le_raisedCeiling ahead slid.maximum)
      hcas
    refine ⟨hstored.storeInv, fun _ => ?_, H.commit_accept hopen hF hgen hslid hneed hcas rfl⟩
    dsimp only
    rw [hsame]
    exact hstored

theorem Inv.closeContext (i : Nat) (hgen : (st.held i).window.record.generation ≠ 0xFFFFFFFF) :
    Method.wp closeContext (fun _ w s => Inv used ⟨s, update st.held i ⟨(st.held i).context, w⟩⟩ h)
      (fun _ w s => Inv used ⟨s, update st.held i ⟨(st.held i).context, w⟩⟩ h)
      (fun s => StoreInv s h) (st.held i).window st.store := by
  refine wp_closeContext H.storeInv (fun _ => H.drop i _) (H.drop i _) ?_
  intro f htight hf hle hcas
  simp only [tightens, Bool.and_eq_true, bne_iff_ne] at htight
  obtain ⟨⟨⟨hopen, _⟩, hinit⟩, _⟩ := htight
  have htightened := H.tighten hopen (H.atFloor hopen hf hle) hgen hinit hcas (st.held i).context
  exact ⟨htightened.storeInv, fun _ => htightened, htightened⟩

theorem Inv.checkFloor (context : SecurityContext) :
    Method.wp (checkFloor context) (fun _ _ s => Inv used { st with store := s } h)
      (fun _ _ s => Inv used { st with store := s } h) (fun s => StoreInv s h) {} st.store := by
  refine wp_checkFloor H.storeInv (fun _ => H) H fun hlt => ?_
  have hraised := H.raise (st.store.floors (floorSlot context)) hlt
  exact ⟨hraised.storeInv, fun _ => hraised, hraised⟩

end

/-! ## Whole runs -/

/-- From a method's weakest precondition to the state a call leaves. -/
theorem Inv.finish {method : Guarded Unit} {context : SecurityContext}
    {added : List (SecurityContext × UInt64)} (outcomes : List (Outcome Status)) (hwp : Method.wp method
      (fun _ w s => Inv used ⟨s, update st.held i ⟨context, w⟩⟩ (h ++ added))
      (fun _ w s => Inv used ⟨s, update st.held i ⟨context, w⟩⟩ h)
      (fun s => StoreInv s h) (st.held i).window st.store) :
    Inv used (st.finish i context (st.call i method outcomes))
      (h ++ reported (st.call i method outcomes) added) := by
  refine Method.wp.after (P := fun r s => Inv used (st.finish i context (r, s)) (h ++ reported (r, s) added))
    (hwp.mono (fun _ _ _ H => H) (fun _ _ _ H => ?_) fun _ H => ?_) outcomes
  · show Inv used _ (h ++ [])
    rwa [append_nil]
  · show Inv used _ (h ++ [])
    rw [append_nil]
    exact H.crash

theorem Inv.finish_quiet {method : Guarded Unit} {context : SecurityContext}
    (outcomes : List (Outcome Status)) (hwp : Method.wp method
      (fun _ w s => Inv used ⟨s, update st.held i ⟨context, w⟩⟩ h)
      (fun _ w s => Inv used ⟨s, update st.held i ⟨context, w⟩⟩ h)
      (fun s => StoreInv s h) (st.held i).window st.store) :
    Inv used (st.finish i context (st.call i method outcomes)) (h ++ []) := by
  rw [append_nil]
  exact Method.wp.after (P := fun r s => Inv used (st.finish i context (r, s)) h)
    (hwp.mono (fun _ _ _ H => H) (fun _ _ _ H => H) fun _ H => H.crash) outcomes

theorem Inv.finishStore {method : Guarded Unit} (outcomes : List (Outcome Status))
    (hwp : Method.wp method (fun _ _ s => Inv used { st with store := s } h)
      (fun _ _ s => Inv used { st with store := s } h) (fun s => StoreInv s h) {} st.store) :
    Inv used (st.finishStore (method.call {} outcomes st.store)) (h ++ []) := by
  rw [append_nil]
  exact Method.wp.after (P := fun r s => Inv used (st.finishStore (r, s)) h)
    (hwp.mono (fun _ _ _ H => H) (fun _ _ _ H => H) fun _ H => H.crash) outcomes

theorem inv_next (hslots : NoSharedSlot used) (H : Inv used st h) (e : Event)
    (he : Enabled used st e) : Inv used (next st e) (h ++ out st e) := by
  cases e with
  | openContext i context outcomes => exact Inv.finish_quiet outcomes (H.openContext hslots he i)
  | accept i ahead counter outcomes => exact Inv.finish outcomes (H.acceptFrame i he ahead counter)
  | closeContext i outcomes => exact Inv.finish_quiet outcomes (H.closeContext i he)
  | checkFloor context outcomes => exact Inv.finishStore outcomes (H.checkFloor context)
  | crash =>
    show Inv used _ (h ++ [])
    rw [append_nil]
    exact H.storeInv.crash

theorem inv_of_run (hslots : NoSharedSlot used) (hr : (replaySystem used).Run st h) : Inv used st h := by
  refine hr.invariant (I := Inv used) (fun st hinit => ?_) fun st h e H he => inv_next hslots H e he
  have hblank : st = { store := st.store } := by
    obtain ⟨store, held⟩ := st
    have hheld : held = fun _ => {} := funext hinit
    rw [hheld]
  rw [hblank]
  exact StoreInv.crash ⟨fun k => ⟨fun a ha => (by cases ha), fun a ha => (by cases ha)⟩, nodup_nil⟩

/-- **No counter is accepted twice for one context**: in every run of any number of windows over one
store, with failing commits and crashes at any store operation, the accepted counters of one scope,
network, sender, receiver and epoch are all different. -/
theorem accepted_once (used : SecurityContext → Prop) (hslots : NoSharedSlot used) (st : System)
    (h : List (SecurityContext × UInt64)) (hr : (replaySystem used).Run st h) :
    (h.map fun a => (pair a.1, a.1.epoch, a.2)).Nodup := by
  have hnodup := (inv_of_run hslots hr).allocation.nodup
  -- equal pairs have equal slots
  refine List.Nodup.of_map (fun y : (SecurityScope × NetworkId × NodeId × NodeId) × UInt32 × UInt64 =>
    (floorSlot { scope := y.1.1, network := y.1.2.1, sender := y.1.2.2.1, receiver := y.1.2.2.2 },
      y.2.1, y.2.2)) ?_
  rw [map_map]
  exact hnodup

/-- A context between nodes 2 and 1. -/
def sampleContext : SecurityContext := { network := 7, sender := 2, receiver := 1, epoch := 3 }

/-- Counter 5 is offered twice and again after a crash, then a commit for 70 takes effect but
reports a failure, and after another crash 200 comes. -/
def sampleRun : List Event :=
  [.openContext 0 sampleContext [], .accept 0 64 5 [], .accept 0 64 5 [], .crash,
    .openContext 0 sampleContext [], .accept 0 64 5 [],
    .accept 0 64 70 [.ok, .ok, .failAfter ⟨.storageFailure, "commit"⟩], .crash,
    .openContext 0 sampleContext [], .accept 0 64 70 [], .accept 0 64 200 []]

theorem accepted_once_sample :
    ((replaySystem (· = sampleContext)).exec {} [] sampleRun).2 = [(sampleContext, 5), (sampleContext, 200)] ∧
      (((replaySystem (· = sampleContext)).exec {} [] sampleRun).2.map fun a =>
        (pair a.1, a.1.epoch, a.2)).Nodup := by
  refine ⟨by decide +kernel, accepted_once (· = sampleContext) ?_ _ _
    (Machine.run_exec (fun _ => rfl) sampleRun (by decide +kernel))⟩
  rintro c c' rfl rfl _
  rfl

end RouteLoom.ReplayGuard
