import RouteLoom.Lib.Machine
import RouteLoom.Security.RtcLockstep

/-!
# Counters over deep sleep

A node and its RTC memory over any number of boots. The caller holds an image that it exported from
the bank or that a wake consumed; it can arm the guard with it, save it at the start of a sleep,
restore a consumed one into the bank, or drop it. Power can be lost at any byte store of any port
call.

* `rtcMachine` : the runs, with the counters that `next_counter` returned
* `coveredMachine` : the runs in which no counter is drawn for a key that an image the guard does not
  watch still holds
* `counters_once_over_sleep` : in these no pair of transmit key and counter is returned twice
-/

namespace RouteLoom.Rtc

open Lib List

variable {L E : Nat}

/-! ## The machine -/

/-- The image in the hands of the caller. -/
structure Hold where
  image : RtcSessionImage
  consumed : Bool
  deriving DecidableEq

/-- `slept` says that this boot is a wake from deep sleep, and `made` lists the sessions that
handshakes installed. -/
structure RtcSystem (L E : Nat) where
  node : RtcNode L E
  hold : Option Hold := none
  slept : Bool := false
  made : List Session := []

inductive RtcEvent
  | bank (e : SessionBank.Event)
  | exportImage (frame : RtcSessionImage) (parent : NodeId) (peer : Option NodeId)
  | restore (index : Nat)
  | drop
  | arm (sourceBoot : UInt32) (outcomes : List PortOutcome)
  | nextCounter (context : SecurityContext) (outcomes : List PortOutcome)
  | disarm (outcomes : List PortOutcome)
  | invalidate (outcomes : List PortOutcome)
  | consume (wake : RtcWakeCheck) (outcomes : List PortOutcome)
  | sleep (save : Bool) (outcomes : List PortOutcome)
  | reset

/-- RAM is lost, the RTC memory is not. -/
def RtcSystem.restart (st : RtcSystem L E) (slept : Bool) : RtcSystem L E :=
  { node := { profile := st.node.profile, record := st.node.record }, slept, made := st.made }

/-- Run an operation; without power there is no result. -/
def RtcSystem.run {α : Type} (st : RtcSystem L E) (outcomes : List PortOutcome) (m : RtcOp L E α) :
    Option (Except Status α) × RtcSystem L E :=
  match m { st.node with outcomes } with
  | (.ok a, node) => (some (.ok a), { st with node })
  | (.error (.refused status), node) => (some (.error status), { st with node })
  | (.error .cut, node) => (none, RtcSystem.restart { st with node } false)

/-- What an installation makes. -/
def madeBy (keys : ContextKeys) : Except Status Unit → List Session
  | .ok _ => [⟨keys.scope, keys.peer, keys.txContextId, keys.txKey⟩]
  | .error _ => []

def installed (bank : SessionBank L E) : SessionBank.Event → List Session
  | .installVerified keys att => madeBy keys (SessionBank.installVerified keys att bank).1
  | .install keys => madeBy keys (SessionBank.install keys bank).1
  | _ => []

/-- The image of `save_sleep_image`: the link to the parent, and an end session if there is one. -/
def exportImage (bank : SessionBank L E) (frame : RtcSessionImage) (parent : NodeId)
    (peer : Option NodeId) : Option RtcSessionImage :=
  match (SessionBank.exportSleepEntry .link parent bank).1 with
  | .error _ => none
  | .ok link =>
    let ends := peer.bind fun p => (SessionBank.exportSleepEntry .endToEnd p bank).1.toOption
    some { frame with contexts := ⟨.link, link⟩ :: (ends.map (⟨.endToEnd, ·⟩)).toList }

/-- The context of the consumed image that the caller restores. -/
def RtcSystem.restorable (st : RtcSystem L E) (index : Nat) : Option RtcSessionContext :=
  (st.hold.filter (·.consumed)).bind (·.image.contexts[index]?)

/-- The write of a save, before a sleep. -/
def saveHold (hold : Option Hold) : RtcOp L E Unit := do
  let s ← Op.get
  match hold with
  | none => pure ()
  | some hold => do
    let encoded ← check (encodeRtcSession s.profile hold.image)
    writePort encoded

/-- An armed image is the guard's. -/
def afterArm : Option (Except Status Unit) × RtcSystem L E → RtcSystem L E
  | (some (.ok _), st) => { st with hold := none }
  | (_, st) => st

/-- The caller gets the consumed image, or an empty one. -/
def afterConsume : Option (Except Status RtcSessionImage) × RtcSystem L E → RtcSystem L E
  | (some (.ok image), st) => { st with hold := some ⟨image, true⟩ }
  | (_, st) => { st with hold := none }

def afterSave : Option (Except Status Unit) × RtcSystem L E → RtcSystem L E
  | (some _, st) => st.restart true
  | (none, st) => st

def RtcEvent.next (st : RtcSystem L E) : RtcEvent → RtcSystem L E
  | .bank e =>
    { st with
      node := { st.node with bank := e.effect st.node.bank }
      made := st.made ++ installed st.node.bank e }
  | .exportImage frame parent peer =>
    match Rtc.exportImage st.node.bank frame parent peer with
    | none => st
    | some image => { st with hold := some ⟨image, false⟩ }
  | .restore index =>
    match st.restorable index with
    | none => st
    | some c =>
      { st with
        node := { st.node with
          bank := (SessionBank.restoreEntry c.scope c.entry.peer c.entry st.node.bank).2 } }
  | .drop => { st with hold := none }
  | .arm sourceBoot outcomes =>
    match st.hold with
    | none => st
    | some hold => afterArm (st.run outcomes (Rtc.arm { hold.image with sourceBoot }))
  | .nextCounter context outcomes => (st.run outcomes (Rtc.nextCounter context)).2
  | .disarm outcomes => (st.run outcomes Rtc.disarm).2
  | .invalidate outcomes => (st.run outcomes invalidatePort).2
  | .consume wake outcomes => afterConsume (st.run outcomes (consumeRtcSession wake))
  | .sleep save outcomes =>
    afterSave (st.run outcomes (saveHold (if save then st.hold else none)))
  | .reset => st.restart false

/-- The counter that is returned, with the key of the context it was drawn for. -/
def returned (found : Option (SessionBank.Slot L E × SessionBankEntry)) :
    Option (Except Status UInt64) → List Issued
  | some (.ok counter) => (found.map fun x => (x.2.txKey, counter)).toList
  | _ => []

def RtcEvent.out (st : RtcSystem L E) : RtcEvent → List Issued
  | .nextCounter context outcomes =>
    returned (st.node.bank.findCurrent context.scope context.receiver)
      (st.run outcomes (Rtc.nextCounter context)).1
  | _ => []

/-- A handshake makes a new transmit key; counters and restorations go through the guard and the
hold. -/
def bankAllowed (made : List Session) : SessionBank.Event → Bool
  | .installVerified keys _ | .install keys => made.all (·.txKey != keys.txKey)
  | .nextCounter _ | .restoreEntry .. => false
  | _ => true

/-- A wake check reports a deep sleep with its marker only after one. -/
def RtcEvent.allowed (st : RtcSystem L E) : RtcEvent → Bool
  | .bank e => bankAllowed st.made e
  | .consume wake _ => st.slept || !(wake.deepSleep && wake.sleepMarker)
  | _ => true

/-- Fresh RTC memory holds no record. -/
def RtcInit (st : RtcSystem L E) : Prop :=
  ∃ profile record, record.length = kRtcSessionRecordSize ∧ readRecord profile record = none ∧
    st = { node := { profile, record } }

def rtcMachine (L E : Nat) : Machine (RtcSystem L E) RtcEvent Issued where
  Init := RtcInit
  Enabled st e := e.allowed st = true
  next := RtcEvent.next
  out := RtcEvent.out

def RtcSessionImage.holdsKey (image : RtcSessionImage) (key : SessionKey) : Bool :=
  image.contexts.any (·.entry.txKey == key)

/-- A counter is drawn only for a key that is not in the image the caller holds, nor in a record that
the guard does not watch. -/
def RtcEvent.covered (st : RtcSystem L E) : RtcEvent → Bool
  | .nextCounter context _ =>
    (st.node.bank.findCurrent context.scope context.receiver).all fun x =>
      !(st.hold.any (·.image.holdsKey x.2.txKey)) &&
        (st.node.armed || !((readRecord st.node.profile st.node.record).any (·.holdsKey x.2.txKey)))
  | _ => true

def coveredMachine (L E : Nat) : Machine (RtcSystem L E) RtcEvent Issued :=
  { rtcMachine L E with Enabled := fun st e => e.allowed st = true ∧ e.covered st = true }

/-! ## The invariant -/

structure RtcInv (st : RtcSystem L E) (h : List Issued) : Prop where
  keys : KeysApart st.made
  issued : ∀ u ∈ h, ∃ a ∈ st.made, a.txKey = u.1
  once : h.Nodup
  hold : ∀ x, st.hold = some x → ImageSound st.made h x.image
  node : NodeInv st.made h (st.hold.any (·.consumed)) st.node

variable {st : RtcSystem L E} {h : List Issued} {made : List Session} {consumed : Bool}
  {s : RtcNode L E}

theorem blank_empty : SessionBank.Blank ({} : SessionBank L E) := ⟨fun _ => rfl, fun _ => rfl⟩

theorem nodeInv_boot {profile : UInt8} {record : List UInt8} (hr : RecordInv made h profile record) :
    NodeInv made h consumed ({ profile, record } : RtcNode L E) := by
  refine ⟨hr, blank_empty.settled, fun slot e he => ?_, guards_off rfl⟩
  cases he

theorem RtcInv.restart (hi : RtcInv st h) (hr : RecordInv st.made h s.profile s.record) (slept : Bool) :
    RtcInv (RtcSystem.restart { st with node := s } slept) h :=
  ⟨hi.keys, hi.issued, hi.once, fun _ hx => (by cases hx), nodeInv_boot hr⟩

theorem NodeInv.outcomes (hn : NodeInv made h consumed s) (o : List PortOutcome) :
    NodeInv made h consumed { s with outcomes := o } :=
  hn.follow (follow_refl hn.record.size) hn.settled
    ((SessionBank.Quiet.refl _).fades (SessionBank.Calm.refl _)) o

/-- An image of which the caller has let go is no longer in the way. -/
theorem NodeInv.unheld (hn : NodeInv made h consumed s) : NodeInv made h false s := by
  refine ⟨hn.record, hn.settled, hn.bank, fun harmed => ?_⟩
  obtain ⟨image, hg⟩ := hn.guards harmed
  exact ⟨image, hg.borrowed, hg.shaped, hg.known, fun _ _ => rfl, hg.tracks⟩

theorem NodeInv.unrecorded (hn : NodeInv made h consumed s) {r : List UInt8} {o : List PortOutcome}
    (hr : r.length = kRtcSessionRecordSize) (hnone : readRecord s.profile r = none) (consumed' : Bool) :
    NodeInv made h consumed' { s with record := r, outcomes := o } := by
  have hread : ∀ {image}, readRecord s.profile r ≠ some image := fun himage => by
    rw [hnone] at himage
    cases himage
  refine ⟨⟨hr, fun _ himage => absurd himage hread⟩, hn.settled, hn.bank, fun harmed => ?_⟩
  obtain ⟨image, hg⟩ := hn.guards harmed
  exact ⟨image, hg.borrowed, hg.shaped, hg.known, fun _ himage => absurd himage hread,
    fun _ himage => absurd himage hread⟩

/-- What an operation does to the node is what it does to the system, unless the power goes. -/
theorem RtcSystem.run_of_wp {α : Type} {m : RtcOp L E α} {outcomes : List PortOutcome}
    {Q : α → RtcNode L E → Prop} (hi : RtcInv st h)
    (hwp : Op.wp m Q (Stopped st.made h (st.hold.any (·.consumed))) { st.node with outcomes })
    {P : Option (Except Status α) → RtcSystem L E → Prop}
    (hok : ∀ a s, Q a s → P (some (.ok a)) { st with node := s })
    (hfail : ∀ status s, RtcInv { st with node := s } h → P (some (.error status)) { st with node := s })
    (hcut : ∀ st', RtcInv st' h → st'.hold = none → P none st') :
    P (st.run outcomes m).1 (st.run outcomes m).2 := by
  unfold Op.wp at hwp
  unfold RtcSystem.run
  cases hm : m { st.node with outcomes } with
  | mk r s =>
    rw [hm] at hwp
    cases r with
    | ok a => exact hok a s hwp
    | error e =>
      cases e with
      | refused status =>
        exact hfail status s ⟨hi.keys, hi.issued, hi.once, hi.hold, hwp.node (by simp)⟩
      | cut => exact hcut _ (hi.restart hwp.record false) rfl

/-! ## New contexts -/

variable {entry : SessionBankEntry} {context : SecurityContext}

/-- A sound context is placed in the bank; `base` is the bank after the one it replaces was demoted. -/
theorem NodeInv.place (hn : NodeInv made h consumed s) {base : SessionBank L E}
    {slot : SessionBank.Slot L E} {lifetimeMs : UInt32} (hcurrent : base.current = s.bank.current)
    (hcalm : SessionBank.Calm s.bank base) (hconfigured : s.bank.configured = true)
    (hclaims : SessionBank.Claims s.bank slot entry.peer)
    (hepoch : entry.createdGk ≤ s.bank.view.gkEpoch) (hsound : Sound made h slot.scope entry)
    (hguards : Guards made consumed { s with bank := base.place slot entry lifetimeMs }) :
    NodeInv made h consumed { s with bank := base.place slot entry lifetimeMs } := by
  have hsettled : SessionBank.Settled base := by
    refine hn.settled.calm hcalm fun slot e he => ?_
    rw [hcurrent] at he
    exact ⟨e, he, rfl, rfl, rfl, rfl, rfl⟩
  have hplaced : ∀ remainingMs installSerial,
      Sound made h slot.scope { entry with remainingMs, installSerial } := fun _ _ =>
    hsound.of_same rfl (UInt64.le_refl _)
  refine ⟨hn.record, hsettled.place ?_ ?_ ?_ lifetimeMs, fun t e he => ?_, hguards⟩
  · rw [hcalm.configured, hconfigured]
  · unfold SessionBank.Claims
    rw [hcurrent]
    exact hclaims
  · rw [hcalm.view]
    exact hepoch
  · rw [SessionBank.place_current, hcurrent] at he
    rcases update_eq_some he with ⟨rfl, rfl⟩ | ⟨-, he⟩
    · exact hplaced _ _
    · exact hn.bank t e he

/-- A placement leaves the keys of the record dead that were, if it is of another key. -/
theorem dead_place {bank base : SessionBank L E} {slot : SessionBank.Slot L E} {lifetimeMs : UInt32}
    {key : SessionKey} (hcurrent : base.current = bank.current) (hcalm : SessionBank.Calm bank base)
    (hne : entry.txKey ≠ key) (hdead : SessionBank.Dead bank key) :
    SessionBank.Dead (base.place slot entry lifetimeMs) key := by
  intro t e he hkey
  rw [SessionBank.place_current, hcurrent] at he
  rcases update_eq_some he with ⟨rfl, rfl⟩ | ⟨-, he⟩
  · exact absurd hkey hne
  · rw [SessionBank.canSend_calm (hcalm.trans (SessionBank.calm_place base slot entry lifetimeMs))
      ⟨rfl, rfl, rfl, rfl, rfl⟩ rfl]
    exact hdead t e he hkey

theorem KeysApart.add {session : Session} (hkeys : KeysApart made)
    (hfresh : ∀ a ∈ made, a.txKey ≠ session.txKey) : KeysApart (made ++ [session]) := by
  intro a ha b hb hkey
  rcases mem_append.mp ha with ha | ha
  · rcases mem_append.mp hb with hb | hb
    · exact hkeys a ha b hb hkey
    · cases mem_singleton.mp hb
      exact absurd hkey (hfresh a ha)
  · cases mem_singleton.mp ha
    rcases mem_append.mp hb with hb | hb
    · exact absurd hkey.symm (hfresh b hb)
    · exact (mem_singleton.mp hb).symm

/-- A handshake with a new transmit key installs a context, or fails without a change. -/
theorem RtcInv.install (hi : RtcInv st h) (keys : ContextKeys) (att : InstallAttestation)
    (hfresh : ∀ a ∈ st.made, a.txKey ≠ keys.txKey) :
    Op.wp (SessionBank.installVerified keys att)
      (fun _ b => RtcInv { st with
        node := { st.node with bank := b }
        made := st.made ++ [⟨keys.scope, keys.peer, keys.txContextId, keys.txKey⟩] } h)
      (fun _ b => b = st.node.bank) st.node.bank := by
  refine (SessionBank.installVerified_place st.node.bank keys att).mono (fun _ b hb => ?_) fun _ _ hb => hb
  obtain ⟨slot, base, hscope, hconfigured, hclaims, hepoch, hcurrent, hcalm, rfl⟩ := hb
  let session : Session := ⟨keys.scope, keys.peer, keys.txContextId, keys.txKey⟩
  have hn := hi.node
  have hn' : NodeInv (st.made ++ [session]) h (st.hold.any (·.consumed)) st.node := by
    refine ⟨⟨hn.record.size, fun image hread c hc => (hn.record.sound image hread c hc).more⟩,
      hn.settled, fun slot e he => (hn.bank slot e he).more, fun harmed => ?_⟩
    obtain ⟨image, hg⟩ := hn.guards harmed
    exact ⟨image, hg.borrowed, hg.shaped, fun c hc => mem_append_left _ (hg.known c hc), hg.held, hg.tracks⟩
  have hsound : Sound (st.made ++ [session]) h slot.scope (SessionBank.freshEntry keys att) := by
    refine ⟨mem_append_right _ (mem_singleton.mpr ?_), fun n hmem => ?_⟩
    · rw [hscope]
      rfl
    · obtain ⟨a, ha, hkey⟩ := hi.issued _ hmem
      exact absurd hkey (hfresh a ha)
  refine ⟨hi.keys.add hfresh, fun u hu => ?_, hi.once, fun x hx c hc => (hi.hold x hx c hc).more,
    hn'.place hcurrent hcalm hconfigured hclaims hepoch hsound fun harmed => ?_⟩
  · obtain ⟨a, ha, hkey⟩ := hi.issued u hu
    exact ⟨a, mem_append_left _ ha, hkey⟩
  · obtain ⟨image, hg⟩ := hn'.guards harmed
    refine ⟨image, hg.borrowed, hg.shaped, hg.known, hg.held, fun image' hread i c hc => ?_⟩
    have ht := hg.tracks image' hread i c hc
    have hknown := (hn.record.sound image' hread c (mem_of_getElem? hc)).known
    exact ⟨ht.armed, fun hoff => dead_place hcurrent hcalm (Ne.symm (hfresh _ hknown)) (ht.off hoff)⟩

theorem RtcInv.restore (hi : RtcInv st h) {index : Nat} {c : RtcSessionContext}
    (hc : st.restorable index = some c) :
    Op.wp (SessionBank.restoreEntry c.scope c.entry.peer c.entry)
      (fun _ b => RtcInv { st with node := { st.node with bank := b } } h)
      (fun _ b => b = st.node.bank) st.node.bank := by
  obtain ⟨x, hfilter, hx⟩ := Option.bind_eq_some_iff.mp hc
  obtain ⟨hhold, hconsumed⟩ := Option.filter_eq_some_iff.mp hfilter
  refine (SessionBank.restoreEntry_place st.node.bank c.scope c.entry.peer c.entry).mono
    (fun _ b hb => ?_) fun _ _ hb => hb
  obtain ⟨slot, hscope, hconfigured, hclaims, hepoch, rfl⟩ := hb
  have hsound := hi.hold x hhold c (mem_of_getElem? hx)
  rw [← hscope] at hsound
  refine ⟨hi.keys, hi.issued, hi.once, hi.hold, hi.node.place rfl (SessionBank.Calm.refl _) hconfigured
    hclaims hepoch hsound fun harmed => ?_⟩
  -- the caller holds a consumed image, so there is no record to track
  obtain ⟨image, hg⟩ := hi.node.guards harmed
  refine ⟨image, hg.borrowed, hg.shaped, hg.known, hg.held, fun image' hread => ?_⟩
  have := hg.held image' hread
  rw [hhold] at this
  simp [hconsumed] at this

/-! ## Images -/

theorem sound_of_export (hn : NodeInv made h consumed s) {scope : SecurityScope} {peer : NodeId}
    (hexport : (SessionBank.exportSleepEntry scope peer s.bank).1 = .ok entry) :
    Sound made h scope entry := by
  have hwp := SessionBank.wp_exportSleepEntry s.bank scope peer
  unfold Op.wp at hwp
  cases hm : SessionBank.exportSleepEntry scope peer s.bank with
  | mk r b =>
    rw [hm] at hwp hexport
    dsimp only at hexport
    subst hexport
    obtain ⟨-, slot, e, hfind, heq, -⟩ := hwp
    obtain ⟨hscope, hfound, -⟩ := SessionBank.findCurrent_some hfind
    have hsound := hn.bank slot e hfound
    rw [hscope] at hsound
    rw [heq]
    exact hsound.of_same rfl (UInt64.le_refl _)

theorem imageSound_export (hn : NodeInv made h consumed s) {frame image : RtcSessionImage}
    {parent : NodeId} {peer : Option NodeId} (hexport : exportImage s.bank frame parent peer = some image) :
    ImageSound made h image := by
  unfold exportImage at hexport
  split at hexport
  · cases hexport
  · rename_i link hlink
    cases hexport
    intro c hc
    rcases mem_cons.mp hc with rfl | hc
    · exact sound_of_export hn hlink
    · rw [Option.mem_toList, Option.map_eq_some_iff] at hc
      obtain ⟨entry, hbind, rfl⟩ := hc
      obtain ⟨p, -, hentry⟩ := Option.bind_eq_some_iff.mp hbind
      have hok : (SessionBank.exportSleepEntry .endToEnd p s.bank).1 = .ok entry := by
        revert hentry
        cases (SessionBank.exportSleepEntry .endToEnd p s.bank).1 with
        | error e => exact fun h => by cases h
        | ok e => exact fun h => congrArg Except.ok (Option.some.inj h)
      exact sound_of_export hn hok

theorem imageSound_decode {profile : UInt8} {raw : List UInt8} (hr : RecordInv made h profile raw)
    {wake : RtcWakeCheck} {image : RtcSessionImage} (hdecode : decodeRtcSession profile raw wake = .ok image) :
    ImageSound made h image := by
  unfold decodeRtcSession at hdecode
  obtain ⟨-, hdecode⟩ := refuse_bind_eq_ok.mp hdecode
  split at hdecode
  · cases hdecode
  · rename_i old hread
    obtain ⟨-, hdecode⟩ := refuse_bind_eq_ok.mp hdecode
    obtain ⟨contexts, hmap, hdecode⟩ := bind_eq_ok.mp hdecode
    cases hdecode
    intro c hc
    obtain ⟨d, hd, hage⟩ := exists_of_mapM_eq_ok hmap hc
    obtain ⟨-, hage⟩ := refuse_bind_eq_ok.mp hage
    cases hage
    exact (hr.sound old hread d hd).of_same rfl (UInt64.le_refl _)

/-! ## Every step -/

section

variable (hi : RtcInv st h)
include hi

theorem RtcInv.bank (e : SessionBank.Event) (hallowed : bankAllowed st.made e = true) :
    RtcInv (RtcEvent.next st (.bank e)) h := by
  have hquiet : e.makes = false → installed st.node.bank e = [] → RtcInv (RtcEvent.next st (.bank e)) h := by
    intro hmakes hinstalled
    obtain ⟨hset, hfades⟩ := SessionBank.keeps_effect hi.node.settled e hmakes
    have hmade : (RtcEvent.next st (.bank e)).made = st.made := by
      show st.made ++ installed st.node.bank e = st.made
      rw [hinstalled, append_nil]
    refine ⟨hmade ▸ hi.keys, hmade ▸ hi.issued, hi.once, hmade ▸ hi.hold, ?_⟩
    rw [hmade]
    exact hi.node.fades hset hfades
  have hinstall : ∀ keys att, (∀ a ∈ st.made, a.txKey ≠ keys.txKey) →
      RtcInv (RtcEvent.next st (.bank (.installVerified keys att))) h := by
    intro keys att hfresh
    refine Op.wp.after (P := fun r b => RtcInv { st with
      node := { st.node with bank := b }, made := st.made ++ madeBy keys r } h)
      ((hi.install keys att hfresh).mono (fun _ _ hb => hb) fun e b hb => ?_)
    rw [hb, show madeBy keys (.error e) = [] from rfl, append_nil]
    exact hi
  have hfreshOf : ∀ {keys : ContextKeys}, st.made.all (·.txKey != keys.txKey) = true →
      ∀ a ∈ st.made, a.txKey ≠ keys.txKey := fun hall a ha => by
    simpa using all_eq_true.mp hall a ha
  cases e with
  | installVerified keys att => exact hinstall keys att (hfreshOf hallowed)
  | install keys => exact hinstall keys _ (hfreshOf hallowed)
  | nextCounter context => cases hallowed
  | restoreEntry scope peer entry => cases hallowed
  | _ => exact hquiet rfl rfl

theorem RtcInv.restored (index : Nat) : RtcInv (RtcEvent.next st (.restore index)) h := by
  unfold RtcEvent.next
  dsimp only
  split
  · exact hi
  · rename_i c hc
    refine Op.wp.after (P := fun _ b => RtcInv { st with node := { st.node with bank := b } } h)
      ((hi.restore hc).mono (fun _ _ hb => hb) fun _ b hb => ?_)
    rw [hb]
    exact hi

theorem RtcInv.dropped : RtcInv { st with hold := none } h :=
  ⟨hi.keys, hi.issued, hi.once, fun _ hx => (by cases hx), hi.node.unheld⟩

theorem RtcInv.armed (sourceBoot : UInt32) (outcomes : List PortOutcome) :
    RtcInv (RtcEvent.next st (.arm sourceBoot outcomes)) h := by
  unfold RtcEvent.next
  dsimp only
  split
  · exact hi
  · rename_i x hx
    have hsound : ImageSound st.made h { x.image with sourceBoot } := hi.hold x hx
    have hn := hi.node.outcomes outcomes
    have hwp : Op.wp (Rtc.arm { x.image with sourceBoot })
        (fun _ s => NodeInv st.made h false s) (Stopped st.made h (st.hold.any (·.consumed)))
        { st.node with outcomes } := by
      refine wp_arm hn.record.size (fun o hvalid => ?_) fun e r o hw hsame => ?_
      · have hread : readRecord st.node.profile (recordLayout st.node.profile { x.image with sourceBoot }) =
              some { x.image with sourceBoot } := readRecord_encode hvalid
        refine ⟨hn.record.written ⟨length_recordLayout hvalid, .inr (.inr ⟨hvalid, rfl⟩)⟩ hsound,
          hn.settled, hn.bank, fun _ => ⟨{ x.image with sourceBoot }, rfl, hvalid, fun c hc =>
            (hsound c hc).known, fun _ _ => rfl, fun image' hread' i c hc => ?_⟩⟩
        dsimp only at hread'
        rw [hread] at hread'
        cases hread'
        refine ⟨fun _ => ⟨c, hc, rfl⟩, fun hoff => ?_⟩
        have hlt := (List.getElem?_eq_some_iff.mp hc).1
        simp only [decide_eq_false_iff_not] at hoff
        exact absurd hlt hoff
      · refine ⟨hn.record.written hw hsound, fun _ => ?_⟩
        refine ⟨hn.record.written hw hsound, hn.settled, hn.bank, fun harmed => ?_⟩
        obtain rfl := hsame harmed
        exact (hn.outcomes o).guards harmed
    refine RtcSystem.run_of_wp (P := fun r st' => RtcInv (afterArm (r, st')) h) hi hwp
      (fun _ s hs => ?_) (fun _ s hs => hs) fun st' hs _ => hs
    exact ⟨hi.keys, hi.issued, hi.once, fun _ hx => (by cases hx), hs⟩

theorem RtcInv.disarmed (outcomes : List PortOutcome) : RtcInv (RtcEvent.next st (.disarm outcomes)) h := by
  have hn := hi.node.outcomes outcomes
  have hwp : Op.wp Rtc.disarm (fun _ s => NodeInv st.made h (st.hold.any (·.consumed)) s)
      (Stopped st.made h (st.hold.any (·.consumed))) { st.node with outcomes } := by
    refine wp_disarm hn.record.size (fun r o hr => ?_) fun r o hr => ?_
    · exact NodeInv.disarmed hn.record hn.settled hn.bank hr o
    · exact (NodeInv.disarmed hn.record hn.settled hn.bank hr o).stopped _
  exact RtcSystem.run_of_wp (P := fun _ st' => RtcInv st' h) hi hwp
    (fun _ s hs => ⟨hi.keys, hi.issued, hi.once, hi.hold, hs⟩) (fun _ _ hs => hs) fun _ hs _ => hs

theorem RtcInv.invalidated (outcomes : List PortOutcome) :
    RtcInv (RtcEvent.next st (.invalidate outcomes)) h := by
  have hn := hi.node.outcomes outcomes
  have hwp : Op.wp invalidatePort (fun _ s => NodeInv st.made h (st.hold.any (·.consumed)) s)
      (Stopped st.made h (st.hold.any (·.consumed))) { st.node with outcomes } := by
    refine wp_invalidatePort hn.record.size (fun r o hr hnone => ?_) fun e r o hr => ?_
    · exact hn.unrecorded hr hnone _
    · exact (hn.follow hr.follow hn.settled
        ((SessionBank.Quiet.refl _).fades (SessionBank.Calm.refl _)) o).stopped _
  exact RtcSystem.run_of_wp (P := fun _ st' => RtcInv st' h) hi hwp
    (fun _ s hs => ⟨hi.keys, hi.issued, hi.once, hi.hold, hs⟩) (fun _ _ hs => hs) fun _ hs _ => hs

theorem RtcInv.woken (wake : RtcWakeCheck) (outcomes : List PortOutcome) :
    RtcInv (RtcEvent.next st (.consume wake outcomes)) h := by
  have hn := hi.node.outcomes outcomes
  have hwp : Op.wp (consumeRtcSession wake)
      (fun image s => ImageSound st.made h image ∧ NodeInv st.made h true s)
      (Stopped st.made h (st.hold.any (·.consumed))) { st.node with outcomes } := by
    refine wp_consumeRtcSession hn.record.size (fun image r o hdecode hr hnone => ?_) fun e r o hr => ?_
    · exact ⟨imageSound_decode hn.record hdecode, hn.unrecorded hr hnone true⟩
    · exact (hn.follow hr.follow hn.settled
        ((SessionBank.Quiet.refl _).fades (SessionBank.Calm.refl _)) o).stopped _
  refine RtcSystem.run_of_wp (P := fun r st' => RtcInv (afterConsume (r, st')) h) hi hwp
    (fun image s hs => ?_) (fun _ s hs => hs.dropped) fun st' hs _ => hs.dropped
  refine ⟨hi.keys, hi.issued, hi.once, fun x hx => ?_, hs.2⟩
  cases hx
  exact hs.1

theorem RtcInv.slept (save : Bool) (outcomes : List PortOutcome) :
    RtcInv (RtcEvent.next st (.sleep save outcomes)) h := by
  have hn := hi.node.outcomes outcomes
  have hsound : ∀ x, (if save then st.hold else none) = some x → ImageSound st.made h x.image := by
    intro x hx
    cases save with
    | true => exact hi.hold x hx
    | false => cases hx
  have hwp : Op.wp (saveHold (if save then st.hold else none))
      (fun _ s => RecordInv st.made h s.profile s.record)
      (fun _ s => RecordInv st.made h s.profile s.record) { st.node with outcomes } := by
    unfold saveHold
    rw [Op.wp_bind, Op.wp_get]
    split
    · exact hn.record
    · rename_i x hx
      refine wp_check (fun _ _ => hn.record) fun encoded hencode => ?_
      obtain ⟨hvalid, rfl⟩ := encodeRtcSession_ok hencode
      refine wp_writePort hn.record.size hvalid (fun o => ?_) fun e r o hw => ?_
      · exact hn.record.written ⟨length_recordLayout hvalid, .inr (.inr ⟨hvalid, rfl⟩)⟩ (hsound x hx)
      · exact hn.record.written hw (hsound x hx)
  unfold Op.wp at hwp
  unfold RtcEvent.next
  dsimp only
  unfold RtcSystem.run
  cases hm : saveHold (if save then st.hold else none) { st.node with outcomes } with
  | mk r s =>
    rw [hm] at hwp
    cases r with
    | ok u => exact hi.restart hwp true
    | error e =>
      cases e with
      | refused status => exact hi.restart hwp true
      | cut => exact hi.restart hwp false

omit hi in
theorem RtcSessionImage.holdsKey_of_mem {image : RtcSessionImage} {c : RtcSessionContext}
    (hc : c ∈ image.contexts) {key : SessionKey} (hkey : c.entry.txKey = key) : image.holdsKey key = true :=
  any_eq_true.mpr ⟨c, hc, beq_iff_eq.mpr hkey⟩

theorem RtcInv.counted (context : SecurityContext) (outcomes : List PortOutcome)
    (hcovered : RtcEvent.covered st (.nextCounter context outcomes) = true) :
    RtcInv (RtcEvent.next st (.nextCounter context outcomes))
      (h ++ RtcEvent.out st (.nextCounter context outcomes)) := by
  have hn := hi.node.outcomes outcomes
  have hkey : ∀ slot entry, st.node.bank.findCurrent context.scope context.receiver = some (slot, entry) →
      (∀ x, st.hold = some x → x.image.holdsKey entry.txKey = false) ∧
        ∀ image, readRecord st.node.profile st.node.record = some image →
          image.holdsKey entry.txKey = true → st.node.armed = true := by
    intro slot entry hfind
    simp only [RtcEvent.covered, hfind, Option.all_some, Bool.and_eq_true, Bool.not_eq_true',
      Bool.or_eq_true] at hcovered
    refine ⟨fun x hx => ?_, fun image hread hholds => ?_⟩
    · have := hcovered.1
      rwa [hx, Option.any_some] at this
    · rcases hcovered.2 with harmed | hnone
      · exact harmed
      · rw [hread, Option.any_some, hholds] at hnone
        cases hnone
  have hwp : Op.wp (Rtc.nextCounter context) _ _ _ := wp_nextCounter hi.keys hn
    fun slot entry hfind image hread c hc hk => (hkey slot entry hfind).2 image hread (RtcSessionImage.holdsKey_of_mem hc hk)
  refine RtcSystem.run_of_wp (P := fun r st' => RtcInv st' (h ++ returned
    (st.node.bank.findCurrent context.scope context.receiver) r)) hi hwp (fun n s hs => ?_)
    (fun _ s hs => ?_) fun st' hs _ => ?_
  · obtain ⟨slot, entry, hfind, rfl, hnode⟩ := hs
    have hfound := (SessionBank.findCurrent_some hfind).2.1
    have hsound := hi.node.bank slot entry hfound
    have hreturned : returned (some (slot, entry)) (some (.ok entry.txNext)) =
        [(entry.txKey, entry.txNext)] := rfl
    change st.node.bank.findCurrent context.scope context.receiver = some (slot, entry) at hfind
    rw [hfind, hreturned]
    refine ⟨hi.keys, fun u hu => ?_, ?_, fun x hx c hc => ?_, hnode⟩
    · rcases mem_append.mp hu with hu | hu
      · exact hi.issued u hu
      · cases mem_singleton.mp hu
        exact ⟨_, hsound.known, rfl⟩
    · refine nodup_append.mpr ⟨hi.once, nodup_singleton _, fun a ha b hb hab => ?_⟩
      cases mem_singleton.mp hb
      subst hab
      exact absurd (hsound.leads _ ha) (UInt64.lt_irrefl _)
    · refine (hi.hold x hx c hc).issue fun heq => ?_
      have := (hkey slot entry hfind).1 x hx
      rw [RtcSessionImage.holdsKey_of_mem hc heq] at this
      cases this
  · exact (append_nil h).symm ▸ hs
  · exact (append_nil h).symm ▸ hs

theorem rtcInv_step (e : RtcEvent) (hallowed : e.allowed st = true)
    (hcovered : e.covered st = true) : RtcInv (e.next st) (h ++ e.out st) := by
  have hsilent : RtcInv (e.next st) h → e.out st = [] → RtcInv (e.next st) (h ++ e.out st) := by
    intro hnext hout
    rw [hout, append_nil]
    exact hnext
  cases e with
  | bank e => exact hsilent (hi.bank e hallowed) rfl
  | exportImage frame parent peer =>
    refine hsilent ?_ rfl
    unfold RtcEvent.next
    dsimp only
    split
    · exact hi
    · rename_i image hexport
      refine ⟨hi.keys, hi.issued, hi.once, fun x hx => ?_, hi.node.unheld⟩
      cases hx
      exact imageSound_export hi.node hexport
  | restore index => exact hsilent (hi.restored index) rfl
  | drop => exact hsilent hi.dropped rfl
  | arm sourceBoot outcomes => exact hsilent (hi.armed sourceBoot outcomes) rfl
  | nextCounter context outcomes => exact hi.counted context outcomes hcovered
  | disarm outcomes => exact hsilent (hi.disarmed outcomes) rfl
  | invalidate outcomes => exact hsilent (hi.invalidated outcomes) rfl
  | consume wake outcomes => exact hsilent (hi.woken wake outcomes) rfl
  | sleep save outcomes => exact hsilent (hi.slept save outcomes) rfl
  | reset => exact hsilent (hi.restart hi.node.record false) rfl

end

theorem rtcInv_init (hinit : RtcInit st) : RtcInv st [] := by
  obtain ⟨profile, record, hsize, hnone, rfl⟩ := hinit
  refine ⟨fun a ha => (by cases ha), fun u hu => (by cases hu), nodup_nil,
    fun x hx => (by cases hx), nodeInv_boot ⟨hsize, fun image hread => ?_⟩⟩
  rw [hnone] at hread
  cases hread

theorem coveredMachine_inv (hr : (coveredMachine L E).Run st h) : RtcInv st h :=
  Machine.Run.invariant (M := coveredMachine L E) (I := RtcInv) (fun _ hinit => rtcInv_init hinit)
    (fun _ _ e hi he => rtcInv_step hi e he.1 he.2) hr

/-! ## Counters are used once -/

instance (st : RtcSystem L E) (e : RtcEvent) : Decidable ((rtcMachine L E).Enabled st e) :=
  inferInstanceAs (Decidable (e.allowed st = true))

instance (st : RtcSystem L E) (e : RtcEvent) : Decidable ((coveredMachine L E).Enabled st e) :=
  inferInstanceAs (Decidable (e.allowed st = true ∧ e.covered st = true))

def freshNode : RtcSystem 1 0 :=
  { node := { profile := 1, record := .replicate kRtcSessionRecordSize 0 } }

/-- Keys for the link to node 2. -/
def linkKeys : ContextKeys := SessionBank.sampleKeys 5 9

/-- Node 1 of network 7 boots. -/
def boot : RtcEvent :=
  .bank (.configure { self := 1, network := 7, gkEpoch := 1 } true (some (.replicate 32 0)) 0)

def drawCounter : RtcEvent :=
  .nextCounter { network := 7, sender := 1, receiver := 2, epoch := 5 } []

/-- The link comes up and its image is exported. -/
def linkUp : List RtcEvent :=
  [boot, .bank (.install linkKeys), .exportImage
    { sourceBoot := 1, network := 7, localGeneration := 1, siteCommit := 1, gkEpoch := 1
      parentMac := .replicate 6 1, parentBinding := 1 } 2 none]

/-- The node wakes and restores the session of the record. -/
def wakeUp : List RtcEvent :=
  [boot, .consume { deepSleep := true, sleepMarker := true, trustedElapsedMs := 1000, nextBoot := 2
                    network := 7, localGeneration := 1, siteCommit := 1, gkEpoch := 1 } [],
    .restore 0, .drop]

theorem rtcInit_freshNode : RtcInit freshNode :=
  ⟨1, .replicate kRtcSessionRecordSize 0, length_replicate, by decide +kernel, rfl⟩

end RouteLoom.Rtc
