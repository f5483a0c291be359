import RouteLoom.Security.RtcRecord
import RouteLoom.Security.SessionClock

/-!
# The write-ahead guard

`RtcWriteAheadProvider` of `sdkv1_session_rtc.cpp` stands in front of the session bank. While it is
armed, a counter of a guarded session is handed out only after the record in RTC memory was advanced
beyond it. A port call can fail, or be cut off by a loss of power, after any of its byte stores; the
outcomes of the calls to come are part of the state.

* `consumeRtcSession`, `arm`, `disarm`, `advanceRtcTx`, `nextCounter` : the operations
* `wp_advanceRtcTx`, `wp_arm`, `wp_disarm`, `wp_consumeRtcSession` : what each can do
-/

namespace RouteLoom.Rtc

open Lib

/-- How a port call ends: a failure or a loss of power comes after some byte stores. -/
inductive PortOutcome
  | done
  | fails (stores : Nat) (status : Status)
  | cuts (stores : Nat)
  deriving DecidableEq

/-- Why an operation stops: the power is gone, or it returns a status. -/
inductive Halt
  | cut
  | refused (status : Status)
  deriving DecidableEq

/-- The RTC memory with its port, and the bank and the guard in RAM. The guard holds an image exactly
while the source's pointers to image and port are set. -/
structure RtcNode (L E : Nat) where
  profile : UInt8
  record : List UInt8
  outcomes : List PortOutcome := []
  bank : SessionBank L E := {}
  image : Option RtcSessionImage := none
  slotArmed : Fin 2 → Bool := fun _ => false

variable {L E : Nat}

abbrev RtcOp (L E : Nat) (α : Type) := Op (RtcNode L E) Halt α

def fail {α : Type} (status : Status) : RtcOp L E α := Op.throw (.refused status)

def check {α : Type} (r : Except Status α) : RtcOp L E α := Op.check (r.mapError .refused)

/-- Go on with the status of an operation; a loss of power is not caught. -/
def attempt {α : Type} (m : RtcOp L E α) : RtcOp L E (Except Status α) := fun s =>
  match m s with
  | (.ok a, s) => (.ok (.ok a), s)
  | (.error (.refused status), s) => (.ok (.error status), s)
  | (.error .cut, s) => (.error .cut, s)

def callBank {α : Type} (m : SessionBank.BankOp L E α) : RtcOp L E α := fun s =>
  match m s.bank with
  | (.ok a, bank) => (.ok a, { s with bank })
  | (.error status, bank) => (.error (.refused status), { s with bank })

/-! ## The port -/

def readPort : RtcOp L E (List UInt8) := do
  let s ← Op.get
  Op.set { s with outcomes := s.outcomes.tail }
  match s.outcomes.headD .done with
  | .done => pure s.record
  | .fails _ status => fail status
  | .cuts _ => Op.throw .cut

def storePort (stores : List (Nat × UInt8)) : RtcOp L E Unit := do
  let s ← Op.get
  let after (n : Nat) : RtcNode L E :=
    { s with record := applyStores s.record (stores.take n), outcomes := s.outcomes.tail }
  match s.outcomes.headD .done with
  | .done => Op.set { s with record := applyStores s.record stores, outcomes := s.outcomes.tail }
  | .fails n status => do
    Op.set (after n)
    fail status
  | .cuts n => do
    Op.set (after n)
    Op.throw .cut

def invalidatePort : RtcOp L E Unit := storePort clearStores

def writePort (bytes : List UInt8) : RtcOp L E Unit := storePort (writeStores bytes)

/-- The commit word of a record. -/
def committed (raw : List UInt8) : Bool := (raw.drop 8).take 4 == bigEndian 4 kCommitted.toUInt64

/-! ## Waking -/

def consumeRtcSession (wake : RtcWakeCheck) : RtcOp L E RtcSessionImage := do
  let s ← Op.get
  match ← attempt readPort with
  | .error status => do
    invalidatePort
    fail status
  | .ok raw =>
    match decodeRtcSession s.profile raw wake with
    | .error status => do
      invalidatePort
      fail status
    | .ok image => do
      invalidatePort
      let raw ← readPort
      check (refuse (committed raw) ⟨.storageFailure, "RTC marker not cleared"⟩)
      pure image

/-! ## The guard -/

def RtcNode.armed (s : RtcNode L E) : Bool := decide (∃ slot, s.slotArmed slot = true)

def arm (image : RtcSessionImage) : RtcOp L E Unit := do
  let s ← Op.get
  check (refuse s.armed ⟨.invalidState, "write-ahead already armed"⟩)
  match encodeRtcSession s.profile image with
  | .error _ => fail ⟨.invalidArgument, "write-ahead image shape"⟩
  | .ok encoded => do
    writePort encoded
    match ← attempt readPort with
    | .ok back =>
      if back == encoded then do
        let s ← Op.get
        Op.set { s with
          image := some image, slotArmed := fun i => decide (i.val < image.contexts.length) }
      else do
        let _ ← attempt invalidatePort
        fail ⟨.storageFailure, "write-ahead commit unverified"⟩
    | .error _ => do
      let _ ← attempt invalidatePort
      fail ⟨.storageFailure, "write-ahead commit unverified"⟩

def disarm : RtcOp L E Unit := do
  let s ← Op.get
  Op.set { s with image := none, slotArmed := fun _ => false }
  if s.image.isSome then do
    let _ ← attempt invalidatePort
    pure ()
  else pure ()

def disarmSlot (slot : Fin 2) : RtcOp L E Unit := do
  let s ← Op.get
  let s := { s with slotArmed := Function.update s.slotArmed slot false }
  Op.set s
  if s.armed then pure () else disarm

/-- The image with the next counter of a context. -/
def bump (image : RtcSessionImage) (index : Nat) : RtcSessionImage :=
  { image with
    contexts := image.contexts.modify index fun c =>
      { c with entry := { c.entry with txNext := c.entry.txNext + 1 } } }

/-- `advance_rtc_tx`: the image it leaves and the counter. -/
def advanceRtcTx (current : RtcSessionImage) (index : Nat) : RtcOp L E (RtcSessionImage × UInt64) := do
  match current.contexts[index]? with
  | none => fail ⟨.counterExhausted, "RTC TX counter exhausted"⟩
  | some c => do
    check (refuse (!valid current || c.entry.txNext ≥ kUseLimit - 1)
      ⟨.counterExhausted, "RTC TX counter exhausted"⟩)
    let s ← Op.get
    let encoded ← check (encodeRtcSession s.profile current)
    let observed ← readPort
    check (refuse (observed != encoded) ⟨.conflict, "RTC image changed"⟩)
    invalidatePort
    let cleared ← readPort
    check (refuse (committed cleared) ⟨.storageFailure, "RTC marker not cleared"⟩)
    let encoded ← check (encodeRtcSession s.profile (bump current index))
    writePort encoded
    let observed ← readPort
    check (refuse (observed != encoded) ⟨.storageFailure, "RTC TX readback"⟩)
    pure (bump current index, c.entry.txNext)

/-- The armed slot for a context. -/
def RtcNode.guardSlot (s : RtcNode L E) (context : SecurityContext) :
    Option (Fin 2 × RtcSessionImage × RtcSessionContext) :=
  s.image.bind fun image =>
    (List.finRange 2).findSome? fun i =>
      ((image.contexts[i.val]?).filter fun c =>
        s.slotArmed i && c.scope == context.scope && c.entry.peer == context.receiver).map (i, image, ·)

/-- Durability is lost: the context is retired and its slot disarmed. -/
def loseSlot {α : Type} (context : SecurityContext) (slot : Fin 2) (status : Status) :
    RtcOp L E α := do
  let _ ← attempt (callBank (SessionBank.retire context.scope context.receiver))
  disarmSlot slot
  fail status

def nextCounter (context : SecurityContext) : RtcOp L E UInt64 := do
  let s ← Op.get
  match s.guardSlot context with
  | none => callBank (SessionBank.nextCounter context)
  | some (slot, image, c) => do
    let live ← attempt (callBank (SessionBank.txEpoch context.scope context.receiver))
    if live.toOption != some c.entry.txCid then do
      disarmSlot slot
      callBank (SessionBank.nextCounter context)
    else do
      let bankCounter ← callBank (SessionBank.nextCounter context)
      match ← attempt (advanceRtcTx image slot.val) with
      | .error status => loseSlot context slot status
      | .ok (image, counter) => do
        let s ← Op.get
        Op.set { s with image := some image }
        if counter != bankCounter then
          loseSlot context slot ⟨.internalError, "write-ahead diverged"⟩
        else pure counter

/-! ## Rules -/

section Rules

variable {α β : Type} {s : RtcNode L E} {P : Halt → RtcNode L E → Prop}

theorem wp_attempt {m : RtcOp L E α} {Q : Except Status α → RtcNode L E → Prop}
    (h : Op.wp m (fun a s => Q (.ok a) s)
      (fun e s => (∀ status, e = .refused status → Q (.error status) s) ∧ (e = .cut → P .cut s)) s) :
    Op.wp (attempt m) Q P s := by
  unfold Op.wp attempt at *
  cases hm : m s with
  | mk r s' =>
    rw [hm] at h
    cases r with
    | ok a => exact h
    | error e =>
      cases e with
      | cut => exact h.2 rfl
      | refused status => exact h.1 status rfl

theorem wp_callBank {m : SessionBank.BankOp L E α} {Q : α → RtcNode L E → Prop}
    (h : Op.wp m (fun a b => Q a { s with bank := b }) (fun e b => P (.refused e) { s with bank := b })
      s.bank) : Op.wp (callBank m) Q P s := by
  unfold Op.wp callBank at *
  cases hm : m s.bank with
  | mk r b =>
    rw [hm] at h
    cases r with
    | ok a => exact h
    | error e => exact h

theorem wp_check {r : Except Status α} {f : α → RtcOp L E β} {Q : β → RtcNode L E → Prop}
    (hfail : ∀ status, r = .error status → P (.refused status) s)
    (hok : ∀ a, r = .ok a → Op.wp (f a) Q P s) : Op.wp (check r >>= f) Q P s := by
  cases r with
  | ok a => exact hok a rfl
  | error status => exact hfail status rfl

theorem wp_readPort {Q : List UInt8 → RtcNode L E → Prop}
    (hok : ∀ o, Q s.record { s with outcomes := o }) (hfail : ∀ e o, P e { s with outcomes := o }) :
    Op.wp readPort Q P s := by
  unfold readPort
  rw [Op.wp_bind, Op.wp_get, Op.wp_bind, Op.wp_set]
  split
  · exact hok _
  · exact hfail _ _
  · exact hfail _ _

variable {Q : Unit → RtcNode L E → Prop} {image : RtcSessionImage}

theorem wp_storePort {stores : List (Nat × UInt8)}
    (hok : ∀ o, Q () { s with record := applyStores s.record stores, outcomes := o })
    (hfail : ∀ e n o, P e { s with record := applyStores s.record (stores.take n), outcomes := o }) :
    Op.wp (storePort stores) Q P s := by
  unfold storePort
  rw [Op.wp_bind, Op.wp_get]
  dsimp only
  split
  · exact hok _
  · exact hfail _ _ _
  · exact hfail _ _ _

/-- What an attempt to clear the record can leave. -/
structure Cleared (profile : UInt8) (raw raw' : List UInt8) : Prop where
  size : raw'.length = kRtcSessionRecordSize
  eq : raw' = raw ∨ readRecord profile raw' = none

/-- What an attempt to write the record of a valid image can leave. -/
structure Written (profile : UInt8) (image : RtcSessionImage) (raw raw' : List UInt8) : Prop where
  size : raw'.length = kRtcSessionRecordSize
  eq : raw' = raw ∨ readRecord profile raw' = none ∨
    valid image = true ∧ raw' = recordLayout profile image

section

variable (hsize : s.record.length = kRtcSessionRecordSize)
include hsize

theorem wp_invalidatePort
    (hok : ∀ r o, r.length = kRtcSessionRecordSize → readRecord s.profile r = none →
      Q () { s with record := r, outcomes := o })
    (hfail : ∀ e r o, Cleared s.profile s.record r → P e { s with record := r, outcomes := o }) :
    Op.wp invalidatePort Q P s := by
  refine wp_storePort (fun o => hok _ o (by rw [length_applyStores, hsize]) ?_) fun e n o => hfail e _ o ?_
  · have hsome : 0 < clearStores.length := by rw [length_clearStores]; decide
    have hcleared : readRecord s.profile _ = none := readRecord_cleared hsize hsome
    rwa [List.take_length] at hcleared
  · refine ⟨by rw [length_applyStores, hsize], ?_⟩
    rcases Nat.eq_zero_or_pos n with rfl | hpos
    · exact .inl rfl
    · exact .inr (readRecord_cleared hsize hpos)

theorem wp_writePort (hvalid : valid image = true)
    (hok : ∀ o, Q () { s with record := recordLayout s.profile image, outcomes := o })
    (hfail : ∀ e r o, Written s.profile image s.record r → P e { s with record := r, outcomes := o }) :
    Op.wp (writePort (recordLayout s.profile image)) Q P s := by
  have hbytes : (recordLayout s.profile image).length = kRtcSessionRecordSize :=
    length_recordLayout hvalid
  refine wp_storePort (fun o => ?_) fun e n o => hfail e _ o ⟨by rw [length_applyStores, hsize], ?_⟩
  · rw [applyStores_writeStores hsize hbytes]
    exact hok o
  · rcases readRecord_torn hsize hbytes n with h | h | h
    · exact .inl h
    · exact .inr (.inr ⟨hvalid, h⟩)
    · exact .inr (.inl h)

omit hsize in
theorem encodeRtcSession_ok {profile : UInt8} {encoded : List UInt8}
    (h : encodeRtcSession profile image = .ok encoded) :
    valid image = true ∧ encoded = recordLayout profile image := by
  obtain ⟨hvalid, heq⟩ := refuse_bind_eq_ok.mp h
  cases heq
  exact ⟨by simpa using hvalid, rfl⟩

theorem wp_consumeRtcSession {wake : RtcWakeCheck}
    {Q : RtcSessionImage → RtcNode L E → Prop}
    (hok : ∀ image r o, decodeRtcSession s.profile s.record wake = .ok image →
      r.length = kRtcSessionRecordSize → readRecord s.profile r = none →
      Q image { s with record := r, outcomes := o })
    (hfail : ∀ e r o, Cleared s.profile s.record r → P e { s with record := r, outcomes := o }) :
    Op.wp (consumeRtcSession wake) Q P s := by
  have hsame : Cleared s.profile s.record s.record := ⟨hsize, .inl rfl⟩
  have hrefuse : ∀ o status, Op.wp (do invalidatePort; fail status) Q P { s with outcomes := o } := by
    intro o status
    rw [Op.wp_bind]
    refine wp_invalidatePort (s := { s with outcomes := o }) hsize (fun r o hr hnone => ?_)
      fun e r o hr => hfail e r o hr
    exact hfail _ r o ⟨hr, .inr hnone⟩
  unfold consumeRtcSession
  rw [Op.wp_bind, Op.wp_get, Op.wp_bind]
  refine wp_attempt (wp_readPort (fun o => ?_) fun e o => ⟨fun status he => ?_, fun he => ?_⟩)
  · dsimp only
    cases hdecode : decodeRtcSession s.profile s.record wake with
    | error status => exact hrefuse o status
    | ok image =>
      dsimp only
      rw [Op.wp_bind]
      refine wp_invalidatePort (s := { s with outcomes := o }) hsize (fun r o hr hnone => ?_)
        fun e r o hr => hfail e r o hr
      rw [Op.wp_bind]
      refine wp_readPort (fun o => ?_) fun e o => hfail e r o ⟨hr, .inr hnone⟩
      exact wp_check (fun _ _ => hfail _ r o ⟨hr, .inr hnone⟩) fun _ _ => hok image r o hdecode hr hnone
  · exact hrefuse o status
  · exact hfail _ _ o hsame

theorem wp_arm (hok : ∀ o, valid image = true →
      Q () { s with
        record := recordLayout s.profile image, outcomes := o, image := some image
        slotArmed := fun i => decide (i.val < image.contexts.length) })
    (hfail : ∀ e r o, Written s.profile image s.record r → (s.armed = true → r = s.record) →
      P e { s with record := r, outcomes := o }) :
    Op.wp (arm image) Q P s := by
  have hsame : Written s.profile image s.record s.record := ⟨hsize, .inl rfl⟩
  unfold arm
  rw [Op.wp_bind, Op.wp_get]
  refine wp_check (fun _ _ => hfail _ _ _ hsame fun _ => rfl) fun _ harmed => ?_
  rw [refuse_eq_ok] at harmed
  have hoff : ∀ {r : List UInt8}, s.armed = true → r = s.record := fun h => by
    rw [harmed] at h
    cases h
  cases hencode : encodeRtcSession s.profile image with
  | error status => exact hfail _ _ _ hsame fun _ => rfl
  | ok encoded =>
    obtain ⟨hvalid, rfl⟩ := encodeRtcSession_ok hencode
    have hbytes : (recordLayout s.profile image).length = kRtcSessionRecordSize :=
      length_recordLayout hvalid
    have hwritten : Written s.profile image s.record (recordLayout s.profile image) :=
      ⟨hbytes, .inr (.inr ⟨hvalid, rfl⟩)⟩
    have hundo : ∀ (o : List PortOutcome) (status : Status), Op.wp (do
        let _ ← attempt invalidatePort
        fail status : RtcOp L E Unit) Q P
          { s with record := recordLayout s.profile image, outcomes := o } := by
      intro o status
      have hcleared : ∀ e r o, Cleared s.profile (recordLayout s.profile image) r →
          P e { s with record := r, outcomes := o } := by
        intro e r o hr
        refine hfail e r o ⟨hr.size, ?_⟩ hoff
        rcases hr.eq with rfl | hnone
        · exact .inr (.inr ⟨hvalid, rfl⟩)
        · exact .inr (.inl hnone)
      rw [Op.wp_bind]
      refine wp_attempt (wp_invalidatePort hbytes (fun r o hr hnone => ?_) fun e r o hr => ?_)
      · exact hcleared _ r o ⟨hr, .inr hnone⟩
      · exact ⟨fun _ _ => hcleared _ r o hr, fun _ => hcleared _ r o hr⟩
    show Op.wp (writePort _ >>= _) Q P s
    rw [Op.wp_bind]
    refine wp_writePort hsize hvalid (fun o => ?_) fun e r o hr => hfail e r o hr hoff
    rw [Op.wp_bind]
    refine wp_attempt (wp_readPort (fun o => ?_) fun e o => ⟨fun _ _ => hundo o _, fun _ => ?_⟩)
    · show Op.wp (if _ then _ else _) Q P _
      rw [if_pos (beq_self_eq_true _)]
      exact hok o hvalid
    · exact hfail _ _ o hwritten hoff

theorem wp_disarm
    (hok : ∀ r o, Cleared s.profile s.record r → Q ()
      { s with image := none, slotArmed := fun _ => false, record := r, outcomes := o })
    (hcut : ∀ r o, Cleared s.profile s.record r → P .cut
      { s with image := none, slotArmed := fun _ => false, record := r, outcomes := o }) :
    Op.wp disarm Q P s := by
  unfold disarm
  rw [Op.wp_bind, Op.wp_get, Op.wp_bind, Op.wp_set]
  split
  · rw [Op.wp_bind]
    refine wp_attempt (wp_invalidatePort (s := { s with image := none, slotArmed := fun _ => false })
      hsize (fun r o hr hnone => ?_) fun e r o hr => ?_)
    · exact hok r o ⟨hr, .inr hnone⟩
    · exact ⟨fun _ _ => hok r o hr, fun _ => hcut r o hr⟩
  · exact hok s.record s.outcomes ⟨hsize, .inl rfl⟩

theorem wp_disarmSlot {slot : Fin 2}
    (hkeep : Q () { s with slotArmed := Function.update s.slotArmed slot false })
    (hoff : ∀ r o, Cleared s.profile s.record r → Q ()
      { s with image := none, slotArmed := fun _ => false, record := r, outcomes := o })
    (hcut : ∀ r o, Cleared s.profile s.record r → P .cut
      { s with image := none, slotArmed := fun _ => false, record := r, outcomes := o }) :
    Op.wp (disarmSlot slot) Q P s := by
  unfold disarmSlot
  rw [Op.wp_bind, Op.wp_get]
  dsimp only
  rw [Op.wp_bind, Op.wp_set]
  split
  · exact hkeep
  · exact wp_disarm hsize hoff hcut

/-- The record after an advance that failed: it may already be the next one. -/
theorem wp_advanceRtcTx {current : RtcSessionImage}
    {index : Nat} {Q : RtcSessionImage × UInt64 → RtcNode L E → Prop}
    (hok : ∀ c o, current.contexts[index]? = some c → valid current = true →
      s.record = recordLayout s.profile current → valid (bump current index) = true →
      Q (bump current index, c.entry.txNext)
        { s with record := recordLayout s.profile (bump current index), outcomes := o })
    (hfail : ∀ e r o, Cleared s.profile s.record r ∨
      (s.record = recordLayout s.profile current ∧ valid current = true ∧
        Written s.profile (bump current index) s.record r) →
      P e { s with record := r, outcomes := o }) :
    Op.wp (advanceRtcTx current index) Q P s := by
  have hsame : Cleared s.profile s.record s.record := ⟨hsize, .inl rfl⟩
  unfold advanceRtcTx
  split
  · exact hfail _ _ _ (.inl hsame)
  · rename_i c hc
    refine wp_check (fun _ _ => hfail _ _ _ (.inl hsame)) fun _ _ => ?_
    rw [Op.wp_bind, Op.wp_get]
    refine wp_check (fun _ _ => hfail _ _ _ (.inl hsame)) fun encoded hencode => ?_
    obtain ⟨hvalid, rfl⟩ := encodeRtcSession_ok hencode
    rw [Op.wp_bind]
    refine wp_readPort (fun o => ?_) fun e o => hfail e _ o (.inl hsame)
    refine wp_check (fun _ _ => hfail _ _ o (.inl hsame)) fun _ hequal => ?_
    rw [refuse_eq_ok, bne_eq_false_iff_eq] at hequal
    rw [Op.wp_bind]
    refine wp_invalidatePort (s := { s with outcomes := o }) hsize (fun r o hr hnone => ?_)
      fun e r o hr => hfail e r o (.inl hr)
    rw [Op.wp_bind]
    refine wp_readPort (fun o => ?_) fun e o => hfail e r o (.inl ⟨hr, .inr hnone⟩)
    refine wp_check (fun _ _ => hfail _ r o (.inl ⟨hr, .inr hnone⟩)) fun _ _ => ?_
    refine wp_check (fun _ _ => hfail _ r o (.inl ⟨hr, .inr hnone⟩)) fun encoded hencode => ?_
    obtain ⟨hnext, rfl⟩ := encodeRtcSession_ok hencode
    have hwritten : ∀ r', Written s.profile (bump current index) r r' →
        Written s.profile (bump current index) s.record r' := by
      intro r' hr'
      refine ⟨hr'.size, ?_⟩
      rcases hr'.eq with rfl | h
      · exact .inr (.inl hnone)
      · exact .inr h
    rw [Op.wp_bind]
    refine wp_writePort hr hnext (fun o => ?_) fun e r' o hr' =>
      hfail e r' o (.inr ⟨hequal, hvalid, hwritten r' hr'⟩)
    rw [Op.wp_bind]
    have hdone : Written s.profile (bump current index) s.record
        (recordLayout s.profile (bump current index)) :=
      ⟨length_recordLayout hnext, .inr (.inr ⟨hnext, rfl⟩)⟩
    refine wp_readPort (fun o => ?_) fun e o => hfail e _ o (.inr ⟨hequal, hvalid, hdone⟩)
    refine wp_check (fun _ _ => hfail _ _ o (.inr ⟨hequal, hvalid, hdone⟩)) fun _ _ => ?_
    exact hok c o hc hvalid hequal hnext

end

end Rules

end RouteLoom.Rtc
