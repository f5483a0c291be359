import RouteLoom.Basic
import RouteLoom.Lib.Machine
import RouteLoom.Lib.Pool

/-!
# Idempotent submission over USB

The host names each request by a key of its session. The table keeps one record for each request it
executed, and a record for each outstanding repetition; a full table gives up the oldest record that
ended and was reported, and remembers the largest key it gave up in the open session.

* `IdempotencyTable.submit`, `repeatRecord` : the calls of the bridge
* `IdempotencyTable.Remembers` : a key is in a record or at most the floor
* `submitMachine` : calls and record updates in any order, on any table
* `submit_accepts_once` : **a request is accepted at most once, and never answered with the outcome
  of another content**
-/

namespace RouteLoom.Usb

open Lib

/-! ## The table -/

/-- The first 16 bytes of the hash of a request. -/
abbrev SessionTag := Vector UInt8 16

structure IdempotencyRecord where
  key : UInt64 := 0
  hash : SessionTag := Vector.replicate 16 0
  accepted : Bool := false
  errorCode : UInt16 := 0
  messageSession : UInt32 := 0
  messageSequence : UInt64 := 0
  settledMs : MonotonicMs := 0
  usbSession : UInt64 := 0
  request : UInt64 := 0
  settled : Bool := false
  finalState : DeliveryState := .empty
  reasonId : UInt16 := 0
  reasonDetail : Option String := none
  reported : Bool := false
  replay : Bool := false
  deriving DecidableEq, Repr

inductive IdempotencyResult
  | accepted | existing | conflict | resultExpired | noCapacity
  deriving DecidableEq, Repr

def kCapacity : Nat := 16

structure IdempotencyTable where
  records : Pool IdempotencyRecord kCapacity := Pool.empty
  floorSession : UInt64 := 0
  floor : UInt64 := 0
  hasFloor : Bool := false

namespace IdempotencyRecord

/-- The record ended, and its outcome is not owed to `usbSession`. -/
def reclaimable (usbSession : UInt64) (r : IdempotencyRecord) : Bool :=
  r.settled && (r.reported || r.usbSession != usbSession)

def named (usbSession key : UInt64) (r : IdempotencyRecord) : Bool :=
  r.usbSession == usbSession && r.key == key

def repeated (request : UInt64) (r : IdempotencyRecord) : IdempotencyRecord :=
  { r with request := request, reported := false, replay := true }

end IdempotencyRecord

namespace IdempotencyTable

open IdempotencyRecord (reclaimable named repeated)

/-- A new session starts a new key space. -/
def openSession (usbSession : UInt64) (t : IdempotencyTable) : IdempotencyTable :=
  if t.floorSession != usbSession then { t with floorSession := usbSession, hasFloor := false } else t

def raiseFloor (key : UInt64) (t : IdempotencyTable) : IdempotencyTable :=
  { t with floor := if !t.hasFloor || t.floor < key then key else t.floor, hasFloor := true }

def reclaimSlot (usbSession : UInt64) (t : IdempotencyTable) :
    Option (Fin kCapacity × IdempotencyTable) :=
  match t.records.freeIdx with
  | some i => some (i, t)
  | none =>
    (t.records.best (reclaimable usbSession) fun a b => a.settledMs < b.settledMs).map fun (i, r) =>
      (i, if r.usbSession == t.floorSession then t.raiseFloor r.key else t)

/-- The answer, the slot of the record it is about, and the table. -/
def submit (key : UInt64) (hash : SessionTag) (usbSession : UInt64) (now : MonotonicMs)
    (table : IdempotencyTable) : IdempotencyResult × Option (Fin kCapacity) × IdempotencyTable :=
  let t := table.openSession usbSession
  match t.records.findIdx (named usbSession key) with
  | some i =>
    (if (t.records.slots i).any fun r => r.hash == hash then .existing else .conflict, some i, t)
  | none =>
    if t.hasFloor && key ≤ t.floor then (.resultExpired, none, t)
    else
      match t.reclaimSlot usbSession with
      | none => (.noCapacity, none, t)
      | some (i, t) =>
        (.accepted, some i, { t with
          records := t.records.set i
            { key := key, hash := hash, settledMs := now, usbSession := usbSession } })

/-- Each outstanding request takes a record of its own; `none` if there is no slot left for it. -/
def repeatRecord (i : Fin kCapacity) (r : IdempotencyRecord) (request : UInt64)
    (t : IdempotencyTable) : Option (Fin kCapacity × IdempotencyTable) :=
  if r.request == request then some (i, t)
  else if !r.settled || !r.reported then
    (t.reclaimSlot r.usbSession).map fun (j, t) =>
      (j, { t with records := t.records.set j (r.repeated request) })
  else some (i, { t with records := t.records.set i (r.repeated request) })

end IdempotencyTable

/-- What the bridge writes into a record: the outcome of a submission, its end and its report. -/
inductive RecordUpdate
  | request (id : UInt64)
  | sent (messageSession : UInt32) (messageSequence : UInt64)
  | refuse (now : MonotonicMs) (errorCode reasonId : UInt16) (reasonDetail : Option String)
  | settle (now : MonotonicMs) (finalState : DeliveryState) (reasonId : UInt16)
      (reasonDetail : Option String)
  | report
  | owe
  deriving DecidableEq, Repr

def RecordUpdate.apply (r : IdempotencyRecord) : RecordUpdate → IdempotencyRecord
  | .request id => { r with request := id }
  | .sent messageSession messageSequence =>
    { r with
      accepted := true, messageSession := messageSession, messageSequence := messageSequence }
  | .refuse now errorCode reasonId reasonDetail =>
    { r with
      accepted := false, settled := true, settledMs := now, errorCode := errorCode,
      reasonId := reasonId, reasonDetail := reasonDetail }
  | .settle now finalState reasonId reasonDetail =>
    { r with
      settled := true, settledMs := now, finalState := finalState, reasonId := reasonId,
      reasonDetail := reasonDetail }
  | .report => { r with reported := true }
  | .owe => { r with reported := false }

/-! ## What the table remembers -/

/-- The identity of a request and of its content. -/
structure Content where
  usbSession : UInt64
  key : UInt64
  hash : SessionTag
  deriving DecidableEq, Repr

def IdempotencyRecord.content (r : IdempotencyRecord) : Content :=
  ⟨r.usbSession, r.key, r.hash⟩

@[simp] theorem RecordUpdate.content_apply (r : IdempotencyRecord) (u : RecordUpdate) :
    (u.apply r).content = r.content := by
  cases u <;> rfl

namespace IdempotencyTable

open IdempotencyRecord (reclaimable named)

variable {t t' : IdempotencyTable} {c : Content}

/-- Below the floor of the open session. -/
def BelowFloor (t : IdempotencyTable) (key : UInt64) : Prop :=
  t.hasFloor = true ∧ key ≤ t.floor

/-- A record holds the content, or its key is below the floor. -/
def Remembers (t : IdempotencyTable) (c : Content) : Prop :=
  (∃ r ∈ t.records, r.content = c) ∨ t.BelowFloor c.key

theorem belowFloor_raiseFloor (t : IdempotencyTable) (key : UInt64) : (t.raiseFloor key).BelowFloor key := by
  refine ⟨rfl, ?_⟩
  unfold raiseFloor
  dsimp only
  split
  · exact UInt64.le_refl key
  · next h =>
    rw [Bool.or_eq_true, not_or] at h
    exact UInt64.not_lt.mp fun hlt => h.2 (decide_eq_true hlt)

theorem BelowFloor.raiseFloor {key : UInt64} (h : t.BelowFloor key) (key' : UInt64) :
    (t.raiseFloor key').BelowFloor key := by
  refine ⟨rfl, ?_⟩
  unfold IdempotencyTable.raiseFloor
  dsimp only
  split
  · next hlt =>
    rw [h.1, Bool.not_true, Bool.false_or] at hlt
    exact UInt64.le_trans h.2 (UInt64.le_of_lt (of_decide_eq_true hlt))
  · exact h.2

/-- What `reclaimSlot` leaves: the same records, and a floor above the one it gives up. -/
structure Reclaims (t : IdempotencyTable) (i : Fin kCapacity) (t' : IdempotencyTable) : Prop where
  records : t'.records = t.records
  floorSession : t'.floorSession = t.floorSession
  floor : ∀ key, t.BelowFloor key → t'.BelowFloor key
  given : ∀ r, t.records.slots i = some r → r.usbSession = t.floorSession → t'.BelowFloor r.key

variable {i : Fin kCapacity}

theorem reclaimSlot_spec {usbSession : UInt64} (h : t.reclaimSlot usbSession = some (i, t')) :
    Reclaims t i t' := by
  unfold reclaimSlot at h
  split at h
  · next j hfree =>
    cases h
    have hnone : t.records.slots i = none := by simpa using firstSlot_some hfree
    exact ⟨rfl, rfl, fun _ h => h, fun r hr => by rw [hnone] at hr; cases hr⟩
  · obtain ⟨⟨j, r⟩, hbest, hr⟩ := Option.map_eq_some_iff.mp h
    obtain ⟨hslot, _⟩ := Pool.best_some hbest
    simp only [Prod.mk.injEq] at hr
    obtain ⟨rfl, rfl⟩ := hr
    split
    · refine ⟨rfl, rfl, fun key hk => hk.raiseFloor r.key, fun r' hr' _ => ?_⟩
      rw [hslot] at hr'
      cases hr'
      exact belowFloor_raiseFloor t r.key
    · next hne =>
      refine ⟨rfl, rfl, fun _ h => h, fun r' hr' hs => ?_⟩
      rw [hslot] at hr'
      cases hr'
      exact absurd (beq_iff_eq.mpr hs) hne

/-- What every call and update keeps of the open session. -/
structure Keeps (t t' : IdempotencyTable) : Prop where
  floorSession : t'.floorSession = t.floorSession
  remembers : ∀ c : Content, c.usbSession = t.floorSession → t.Remembers c → t'.Remembers c
  records : ∀ r' ∈ t'.records, ∃ r ∈ t.records, r.content = r'.content

theorem Keeps.refl (t : IdempotencyTable) : Keeps t t :=
  ⟨rfl, fun _ _ h => h, fun r hr => ⟨r, hr, rfl⟩⟩

theorem Reclaims.remembers (h : Reclaims t i t') (new : IdempotencyRecord)
    (hs : c.usbSession = t.floorSession) (hc : t.Remembers c) :
    Remembers { t' with records := t'.records.set i new } c := by
  rcases hc with ⟨r, ⟨j, hj⟩, rfl⟩ | hc
  · by_cases hji : j = i
    · subst hji
      exact .inr (h.given r hj hs)
    · refine .inl ⟨r, ⟨j, ?_⟩, rfl⟩
      rw [h.records, Pool.set_slots_ne _ _ hji]
      exact hj
  · exact .inr (h.floor _ hc)

theorem Keeps.set {r new : IdempotencyRecord} (hr : t.records.slots i = some r)
    (hnew : new.content = r.content) : Keeps t { t with records := t.records.set i new } := by
  refine ⟨rfl, fun c _ hc => ?_, fun r' hr' => ?_⟩
  · rcases hc with ⟨a, ⟨j, hj⟩, rfl⟩ | hc
    · by_cases hji : j = i
      · subst hji
        rw [hr] at hj
        cases hj
        exact .inl ⟨new, ⟨j, Pool.set_slots_self _ _ _⟩, hnew⟩
      · exact .inl ⟨a, ⟨j, (Pool.set_slots_ne _ _ hji).trans hj⟩, rfl⟩
    · exact .inr hc
  · rcases Pool.mem_set hr' with rfl | hmem
    · exact ⟨r, ⟨i, hr⟩, hnew.symm⟩
    · exact ⟨r', hmem, rfl⟩

theorem repeatRecord_keeps {j : Fin kCapacity} {r : IdempotencyRecord} {request : UInt64}
    (hr : t.records.slots i = some r) (h : t.repeatRecord i r request = some (j, t')) : Keeps t t' := by
  unfold repeatRecord at h
  split at h
  · cases h
    exact .refl t
  · split at h
    · obtain ⟨⟨k, t₁⟩, hreclaim, hk⟩ := Option.map_eq_some_iff.mp h
      cases hk
      have hspec := reclaimSlot_spec hreclaim
      refine ⟨hspec.floorSession, fun c hs hc => hspec.remembers _ hs hc, fun r' hr' => ?_⟩
      rcases Pool.mem_set hr' with rfl | hmem
      · exact ⟨r, ⟨i, hr⟩, rfl⟩
      · rw [hspec.records] at hmem
        exact ⟨r', hmem, rfl⟩
    · cases h
      exact .set hr rfl

/-- What one submission answers and does to the table. -/
inductive Submitted (t : IdempotencyTable) (c : Content) :
    IdempotencyResult → IdempotencyTable → Prop
  | existing (r : IdempotencyRecord) (hr : r ∈ t.records) (hc : r.content = c) :
      Submitted t c .existing t
  | refused {result : IdempotencyResult} (hne : result ≠ .existing) (hna : result ≠ .accepted) :
      Submitted t c result t
  | accepted {t' : IdempotencyTable} (hs : t'.floorSession = t.floorSession)
      (hnew : ∀ r ∈ t.records, r.usbSession = c.usbSession → r.key ≠ c.key)
      (hfloor : ¬ t.BelowFloor c.key) (hc : t'.Remembers c)
      (hkeep : ∀ d : Content, d.usbSession = t.floorSession → t.Remembers d → t'.Remembers d)
      (hrecords : ∀ r ∈ t'.records, r.content = c ∨ r ∈ t.records) :
      Submitted t c .accepted t'

theorem submit_spec (key : UInt64) (hash : SessionTag) (usbSession : UInt64) (now : MonotonicMs)
    (t : IdempotencyTable) :
    Submitted (t.openSession usbSession) ⟨usbSession, key, hash⟩
      (t.submit key hash usbSession now).1 (t.submit key hash usbSession now).2.2 := by
  unfold submit
  generalize t.openSession usbSession = t
  dsimp only
  split
  · next i hfound =>
    obtain ⟨r, hr, hnamed⟩ := Pool.findIdx_some hfound
    obtain ⟨hs, hk⟩ := Bool.and_eq_true_iff.mp hnamed
    rw [hr, Option.any_some]
    split
    · next hh =>
      refine .existing r ⟨i, hr⟩ ?_
      rw [IdempotencyRecord.content, beq_iff_eq.mp hs, beq_iff_eq.mp hk, beq_iff_eq.mp hh]
    · exact .refused (by simp) (by simp)
  · next hnone =>
    split
    · exact .refused (by simp) (by simp)
    · next hfloor =>
      split
      · exact .refused (by simp) (by simp)
      · next i t₁ hreclaim =>
        have hspec := reclaimSlot_spec hreclaim
        refine .accepted hspec.floorSession ?_ ?_ (.inl ⟨_, ⟨i, Pool.set_slots_self _ _ _⟩, rfl⟩)
          (fun d hs hd => hspec.remembers _ hs hd) ?_
        · intro r hr hs hk
          have hmiss := Pool.findIdx_none.mp hnone r hr
          rw [named, beq_iff_eq.mpr hs, beq_iff_eq.mpr hk] at hmiss
          cases hmiss
        · rintro ⟨hhas, hle⟩
          rw [hhas, decide_eq_true hle] at hfloor
          exact hfloor rfl
        · intro r hr
          rcases Pool.mem_set hr with rfl | hmem
          · exact .inl rfl
          · rw [hspec.records] at hmem
            exact .inr hmem

theorem openSession_floorSession (t : IdempotencyTable) (usbSession : UInt64) :
    (t.openSession usbSession).floorSession = usbSession := by
  unfold openSession
  split
  · rfl
  · next h => simpa using h

theorem openSession_records (t : IdempotencyTable) (usbSession : UInt64) :
    (t.openSession usbSession).records = t.records := by
  unfold openSession
  split
  · rfl
  · rfl

theorem openSession_same {usbSession : UInt64} (h : t.floorSession = usbSession) :
    t.openSession usbSession = t := by
  unfold openSession
  rw [h, bne_self_eq_false]
  rfl

end IdempotencyTable

/-! ## Any sequence of calls -/

/-- The table, the session that submits, and the sessions that did before it. -/
structure SubmitState where
  table : IdempotencyTable
  current : Option UInt64 := none
  closed : List UInt64 := []

inductive SubmitEvent
  | submit (key : UInt64) (hash : SessionTag) (usbSession : UInt64) (now : MonotonicMs)
  | repeated (i : Fin kCapacity) (request : UInt64)
  | update (i : Fin kCapacity) (u : RecordUpdate)

structure Answer where
  content : Content
  result : IdempotencyResult
  deriving DecidableEq, Repr

namespace SubmitState

/-- The submitting session replaces the one before it. -/
def switch (usbSession : UInt64) (st : SubmitState) : SubmitState :=
  { st with
    current := some usbSession
    closed := (st.current.filter (· ≠ usbSession)).toList ++ st.closed }

def repeated (i : Fin kCapacity) (request : UInt64) (st : SubmitState) : SubmitState :=
  match st.table.records.slots i with
  | none => st
  | some r =>
    match st.table.repeatRecord i r request with
    | none => st
    | some (_, t) => { st with table := t }

def update (i : Fin kCapacity) (u : RecordUpdate) (st : SubmitState) : SubmitState :=
  match st.table.records.slots i with
  | none => st
  | some r => { st with table := { st.table with records := st.table.records.set i (u.apply r) } }

end SubmitState

/-- Calls in any order, on any table and with any keys, hashes and sessions. A session that another
one replaced does not submit again. -/
def submitMachine : Machine SubmitState SubmitEvent Answer where
  Init st := st.current = none ∧ st.closed = []
  Enabled st
    | .submit _ _ usbSession _ => usbSession ∉ st.closed
    | _ => True
  next st
    | .submit key hash usbSession now =>
      { st.switch usbSession with table := (st.table.submit key hash usbSession now).2.2 }
    | .repeated i request => st.repeated i request
    | .update i u => st.update i u
  out st
    | .submit key hash usbSession now =>
      [⟨⟨usbSession, key, hash⟩, (st.table.submit key hash usbSession now).1⟩]
    | _ => []

instance (st : SubmitState) (e : SubmitEvent) : Decidable (submitMachine.Enabled st e) :=
  match e with
  | .submit _ _ usbSession _ => inferInstanceAs (Decidable (usbSession ∉ st.closed))
  | .repeated .. => inferInstanceAs (Decidable True)
  | .update .. => inferInstanceAs (Decidable True)

/-- A later answer to the key of an accepted request does not accept again, and tells the stored
outcome only for the same content. -/
def Answer.Respects (a b : Answer) : Prop :=
  a.result = .accepted → b.content.usbSession = a.content.usbSession →
    b.content.key = a.content.key →
    b.result ≠ .accepted ∧ (b.content.hash ≠ a.content.hash → b.result ≠ .existing)

structure SubmitInv (st : SubmitState) (h : List Answer) : Prop where
  respects : h.Pairwise Answer.Respects
  sessions : ∀ a ∈ h, st.current = some a.content.usbSession ∨ a.content.usbSession ∈ st.closed
  current : ∀ s, st.current = some s → st.table.floorSession = s
  remembers : ∀ a ∈ h, a.result = .accepted → st.current = some a.content.usbSession →
    st.table.Remembers a.content
  agrees : ∀ a ∈ h, a.result = .accepted → ∀ r ∈ st.table.records,
    r.usbSession = a.content.usbSession → r.key = a.content.key → r.hash = a.content.hash

namespace SubmitInv

variable {st : SubmitState} {h : List Answer} {t : IdempotencyTable}

theorem init (hinit : submitMachine.Init st) : SubmitInv st [] := by
  refine ⟨List.Pairwise.nil, fun a ha => by simp at ha, fun s hs => ?_, fun a ha => by simp at ha,
    fun a ha => by simp at ha⟩
  rw [hinit.1] at hs
  cases hs

theorem keep (H : SubmitInv st h) (hk : st.table.Keeps t) : SubmitInv { st with table := t } h := by
  refine ⟨H.respects, H.sessions, fun s hs => hk.floorSession.trans (H.current s hs), ?_, ?_⟩
  · intro a ha hacc hcur
    exact hk.remembers _ (H.current _ hcur).symm (H.remembers a ha hacc hcur)
  · intro a ha hacc r' hr' hs hkey
    obtain ⟨r, hr, hc⟩ := hk.records r' hr'
    obtain ⟨hs', hk', hh'⟩ : r.usbSession = r'.usbSession ∧ r.key = r'.key ∧ r.hash = r'.hash := by
      simpa [IdempotencyRecord.content] using hc
    exact hh'.symm.trans (H.agrees a ha hacc r hr (hs'.trans hs) (hk'.trans hkey))

theorem repeated (H : SubmitInv st h) (i : Fin kCapacity) (request : UInt64) :
    SubmitInv (st.repeated i request) h := by
  unfold SubmitState.repeated
  split
  · exact H
  · next r hr =>
    split
    · exact H
    · next hrepeat => exact H.keep (IdempotencyTable.repeatRecord_keeps hr hrepeat)

theorem update (H : SubmitInv st h) (i : Fin kCapacity) (u : RecordUpdate) : SubmitInv (st.update i u) h := by
  unfold SubmitState.update
  split
  · exact H
  · next r hr => exact H.keep (.set hr (RecordUpdate.content_apply r u))

variable {a : Answer} {result : IdempotencyResult}

/-- An earlier answer to the submitting session was given under the open key space. -/
theorem open_of_mem (H : SubmitInv st h) (ha : a ∈ h) (hopen : a.content.usbSession ∉ st.closed) :
    st.current = some a.content.usbSession ∧ st.table.openSession a.content.usbSession = st.table := by
  have hcur := (H.sessions a ha).resolve_right hopen
  exact ⟨hcur, IdempotencyTable.openSession_same (H.current _ hcur)⟩

/-- A key that was accepted is not new: it is in a record or below the floor. -/
theorem not_new (H : SubmitInv st h) (ha : a ∈ h) (hacc : a.result = .accepted) {c : Content}
    (hopen : c.usbSession ∉ st.closed) (hs : c.usbSession = a.content.usbSession)
    (hk : c.key = a.content.key) (hnew : ∀ r ∈ (st.table.openSession c.usbSession).records,
      r.usbSession = c.usbSession → r.key ≠ c.key)
    (hfloor : ¬ (st.table.openSession c.usbSession).BelowFloor c.key) : False := by
  rw [hs] at hopen hnew hfloor
  obtain ⟨hcur, hsame⟩ := H.open_of_mem ha hopen
  rw [hsame] at hnew hfloor
  rcases H.remembers a ha hacc hcur with ⟨r, hr, hc⟩ | hbelow
  · have hr' : r.usbSession = a.content.usbSession ∧ r.key = a.content.key := by
      rw [← hc]
      exact ⟨rfl, rfl⟩
    exact hnew r hr hr'.1 (hr'.2.trans hk.symm)
  · rw [hk] at hfloor
    exact hfloor hbelow

theorem respects_submit (H : SubmitInv st h) {c : Content} (hopen : c.usbSession ∉ st.closed)
    (hsub : (st.table.openSession c.usbSession).Submitted c result t) (ha : a ∈ h) :
    a.Respects ⟨c, result⟩ := by
  intro hacc hs hk
  cases hsub with
  | existing r hr hc =>
    refine ⟨by simp, fun hne => ?_⟩
    rw [IdempotencyTable.openSession_records] at hr
    have hr' : r.usbSession = c.usbSession ∧ r.key = c.key ∧ r.hash = c.hash := by
      rw [← hc]
      exact ⟨rfl, rfl, rfl⟩
    have hhash := H.agrees a ha hacc r hr (hr'.1.trans hs) (hr'.2.1.trans hk)
    exact absurd (hr'.2.2.symm.trans hhash) hne
  | refused hne hna => exact ⟨hna, fun _ => hne⟩
  | accepted _ hnew hfloor _ _ _ => exact (H.not_new ha hacc hopen hs hk hnew hfloor).elim

theorem remembers_submit (H : SubmitInv st h) {c : Content} (hopen : c.usbSession ∉ st.closed)
    (hsub : (st.table.openSession c.usbSession).Submitted c result t) (ha : a ∈ h)
    (hacc : a.result = .accepted) (hs : a.content.usbSession = c.usbSession) : t.Remembers a.content := by
  rw [← hs] at hopen hsub
  obtain ⟨hcur, hsame⟩ := H.open_of_mem ha hopen
  rw [hsame] at hsub
  have hold := H.remembers a ha hacc hcur
  cases hsub with
  | existing r hr hc => exact hold
  | refused hne hna => exact hold
  | accepted _ _ _ _ hkeep _ => exact hkeep _ (H.current _ hcur).symm hold

/-- The records agree with every accepted answer after a submission. -/
theorem agrees_submit (H : SubmitInv st h) {c : Content} (hopen : c.usbSession ∉ st.closed)
    (hsub : (st.table.openSession c.usbSession).Submitted c result t) (ha : a ∈ h)
    (hacc : a.result = .accepted) {r : IdempotencyRecord} (hr : r ∈ t.records)
    (hs : r.usbSession = a.content.usbSession) (hk : r.key = a.content.key) : r.hash = a.content.hash := by
  have hrecords := IdempotencyTable.openSession_records st.table c.usbSession
  cases hsub with
  | existing _ _ _ | refused _ _ =>
    rw [hrecords] at hr
    exact H.agrees a ha hacc r hr hs hk
  | accepted _ hnew hfloor _ _ hrec =>
    rcases hrec r hr with rfl | hmem
    · exact (H.not_new ha hacc hopen hs hk hnew hfloor).elim
    · rw [hrecords] at hmem
      exact H.agrees a ha hacc r hmem hs hk

theorem submitted (H : SubmitInv st h) {c : Content} (hopen : c.usbSession ∉ st.closed)
    (hsub : (st.table.openSession c.usbSession).Submitted c result t) :
    SubmitInv { st.switch c.usbSession with table := t } (h ++ [⟨c, result⟩]) := by
  have hfloor : t.floorSession = c.usbSession := by
    have hopened := IdempotencyTable.openSession_floorSession st.table c.usbSession
    cases hsub with
    | existing _ _ _ => exact hopened
    | refused _ _ => exact hopened
    | accepted hs _ _ _ _ _ => exact hs.trans hopened
  refine ⟨?_, ?_, ?_, ?_, ?_⟩
  · refine List.pairwise_append.mpr ⟨H.respects, List.pairwise_singleton _ _, fun a ha b hb => ?_⟩
    rw [List.mem_singleton.mp hb]
    exact H.respects_submit hopen hsub ha
  · intro a ha
    rcases List.mem_append.mp ha with ha | ha
    · by_cases hs : a.content.usbSession = c.usbSession
      · exact .inl (congrArg some hs.symm)
      · refine .inr (List.mem_append.mpr ?_)
        rcases H.sessions a ha with hcur | hclosed
        · refine .inl ?_
          rw [hcur, Option.filter_some, if_pos (decide_eq_true hs)]
          exact List.mem_singleton.mpr rfl
        · exact .inr hclosed
    · rw [List.mem_singleton.mp ha]
      exact .inl rfl
  · intro s hs
    rw [← Option.some.inj hs]
    exact hfloor
  · intro a ha hacc hcur
    rcases List.mem_append.mp ha with ha | ha
    · exact H.remembers_submit hopen hsub ha hacc (Option.some.inj hcur).symm
    · cases List.mem_singleton.mp ha
      cases hsub with
      | existing _ _ _ => cases hacc
      | refused _ hna => exact absurd hacc hna
      | accepted _ _ _ hc _ _ => exact hc
  · intro a ha hacc r hr hs hk
    rcases List.mem_append.mp ha with ha | ha
    · exact H.agrees_submit hopen hsub ha hacc hr hs hk
    · cases List.mem_singleton.mp ha
      cases hsub with
      | existing _ _ _ => cases hacc
      | refused _ hna => exact absurd hacc hna
      | accepted _ hnew _ _ _ hrec =>
        rcases hrec r hr with rfl | hmem
        · rfl
        · exact absurd hk (hnew r hmem hs)

theorem of_run (hr : submitMachine.Run st h) : SubmitInv st h := by
  refine hr.invariant (I := SubmitInv) (fun _ => init) fun st h e H he => ?_
  cases e with
  | submit key hash usbSession now =>
    exact H.submitted (c := ⟨usbSession, key, hash⟩) he
      (IdempotencyTable.submit_spec key hash usbSession now st.table)
  | repeated i request =>
    rw [show submitMachine.out st (.repeated i request) = [] from rfl, List.append_nil]
    exact H.repeated i request
  | update i u =>
    rw [show submitMachine.out st (.update i u) = [] from rfl, List.append_nil]
    exact H.update i u

end SubmitInv

/-- **A request is accepted at most once**: starting from any table, in every sequence of
submissions, repetitions and record updates in which a replaced session does not return, once a key
of a session is accepted no later submission of it is accepted again, and one with another hash is
not answered as a repetition. -/
theorem submit_accepts_once (st : SubmitState) (h : List Answer) (hr : submitMachine.Run st h) :
    h.Pairwise Answer.Respects :=
  (SubmitInv.of_run hr).respects

/-- Sixteen requests that end and are reported fill the table, a seventeenth takes the slot of the
first, and the first key is submitted again, with its own and with another content. -/
def sampleSubmissions : List SubmitEvent :=
  ((List.finRange 16).flatMap fun i =>
    [.submit (i.val.toUInt64 + 1) (Vector.replicate 16 7) 5 i.val.toUInt64,
      .update i (.settle i.val.toUInt64 .delivered 0 none), .update i .report]) ++
  [.submit 17 (Vector.replicate 16 7) 5 20, .submit 1 (Vector.replicate 16 7) 5 21,
    .submit 2 (Vector.replicate 16 8) 5 22, .submit 2 (Vector.replicate 16 7) 5 23]

theorem submit_accepts_once_sample :
    (((submitMachine.exec ⟨{}, none, []⟩ [] sampleSubmissions).2.map Answer.result).drop 15 =
        [.accepted, .accepted, .resultExpired, .conflict, .existing]) ∧
      (submitMachine.exec ⟨{}, none, []⟩ [] sampleSubmissions).2.Pairwise Answer.Respects := by
  have hinit : submitMachine.Init ⟨{}, none, []⟩ := ⟨rfl, rfl⟩
  exact ⟨by decide +kernel,
    submit_accepts_once _ _ (Machine.run_exec hinit sampleSubmissions (by decide +kernel))⟩

end RouteLoom.Usb
