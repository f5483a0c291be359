import RouteLoom.Object.Soundness

/-!
# Every call keeps an object endpoint sound

* `Sound` : the two sides of an endpoint and the frames it has put out are true of the history
* `Sound.onConfigFrame`, `Sound.poll` : arrivals and polls
* `Sound.cancel`, `Sound.onConfigJobDone`, `Sound.registerBuffer` : the other calls
-/

namespace RouteLoom.Object

open Lib AppObject Function List

variable {r n : Nat} {keep : Bool} {links : List Link} {contexts : NodeId → Option Context}
  {env : ObjectEnv} {config : ObjectConfig} {base : List ObjectNote} {o : AppObject r n}

/-- The history with what a call has put out. -/
def known (config : ObjectConfig) (base : List ObjectNote) (out : List ObjectOutput) : List ObjectNote :=
  base ++ out.filterMap (noteOf config)

/-- What a call relies on: the ids of contexts, and the contexts that its environment shows. -/
structure Setting (keep : Bool) (links : List Link) (contexts : NodeId → Option Context) (env : ObjectEnv)
    (config : ObjectConfig) : Prop where
  unique : ∀ l ∈ links, ∀ l' ∈ links, l.node = l'.node → l.peer = l'.peer → l.tx = l'.tx → l = l'
  paired : ∀ l ∈ links, ∀ l' ∈ links, l.node = l'.peer → l.peer = l'.node → l.tx = l'.rx → l.rx = l'.tx
  context : ∀ peer c, contexts peer = some c → ∃ l ∈ links, l.node = config.node ∧ l.peer = peer ∧
    l.tx = c.tx ∧ l.rx = c.rx ∧ (keep = false → l.boot = config.messageSession)
  txEpoch : ∀ peer epoch, env.txEpoch peer = some epoch → ∃ c, contexts peer = some c ∧ c.tx = epoch
  rxEpoch : ∀ peer, env.currentRxEpoch peer = (contexts peer).map Context.rx

/-- The ids of a boot are given out in order, until they are used up. -/
def Numbered (config : ObjectConfig) (nextId : ObjectId) (notes : List ObjectNote) : Prop :=
  ∀ boot destination id data, .sent config.node boot destination id data ∈ notes →
    boot ≤ config.messageSession ∧ (boot = config.messageSession → id < nextId ∨ nextId = 0)

structure Sound (keep : Bool) (links : List Link) (contexts : NodeId → Option Context)
    (config : ObjectConfig) (base : List ObjectNote) (o : AppObject r n) : Prop where
  own : o.config = config
  ids : Numbered config o.nextId (known config base o.out)
  history : Truthful keep (known config base o.out)
  frames : ∀ frame, .frame frame ∈ o.out → FrameSound keep links (known config base o.out) frame
  tx : TxSide keep links (known config base o.out) config o.tx o.result
  rx : RxSide keep links (known config base o.out) contexts config o.rx o.records o.floors

/-! ## Frames put out -/

theorem known_frame (out : List ObjectOutput) (frame : ObjectFrame) :
    known config base (out ++ [.frame frame]) = known config base out := by
  simp [known, noteOf]

/-- The frame is the one that an endpoint was asked to send. -/
structure Emitted (env : ObjectEnv) (config : ObjectConfig) (type : ObjectFrameType) (peer : NodeId)
    (payload : List UInt8) (frame : ObjectFrame) : Prop where
  type : frame.type = type
  origin : frame.origin = config.node
  destination : frame.destination = peer
  session : frame.session = config.messageSession
  payload : frame.payload = payload
  epoch : env.txEpoch peer = some frame.endEpoch

def emit (frame : ObjectFrame) (sendAfterMs : MonotonicMs) (o : AppObject r n) : AppObject r n :=
  { o with sendAfterMs := sendAfterMs, out := o.out ++ [.frame frame] }

theorem sendFrame_cases (env : ObjectEnv) (o : AppObject r n) (type : ObjectFrameType) (peer : NodeId)
    (payload : List UInt8) (now : MonotonicMs) (lifetimeMs : UInt32) :
    o.sendFrame env type peer payload now lifetimeMs = (none, o) ∨
      ∃ id frame sendAfterMs, Emitted env o.config type peer payload frame ∧
        o.sendFrame env type peer payload now lifetimeMs = (some id, emit frame sendAfterMs o) := by
  unfold sendFrame
  split
  · exact .inl rfl
  · split
    · exact .inl rfl
    · next epoch hepoch =>
      dsimp only
      split
      · exact .inl rfl
      · next id _ => exact .inr ⟨id, _, _, ⟨rfl, rfl, rfl, rfl, rfl, hepoch⟩, rfl⟩

theorem Setting.bound (hset : Setting keep links contexts env config) {peer : NodeId} {epoch : UInt32}
    (hepoch : env.txEpoch peer = some epoch) :
    Bound keep links config.node peer epoch config.messageSession := by
  obtain ⟨c, hc, rfl⟩ := hset.txEpoch peer epoch hepoch
  obtain ⟨l, hl, hnode, hpeer, htx, -, hboot⟩ := hset.context peer c hc
  exact ⟨l, hl, hnode, hpeer, htx, hboot⟩

variable {frame : ObjectFrame} {notes : List ObjectNote} {data : List UInt8} {now : MonotonicMs}
  {floors : Pool Floor n} {records : Pool Record kRecords} {rx : Fin r → Rx} {f : Floor} {k : Key}
  {start : Start} {i : Fin r} {record : Record}

section

variable (h : Sound keep links contexts config base o)
include h

theorem Sound.emit (hset : Setting keep links contexts env config) {type : ObjectFrameType}
    {peer : NodeId} {payload : List UInt8} (hframe : Emitted env config type peer payload frame)
    (hsaid : Says keep links (known config base o.out) frame) (sendAfterMs : MonotonicMs) :
    Sound keep links contexts config base (emit frame sendAfterMs o) := by
  have hknown : known config base (o.out ++ [.frame frame]) = _ := known_frame o.out frame
  have hsound : FrameSound keep links (known config base o.out) frame := by
    refine ⟨hsaid, ?_⟩
    rw [hframe.origin, hframe.destination, hframe.session]
    exact hset.bound hframe.epoch
  refine ⟨h.own, ?_, ?_, fun frame' hframe' => ?_, ?_, ?_⟩ <;> dsimp only [Object.emit] <;> rw [hknown]
  · exact h.ids
  · exact h.history
  · obtain hold | hnew := mem_append.mp hframe'
    · exact h.frames frame' hold
    · cases mem_singleton.mp hnew
      exact hsound
  · exact h.tx
  · exact h.rx

omit h in
/-- Only an acknowledgement of a complete object says something. -/
theorem says_ack {ack : Ack} {capacity : Nat} {bytes : List UInt8} (hencode : ack.encode capacity = .ok bytes)
    (htype : frame.type = .ack) (hpayload : frame.payload = bytes)
    (h : ack.status = .complete → ∃ name, Completion keep links notes frame ack.id name) :
    Says keep links notes frame where
  start v hv := by rw [htype] at hv; cases hv
  chunk v hv := by rw [htype] at hv; cases hv
  ack v _ hv hstatus := by
    rw [hpayload, decodeAck_encode hencode] at hv
    cases hv
    exact h hstatus

theorem Sound.queueAck (hset : Setting keep links contexts env config) (peer : NodeId) {ack : Ack}
    (now : MonotonicMs) (hstatus : ack.status ≠ .complete) :
    Sound keep links contexts config base (o.queueAck env peer ack now) := by
  unfold AppObject.queueAck
  split
  · exact h
  · next bytes hencode =>
    obtain hsend | ⟨id, frame, after, hframe, hsend⟩ :=
      sendFrame_cases env o .ack peer bytes now 4000 <;> rw [hsend]
    · exact h
    · rw [h.own] at hframe
      exact h.emit hset hframe
        (says_ack hencode hframe.type hframe.payload fun hcomplete => absurd hcomplete hstatus) after

/-! ## The sending side -/

theorem Sound.finishTx {state : ObjectState} (reason : Option StatusCode) (t : Tx)
    (hstate : keep = false → state = .delivered →
      Reached (known config base o.out) config.node config.messageSession t.start.id) :
    Sound keep links contexts config base (o.finishTx state reason t) := by
  refine ⟨h.own, h.ids, h.history, h.frames, ⟨fun t' ht' => ?_, fun res hres => ?_⟩, h.rx⟩
  · cases ht'
  · cases hres
    exact hstate

theorem Sound.setTx {t : Tx} (ht : TxSound keep links (known config base o.out) config t) :
    Sound keep links contexts config base { o with tx := some t } := by
  refine ⟨h.own, h.ids, h.history, h.frames, ⟨fun t' ht' => ?_, h.tx.result⟩, h.rx⟩
  cases ht'
  exact ht

omit h in
theorem startOf_total {id : ObjectId} {options : ObjectOptions} (h : data.length ≤ kMaxBytes) :
    (startOf id data options).total.toNat = data.length := by
  have hsmall : data.length < 65536 := Nat.lt_of_le_of_lt h (by decide)
  exact Nat.mod_eq_of_lt hsmall

omit h in
theorem Truthful.send (h : Truthful keep notes) {node : NodeId} {boot : UInt32} {destination : NodeId}
    {id : ObjectId} (hnew : ∀ destination' data', .sent node boot destination' id data' ∉ notes) :
    Truthful keep (notes ++ [.sent node boot destination id data]) := by
  refine ⟨fun node' boot' d d' id' data' data'' ha hb => ?_, fun _ _ _ _ hreceived => ?_,
    fun hkeep _ _ _ hreport hstate => ?_⟩
  · simp only [mem_append, mem_singleton, ObjectNote.sent.injEq] at ha hb
    obtain ha | ⟨rfl, rfl, rfl, rfl, rfl⟩ := ha
    · obtain hb | ⟨rfl, rfl, rfl, rfl, rfl⟩ := hb
      · exact h.sent _ _ _ _ _ _ _ ha hb
      · exact absurd ha (hnew _ _)
    · obtain hb | ⟨-, -, rfl, -, rfl⟩ := hb
      · exact absurd hb (hnew _ _)
      · exact ⟨rfl, rfl⟩
  · exact mem_append_left _ (h.exact _ _ _ _ (by simpa using hreceived))
  · exact (h.reports hkeep _ _ _ (by simpa using hreport) hstate).mono (subset_append_left ..)

theorem Sound.send (hset : Setting keep links contexts env config) (hout : o.out = [])
    {destination : NodeId} {options : ObjectOptions} {id : ObjectId} {o' : AppObject r n}
    (hsend : o.send env destination data options now = (.ok id, o')) :
    Sound keep links contexts config
      (base ++ [.sent config.node config.messageSession destination id data]) o' := by
  have hknown : ∀ base, known config base ([] : List ObjectOutput) = base := append_nil
  obtain ⟨hown, hids, hhistory, -, htx, hrx⟩ := h
  rw [hout, hknown] at hids hhistory htx hrx
  unfold AppObject.send at hsend
  split at hsend
  · cases hsend
  split at hsend
  · cases hsend
  next hlength =>
  split at hsend
  · cases hsend
  split at hsend
  · cases hsend
  next hzero =>
  split at hsend
  · next txEpoch rxEpoch htxEpoch hrxEpoch =>
    split at hsend
    · cases hsend
    cases hsend
    rw [beq_iff_eq] at hzero
    have hsub := subset_append_left base [.sent config.node config.messageSession destination o.nextId data]
    obtain ⟨c, hc, htx'⟩ := hset.txEpoch _ _ htxEpoch
    obtain ⟨l, hl, hnode, hpeer, hltx, hlrx, hboot⟩ := hset.context _ c hc
    refine ⟨hown, ?_, ?_, fun frame hframe => ?_, ⟨fun t ht => ?_, ?_⟩, ?_⟩
    · dsimp only
      rw [hout, hknown]
      intro boot d id data' hsent
      have hsucc : o.nextId < o.nextId + 1 ∨ o.nextId + 1 = 0 := by
        rw [UInt32.lt_iff_toNat_lt, ← UInt32.toNat_inj, UInt32.toNat_add]
        have : (1 : UInt32).toNat = 1 := rfl
        have : (0 : UInt32).toNat = 0 := rfl
        have := o.nextId.toNat_lt
        omega
      simp only [mem_append, mem_singleton, ObjectNote.sent.injEq] at hsent
      obtain hsent | ⟨-, rfl, -, rfl, -⟩ := hsent
      · refine ⟨(hids _ _ _ _ hsent).1, fun hsame => hsucc.imp_left fun hlt => ?_⟩
        exact UInt32.lt_trans (((hids _ _ _ _ hsent).2 hsame).resolve_right hzero) hlt
      · exact ⟨UInt32.le_refl _, fun _ => hsucc⟩
    · dsimp only
      rw [hout, hknown]
      refine hhistory.send fun d data' hsent => ?_
      exact UInt32.lt_irrefl _ (((hids _ _ _ _ hsent).2 rfl).resolve_right hzero)
    · rw [hout] at hframe
      cases hframe
    · cases ht
      dsimp only
      rw [hout, hknown]
      refine ⟨mem_append_right _ (mem_singleton_self _), startOf_total (Nat.not_lt.mp hlength), l,
        hl, hnode, hpeer, hltx.trans htx', ?_, hboot⟩
      rw [hset.rxEpoch, hc] at hrxEpoch
      exact hlrx.trans (Option.some.inj hrxEpoch)
    · dsimp only
      rw [hout, hknown]
      exact (htx.mono (fun _ hl => hl) hsub).result
    · dsimp only
      rw [hout, hknown]
      refine hrx.mono (fun _ hl => hl) hsub ?_ fun _ _ _ hretired => hretired
      unfold received
      rw [receivedNames_append]
      exact append_nil _
  · cases hsend

theorem Sound.cancel (id : ObjectId) : Sound keep links contexts config base (o.cancel id).2 := by
  unfold AppObject.cancel
  split
  · exact h
  · split
    · exact h
    · refine h.finishTx none _ fun _ hstate => ?_
      split at hstate <;> cases hstate

theorem Sound.onConfigJobDone (id : MessageId) (accepted unsupported : Bool) (now : MonotonicMs) :
    Sound keep links contexts config base (o.onConfigJobDone id accepted unsupported now) := by
  unfold AppObject.onConfigJobDone
  split
  · exact h
  · next t ht =>
    have hsound := h.tx.tx t ht
    split
    · exact h
    · split
      · exact h
      · split
        · exact h.finishTx _ t fun _ hstate => by cases hstate
        · exact h.setTx ⟨hsound.sent, hsound.total, hsound.context⟩

omit h in
/-- An acknowledgement of a complete object, in the context of the transfer, is of its object. -/
theorem reached_of_completion (hset : Setting keep links contexts env config) {t : Tx}
    (ht : TxSound keep links notes config t) (hdestination : frame.destination = config.node)
    (horigin : frame.origin = t.destination) (hepoch : frame.endEpoch = t.rxEpoch) {name : ObjectName}
    (hname : Completion keep links notes frame t.start.id name) (hkeep : keep = false) :
    Reached notes config.node config.messageSession t.start.id := by
  obtain ⟨mine, hmine, hnode, hpeer, htx, hrx, hboot⟩ := ht.context
  obtain ⟨theirs, htheirs, hnode', hpeer', htx', hrx'⟩ := hname.context
  obtain ⟨bound, hbound, hnode'', hpeer'', htx'', hboot''⟩ := hname.bound
  -- the peer's context is the one the transfer uses, so its id is the transfer's own
  have hepoch' : name.epoch = t.txEpoch := by
    have := hset.paired theirs htheirs mine hmine (by rw [hnode', hpeer, horigin])
      (by rw [hpeer', hnode, hdestination]) (by rw [htx', hrx, hepoch])
    rw [← hrx', this, htx]
  have hsame : bound = mine :=
    hset.unique bound hbound mine hmine (by rw [hnode'', hnode, hdestination])
      (by rw [hpeer'', hpeer, horigin]) (by rw [htx'', htx, hepoch'])
  have hsession : name.boot = config.messageSession := by
    rw [← hboot'' hkeep, hsame, hboot hkeep]
  refine ⟨t.destination, t.data, name, ht.sent, ?_, hname.peer.trans hdestination, hsession, hname.id⟩
  rw [← horigin]
  exact hname.received

theorem Sound.ackArrived {t : Tx} {ack : Ack}
    (now : MonotonicMs) (ht : TxSound keep links (known config base o.out) config t)
    (hcomplete : ack.status = .complete → keep = false →
      Reached (known config base o.out) config.node config.messageSession t.start.id) :
    Sound keep links contexts config base (o.ackArrived ack now t) := by
  unfold AppObject.ackArrived
  split
  · next hstatus =>
    split
    · exact h.finishTx none t fun hkeep _ => hcomplete hstatus hkeep
    · exact h.setTx ht
  · split
    · exact h.setTx ht
    · exact h.setTx ⟨ht.sent, ht.total, ht.context⟩
  · exact h.setTx ⟨ht.sent, ht.total, ht.context⟩
  · refine h.finishTx _ t fun _ hstate => ?_
    split at hstate <;> cases hstate

theorem Sound.ackRx (hset : Setting keep links contexts env config) (now : MonotonicMs)
    (hframe : FrameSound keep links (known config base o.out) frame) (htype : frame.type = .ack)
    (hdestination : frame.destination = config.node) :
    Sound keep links contexts config base (o.ackRx env frame now) := by
  unfold AppObject.ackRx
  split
  · next ack t hack ht =>
    have hsound := h.tx.tx t ht
    split
    · exact h
    next hmatch =>
    simp only [Bool.or_eq_true, bne_iff_ne, ne_eq, decide_eq_true_eq, not_or, Decidable.not_not] at hmatch
    obtain ⟨⟨⟨⟨horigin, hepoch⟩, hid⟩, -⟩, -⟩ := hmatch
    split
    · exact h.finishTx _ t fun _ hstate => by cases hstate
    · split
      · exact h
      · split
        · exact h.finishTx _ t fun _ hstate => by cases hstate
        · refine h.ackArrived now ⟨hsound.sent, hsound.total, hsound.context⟩ fun hcomplete hkeep => ?_
          obtain ⟨name, hname⟩ := hframe.ack ack htype hack hcomplete
          rw [hid] at hname
          exact reached_of_completion (t := t) hset hsound hdestination horigin hepoch hname hkeep
  · exact h

omit h in
theorem says_payload {t : Tx} (ht : TxSound keep links notes config t) {index : UInt8}
    (hframe : Emitted env config (if index == kManifest then .start else .chunk) t.destination
      (payloadOf t now index) frame) : Says keep links notes frame := by
  have hsent : ∀ id, id = t.start.id →
      .sent frame.origin frame.session frame.destination id t.data ∈ notes := by
    rintro _ rfl
    rw [hframe.origin, hframe.session, hframe.destination]
    exact ht.sent
  have hpayload := hframe.payload
  have htype := hframe.type
  unfold payloadOf at hpayload
  dsimp only at hpayload
  by_cases hindex : (index == kManifest) = true
  · rw [if_pos hindex] at hpayload htype
    refine ⟨fun v _ hv => ?_, fun v hv => ?_, fun v hv => ?_⟩
    · split at hpayload
      · next bytes hencode =>
        rw [hpayload, decodeStart_encode hencode] at hv
        cases hv
        exact ⟨t.data, hsent _ rfl, ht.total⟩
      · rw [hpayload] at hv
        cases hv
    · rw [htype] at hv
      cases hv
    · rw [htype] at hv
      cases hv
  · rw [if_neg hindex] at hpayload htype
    refine ⟨fun v hv => ?_, fun v _ hv => ?_, fun v hv => ?_⟩
    · rw [htype] at hv
      cases hv
    · split at hpayload
      · next bytes hencode =>
        rw [hpayload, decodeChunk_encode hencode] at hv
        cases hv
        refine ⟨t.data, hsent _ rfl, ?_⟩
        dsimp only
        rw [Lib.segment, Lib.segment, length_take, take_eq_take_iff]
        omega
      · rw [hpayload] at hv
        cases hv
    · rw [htype] at hv
      cases hv

theorem Sound.resend (hset : Setting keep links contexts env config) {t : Tx}
    (ht : TxSound keep links (known config base o.out) config t) (f : Flight) (now : MonotonicMs) :
    Sound keep links contexts config base (o.resend env t f now) := by
  unfold AppObject.resend
  dsimp only
  obtain hsend | ⟨id, frame, after, hframe, hsend⟩ :=
    sendFrame_cases env o (if f.index == kManifest then .start else .chunk) t.destination
      (payloadOf t now f.index) now (min 4000 (t.deadlineMs - now)).toUInt32 <;> rw [hsend]
  · exact h
  · rw [h.own] at hframe
    refine (h.emit hset hframe (says_payload ht hframe) after).setTx ?_
    dsimp only [Object.emit]
    rw [known_frame]
    exact ⟨ht.sent, ht.total, ht.context⟩

theorem Sound.pollTx (hset : Setting keep links contexts env config) (now : MonotonicMs) :
    Sound keep links contexts config base (o.pollTx env now) := by
  unfold AppObject.pollTx
  split
  · exact h
  next t ht =>
  have hsound := h.tx.tx t ht
  split
  · exact h.finishTx _ t fun _ hstate => by cases hstate
  split
  · exact h.finishTx _ t fun _ hstate => by cases hstate
  unfold pump
  split
  · exact h
  split
  · exact h.setTx ⟨hsound.sent, hsound.total, hsound.context⟩
  split
  · exact h
  split
  · exact h.finishTx _ t fun _ hstate => by cases hstate
  · exact h.resend hset hsound _ now

/-! ## The receiving side -/

theorem Sound.setRx (hrx : RxSide keep links (known config base o.out) contexts config rx records floors) :
    Sound keep links contexts config base { o with rx := rx, records := records, floors := floors } :=
  ⟨h.own, h.ids, h.history, h.frames, h.tx, hrx⟩

theorem Sound.registerBuffer (buffer : List UInt8) :
    Sound keep links contexts config base (o.registerBuffer buffer).2 := by
  unfold AppObject.registerBuffer
  split
  · exact h
  · split
    · exact h
    · exact h.setRx (h.rx.write _ fun hactive => ⟨hactive, rfl, fun _ _ hslot => hslot⟩)

theorem Sound.updateRecord (j : Fin kRecords) {f : Record → Record}
    (hkey : ∀ record, (f record).key = record.key) (huntil : ∀ record, (f record).untilMs = record.untilMs)
    (hstatus : ∀ record, (f record).status = record.status) :
    Sound keep links contexts config base (o.updateRecord j f) :=
  h.setRx (h.rx.modify j hkey huntil fun record _ hsound hcomplete =>
    hsound.complete (hstatus record ▸ hcomplete))

theorem Sound.finishRx (i : Fin r) {status : AckStatus} (hstatus : status ≠ .complete) :
    Sound keep links contexts config base (o.finishRx i status) := by
  refine h.setRx (RxSide.write ?_ i fun hactive => by cases hactive)
  exact h.rx.modify _ (fun _ => rfl) (fun _ => rfl) fun _ _ _ hcomplete => absurd hcomplete hstatus

theorem Sound.finishWhere (p : Key → Bool) {status : AckStatus} (hstatus : status ≠ .complete) :
    Sound keep links contexts config base (o.finishWhere p status) := by
  refine List.foldlRecOn (motive := Sound keep links contexts config base) _ _ h fun o' h' i _ => ?_
  split
  · exact h'.finishRx i hstatus
  · exact h'

end

theorem finishWhere_floors (p : Key → Bool) (status : AckStatus) (o : AppObject r n) :
    (o.finishWhere p status).floors = o.floors := by
  refine List.foldlRecOn (motive := fun o' : AppObject r n => o'.floors = o.floors) _ _ rfl
    fun o' h' i _ => ?_
  split
  · exact h'
  · exact h'

theorem finishWhere_out (p : Key → Bool) (status : AckStatus) (o : AppObject r n) :
    (o.finishWhere p status).out = o.out := by
  refine List.foldlRecOn (motive := fun o' : AppObject r n => o'.out = o.out) _ _ rfl fun o' h' i _ => ?_
  split
  · exact h'
  · exact h'

/-! ### Floors -/

/-- No floor for the context of the object is above it. -/
def Above (k : Key) (floors : Pool Floor n) : Prop :=
  ∀ j f, floors.slots j = some f → f.peer = k.peer → f.epoch = k.epoch → belowFloor k f = false

theorem belowFloor_eq_false :
    belowFloor k f = false ↔ f.boot < k.boot ∨ f.boot = k.boot ∧ f.highest < k.id := by
  simp only [belowFloor, Bool.or_eq_false_iff, decide_eq_false_iff_not, Bool.and_eq_false_iff,
    beq_eq_false_iff_ne, ne_eq, UInt32.lt_iff_toNat_lt, UInt32.le_iff_toNat_le, ← UInt32.toNat_inj]
  omega

theorem floorIdx_some {j : Fin n} (h : o.floorIdx k = some j) :
    ∃ f, o.floors.slots j = some f ∧ f.peer = k.peer ∧ f.epoch = k.epoch := by
  obtain ⟨f, hf, hkey⟩ := Pool.findIdx_some h
  simp only [Bool.and_eq_true, beq_iff_eq] at hkey
  exact ⟨f, hf, hkey⟩

theorem floorIdx_none (h : o.floorIdx k = none) :
    ∀ j f, o.floors.slots j = some f → ¬ (f.peer = k.peer ∧ f.epoch = k.epoch) := by
  intro j f hf hkey
  have := Pool.findIdx_none.mp h f ⟨j, hf⟩
  simp [hkey] at this

theorem above_of_floorIdx (hunique : o.floors.KeyUnique fun f => (f.peer, f.epoch))
    (h : ¬ ((o.floorIdx k).bind o.floors.slots).any (belowFloor k) = true) : Above k o.floors := by
  intro j f hf hpeer hepoch
  cases hidx : o.floorIdx k with
  | none => exact absurd ⟨hpeer, hepoch⟩ (floorIdx_none hidx j f hf)
  | some j' =>
    obtain ⟨f', hf', hpeer', hepoch'⟩ := floorIdx_some hidx
    have hj : j' = j := hunique j' j f' f hf' hf (by simp only [hpeer', hepoch', hpeer, hepoch])
    subst hj
    rw [hidx, Option.bind_some, hf] at h
    simpa using h

/-- An object above the floors of a live context was not received. -/
theorem Above.fresh (habove : Above k floors) (h : RxSide keep links notes contexts config rx records floors)
    (hlive : (contexts k.peer).map Context.rx = some k.epoch) : k.name ∉ received keep config notes := by
  intro hname
  obtain ⟨f, ⟨j, hf⟩, hpeer, hepoch, hbelow⟩ | hretired := (h.past _ hname).1
  · have := belowFloor_eq_false.mp (habove j f hf hpeer hepoch)
    simp only [Key.name, UInt32.lt_iff_toNat_lt, UInt32.le_iff_toNat_le, ← UInt32.toNat_inj] at this hbelow
    omega
  · exact hretired hlive

/-- A floor is replaced by a higher one of the same context. -/
theorem RxSide.raise_floor (h : RxSide keep links notes contexts config rx records floors) {j : Fin n}
    {f' : Floor} (hf : floors.slots j = some f) (hpeer : f'.peer = f.peer) (hepoch : f'.epoch = f.epoch)
    (hle : f.boot < f'.boot ∨ f.boot = f'.boot ∧ f.highest ≤ f'.highest) :
    RxSide keep links notes contexts config rx records (floors.set j f') := by
  refine h.raise (h.floor.set_same hf (by simp only [hpeer, hepoch])) fun name hcovered =>
    hcovered.imp_left ?_
  rintro ⟨g, ⟨j', hg⟩, hgpeer, hgepoch, hbelow⟩
  by_cases hj : j' = j
  · subst hj
    cases hf.symm.trans hg
    refine ⟨f', ⟨j', Pool.set_slots_self ..⟩, hpeer.trans hgpeer, hepoch.trans hgepoch, ?_⟩
    simp only [UInt32.lt_iff_toNat_lt, UInt32.le_iff_toNat_le, ← UInt32.toNat_inj] at hle hbelow ⊢
    omega
  · exact ⟨g, ⟨j', (Pool.set_slots_ne _ _ hj).trans hg⟩, hgpeer, hgepoch, hbelow⟩

theorem RxSide.add_floor (h : RxSide keep links notes contexts config rx records floors) {j : Fin n}
    (hfree : floors.slots j = none)
    (hnew : ∀ j g, floors.slots j = some g → ¬ (g.peer = f.peer ∧ g.epoch = f.epoch)) :
    RxSide keep links notes contexts config rx records (floors.set j f) := by
  refine h.raise (h.floor.set fun j' g _ hg hkey => hnew j' g hg ?_) fun name hcovered =>
    hcovered.imp_left ?_
  · exact ⟨congrArg Prod.fst hkey, congrArg Prod.snd hkey⟩
  · rintro ⟨g, ⟨j', hg⟩, hname⟩
    refine ⟨g, ⟨j', ?_⟩, hname⟩
    rw [Pool.set_slots_ne, hg]
    rintro rfl
    rw [hfree] at hg
    cases hg

theorem Sound.retireFloors (h : Sound keep links contexts config base o)
    (hset : Setting keep links contexts env config) :
    Sound keep links contexts config base (o.retireFloors env) := by
  refine h.setRx (h.rx.raise (h.rx.floor.eraseIf _) fun name hcovered => ?_)
  obtain ⟨f, hf, hpeer, hepoch, hbelow⟩ | hretired := hcovered
  · by_cases hstale : env.currentRxEpoch f.peer = some f.epoch
    · exact .inl ⟨f, Pool.mem_eraseIf.mpr ⟨hf, by simpa using hstale⟩, hpeer, hepoch, hbelow⟩
    · rw [hset.rxEpoch, hpeer, hepoch] at hstale
      exact .inr hstale
  · exact .inr hretired

/-- A newer boot of the peer moves its floor, and the object stays above it. -/
theorem Sound.newBoot (h : Sound keep links contexts config base o) (hk : k.id ≠ 0)
    (habove : Above k o.floors) :
    Sound keep links contexts config base (o.newBoot k) ∧ Above k (o.newBoot k).floors := by
  unfold AppObject.newBoot
  split
  · exact ⟨h, habove⟩
  · next j hj =>
    obtain ⟨f, hf, hpeer, hepoch⟩ := floorIdx_some hj
    split
    · next hboot =>
      rw [hf] at hboot
      simp only [Option.any_some, decide_eq_true_eq] at hboot
      dsimp only
      have hsame : (o.finishWhere (·.peer == k.peer) .failed).floors.slots j = some f := by
        rw [finishWhere_floors, hf]
      rw [Pool.modify_eq_set hsame]
      have hfinish : Sound keep links contexts config base (o.finishWhere (·.peer == k.peer) .failed) :=
        h.finishWhere _ (by decide)
      refine ⟨hfinish.setRx (hfinish.rx.raise_floor hsame rfl rfl (.inl hboot)), ?_⟩
      intro j' g hg hgpeer hgepoch
      by_cases hj' : j' = j
      · subst hj'
        rw [Pool.set_slots_self] at hg
        cases hg
        refine belowFloor_eq_false.mpr (.inr ⟨rfl, ?_⟩)
        rw [UInt32.lt_iff_toNat_lt]
        rw [ne_eq, ← UInt32.toNat_inj] at hk
        exact Nat.pos_of_ne_zero hk
      · rw [Pool.set_slots_ne _ _ hj', finishWhere_floors] at hg
        exact habove j' g hg hgpeer hgepoch
    · exact ⟨h, habove⟩

theorem newBoot_out (k : Key) (o : AppObject r n) : (o.newBoot k).out = o.out := by
  unfold AppObject.newBoot
  split
  · rfl
  · split
    · exact finishWhere_out ..
    · rfl

/-! ### Manifests -/

/-- The deadline of an object that has some of its lifetime left, and how long its record stays. -/
theorem deadline_bounds {lifetime elapsed : UInt32} (hnow : now.toNat + 150000 < 2 ^ 64)
    (hlifetime : lifetime ≤ 120000) (helapsed : elapsed < lifetime) :
    now + lifetime.toUInt64 - elapsed.toUInt64 ≠ 0 ∧ now + lifetime.toUInt64 - elapsed.toUInt64 ≤
        now + lifetime.toUInt64 - elapsed.toUInt64 + kRecordSlackMs := by
  rw [UInt32.le_iff_toNat_le] at hlifetime
  rw [UInt32.lt_iff_toNat_lt] at helapsed
  have hbound : lifetime.toNat ≤ 120000 := hlifetime
  have hsum : (now + lifetime.toUInt64).toNat = now.toNat + lifetime.toNat := by
    rw [UInt64.toNat_add, UInt32.toNat_toUInt64, Nat.mod_eq_of_lt (by omega)]
  have hdiff : (now + lifetime.toUInt64 - elapsed.toUInt64).toNat =
      now.toNat + lifetime.toNat - elapsed.toNat := by
    rw [UInt64.toNat_sub_of_le _ _ (by rw [UInt64.le_iff_toNat_le, hsum, UInt32.toNat_toUInt64]; omega),
      hsum, UInt32.toNat_toUInt64]
  constructor
  · intro hzero
    rw [hzero] at hdiff
    have : (0 : UInt64).toNat = 0 := rfl
    omega
  · have hslack : kRecordSlackMs.toNat = 30000 := rfl
    rw [UInt64.le_iff_toNat_le, UInt64.toNat_add, hdiff, hslack, Nat.mod_eq_of_lt (by omega)]
    omega

/-- A manifest that arrived in a live context. -/
structure Offer (keep : Bool) (links : List Link) (contexts : NodeId → Option Context)
    (config : ObjectConfig) (notes : List ObjectNote) (k : Key) (start : Start) : Prop where
  id : k.id = start.id
  valid : start.valid = true
  live : (contexts k.peer).map Context.rx = some k.epoch
  used : Used links config.node k.peer k.epoch
  bound : Bound keep links k.peer config.node k.epoch k.boot
  content : ∃ data, .sent k.peer k.boot config.node k.id data ∈ notes ∧ start.total.toNat = data.length

theorem Offer.id_ne_zero (h : Offer keep links contexts config notes k start) : k.id ≠ 0 := by
  have := h.valid
  simp only [Start.valid, Bool.and_eq_true, bne_iff_ne] at this
  rw [h.id]
  exact this.1.1.1.1.1

theorem Offer.lifetime_le (h : Offer keep links contexts config notes k start) :
    start.lifetimeMs ≤ 120000 := by
  have := h.valid
  simp only [Start.valid, Bool.and_eq_true, decide_eq_true_eq] at this
  exact this.2

section

variable (h : Sound keep links contexts config base o)
include h

theorem Sound.admitObject (hoffer : Offer keep links contexts config (known config base o.out) k start)
    (hnow : now.toNat + 150000 < 2 ^ 64)
    (hlifetime : ¬ start.lifetimeMs ≤ frame.originalLifetimeMs - frame.remainingDeadlineMs) {slot : Fin r}
    (hslot : (o.rx slot).assembler.active = false) {j : Fin kRecords} (hj : o.records.slots j = none)
    {floor : Fin n} (hf : o.floors.slots floor = some f) (hpeer : f.peer = k.peer)
    (hepoch : f.epoch = k.epoch) (habove : Above k o.floors)
    (hsingle : ∀ i record, o.recordOf i = some record → record.key.peer ≠ k.peer) :
    Sound keep links contexts config base (o.admitObject k start frame now slot j floor) := by
  unfold AppObject.admitObject
  dsimp only
  split
  · exact h
  · next assembler hbegin =>
    obtain ⟨data, hsent, htotal⟩ := hoffer.content
    obtain ⟨hholds, hcell, hdeadline⟩ := begin_holds hbegin htotal
    obtain ⟨hpos, hle⟩ := deadline_bounds hnow hoffer.lifetime_le (UInt32.not_le.mp hlifetime)
    have hfresh := habove.fresh h.rx hoffer.live
    have hbelow := belowFloor_eq_false.mp (habove floor f hf hpeer hepoch)
    rw [Pool.modify_eq_set hf]
    rw [hoffer.id] at hbelow
    have hraised : RxSide keep links (known config base o.out) contexts config o.rx o.records
        (o.floors.set floor { f with highest := start.id, boot := k.boot }) :=
      h.rx.raise_floor hf rfl rfl (hbelow.imp_right fun hsame => ⟨hsame.1, UInt32.le_of_lt hsame.2⟩)
    refine h.setRx (hraised.begin hslot hj rfl ⟨⟨data, hsent, hholds⟩, hcell, ?_, ?_, hfresh⟩
      ⟨hoffer.used, hoffer.bound, ?_⟩ ?_ ?_)
    · rw [hdeadline]
      exact hpos
    · rw [hdeadline]
      exact hle
    · intro hcomplete
      cases hcomplete
    · refine .inl ⟨_, ⟨floor, Pool.set_slots_self ..⟩, hpeer, hepoch, .inr ⟨rfl, ?_⟩⟩
      dsimp only [Key.name]
      rw [hoffer.id]
      exact UInt32.le_refl _
    · intro i record hactive hrecord
      exact hsingle i record ((if_pos hactive).trans hrecord)

omit h in
theorem vacantSlot_some (h : o.vacantSlot = some i) : (o.rx i).assembler.active = false := by
  have := find?_some h
  simp only [Bool.and_eq_true, Bool.not_eq_true'] at this
  exact this.2

theorem Sound.offerObject (hset : Setting keep links contexts env config)
    (hoffer : Offer keep links contexts config (known config base o.out) k start)
    (frame : ObjectFrame) (hnow : now.toNat + 150000 < 2 ^ 64) :
    Sound keep links contexts config base (o.offerObject env k start frame now) := by
  unfold AppObject.offerObject
  dsimp only
  have hretire := h.retireFloors hset
  split
  · exact hretire.queueAck hset _ now (by simp)
  next hcheck =>
  obtain ⟨hboot, habove⟩ := hretire.newBoot hoffer.id_ne_zero (above_of_floorIdx hretire.rx.floor hcheck)
  have hnotes : ((o.retireFloors env).newBoot k).out = o.out := newBoot_out ..
  generalize (o.retireFloors env).newBoot k = o' at hboot habove hnotes ⊢
  rw [← hnotes] at hoffer
  split
  · exact hboot.queueAck hset _ now (by simp)
  split
  · exact hboot.queueAck hset _ now (by simp)
  next hbusy =>
  have hsingle : ∀ i record, o'.recordOf i = some record → record.key.peer ≠ k.peer := by
    intro i record hrecord hpeer
    refine hbusy (any_eq_true.mpr ⟨i, mem_finRange i, ?_⟩)
    simp [hrecord, hpeer]
  split
  · next slot j floor hslot hj hfloor =>
    have hvacant := vacantSlot_some hslot
    have hfree : o'.records.slots j = none := by simpa using firstSlot_some hj
    cases hidx : o'.floorIdx k with
    | some floor' =>
      rw [hidx] at hfloor
      cases hfloor
      obtain ⟨f, hf, hpeer, hepoch⟩ := floorIdx_some hidx
      simp only [Option.isSome_some, if_true]
      split
      · exact hboot.queueAck hset _ now (by simp)
      · next hlifetime =>
        exact hboot.admitObject hoffer hnow hlifetime hvacant hfree hf hpeer hepoch habove hsingle
    | none =>
      rw [hidx] at hfloor
      have hspare : o'.floors.slots floor = none := by simpa using firstSlot_some hfloor
      have hnone := floorIdx_none hidx
      have hadd := hboot.setRx (hboot.rx.add_floor hspare (f := ⟨k.peer, k.epoch, 0, k.boot⟩) hnone)
      simp only [Option.isSome_none, Bool.false_eq_true, if_false]
      split
      · exact hadd.queueAck hset _ now (by simp)
      · next hlifetime =>
        refine hadd.admitObject hoffer hnow hlifetime hvacant hfree (Pool.set_slots_self ..) rfl rfl ?_
          hsingle
        intro j' g hg hpeer hepoch
        by_cases hj' : j' = floor
        · subst hj'
          rw [Pool.set_slots_self] at hg
          cases hg
          refine belowFloor_eq_false.mpr (.inr ⟨rfl, ?_⟩)
          have hid := hoffer.id_ne_zero
          rw [ne_eq, ← UInt32.toNat_inj] at hid
          rw [UInt32.lt_iff_toNat_lt]
          exact Nat.pos_of_ne_zero hid
        · rw [Pool.set_slots_ne _ _ hj'] at hg
          exact habove j' g hg hpeer hepoch
  · refine hboot.queueAck hset _ now ?_
    split <;> simp

/-! ### Arrivals -/

omit h in
theorem Setting.used (hset : Setting keep links contexts env config) {peer : NodeId} {epoch : UInt32}
    (hlive : (contexts peer).map Context.rx = some epoch) : Used links config.node peer epoch := by
  obtain ⟨c, hc, rfl⟩ := Option.map_eq_some_iff.mp hlive
  obtain ⟨l, hl, hnode, hpeer, -, hrx, -⟩ := hset.context peer c hc
  exact ⟨l, hl, hnode, hpeer, hrx⟩

/-- A frame that reaches the endpoint it is for, in a live context. -/
structure Arrived (keep : Bool) (links : List Link) (contexts : NodeId → Option Context)
    (config : ObjectConfig) (notes : List ObjectNote) (frame : ObjectFrame) : Prop where
  sound : FrameSound keep links notes frame
  destination : frame.destination = config.node
  live : (contexts frame.origin).map Context.rx = some frame.endEpoch

theorem Sound.startRx (hset : Setting keep links contexts env config) (hnow : now.toNat + 150000 < 2 ^ 64)
    (hframe : Arrived keep links contexts config (known config base o.out) frame)
    (htype : frame.type = .start) : Sound keep links contexts config base (o.startRx env frame now) := by
  unfold AppObject.startRx
  split
  · exact h
  · next start hstart =>
    dsimp only
    split
    · refine h.offerObject hset ⟨rfl, (decodeStart_eq_ok.mp hstart).1, hframe.live, hset.used hframe.live, ?_,
        ?_⟩ frame hnow
      · exact hframe.destination ▸ hframe.sound.bound
      · exact hframe.destination ▸ hframe.sound.start start htype hstart
    · split
      · exact (h.finishWhere _ (by decide)).queueAck hset _ now (by simp)
      · exact h.updateRecord _ (fun _ => rfl) (fun _ => rfl) fun _ => rfl

omit h in
theorem recordOf_some (h : o.recordOf i = some record) :
    (o.rx i).assembler.active = true ∧ o.records.slots (o.rx i).record = some record := by
  unfold recordOf at h
  split at h
  · next hactive => exact ⟨hactive, h⟩
  · cases h

theorem Sound.chunkArrived (hrecord : o.recordOf i = some record) {chunk : Chunk}
    (hsent : .sent record.key.peer record.key.boot config.node record.key.id data ∈ known config base o.out)
    (hchunk : chunk.data = Lib.segment data (chunk.index.toNat * kChunkBytes) chunk.data.length)
    (now : MonotonicMs) : Sound keep links contexts config base (o.chunkArrived i chunk now) := by
  unfold AppObject.chunkArrived
  dsimp only
  split
  · exact h.finishRx i (by decide)
  split
  · exact h.finishRx i (by decide)
  next assembler hinsert =>
  obtain ⟨hactive, hslot⟩ := recordOf_some hrecord
  have hupdate : ∀ x : Rx, x.assembler = assembler → x.record = (o.rx i).record →
      Sound keep links contexts config base { o with rx := update o.rx i x } := by
    rintro x rfl hindex
    refine h.setRx (h.rx.write i fun _ => ⟨hactive, hindex, fun record' hrecord' hsound => ?_⟩)
    cases hslot.symm.trans hrecord'
    -- the cells received so far and the chunk are of the same object
    obtain ⟨data', hsent', hholds⟩ := hsound.content
    obtain ⟨-, rfl⟩ := h.history.sent _ _ _ _ _ _ _ hsent hsent'
    have hgrid : (o.rx i).assembler.cell ≠ 1 := by
      rw [hsound.cell]
      decide
    obtain ⟨hholds', hcell, hdeadline, -⟩ := insert_holds hholds hgrid hinsert hchunk
    exact ⟨⟨data, hsent, hholds'⟩, hcell.trans hsound.cell, hdeadline.symm ▸ hsound.deadline,
      hdeadline.symm ▸ hsound.outlived, hsound.fresh⟩
  have hacked : ∀ x : Rx, x.assembler = assembler → x.record = (o.rx i).record →
      Sound keep links contexts config base (AppObject.updateRecord (o.rx i).record
        (fun record => { record with bitmap := bits x, ackPending := true })
        { o with rx := update o.rx i x }) :=
    fun x hx hindex => (hupdate x hx hindex).updateRecord _ (fun _ => rfl) (fun _ => rfl) fun _ => rfl
  refine iteInduction (fun _ => Sound.finishRx (hacked _ ?_ ?_) i (by decide))
    (fun _ => hacked _ ?_ ?_) <;> rfl

theorem Sound.chunkRx (hset : Setting keep links contexts env config) (now : MonotonicMs)
    (hframe : Arrived keep links contexts config (known config base o.out) frame)
    (htype : frame.type = .chunk) : Sound keep links contexts config base (o.chunkRx env frame now) := by
  unfold AppObject.chunkRx
  split
  · exact h
  · next chunk hdecode =>
    dsimp only
    split
    · next i hi =>
      obtain ⟨record, hrecord, hkey⟩ := (Option.any_eq_true _ _).mp (firstSlot_some hi)
      obtain ⟨data, hsent, hchunk⟩ := hframe.sound.chunk chunk htype hdecode
      rw [hframe.destination] at hsent
      refine h.chunkArrived hrecord ?_ hchunk now
      rw [eq_of_beq hkey]
      exact hsent
    · split
      · exact h.updateRecord _ (fun _ => rfl) (fun _ => rfl) fun _ => rfl
      · exact h.queueAck hset _ now (by simp)

/-- **An arrival keeps an endpoint sound.** -/
theorem Sound.onConfigFrame (hset : Setting keep links contexts env config)
    (hnow : now.toNat + 150000 < 2 ^ 64) (hframe : FrameSound keep links (known config base o.out) frame) :
    Sound keep links contexts config base (o.onConfigFrame env frame now) := by
  unfold AppObject.onConfigFrame
  split
  · exact h
  next hfor =>
  split
  · exact h
  next hlive =>
  simp only [Bool.or_eq_true, bne_iff_ne, ne_eq, not_or, Decidable.not_not, h.own] at hfor
  simp only [live, key, Bool.not_eq_true', Bool.not_eq_false, Bool.and_eq_true, beq_iff_eq] at hlive
  have harrived : Arrived keep links contexts config (known config base o.out) frame :=
    ⟨hframe, hfor.2, (hset.rxEpoch _).symm.trans hlive.1.2⟩
  split
  · next htype => exact h.startRx hset hnow harrived htype
  · next htype => exact h.chunkRx hset now harrived htype
  · next htype => exact h.ackRx hset now hframe htype hfor.2

end

/-! ## Polling -/

/-- The object of an active slot has time left, in a live context. -/
def Settled (env : ObjectEnv) (now : MonotonicMs) (o : AppObject r n) (i : Fin r) : Prop :=
  ∀ record, o.recordOf i = some record → o.live env record.key = true ∧ now < record.untilMs

theorem Settled.congr {o' : AppObject r n} (h : Settled env now o i) (hconfig : o'.config = o.config)
    (hrecord : ∀ record', o'.recordOf i = some record' → ∃ record, o.recordOf i = some record ∧
      record'.key = record.key ∧ record'.untilMs = record.untilMs) : Settled env now o' i := by
  intro record' hrecord'
  obtain ⟨record, hold, hkey, huntil⟩ := hrecord record' hrecord'
  obtain ⟨hlive, huntil'⟩ := h record hold
  refine ⟨?_, huntil ▸ huntil'⟩
  rw [hkey]
  unfold live at hlive ⊢
  rw [hconfig]
  exact hlive

theorem updateRecord_recordOf {j : Fin kRecords} {f : Record → Record} {record' : Record}
    (h : (o.updateRecord j f).recordOf i = some record') (hkey : ∀ record, (f record).key = record.key)
    (huntil : ∀ record, (f record).untilMs = record.untilMs) :
    ∃ record, o.recordOf i = some record ∧ record'.key = record.key ∧ record'.untilMs = record.untilMs := by
  obtain ⟨hactive, hslot⟩ := recordOf_some h
  obtain ⟨record, hrecord, ⟨-, rfl⟩ | ⟨-, rfl⟩⟩ := Pool.modify_slots_eq_some hslot
  · exact ⟨record, (if_pos hactive).trans hrecord, hkey record, huntil record⟩
  · exact ⟨_, (if_pos hactive).trans hrecord, rfl, rfl⟩

theorem finishRx_recordOf {i' : Fin r} {status : AckStatus} {record' : Record}
    (h : (o.finishRx i status).recordOf i' = some record') :
    i' ≠ i ∧ ∃ record, o.recordOf i' = some record ∧ record'.key = record.key ∧
      record'.untilMs = record.untilMs := by
  obtain ⟨hactive, hslot⟩ := recordOf_some h
  have hne : i' ≠ i := by
    rintro rfl
    dsimp only [AppObject.finishRx] at hactive
    rw [update_self] at hactive
    cases hactive
  dsimp only [AppObject.finishRx] at hactive hslot
  rw [update_of_ne hne] at hactive hslot
  have hold : (o.updateRecord (o.rx i).record fun record =>
      { record with status := status, bitmap := bits (o.rx i), ackPending := true }).recordOf i' =
      some record' := (if_pos hactive).trans hslot
  exact ⟨hne, updateRecord_recordOf hold (fun _ => rfl) fun _ => rfl⟩

theorem known_received (config : ObjectConfig) (base : List ObjectNote) (out : List ObjectOutput)
    (info : ObjectRxInfo) (data : List UInt8) :
    known config base (out ++ [.onObject info data]) =
      known config base out ++ [.received config.node config.messageSession info data] := by
  simp [known, noteOf]

theorem known_reported (config : ObjectConfig) (base : List ObjectNote) (out : List ObjectOutput)
    (result : ObjectResult) :
    known config base (out ++ [.onObjectResult result]) =
      known config base out ++ [.reported config.node config.messageSession result] := by
  simp [known, noteOf]

section

variable (h : Sound keep links contexts config base o)
include h

theorem Sound.receive (hrecord : o.recordOf i = some record) (hcomplete : (o.rx i).assembler.complete = true) :
    Sound keep links contexts config base (AppObject.finishRx i .complete
      { o with out := o.out ++ [.onObject (infoOf record) (o.rx i).assembler.data] }) := by
  obtain ⟨hactive, hslot⟩ := recordOf_some hrecord
  obtain ⟨record', hslot', hsound⟩ := h.rx.slot i hactive
  cases hslot.symm.trans hslot'
  obtain ⟨data, hsent, hholds⟩ := hsound.content
  have hdata := hholds.data_eq hcomplete
  have hsub := subset_append_left (known config base o.out)
    [.received config.node config.messageSession (infoOf record) data]
  have hreceived : received keep config (known config base o.out ++
      [.received config.node config.messageSession (infoOf record) data]) =
      received keep config (known config base o.out) ++ [record.key.name] := by
    unfold received
    rw [receivedNames_append]
    congr 1
    simp [receivedNames, receivedName, answered, ObjectRxInfo.name, infoOf, Key.name]
  have hout := known_received config base o.out (infoOf record) data
  rw [hdata]
  refine ⟨h.own, ?_, ?_, fun frame hframe => ?_, ?_, ?_⟩ <;>
    dsimp only [AppObject.finishRx, AppObject.updateRecord] <;> rw [hout]
  · exact fun _ _ _ _ hsent => h.ids _ _ _ _ (by simpa using hsent)
  · exact h.history.receive hsent
  · refine (h.frames frame ?_).mono (fun _ hl => hl) hsub
    obtain hold | hnew := mem_append.mp hframe
    · exact hold
    · cases mem_singleton.mp hnew
  · exact h.tx.mono (fun _ hl => hl) hsub
  · refine (h.rx.receive hactive hslot hsub hreceived rfl).modify _ (fun _ => rfl) (fun _ => rfl) ?_
    intro record' hslot' _ _
    cases hslot.symm.trans hslot'
    rw [hreceived]
    exact mem_append_right _ (mem_singleton_self _)

theorem settled_of_not_expired (hrecord : o.recordOf i = some record)
    (hexpired : (o.rx i).assembler.expired now = false) : now < record.untilMs := by
  obtain ⟨hactive, hslot⟩ := recordOf_some hrecord
  obtain ⟨record', hslot', hsound⟩ := h.rx.slot i hactive
  cases hslot.symm.trans hslot'
  have hle : ¬ (o.rx i).assembler.deadlineMs ≤ now := by
    intro hle
    rw [ObjectAssembler.expired, hactive, decide_eq_true hle, bne_iff_ne.mpr hsound.deadline] at hexpired
    cases hexpired
  exact UInt64.lt_of_lt_of_le (UInt64.not_le.mp hle) hsound.outlived

theorem Sound.pollRx (env : ObjectEnv) (now : MonotonicMs) (i : Fin r) :
    Sound keep links contexts config base (AppObject.pollRx env now o i) ∧
      Settled env now (AppObject.pollRx env now o i) i ∧
      ∀ i', Settled env now o i' → Settled env now (AppObject.pollRx env now o i) i' := by
  have hfinish : ∀ {o' : AppObject r n} status, o'.rx = o.rx → o'.records = o.records →
      o'.config = o.config → Settled env now (o'.finishRx i status) i ∧
      ∀ i', Settled env now o i' → Settled env now (o'.finishRx i status) i' := by
    intro o' status hrx hrecords hconfig
    refine ⟨fun record hrecord => absurd rfl (finishRx_recordOf hrecord).1, fun i' hi' => ?_⟩
    refine hi'.congr hconfig fun record hrecord => ?_
    obtain ⟨record', hrecord', hkey⟩ := (finishRx_recordOf hrecord).2
    unfold recordOf at hrecord'
    rw [hrx, hrecords] at hrecord'
    exact ⟨record', hrecord', hkey⟩
  unfold AppObject.pollRx
  split
  · next hnone =>
    refine ⟨h, fun record hrecord => ?_, fun _ hi' => hi'⟩
    rw [hnone] at hrecord
    cases hrecord
  · next record hrecord =>
    dsimp only
    split
    · exact ⟨h.finishRx i (by decide), hfinish _ rfl rfl rfl⟩
    next hlive =>
    split
    · exact ⟨h.finishRx i (by decide), hfinish _ rfl rfl rfl⟩
    next hexpired =>
    split
    · next hcomplete =>
      rw [Bool.and_eq_true] at hcomplete
      exact ⟨h.receive hrecord hcomplete.1, hfinish _ rfl rfl rfl⟩
    · refine ⟨h, fun record' hrecord' => ?_, fun _ hi' => hi'⟩
      cases hrecord.symm.trans hrecord'
      rw [Bool.or_eq_true, not_or, Bool.not_eq_true] at hexpired
      exact ⟨by simpa using hlive, settled_of_not_expired h hrecord hexpired.1⟩

/-- What the record of a complete object says to its sender. -/
theorem completion_of_record (hset : Setting keep links contexts env config) {j : Fin kRecords}
    (hrecord : o.records.slots j = some record) (hlive : o.live env record.key = true) {payload : List UInt8}
    (hframe : Emitted env config .ack record.key.peer payload frame) (hcomplete : record.status = .complete) :
    Completion keep links (known config base o.out) frame record.key.id record.key.name := by
  have hsound := h.rx.record j record hrecord
  simp only [live, Bool.and_eq_true, beq_iff_eq] at hlive
  obtain ⟨c, hc, htx⟩ := hset.txEpoch _ _ hframe.epoch
  obtain ⟨l, hl, hnode, hpeer, hltx, hlrx, -⟩ := hset.context _ c hc
  refine ⟨?_, hframe.destination.symm, rfl, ⟨l, hl, ?_, ?_, hltx.trans htx, ?_⟩, ?_⟩
  · obtain ⟨boot, info, data, hnote, -, hname⟩ := mem_receivedNames.mp (hsound.complete hcomplete)
    rw [hframe.origin]
    exact mem_receivedNames.mpr ⟨boot, info, data, hnote, rfl, hname⟩
  · rw [hnode, hframe.origin]
  · rw [hpeer, hframe.destination]
  · have := hlive.1.2
    rw [hset.rxEpoch, hc] at this
    exact hlrx.trans (Option.some.inj this)
  · rw [hframe.destination, hframe.origin]
    exact hsound.bound

theorem Sound.pollRecord (hset : Setting keep links contexts env config)
    (hsettled : ∀ i, Settled env now o i) (j : Fin kRecords) :
    Sound keep links contexts config base (AppObject.pollRecord env now o j) ∧
      ∀ i, Settled env now (AppObject.pollRecord env now o j) i := by
  unfold AppObject.pollRecord
  split
  · exact ⟨h, hsettled⟩
  next record hrecord =>
  split
  · next hdrop =>
    have hidle : ∀ i, (o.rx i).assembler.active = true → (o.rx i).record ≠ j := by
      rintro i hactive rfl
      obtain ⟨hlive, huntil⟩ := hsettled i record ((if_pos hactive).trans hrecord)
      rw [hlive, Bool.not_true, Bool.or_false, decide_eq_true_eq] at hdrop
      exact UInt64.not_le.mpr huntil hdrop
    refine ⟨h.setRx (h.rx.release hidle), fun i => (hsettled i).congr rfl fun record' hrecord' => ?_⟩
    obtain ⟨hactive, hslot⟩ := recordOf_some hrecord'
    rw [Pool.release_slots_ne _ (hidle i hactive)] at hslot
    exact ⟨record', (if_pos hactive).trans hslot, rfl, rfl⟩
  next hkept =>
  split
  · exact ⟨h, hsettled⟩
  split
  · exact ⟨h, hsettled⟩
  next bytes hencode =>
  obtain hsend | ⟨id, frame, after, hframe, hsend⟩ :=
    sendFrame_cases env o .ack record.key.peer bytes now 4000 <;> rw [hsend]
  · exact ⟨h, hsettled⟩
  · rw [h.own] at hframe
    have hlive : o.live env record.key = true := by
      rw [Bool.or_eq_true, not_or] at hkept
      simpa using hkept.2
    have hemit := h.emit hset hframe (says_ack hencode hframe.type hframe.payload fun hcomplete =>
      ⟨_, completion_of_record h hset hrecord hlive hframe hcomplete⟩) after
    refine ⟨hemit.updateRecord j (fun _ => rfl) (fun _ => rfl) fun _ => rfl, fun i => ?_⟩
    refine (hsettled i).congr rfl fun record' hrecord' => ?_
    exact updateRecord_recordOf (o := Object.emit frame after o) hrecord' (fun _ => rfl) fun _ => rfl

theorem Sound.pollResult : Sound keep links contexts config base o.pollResult := by
  unfold AppObject.pollResult
  split
  · exact h
  next result hresult =>
  have hout := known_reported config base o.out result
  have hsub := subset_append_left (known config base o.out)
    [.reported config.node config.messageSession result]
  refine ⟨h.own, ?_, ?_, fun frame hframe => ?_, ?_, ?_⟩ <;> dsimp only <;> rw [hout]
  · exact fun _ _ _ _ hsent => h.ids _ _ _ _ (by simpa using hsent)
  · exact h.history.report (h.tx.result result hresult)
  · refine (h.frames frame ?_).mono (fun _ hl => hl) hsub
    obtain hold | hnew := mem_append.mp hframe
    · exact hold
    · cases mem_singleton.mp hnew
  · exact ⟨(h.tx.mono (fun _ hl => hl) hsub).tx, fun res hres => by cases hres⟩
  · refine h.rx.mono (fun _ hl => hl) hsub ?_ fun _ _ _ hretired => hretired
    unfold received
    rw [receivedNames_append]
    exact append_nil _

/-- **A poll keeps an endpoint sound.** -/
theorem Sound.poll (hset : Setting keep links contexts env config) (now : MonotonicMs) :
    Sound keep links contexts config base (o.poll env now) := by
  -- each slot visited stays settled, so that no record is dropped under a slot
  have hslots : ∀ (l : List (Fin r)) (o : AppObject r n), Sound keep links contexts config base o →
      (∀ i, i ∉ l → Settled env now o i) →
      Sound keep links contexts config base (l.foldl (AppObject.pollRx env now) o) ∧
        ∀ i, Settled env now (l.foldl (AppObject.pollRx env now) o) i := by
    intro l
    induction l with
    | nil => exact fun o h hsettled => ⟨h, fun i => hsettled i not_mem_nil⟩
    | cons i l ih =>
      intro o h hsettled
      obtain ⟨hsound, hi, hothers⟩ := h.pollRx env now i
      refine ih _ hsound fun i' hi' => ?_
      by_cases heq : i' = i
      · exact heq ▸ hi
      · exact hothers i' (hsettled i' (by simp [heq, hi']))
  have hrecords := hslots (List.finRange r) o h fun i hi => absurd (mem_finRange i) hi
  have hpolled : Sound keep links contexts config base ((List.finRange kRecords).foldl
      (AppObject.pollRecord env now) ((List.finRange r).foldl (AppObject.pollRx env now) o)) :=
    (List.foldlRecOn (motive := fun o : AppObject r n =>
      Sound keep links contexts config base o ∧ ∀ i, Settled env now o i) _ _ hrecords
      fun o h j _ => h.1.pollRecord hset h.2 j).1
  exact (hpolled.pollTx hset now).pollResult

end

end RouteLoom.Object
