import RouteLoom.Object.Transfer

/-!
# One call of an object endpoint

What an endpoint holds and what it sends is true of the history: a transfer is of an object that was
sent, a slot assembles cells of such an object, an acknowledgement of a complete object stands for one
that was received. Every call keeps this.

* `FrameSound` : what a frame in the network says is true
* `TxSide`, `RxSide` : the sending and the receiving side of one endpoint
* `Sound.onConfigFrame`, `Sound.poll` : an arrival and a poll keep an endpoint sound
-/

namespace RouteLoom.Object

open Lib Function List

variable {r n : Nat} {keep : Bool} {links links' : List Link} {notes notes' : List ObjectNote}

/-! ## Names received -/

variable {node : NodeId} {boot : UInt32}

theorem mem_receivedNames {boots : UInt32 → Bool} {name : ObjectName} :
    name ∈ receivedNames node boots notes ↔
      ∃ boot info data, .received node boot info data ∈ notes ∧ boots boot = true ∧ info.name = name := by
  unfold receivedNames
  rw [mem_filterMap]
  constructor
  · rintro ⟨note, hnote, hname⟩
    cases note with
    | sent => cases hname
    | reported => cases hname
    | received node' boot info data =>
      simp only [receivedName] at hname
      split at hname
      · next h =>
        cases hname
        exact ⟨boot, info, data, h.1 ▸ hnote, h.2, rfl⟩
      · cases hname
  · rintro ⟨boot, info, data, hnote, hboot, rfl⟩
    exact ⟨_, hnote, if_pos ⟨rfl, hboot⟩⟩

theorem mem_receivedNames_mono {boots : UInt32 → Bool} {name : ObjectName} (hnotes : notes ⊆ notes')
    (h : name ∈ receivedNames node boots notes) : name ∈ receivedNames node boots notes' := by
  obtain ⟨boot, info, data, hnote, h⟩ := mem_receivedNames.mp h
  exact mem_receivedNames.mpr ⟨boot, info, data, hnotes hnote, h⟩

theorem receivedNames_append {boots : UInt32 → Bool} :
    receivedNames node boots (notes ++ notes') =
      receivedNames node boots notes ++ receivedNames node boots notes' :=
  filterMap_append

/-- The boots of its node that an endpoint answers for: its own, or all if none keeps a context of
another. -/
def answered (keep : Bool) (boot b : UInt32) : Bool := b == boot || !keep

/-- What the endpoint will not receive again. -/
def received (keep : Bool) (config : ObjectConfig) (notes : List ObjectNote) : List ObjectName :=
  receivedNames config.node (answered keep config.messageSession) notes

/-! ## What is known of frames and objects -/

/-- The context with id `tx` was installed by `node` for `peer`, and in this boot if none is kept. -/
def Bound (keep : Bool) (links : List Link) (node peer : NodeId) (tx boot : UInt32) : Prop :=
  ∃ l ∈ links, l.node = node ∧ l.peer = peer ∧ l.tx = tx ∧ (keep = false → l.boot = boot)

/-- `node` has used `rx` as the id of a context for `peer`. -/
def Used (links : List Link) (node peer : NodeId) (rx : UInt32) : Prop :=
  ∃ l ∈ links, l.node = node ∧ l.peer = peer ∧ l.rx = rx

/-- What an acknowledgement of a complete object stands for. -/
structure Completion (keep : Bool) (links : List Link) (notes : List ObjectNote) (frame : ObjectFrame)
    (id : ObjectId) (name : ObjectName) : Prop where
  received : name ∈ receivedNames frame.origin (fun _ => true) notes
  peer : name.peer = frame.destination
  id : name.id = id
  context : ∃ l ∈ links, l.node = frame.origin ∧ l.peer = frame.destination ∧ l.tx = frame.endEpoch ∧
    l.rx = name.epoch
  bound : Bound keep links frame.destination frame.origin name.epoch name.boot

/-- What the payload of a frame says is true. -/
structure Says (keep : Bool) (links : List Link) (notes : List ObjectNote) (frame : ObjectFrame) :
    Prop where
  start : ∀ v, frame.type = .start → decodeStart frame.payload = .ok v → ∃ data,
    .sent frame.origin frame.session frame.destination v.id data ∈ notes ∧ v.total.toNat = data.length
  chunk : ∀ v, frame.type = .chunk → decodeChunk frame.payload = .ok v → ∃ data,
    .sent frame.origin frame.session frame.destination v.id data ∈ notes ∧
      v.data = Lib.segment data (v.index.toNat * kChunkBytes) v.data.length
  ack : ∀ v, frame.type = .ack → decodeAck frame.payload = .ok v → v.status = .complete →
    ∃ name, Completion keep links notes frame v.id name

structure FrameSound (keep : Bool) (links : List Link) (notes : List ObjectNote) (frame : ObjectFrame) :
    Prop extends Says keep links notes frame where
  bound : Bound keep links frame.origin frame.destination frame.endEpoch frame.session

/-- The object was received, in some boot of its destination. -/
def Reached (notes : List ObjectNote) (node : NodeId) (boot : UInt32) (id : ObjectId) : Prop :=
  ∃ destination data name, .sent node boot destination id data ∈ notes ∧
    name ∈ receivedNames destination (fun _ => true) notes ∧
      name.peer = node ∧ name.boot = boot ∧ name.id = id

/-- What was sent under one name is one object, what was received was sent, and reports are true if no
context is kept. -/
structure Truthful (keep : Bool) (notes : List ObjectNote) : Prop where
  sent : ∀ node boot destination destination' id data data',
    .sent node boot destination id data ∈ notes → .sent node boot destination' id data' ∈ notes →
      destination = destination' ∧ data = data'
  exact : ∀ node boot info data, .received node boot info data ∈ notes →
    .sent info.source info.sourceBoot node info.id data ∈ notes
  reports : keep = false → ∀ node boot result, .reported node boot result ∈ notes →
    result.state = .delivered → Reached notes node boot result.id

theorem Reached.mono {id : ObjectId} (hnotes : notes ⊆ notes') (h : Reached notes node boot id) :
    Reached notes' node boot id := by
  obtain ⟨destination, data, name, hsent, hname, h⟩ := h
  exact ⟨destination, data, name, hnotes hsent, mem_receivedNames_mono hnotes hname, h⟩

theorem Truthful.receive (h : Truthful keep notes) {info : ObjectRxInfo} {data : List UInt8}
    (hsent : .sent info.source info.sourceBoot node info.id data ∈ notes) :
    Truthful keep (notes ++ [.received node boot info data]) := by
  refine ⟨fun _ _ _ _ _ _ _ ha hb => ?_, fun _ _ _ _ hreceived => ?_, fun hkeep _ _ _ hreport hstate => ?_⟩
  · exact h.sent _ _ _ _ _ _ _ (by simpa using ha) (by simpa using hb)
  · obtain hnote | hnote := mem_append.mp hreceived
    · exact mem_append_left _ (h.exact _ _ _ _ hnote)
    · cases mem_singleton.mp hnote
      exact mem_append_left _ hsent
  · exact (h.reports hkeep _ _ _ (by simpa using hreport) hstate).mono (subset_append_left ..)

theorem Truthful.report (h : Truthful keep notes) {result : ObjectResult}
    (hreached : keep = false → result.state = .delivered → Reached notes node boot result.id) :
    Truthful keep (notes ++ [.reported node boot result]) := by
  refine ⟨fun _ _ _ _ _ _ _ ha hb => ?_, fun _ _ _ _ hreceived => ?_, fun hkeep _ _ _ hreport hstate => ?_⟩
  · exact h.sent _ _ _ _ _ _ _ (by simpa using ha) (by simpa using hb)
  · exact mem_append_left _ (h.exact _ _ _ _ (by simpa using hreceived))
  · obtain hnote | hnote := mem_append.mp hreport
    · exact (h.reports hkeep _ _ _ hnote hstate).mono (subset_append_left ..)
    · cases mem_singleton.mp hnote
      exact (hreached hkeep hstate).mono (subset_append_left ..)

theorem Bound.mono {peer : NodeId} {tx : UInt32} (hlinks : links ⊆ links')
    (h : Bound keep links node peer tx boot) : Bound keep links' node peer tx boot := by
  obtain ⟨l, hl, h⟩ := h
  exact ⟨l, hlinks hl, h⟩

theorem Used.mono {peer : NodeId} {rx : UInt32} (hlinks : links ⊆ links')
    (h : Used links node peer rx) : Used links' node peer rx := by
  obtain ⟨l, hl, h⟩ := h
  exact ⟨l, hlinks hl, h⟩

theorem Completion.mono {frame : ObjectFrame} {id : ObjectId} {name : ObjectName} (hlinks : links ⊆ links')
    (hnotes : notes ⊆ notes') (h : Completion keep links notes frame id name) :
    Completion keep links' notes' frame id name := by
  obtain ⟨l, hl, hcontext⟩ := h.context
  exact ⟨mem_receivedNames_mono hnotes h.received, h.peer, h.id, ⟨l, hlinks hl, hcontext⟩,
    h.bound.mono hlinks⟩

theorem FrameSound.mono {frame : ObjectFrame} (hlinks : links ⊆ links') (hnotes : notes ⊆ notes')
    (h : FrameSound keep links notes frame) : FrameSound keep links' notes' frame where
  bound := h.bound.mono hlinks
  start v htype hv := by
    obtain ⟨data, hsent, htotal⟩ := h.start v htype hv
    exact ⟨data, hnotes hsent, htotal⟩
  chunk v htype hv := by
    obtain ⟨data, hsent, hdata⟩ := h.chunk v htype hv
    exact ⟨data, hnotes hsent, hdata⟩
  ack v htype hv hstatus := by
    obtain ⟨name, hname⟩ := h.ack v htype hv hstatus
    exact ⟨name, hname.mono hlinks hnotes⟩

/-! ## The sending side -/

/-- The object being sent. -/
structure TxSound (keep : Bool) (links : List Link) (notes : List ObjectNote) (config : ObjectConfig)
    (t : Tx) : Prop where
  sent : .sent config.node config.messageSession t.destination t.start.id t.data ∈ notes
  total : t.start.total.toNat = t.data.length
  context : ∃ l ∈ links, l.node = config.node ∧ l.peer = t.destination ∧ l.tx = t.txEpoch ∧
    l.rx = t.rxEpoch ∧ (keep = false → l.boot = config.messageSession)

structure TxSide (keep : Bool) (links : List Link) (notes : List ObjectNote) (config : ObjectConfig)
    (tx : Option Tx) (result : Option ObjectResult) : Prop where
  tx : ∀ t, tx = some t → TxSound keep links notes config t
  result : ∀ res, result = some res → keep = false → res.state = .delivered →
    Reached notes config.node config.messageSession res.id

theorem TxSound.mono {config : ObjectConfig} {t : Tx} (hlinks : links ⊆ links') (hnotes : notes ⊆ notes')
    (h : TxSound keep links notes config t) : TxSound keep links' notes' config t := by
  obtain ⟨l, hl, hcontext⟩ := h.context
  exact ⟨hnotes h.sent, h.total, l, hlinks hl, hcontext⟩

theorem TxSide.mono {config : ObjectConfig} {tx : Option Tx} {result : Option ObjectResult}
    (hlinks : links ⊆ links') (hnotes : notes ⊆ notes') (h : TxSide keep links notes config tx result) :
    TxSide keep links' notes' config tx result :=
  ⟨fun t ht => (h.tx t ht).mono hlinks hnotes,
    fun res hres hkeep hstate => (h.result res hres hkeep hstate).mono hnotes⟩

theorem TxSide.empty (keep : Bool) (links : List Link) (notes : List ObjectNote) (config : ObjectConfig) :
    TxSide keep links notes config none none :=
  ⟨fun _ ht => (by cases ht), fun _ hres => (by cases hres)⟩

/-! ## The receiving side -/

/-- The object will not be taken on again: it is below a floor, or its context is retired. -/
def Covered (contexts : NodeId → Option Context) (floors : Pool Floor n) (name : ObjectName) : Prop :=
  (∃ f ∈ floors, f.peer = name.peer ∧ f.epoch = name.epoch ∧
    (name.boot < f.boot ∨ name.boot = f.boot ∧ name.id ≤ f.highest)) ∨
    (contexts name.peer).map Context.rx ≠ some name.epoch

structure RecordSound (keep : Bool) (links : List Link) (notes : List ObjectNote) (config : ObjectConfig)
    (record : Record) : Prop where
  used : Used links config.node record.key.peer record.key.epoch
  bound : Bound keep links record.key.peer config.node record.key.epoch record.key.boot
  complete : record.status = .complete → record.key.name ∈ received keep config notes

/-- A slot that assembles the object of a record. -/
structure SlotSound (keep : Bool) (notes : List ObjectNote) (config : ObjectConfig)
    (a : ObjectAssembler) (key : Key) (untilMs : MonotonicMs) : Prop where
  content : ∃ data, .sent key.peer key.boot config.node key.id data ∈ notes ∧ Holds data a
  cell : a.cell = kChunkBytes
  deadline : a.deadlineMs ≠ 0
  outlived : a.deadlineMs ≤ untilMs
  fresh : key.name ∉ received keep config notes

structure RxSide (keep : Bool) (links : List Link) (notes : List ObjectNote)
    (contexts : NodeId → Option Context) (config : ObjectConfig) (rx : Fin r → Rx)
    (records : Pool Record kRecords) (floors : Pool Floor n) : Prop where
  record : ∀ j record, records.slots j = some record → RecordSound keep links notes config record
  slot : ∀ i, (rx i).assembler.active = true → ∃ record, records.slots (rx i).record = some record ∧
    SlotSound keep notes config (rx i).assembler record.key record.untilMs
  single : ∀ i i' record record', (rx i).assembler.active = true → (rx i').assembler.active = true →
    records.slots (rx i).record = some record → records.slots (rx i').record = some record' →
    record.key.peer = record'.key.peer → i = i'
  floor : floors.KeyUnique fun f => (f.peer, f.epoch)
  covered : ∀ j record, records.slots j = some record → Covered contexts floors record.key.name
  past : ∀ name ∈ received keep config notes,
    Covered contexts floors name ∧ Used links config.node name.peer name.epoch
  once : (received keep config notes).Nodup

theorem RecordSound.mono {config : ObjectConfig} {record : Record} (hlinks : links ⊆ links')
    (hreceived : received keep config notes' = received keep config notes)
    (h : RecordSound keep links notes config record) : RecordSound keep links' notes' config record :=
  ⟨h.used.mono hlinks, h.bound.mono hlinks, fun hstatus => hreceived.symm ▸ h.complete hstatus⟩

theorem SlotSound.mono {config : ObjectConfig} {a : ObjectAssembler} {key : Key} {untilMs : MonotonicMs}
    (hnotes : notes ⊆ notes') (hfresh : key.name ∉ received keep config notes')
    (h : SlotSound keep notes config a key untilMs) : SlotSound keep notes' config a key untilMs := by
  obtain ⟨data, hsent, hholds⟩ := h.content
  exact ⟨⟨data, hnotes hsent, hholds⟩, h.cell, h.deadline, h.outlived, hfresh⟩

variable {contexts contexts' : NodeId → Option Context} {config : ObjectConfig} {rx : Fin r → Rx}
  {records : Pool Record kRecords} {floors floors' : Pool Floor n}

theorem RxSide.empty (hpast : ∀ name ∈ received keep config notes,
      (contexts name.peer).map Context.rx ≠ some name.epoch ∧ Used links config.node name.peer name.epoch)
    (honce : (received keep config notes).Nodup) :
    RxSide keep links notes contexts config (fun _ : Fin r => {}) Pool.empty (Pool.empty : Pool Floor n) where
  record j record hj := by cases hj
  slot i hactive := by cases hactive
  single i i' a b hactive := by cases hactive
  floor := Pool.keyUnique_empty _
  covered j record hj := by cases hj
  past name hname := (hpast name hname).imp_left .inr
  once := honce

section

variable (h : RxSide keep links notes contexts config rx records floors)
include h

/-- Nothing else was received, and a retired context stays so. -/
theorem RxSide.mono (hlinks : links ⊆ links') (hnotes : notes ⊆ notes')
    (hreceived : received keep config notes' = received keep config notes)
    (hretired : ∀ peer epoch, Used links config.node peer epoch →
      (contexts peer).map Context.rx ≠ some epoch → (contexts' peer).map Context.rx ≠ some epoch) :
    RxSide keep links' notes' contexts' config rx records floors where
  record j record hj := (h.record j record hj).mono hlinks hreceived
  slot i hi := by
    obtain ⟨record, hrecord, hslot⟩ := h.slot i hi
    exact ⟨record, hrecord, hslot.mono hnotes (hreceived ▸ hslot.fresh)⟩
  single := h.single
  floor := h.floor
  covered j record hj :=
    (h.covered j record hj).imp id (hretired _ _ (h.record j record hj).used)
  past name hname := by
    rw [hreceived] at hname
    obtain ⟨hcovered, hused⟩ := h.past name hname
    exact ⟨hcovered.imp id (hretired _ _ hused), hused.mono hlinks⟩
  once := hreceived ▸ h.once

theorem RxSide.congr_records {records' : Pool Record kRecords}
    (hrecords : ∀ j record', records'.slots j = some record' → ∃ record, records.slots j = some record ∧
      record'.key = record.key ∧ RecordSound keep links notes config record')
    (hactive : ∀ i record, (rx i).assembler.active = true → records.slots (rx i).record = some record →
      ∃ record', records'.slots (rx i).record = some record' ∧ record'.key = record.key ∧
        record'.untilMs = record.untilMs) : RxSide keep links notes contexts config rx records' floors where
  record j record' hj := (hrecords j record' hj).choose_spec.2.2
  slot i hi := by
    obtain ⟨record, hrecord, hslot⟩ := h.slot i hi
    obtain ⟨record', hrecord', hkey, huntil⟩ := hactive i record hi hrecord
    exact ⟨record', hrecord', hkey ▸ huntil ▸ hslot⟩
  single i i' a b hi hi' ha hb hpeer := by
    obtain ⟨a', ha', hkeya, -⟩ := hrecords _ a ha
    obtain ⟨b', hb', hkeyb, -⟩ := hrecords _ b hb
    exact h.single i i' a' b' hi hi' ha' hb' (hkeya ▸ hkeyb ▸ hpeer)
  floor := h.floor
  covered j record' hj := by
    obtain ⟨record, hrecord, hkey, -⟩ := hrecords j record' hj
    exact hkey ▸ h.covered j record hrecord
  past := h.past
  once := h.once

theorem RxSide.modify (j : Fin kRecords) {f : Record → Record} (hkey : ∀ record, (f record).key = record.key)
    (huntil : ∀ record, (f record).untilMs = record.untilMs)
    (hstatus : ∀ record, records.slots j = some record → RecordSound keep links notes config record →
      (f record).status = .complete → record.key.name ∈ received keep config notes) :
    RxSide keep links notes contexts config rx (records.modify j f) floors := by
  refine h.congr_records (fun j' record' hj' => ?_) (fun i record hi hrecord => ?_)
  · obtain ⟨record, hrecord, ⟨rfl, rfl⟩ | ⟨-, rfl⟩⟩ := Pool.modify_slots_eq_some hj'
    · have hsound := h.record j' record hrecord
      refine ⟨record, hrecord, hkey record, ?_, ?_, fun hcomplete => ?_⟩
      · rw [hkey]
        exact hsound.used
      · rw [hkey]
        exact hsound.bound
      · rw [hkey]
        exact hstatus record hrecord hsound hcomplete
    · exact ⟨_, hrecord, rfl, h.record j' _ hrecord⟩
  · by_cases hj : (rx i).record = j
    · refine ⟨f record, ?_, hkey record, huntil record⟩
      rw [← hj, Pool.modify_slots_self, hrecord]
      rfl
    · exact ⟨record, (Pool.modify_slots_ne _ _ hj).trans hrecord, rfl, rfl⟩

theorem RxSide.release {j : Fin kRecords} (hidle : ∀ i, (rx i).assembler.active = true → (rx i).record ≠ j) :
    RxSide keep links notes contexts config rx (records.release j) floors := by
  refine h.congr_records (fun j' record hj' => ?_) (fun i record hi hrecord => ?_)
  · by_cases hj : j' = j
    · rw [hj, Pool.release_slots_self] at hj'
      cases hj'
    · rw [Pool.release_slots_ne _ hj] at hj'
      exact ⟨record, hj', rfl, h.record j' record hj'⟩
  · exact ⟨record, (Pool.release_slots_ne _ (hidle i hi)).trans hrecord, rfl, rfl⟩

theorem RxSide.raise (hunique : floors'.KeyUnique fun f => (f.peer, f.epoch))
    (hcovered : ∀ name, Covered contexts floors name → Covered contexts floors' name) :
    RxSide keep links notes contexts config rx records floors' where
  record := h.record
  slot := h.slot
  single := h.single
  floor := hunique
  covered j record hj := hcovered _ (h.covered j record hj)
  past name hname := (h.past name hname).imp_left (hcovered name)
  once := h.once

/-- A slot changes, in a way that `RxSide.slot` and `RxSide.single` allow. -/
theorem RxSide.write (i : Fin r) {x : Rx}
    (hslot : x.assembler.active = true → (rx i).assembler.active = true ∧ x.record = (rx i).record ∧
      ∀ record, records.slots (rx i).record = some record →
        SlotSound keep notes config (rx i).assembler record.key record.untilMs →
        SlotSound keep notes config x.assembler record.key record.untilMs) :
    RxSide keep links notes contexts config (update rx i x) records floors := by
  have hold : ∀ i', (update rx i x i').assembler.active = true →
      (rx i').assembler.active = true ∧ (update rx i x i').record = (rx i').record := by
    intro i' hactive
    by_cases hi : i' = i
    · subst hi
      rw [update_self] at hactive ⊢
      exact ⟨(hslot hactive).1, (hslot hactive).2.1⟩
    · rw [update_of_ne hi] at hactive ⊢
      exact ⟨hactive, rfl⟩
  refine { h with slot := fun i' hactive => ?_, single := fun i₁ i₂ a b h₁ h₂ ha hb hpeer => ?_ }
  · obtain ⟨record, hrecord, hsound⟩ := h.slot i' (hold i' hactive).1
    refine ⟨record, (hold i' hactive).2 ▸ hrecord, ?_⟩
    by_cases hi : i' = i
    · subst hi
      rw [update_self] at hactive ⊢
      exact (hslot hactive).2.2 record hrecord hsound
    · rw [update_of_ne hi]
      exact hsound
  · exact h.single i₁ i₂ a b (hold i₁ h₁).1 (hold i₂ h₂).1 ((hold i₁ h₁).2 ▸ ha) ((hold i₂ h₂).2 ▸ hb) hpeer

theorem RxSide.begin {i : Fin r} {j : Fin kRecords} {x : Rx} {record : Record}
    (hvacant : (rx i).assembler.active = false) (hfree : records.slots j = none) (hindex : x.record = j)
    (hslot : SlotSound keep notes config x.assembler record.key record.untilMs)
    (hrecord : RecordSound keep links notes config record)
    (hcovered : Covered contexts floors record.key.name)
    (hsingle : ∀ i' record', (rx i').assembler.active = true →
      records.slots (rx i').record = some record' → record'.key.peer ≠ record.key.peer) :
    RxSide keep links notes contexts config (update rx i x) (records.set j record) floors := by
  have hother : ∀ i', i' ≠ i → (rx i').assembler.active = true → (rx i').record ≠ j := by
    intro i' _ hactive hj
    obtain ⟨record', hrecord', -⟩ := h.slot i' hactive
    rw [hj, hfree] at hrecord'
    cases hrecord'
  have hset : ∀ j' record', (records.set j record).slots j' = some record' →
      j' = j ∧ record' = record ∨ records.slots j' = some record' := by
    intro j' record' hj'
    by_cases hj : j' = j
    · rw [hj, Pool.set_slots_self] at hj'
      exact .inl ⟨hj, (Option.some.inj hj').symm⟩
    · exact .inr ((Pool.set_slots_ne _ _ hj).symm.trans hj')
  have hpeer : ∀ i' record', i' ≠ i → (rx i').assembler.active = true →
      (records.set j record).slots (rx i').record = some record' → record'.key.peer ≠ record.key.peer := by
    intro i' record' hi hactive hrecord'
    rw [Pool.set_slots_ne _ _ (hother i' hi hactive)] at hrecord'
    exact hsingle i' record' hactive hrecord'
  refine { h with
    record := fun j' record' hj' => ?_, slot := fun i' hactive => ?_,
    single := fun i₁ i₂ a b h₁ h₂ ha hb heq => ?_, covered := fun j' record' hj' => ?_ }
  · obtain ⟨-, rfl⟩ | hold := hset j' record' hj'
    · exact hrecord
    · exact h.record j' record' hold
  · by_cases hi : i' = i
    · subst hi
      rw [update_self, hindex]
      exact ⟨record, Pool.set_slots_self .., hslot⟩
    · rw [update_of_ne hi] at hactive ⊢
      obtain ⟨record', hrecord', hsound⟩ := h.slot i' hactive
      exact ⟨record', (Pool.set_slots_ne _ _ (hother i' hi hactive)).trans hrecord', hsound⟩
  · by_cases hi₁ : i₁ = i <;> by_cases hi₂ : i₂ = i
    · exact hi₁.trans hi₂.symm
    · subst hi₁
      rw [update_self, hindex, Pool.set_slots_self] at ha
      rw [update_of_ne hi₂] at hb h₂
      cases ha
      exact absurd heq.symm (hpeer i₂ b hi₂ h₂ hb)
    · subst hi₂
      rw [update_self, hindex, Pool.set_slots_self] at hb
      rw [update_of_ne hi₁] at ha h₁
      cases hb
      exact absurd heq (hpeer i₁ a hi₁ h₁ ha)
    · rw [update_of_ne hi₁] at ha h₁
      rw [update_of_ne hi₂] at hb h₂
      rw [Pool.set_slots_ne _ _ (hother i₁ hi₁ h₁)] at ha
      rw [Pool.set_slots_ne _ _ (hother i₂ hi₂ h₂)] at hb
      exact h.single i₁ i₂ a b h₁ h₂ ha hb heq
  · obtain ⟨-, rfl⟩ | hold := hset j' record' hj'
    · exact hcovered
    · exact h.covered j' record' hold

theorem RxSide.receive {i : Fin r} {record : Record} (hactive : (rx i).assembler.active = true)
    (hrecord : records.slots (rx i).record = some record) (hnotes : notes ⊆ notes')
    (hreceived : received keep config notes' = received keep config notes ++ [record.key.name])
    {x : Rx} (hx : x.assembler.active = false) :
    RxSide keep links notes' contexts config (update rx i x) records floors := by
  have hfresh : record.key.name ∉ received keep config notes := by
    obtain ⟨record', hrecord', hslot⟩ := h.slot i hactive
    cases hrecord.symm.trans hrecord'
    exact hslot.fresh
  have hother : ∀ i', (update rx i x i').assembler.active = true → i' ≠ i := by
    rintro i' hactive' rfl
    rw [update_self, hx] at hactive'
    cases hactive'
  refine ⟨fun j record' hj => ?_, fun i' hactive' => ?_, fun i₁ i₂ a b h₁ h₂ ha hb hpeer => ?_, h.floor,
    h.covered, fun name hname => ?_, ?_⟩
  · have hsound := h.record j record' hj
    refine ⟨hsound.used, hsound.bound, fun hcomplete => ?_⟩
    rw [hreceived]
    exact mem_append_left _ (hsound.complete hcomplete)
  · have hi := hother i' hactive'
    rw [update_of_ne hi] at hactive' ⊢
    obtain ⟨record', hrecord', hslot⟩ := h.slot i' hactive'
    refine ⟨record', hrecord', hslot.mono hnotes ?_⟩
    rw [hreceived, mem_append, mem_singleton, not_or]
    refine ⟨hslot.fresh, fun hname => hi ?_⟩
    exact h.single i' i record' record hactive' hactive hrecord' hrecord (congrArg ObjectName.peer hname)
  · have hi₁ := hother i₁ h₁
    have hi₂ := hother i₂ h₂
    rw [update_of_ne hi₁] at ha h₁
    rw [update_of_ne hi₂] at hb h₂
    exact h.single i₁ i₂ a b h₁ h₂ ha hb hpeer
  · rw [hreceived, mem_append, mem_singleton] at hname
    obtain hold | rfl := hname
    · exact h.past name hold
    · exact ⟨h.covered _ record hrecord, (h.record _ record hrecord).used⟩
  · rw [hreceived]
    exact nodup_append.mpr ⟨h.once, nodup_singleton _, fun a ha b hb => by
      rw [mem_singleton.mp hb]
      rintro rfl
      exact hfresh ha⟩

end

end RouteLoom.Object
