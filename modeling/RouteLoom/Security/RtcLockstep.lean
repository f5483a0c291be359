import RouteLoom.Security.RtcGuard

/-!
# The record leads

A transmit key can be in the bank, in the record and in an image that the caller holds. Wherever it
is, the next counter there is above every counter of the key that was handed out. The guard keeps
this for the record: it advances the record with the bank, and a slot that it disarms has no session
left that could send.

* `Sound` : a session is known, and its counter leads what was handed out
* `NodeInv` : the record and the bank are sound, and the guard tracks the record
* `wp_nextCounter` : handing out a counter keeps the invariant, with the counter now handed out
-/

namespace RouteLoom.Rtc

open Lib List
open SessionBank (Settled Fades Calm Dead Draws Slot)

variable {L E : Nat}

/-- What a transmit key was made for. -/
structure Session where
  scope : SecurityScope
  peer : NodeId
  txCid : UInt32
  txKey : SessionKey
  deriving DecidableEq

def sessionOf (scope : SecurityScope) (entry : SessionBankEntry) : Session :=
  ⟨scope, entry.peer, entry.txCid, entry.txKey⟩

def RtcSessionContext.session (c : RtcSessionContext) : Session := sessionOf c.scope c.entry

/-- A counter that was handed out, with its key. -/
abbrev Issued := SessionKey × UInt64

structure Sound (made : List Session) (h : List Issued) (scope : SecurityScope)
    (entry : SessionBankEntry) : Prop where
  known : sessionOf scope entry ∈ made
  leads : ∀ n, (entry.txKey, n) ∈ h → n < entry.txNext

def ImageSound (made : List Session) (h : List Issued) (image : RtcSessionImage) : Prop :=
  ∀ c ∈ image.contexts, Sound made h c.scope c.entry

def BankSound (made : List Session) (h : List Issued) (bank : SessionBank L E) : Prop :=
  ∀ slot entry, bank.current slot = some entry → Sound made h slot.scope entry

/-- A key is made for one session. -/
def KeysApart (made : List Session) : Prop :=
  ∀ a ∈ made, ∀ b ∈ made, a.txKey = b.txKey → a = b

structure RecordInv (made : List Session) (h : List Issued) (profile : UInt8) (record : List UInt8) :
    Prop where
  size : record.length = kRtcSessionRecordSize
  sound : ∀ image, readRecord profile record = some image → ImageSound made h image

/-- The guard follows a context of the record, or the key of the context is dead. -/
structure Tracks (s : RtcNode L E) (image : RtcSessionImage) (i : Fin 2) (c : RtcSessionContext) :
    Prop where
  armed : s.slotArmed i = true → ∃ c₀, image.contexts[i.val]? = some c₀ ∧ c₀.session = c.session
  off : s.slotArmed i = false → Dead s.bank c.entry.txKey

/-- The guard tracks every context of the record, and meanwhile the caller holds no `consumed` image. -/
structure GuardOf (made : List Session) (consumed : Bool) (s : RtcNode L E) (image : RtcSessionImage) :
    Prop where
  borrowed : s.image = some image
  shaped : valid image = true
  known : ∀ c ∈ image.contexts, c.session ∈ made
  held : ∀ image', readRecord s.profile s.record = some image' → consumed = false
  tracks : ∀ image', readRecord s.profile s.record = some image' →
    ∀ (i : Fin 2) (c : RtcSessionContext), image'.contexts[i.val]? = some c → Tracks s image i c

def Guards (made : List Session) (consumed : Bool) (s : RtcNode L E) : Prop :=
  s.armed = true → ∃ image, GuardOf made consumed s image

structure NodeInv (made : List Session) (h : List Issued) (consumed : Bool) (s : RtcNode L E) : Prop where
  record : RecordInv made h s.profile s.record
  settled : Settled s.bank
  bank : BankSound made h s.bank
  guards : Guards made consumed s

variable {made : List Session} {h : List Issued} {consumed : Bool} {s : RtcNode L E}
  {profile : UInt8} {raw raw' : List UInt8} {image image' : RtcSessionImage}
  {scope : SecurityScope} {entry entry' : SessionBankEntry} {bank bank' : SessionBank L E}

/-! ## Soundness -/

theorem Sound.of_same {scope' : SecurityScope} (hs : Sound made h scope entry)
    (hsession : sessionOf scope' entry' = sessionOf scope entry) (hnext : entry.txNext ≤ entry'.txNext) :
    Sound made h scope' entry' := by
  have hkey : entry'.txKey = entry.txKey := congrArg Session.txKey hsession
  refine ⟨hsession ▸ hs.known, fun n hn => ?_⟩
  rw [hkey] at hn
  exact UInt64.lt_of_lt_of_le (hs.leads n hn) hnext

theorem Sound.issue {key : SessionKey} {n : UInt64} (hs : Sound made h scope entry)
    (hkey : entry.txKey = key → n < entry.txNext) : Sound made (h ++ [(key, n)]) scope entry := by
  refine ⟨hs.known, fun m hm => ?_⟩
  rcases mem_append.mp hm with hm | hm
  · exact hs.leads m hm
  · cases mem_singleton.mp hm
    exact hkey rfl

theorem Sound.more {made' : List Session} (hs : Sound made h scope entry) :
    Sound (made ++ made') h scope entry :=
  ⟨mem_append_left _ hs.known, hs.leads⟩

theorem BankSound.fades (hs : BankSound made h bank) (hf : Fades bank bank') : BankSound made h bank' := by
  intro slot e' he'
  obtain ⟨e, he, hk, hnext, -⟩ := hf slot e' he'
  refine (hs slot e he).of_same ?_ (hnext ▸ UInt64.le_refl _)
  unfold sessionOf
  rw [hk.peer, hk.txCid, hk.txKey]

theorem Sound.session_eq (hkeys : KeysApart made) {scope' : SecurityScope}
    (hs : Sound made h scope entry) (hs' : Sound made h scope' entry')
    (hkey : entry.txKey = entry'.txKey) : sessionOf scope entry = sessionOf scope' entry' :=
  hkeys _ hs.known _ hs'.known hkey

/-! ## The record -/

/-- The second record holds no more than the first, with counters that are no lower. -/
structure Follow (profile : UInt8) (raw raw' : List UInt8) : Prop where
  size : raw'.length = kRtcSessionRecordSize
  grows : ∀ image', readRecord profile raw' = some image' → ∃ image, readRecord profile raw = some image ∧
    ∀ (i : Nat) c', image'.contexts[i]? = some c' → ∃ c, image.contexts[i]? = some c ∧
      c'.session = c.session ∧ c.entry.txNext ≤ c'.entry.txNext

theorem Cleared.follow (hc : Cleared profile raw raw') : Follow profile raw raw' := by
  refine ⟨hc.size, fun image' hread => ?_⟩
  rcases hc.eq with rfl | hnone
  · exact ⟨image', hread, fun i c' hc' => ⟨c', hc', rfl, UInt64.le_refl _⟩⟩
  · rw [hnone] at hread
    cases hread

theorem RecordInv.follow (hr : RecordInv made h profile raw) (hf : Follow profile raw raw') :
    RecordInv made h profile raw' := by
  refine ⟨hf.size, fun image' hread c' hmem => ?_⟩
  obtain ⟨image, hread, hgrows⟩ := hf.grows image' hread
  obtain ⟨i, hi⟩ := mem_iff_getElem?.mp hmem
  obtain ⟨c, hc, hsession, hnext⟩ := hgrows i c' hi
  exact (hr.sound image hread c (mem_of_getElem? hc)).of_same hsession hnext

/-- An image that is written is sound, so the record is sound after any part of the write. -/
theorem RecordInv.written (hr : RecordInv made h profile raw) (hw : Written profile image raw raw')
    (himage : ImageSound made h image) : RecordInv made h profile raw' := by
  refine ⟨hw.size, fun image' hread => ?_⟩
  rcases hw.eq with rfl | hnone | ⟨hvalid, rfl⟩
  · exact hr.sound image' hread
  · rw [hnone] at hread
    cases hread
  · rw [readRecord_encode hvalid] at hread
    cases hread
    exact himage

/-! ## Advancing an image -/

theorem bump_getElem? {index i : Nat} {c' : RtcSessionContext}
    (hc' : (bump image index).contexts[i]? = some c') :
    ∃ c, image.contexts[i]? = some c ∧ c'.session = c.session ∧
      c'.entry.txNext = if i = index then c.entry.txNext + 1 else c.entry.txNext := by
  rw [bump, getElem?_modify] at hc'
  obtain ⟨c, hc, heq⟩ := Option.map_eq_some_iff.mp hc'
  refine ⟨c, hc, ?_⟩
  by_cases hi : i = index
  · subst hi
    rw [if_pos rfl] at heq
    subst heq
    exact ⟨rfl, by rw [if_pos rfl]⟩
  · rw [if_neg (Ne.symm hi)] at heq
    subst heq
    exact ⟨rfl, by rw [if_neg hi]⟩

variable {c : RtcSessionContext} {context : SecurityContext} {i : Fin 2} {slot : Slot L E}

theorem valid_txNext {i : Nat} (hv : valid image = true) (hc : image.contexts[i]? = some c) :
    c.entry.txNext < kUseLimit ∧ idValid c.entry.peer = true := by
  have hparts : ∀ {scope}, contextValid image.gkEpoch scope c = true →
      c.entry.txNext < kUseLimit ∧ idValid c.entry.peer = true := by
    intro scope hvalid
    simp only [contextValid, Bool.and_eq_true, decide_eq_true_eq] at hvalid
    exact ⟨hvalid.1.2, hvalid.1.1.1.1.1.1.1.1.1.1.2⟩
  have hmem := mem_of_getElem? hc
  unfold valid at hv
  rw [Bool.and_eq_true] at hv
  have hv := hv.2
  split at hv
  · rename_i d hd
    rw [hd] at hmem
    cases mem_singleton.mp hmem
    exact hparts hv
  · rename_i d e hd
    obtain ⟨hlink, hend⟩ := Bool.and_eq_true_iff.mp hv
    rw [hd] at hmem
    rcases mem_cons.mp hmem with rfl | hmem
    · exact hparts hlink
    · cases mem_singleton.mp hmem
      exact hparts hend
  · cases hv

theorem lt_succ_txNext {n : UInt64} (hn : n < kUseLimit) : n < n + 1 := by
  rw [UInt64.lt_iff_toNat_lt] at hn ⊢
  change n.toNat < 0x100000000 at hn
  rw [UInt64.toNat_add]
  show n.toNat < (n.toNat + 1) % 2 ^ 64
  omega

theorem Follow.bump {index : Nat} (hvalid : valid image = true)
    (hw : Written profile (bump image index) (recordLayout profile image) raw') :
    Follow profile (recordLayout profile image) raw' := by
  refine ⟨hw.size, fun image' hread => ⟨image, readRecord_encode hvalid, fun i c' hc' => ?_⟩⟩
  rcases hw.eq with rfl | hnone | ⟨hnext, rfl⟩
  · rw [readRecord_encode hvalid] at hread
    cases hread
    exact ⟨c', hc', rfl, UInt64.le_refl _⟩
  · rw [hnone] at hread
    cases hread
  · rw [readRecord_encode hnext] at hread
    cases hread
    obtain ⟨c, hc, hsession, htx⟩ := bump_getElem? hc'
    refine ⟨c, hc, hsession, ?_⟩
    rw [htx]
    split
    · exact UInt64.le_of_lt (lt_succ_txNext (valid_txNext hvalid hc).1)
    · exact UInt64.le_refl _

theorem index_of_scope {i j : Nat} {d : RtcSessionContext} (hv : valid image = true)
    (hc : image.contexts[i]? = some c) (hd : image.contexts[j]? = some d) (hscope : c.scope = d.scope) :
    i = j := by
  have hlt : ∀ {k x}, image.contexts[k]? = some x → k < image.contexts.length :=
    fun hx => (List.getElem?_eq_some_iff.mp hx).1
  have hi := hlt hc
  have hj := hlt hd
  rcases valid_contexts hv with ⟨a, ha, -⟩ | ⟨a, b, ha, hlink, hend⟩
  · rw [ha, length_singleton] at hi hj
    omega
  · rw [ha] at hc hd hi hj
    have hi : i = 0 ∨ i = 1 := by simp at hi; omega
    have hj : j = 0 ∨ j = 1 := by simp at hj; omega
    rcases hi with rfl | rfl <;> rcases hj with rfl | rfl <;> simp_all

/-! ## The guard -/

theorem guardSlot_some (hg : s.guardSlot context = some (i, image, c)) :
    s.image = some image ∧ s.slotArmed i = true ∧ image.contexts[i.val]? = some c ∧
      c.scope = context.scope ∧ c.entry.peer = context.receiver := by
  obtain ⟨image', himage, hg⟩ := Option.bind_eq_some_iff.mp hg
  obtain ⟨j, -, hg⟩ := exists_of_findSome?_eq_some hg
  obtain ⟨d, hfilter, heq⟩ := Option.map_eq_some_iff.mp hg
  obtain ⟨hd, hchecks⟩ := Option.filter_eq_some_iff.mp hfilter
  cases heq
  simp only [Bool.and_eq_true, beq_iff_eq] at hchecks
  exact ⟨himage, hchecks.1.1, hd, hchecks.1.2, hchecks.2⟩

theorem guardSlot_none (hg : s.guardSlot context = none) (himage : s.image = some image)
    (harmed : s.slotArmed i = true) (hc : image.contexts[i.val]? = some c) (hscope : c.scope = context.scope) :
    c.entry.peer ≠ context.receiver := by
  rw [RtcNode.guardSlot, himage, Option.bind_some, findSome?_eq_none_iff] at hg
  have hi := hg i (mem_finRange i)
  rw [hc, Option.map_eq_none_iff] at hi
  intro hpeer
  simp [harmed, hscope, hpeer] at hi

theorem armed_of_slot (hi : s.slotArmed i = true) : s.armed = true :=
  decide_eq_true ⟨i, hi⟩

theorem guards_off (hoff : s.armed = false) : Guards made consumed s := fun harmed => by
  rw [hoff] at harmed
  cases harmed

/-- The guard keeps tracking when the record only follows and the bank only fades. -/
theorem Guards.follow (hg : Guards made consumed s) (hf : Follow s.profile s.record raw')
    (hb : Fades s.bank bank') (o : List PortOutcome) :
    Guards made consumed { s with record := raw', bank := bank', outcomes := o } := by
  intro harmed
  obtain ⟨image, hg⟩ := hg harmed
  refine ⟨image, hg.borrowed, hg.shaped, hg.known, fun image' hread => ?_, fun image' hread i c' hc' => ?_⟩
  · obtain ⟨old, hold, -⟩ := hf.grows image' hread
    exact hg.held old hold
  · obtain ⟨old, hold, hgrows⟩ := hf.grows image' hread
    obtain ⟨c, hc, hsession, -⟩ := hgrows i.val c' hc'
    have ht := hg.tracks old hold i c hc
    refine ⟨fun hi => ?_, fun hi => ?_⟩
    · obtain ⟨c₀, hc₀, heq⟩ := ht.armed hi
      exact ⟨c₀, hc₀, heq.trans hsession.symm⟩
    · have hkey : c'.entry.txKey = c.entry.txKey := congrArg Session.txKey hsession
      rw [hkey]
      exact hb.dead (ht.off hi)

theorem follow_refl (hsize : raw.length = kRtcSessionRecordSize) : Follow profile raw raw :=
  (Cleared.mk hsize (.inl rfl)).follow

theorem NodeInv.follow (hn : NodeInv made h consumed s) (hf : Follow s.profile s.record raw')
    (hset : Settled bank') (hb : Fades s.bank bank') (o : List PortOutcome) :
    NodeInv made h consumed { s with record := raw', bank := bank', outcomes := o } :=
  ⟨hn.record.follow hf, hset, hn.bank.fades hb, hn.guards.follow hf hb o⟩

theorem NodeInv.fades (hn : NodeInv made h consumed s) (hset : Settled bank')
    (hb : Fades s.bank bank') : NodeInv made h consumed { s with bank := bank' } :=
  hn.follow (follow_refl hn.record.size) hset hb s.outcomes

/-- What an operation leaves when it stops: after a cut, only the record counts. -/
structure Stopped (made : List Session) (h : List Issued) (consumed : Bool) (e : Halt)
    (s : RtcNode L E) : Prop where
  record : RecordInv made h s.profile s.record
  node : e ≠ .cut → NodeInv made h consumed s

theorem NodeInv.stopped (hn : NodeInv made h consumed s) (e : Halt) : Stopped made h consumed e s :=
  ⟨hn.record, fun _ => hn⟩

/-- The guard is off and the record is what clearing it left. -/
theorem NodeInv.disarmed (hr : RecordInv made h s.profile s.record) (hset : Settled s.bank)
    (hbank : BankSound made h s.bank) (hc : Cleared s.profile s.record raw') (o : List PortOutcome) :
    NodeInv made h consumed
      { s with image := none, slotArmed := fun _ => false, record := raw', outcomes := o } :=
  ⟨hr.follow hc.follow, hset, hbank, guards_off rfl⟩

theorem wp_disarmSlot_inv (i : Fin 2) (hr : RecordInv made h s.profile s.record)
    (hset : Settled s.bank) (hbank : BankSound made h s.bank)
    (hguards : Guards made consumed { s with slotArmed := Function.update s.slotArmed i false })
    {P : Halt → RtcNode L E → Prop} (hcut : ∀ s', RecordInv made h s'.profile s'.record → P .cut s') :
    Op.wp (disarmSlot i) (fun _ s' => NodeInv made h consumed s' ∧ s'.bank = s.bank ∧
      s'.profile = s.profile ∧ Follow s.profile s.record s'.record) P s :=
  wp_disarmSlot hr.size
    ⟨⟨hr, hset, hbank, hguards⟩, rfl, rfl, follow_refl hr.size⟩
    (fun _ o hc => ⟨NodeInv.disarmed hr hset hbank hc o, rfl, rfl, hc.follow⟩)
    fun _ _ hc => hcut _ (hr.follow hc.follow)

/-! ## Handing out a counter -/

theorem Draws.bankSound (hb : BankSound made h bank) (hset : Settled bank) (hkeys : KeysApart made)
    (hd : Draws bank bank' slot entry) : BankSound made (h ++ [(entry.txKey, entry.txNext)]) bank' := by
  intro s e he
  rw [hd.current] at he
  have hlt : entry.txNext < entry.txNext + 1 := lt_succ_txNext hd.budget
  rcases update_eq_some he with ⟨rfl, rfl⟩ | ⟨hs, he⟩
  · have hdrawn : Sound made h s.scope (SessionBank.drawn entry) :=
      (hb s entry hd.found).of_same rfl (UInt64.le_of_lt hlt)
    exact hdrawn.issue fun _ => hlt
  · refine (hb s e he).issue fun hkey => absurd ?_ hs
    have heq := (hb s e he).session_eq hkeys (hb slot entry hd.found) hkey
    exact hset.onePeer s slot e entry he hd.found (congrArg Session.scope heq) (congrArg Session.peer heq)

/-- The counter `n` of the context was handed out. -/
def Handed (made : List Session) (h : List Issued) (consumed : Bool) (context : SecurityContext)
    (s : RtcNode L E) (n : UInt64) (s' : RtcNode L E) : Prop :=
  ∃ slot entry, s.bank.findCurrent context.scope context.receiver = some (slot, entry) ∧
    n = entry.txNext ∧ NodeInv made (h ++ [(entry.txKey, n)]) consumed s'

/-- The bank alone hands out a counter of a key that is not in the record. -/
theorem wp_drawCounter (hkeys : KeysApart made) (hn : NodeInv made h consumed s)
    (hfree : ∀ slot entry, s.bank.findCurrent context.scope context.receiver = some (slot, entry) →
      s.bank.canSend entry = true → ∀ image, readRecord s.profile s.record = some image →
      ∀ c ∈ image.contexts, c.entry.txKey ≠ entry.txKey) :
    Op.wp (callBank (SessionBank.nextCounter context))
      (Handed made h consumed context s) (Stopped made h consumed) s := by
  refine wp_callBank (((SessionBank.wp_nextCounter s.bank context).and
    (SessionBank.calmOp_nextCounter context s.bank)).mono (fun n b hb => ?_) fun e b hb => ?_)
  · obtain ⟨⟨slot, entry, hfind, rfl, hsend, hdraws⟩, hcalm⟩ := hb
    have hfree := hfree slot entry hfind hsend
    refine ⟨slot, entry, hfind, rfl, ⟨hn.record.size, fun image hread c hc => ?_⟩,
      hdraws.settled hcalm hn.settled, Draws.bankSound hn.bank hn.settled hkeys hdraws, fun harmed => ?_⟩
    · exact (hn.record.sound image hread c hc).issue fun hkey => absurd hkey (hfree image hread c hc)
    · obtain ⟨image, hg⟩ := hn.guards harmed
      refine ⟨image, hg.borrowed, hg.shaped, hg.known, hg.held, fun image' hread i c hc => ?_⟩
      have ht := hg.tracks image' hread i c hc
      exact ⟨ht.armed, fun hi => hdraws.dead hcalm
        (Ne.symm (hfree image' hread c (mem_of_getElem? hc))) (ht.off hi)⟩
  · obtain ⟨hquiet, hcalm⟩ := hb
    have hfades := hquiet.fades hcalm
    exact (hn.fades (hn.settled.calm hcalm hfades.descends) hfades).stopped _

/-- A counter handed out in vain only moves the bank ahead. -/
theorem Draws.sound (hb : BankSound made h bank) (hd : Draws bank bank' slot entry) :
    BankSound made h bank' := by
  intro s e he
  rw [hd.current] at he
  rcases update_eq_some he with ⟨rfl, rfl⟩ | ⟨-, he⟩
  · exact (hb s entry hd.found).of_same rfl (UInt64.le_of_lt (lt_succ_txNext hd.budget))
  · exact hb s e he

/-- The keys of a scope and peer are dead once its contexts are gone. -/
theorem dead_of_gone (hkeys : KeysApart made) (hb : BankSound made h bank) (hc : Sound made h c.scope c.entry)
    (hgone : ∀ slot entry, bank.current slot = some entry → slot.scope = c.scope →
      entry.peer ≠ c.entry.peer) : Dead bank c.entry.txKey := by
  intro slot e he hkey
  have heq := (hb slot e he).session_eq hkeys hc hkey
  exact absurd (congrArg Session.peer heq) (hgone slot e he (congrArg Session.scope heq))

theorem GuardOf.disarm (hg : GuardOf made consumed s image)
    (hdead : ∀ image' c, readRecord s.profile s.record = some image' →
      image'.contexts[i.val]? = some c → Dead s.bank c.entry.txKey) :
    Guards made consumed { s with slotArmed := Function.update s.slotArmed i false } := by
  intro _
  refine ⟨image, hg.borrowed, hg.shaped, hg.known, hg.held, fun image' hread j c hc => ?_⟩
  by_cases hj : j = i
  · subst hj
    refine ⟨fun hon => ?_, fun _ => hdead image' c hread hc⟩
    simp at hon
  · have ht := hg.tracks image' hread j c hc
    refine ⟨fun hon => ht.armed ?_, fun hoff => ht.off ?_⟩
    · dsimp only at hon
      rwa [Function.update_of_ne hj] at hon
    · dsimp only at hoff
      rwa [Function.update_of_ne hj] at hoff

/-- The context at an armed slot, in the record and in the image of the guard. -/
theorem GuardOf.session (hg : GuardOf made consumed s image) {c' : RtcSessionContext}
    (hi : s.slotArmed i = true) (hc : image.contexts[i.val]? = some c)
    (hread : readRecord s.profile s.record = some image') (hc' : image'.contexts[i.val]? = some c') :
    c'.session = c.session := by
  obtain ⟨c₀, hc₀, heq⟩ := (hg.tracks image' hread i c' hc').armed hi
  rw [hc] at hc₀
  cases hc₀
  exact heq.symm

theorem exists_index (hv : valid image = true) (hc : c ∈ image.contexts) :
    ∃ i : Fin 2, image.contexts[i.val]? = some c := by
  obtain ⟨i, hi⟩ := mem_iff_getElem?.mp hc
  have hlt := (List.getElem?_eq_some_iff.mp hi).1
  have hlength := valid_length hv
  exact ⟨⟨i, by omega⟩, hi⟩

section

variable (hkeys : KeysApart made) (hn : NodeInv made h consumed s)
include hkeys hn

/-- **The guard is not armed for the context**, so the bank hands out its counter alone. -/
theorem wp_nextCounter_free (hslot : s.guardSlot context = none)
    (hcovered : ∀ slot entry, s.bank.findCurrent context.scope context.receiver = some (slot, entry) →
      ∀ image, readRecord s.profile s.record = some image → ∀ c ∈ image.contexts,
        c.entry.txKey = entry.txKey → s.armed = true) :
    Op.wp (callBank (SessionBank.nextCounter context))
      (Handed made h consumed context s) (Stopped made h consumed) s := by
  refine wp_drawCounter hkeys hn fun slot entry hfind hsend image hread c hc hkey => ?_
  obtain ⟨guard, hg⟩ := hn.guards (hcovered slot entry hfind image hread c hc hkey)
  obtain ⟨i, hi⟩ := exists_index (readRecord_some hread).2.2 hc
  obtain ⟨hscope, hfound, hpeer⟩ := SessionBank.findCurrent_some hfind
  have heq : c.session = sessionOf slot.scope entry :=
    (hn.record.sound image hread c hc).session_eq hkeys (hn.bank slot entry hfound) hkey
  have ht := hg.tracks image hread i c hi
  cases harmed : s.slotArmed i with
  | true =>
    obtain ⟨c₀, hc₀, hsession⟩ := ht.armed harmed
    have hall := hsession.trans heq
    exact guardSlot_none hslot hg.borrowed harmed hc₀ ((congrArg Session.scope hall).trans hscope)
      ((congrArg Session.peer hall).trans hpeer)
  | false =>
    have := ht.off harmed slot entry hfound hkey.symm
    rw [hsend] at this
    cases this

omit hkeys hn in
theorem NodeInv.guardAt (hn : NodeInv made h consumed s) (himage : s.image = some image)
    (hi : s.slotArmed i = true) : GuardOf made consumed s image := by
  obtain ⟨image', hg⟩ := hn.guards (armed_of_slot hi)
  have := hg.borrowed
  rw [himage] at this
  cases this
  exact hg

/-- **The slot of the context is stale**: it is disarmed, and the bank goes on alone. -/
theorem wp_nextCounter_stale (hslot : s.guardSlot context = some (i, image, c))
    (hset : Settled bank') (hfades : Fades s.bank bank') (hdead : Dead bank' c.entry.txKey) :
    Op.wp (do
        disarmSlot i
        callBank (SessionBank.nextCounter context))
      (Handed made h consumed context s) (Stopped made h consumed) { s with bank := bank' } := by
  obtain ⟨himage, hi, hc, hscope, -⟩ := guardSlot_some hslot
  have hg := hn.guardAt himage hi
  have hn' := hn.fades hset hfades
  have hsame : ∀ image' c', readRecord s.profile s.record = some image' →
      image'.contexts[i.val]? = some c' → Dead bank' c'.entry.txKey := by
    intro image' c' hread hc'
    have hkey : c'.entry.txKey = c.entry.txKey := congrArg Session.txKey (hg.session hi hc hread hc')
    rw [hkey]
    exact hdead
  rw [Op.wp_bind]
  refine (wp_disarmSlot_inv i hn'.record hn'.settled hn'.bank ((hn'.guardAt himage hi).disarm hsame)
    (P := Stopped made h consumed) fun s' hr => ⟨hr, fun hcut => absurd rfl hcut⟩).mono
    (fun _ s' hs' => ?_) fun _ _ he => he
  obtain ⟨hn₂, hbank, hprofile, hfollow⟩ := hs'
  refine (wp_drawCounter hkeys hn₂ fun slot entry hfind hsend image₂ hread c₂ hc₂ hkey => ?_).mono
    (fun n s₃ hs₃ => ?_) fun _ _ he => he
  · -- the key would be in the record from before, tracked by this slot or by a dead one
    rw [hbank] at hfind hsend
    rw [hprofile] at hread
    obtain ⟨old, hold, hgrows⟩ := hfollow.grows image₂ hread
    obtain ⟨j, hj⟩ := exists_index (readRecord_some hread).2.2 hc₂
    obtain ⟨d, hd, hsession, -⟩ := hgrows j.val c₂ hj
    obtain ⟨hslotScope, hfound, -⟩ := SessionBank.findCurrent_some hfind
    have hdkey : d.entry.txKey = entry.txKey :=
      (congrArg Session.txKey hsession).symm.trans hkey
    have hdSound := hn.record.sound old hold d (mem_of_getElem? hd)
    have hdScope : d.scope = context.scope :=
      (congrArg Session.scope (hdSound.session_eq hkeys (hn'.bank slot entry hfound) hdkey)).trans
        hslotScope
    have hdeadKey : Dead bank' d.entry.txKey := by
      have ht := hg.tracks old hold j d hd
      cases harmed : s.slotArmed j with
      | false => exact hfades.dead (ht.off harmed)
      | true =>
        obtain ⟨c₀, hc₀, heq⟩ := ht.armed harmed
        have hscope₀ : c₀.scope = c.scope :=
          (congrArg Session.scope heq).trans (hdScope.trans hscope.symm)
        have hij : j = i := Fin.ext (index_of_scope hg.shaped hc₀ hc hscope₀)
        subst hij
        exact hsame old d hold hd
    have := hdeadKey slot entry hfound hdkey.symm
    rw [hsend] at this
    cases this
  · obtain ⟨slot, entry, hfind, hcounter, hn₃⟩ := hs₃
    rw [hbank] at hfind
    obtain ⟨hslotScope, hfound, hpeer⟩ := SessionBank.findCurrent_some hfind
    obtain ⟨e, he, hk, hnext, -⟩ := hfades slot entry hfound
    have hfind₀ := hn.settled.find he
    rw [hslotScope, ← hk.peer, hpeer] at hfind₀
    refine ⟨slot, e, hfind₀, hcounter.trans hnext, ?_⟩
    rw [← hk.txKey]
    exact hn₃

/-- Durability is lost: the context is retired, so its slot can be disarmed. -/
theorem wp_loseSlot (himage : s.image = some image) (hi : s.slotArmed i = true)
    (hc : image.contexts[i.val]? = some c) (hscope : c.scope = context.scope)
    (hpeer : c.entry.peer = context.receiver) {α : Type} {Q : α → RtcNode L E → Prop}
    (status : Status) : Op.wp (loseSlot context i status) Q (Stopped made h consumed) s := by
  have hrest : ∀ b, Settled b ∧ Fades s.bank b ∧ (∀ slot entry, b.current slot = some entry →
      slot.scope = context.scope → entry.peer ≠ context.receiver) →
      Op.wp (do
        disarmSlot i
        fail status) Q (Stopped made h consumed) { s with bank := b } := by
    rintro b ⟨hset, hfades, hgone⟩
    have hn' := hn.fades hset hfades
    have hg := hn'.guardAt himage hi
    rw [Op.wp_bind]
    refine (wp_disarmSlot_inv i hn'.record hn'.settled hn'.bank (hg.disarm fun image' c' hread hc' => ?_)
      (P := Stopped made h consumed) fun s' hr => ⟨hr, fun hcut => absurd rfl hcut⟩).mono
      (fun _ s' hs' => hs'.1.stopped _) fun _ _ he => he
    have hsession := hg.session hi hc hread hc'
    refine dead_of_gone hkeys hn'.bank (hn'.record.sound image' hread c' (mem_of_getElem? hc')) ?_
    intro slot entry hentry hs
    rw [show c'.entry.peer = context.receiver from (congrArg Session.peer hsession).trans hpeer]
    exact hgone slot entry hentry (hs.trans ((congrArg Session.scope hsession).trans hscope))
  unfold loseSlot
  rw [Op.wp_bind]
  refine wp_attempt (wp_callBank ((SessionBank.retire_gone hn.settled context.scope
    context.receiver).mono (fun _ b hb => hrest b hb) fun e b hb => ⟨fun _ _ => hrest b hb, ?_⟩))
  intro hcut
  cases hcut

omit hkeys hn in
theorem NodeInv.drawn (hn : NodeInv made h consumed s) (hsend : s.bank.canSend entry = true)
    (hd : Draws s.bank bank' slot entry) (hc : Calm s.bank bank') :
    NodeInv made h consumed { s with bank := bank' } := by
  refine ⟨hn.record, hd.settled hc hn.settled, Draws.sound hn.bank hd, fun harmed => ?_⟩
  obtain ⟨image, hg⟩ := hn.guards harmed
  refine ⟨image, hg.borrowed, hg.shaped, hg.known, hg.held, fun image' hread i c hi => ?_⟩
  have ht := hg.tracks image' hread i c hi
  refine ⟨ht.armed, fun hoff => hd.dead hc (fun hkey => ?_) (ht.off hoff)⟩
  have := ht.off hoff slot entry hd.found hkey
  rw [hsend] at this
  cases this

omit hkeys hn in
/-- The record and the image of the guard were advanced together. -/
theorem NodeInv.advanced (hn : NodeInv made h consumed s) (himage : s.image = some image)
    (hi : s.slotArmed i = true) (hrecord : s.record = recordLayout s.profile image)
    (hnext : valid (bump image i.val) = true) (o : List PortOutcome) :
    NodeInv made h consumed
      { s with
        record := recordLayout s.profile (bump image i.val), outcomes := o
        image := some (bump image i.val) } := by
  have hg := hn.guardAt himage hi
  have hread : readRecord s.profile s.record = some image := by
    rw [hrecord, readRecord_encode hg.shaped]
  have hfollow : Follow s.profile s.record (recordLayout s.profile (bump image i.val)) := by
    rw [hrecord]
    exact Follow.bump hg.shaped ⟨length_recordLayout hnext, .inr (.inr ⟨hnext, rfl⟩)⟩
  refine ⟨hn.record.follow hfollow, hn.settled, hn.bank, fun _ => ⟨bump image i.val, rfl, hnext, ?_,
    fun _ _ => hg.held image hread, fun image' hread' j c' hc' => ?_⟩⟩
  · intro c' hmem
    obtain ⟨j, hj⟩ := mem_iff_getElem?.mp hmem
    obtain ⟨c, hc, hsession, -⟩ := bump_getElem? hj
    rw [hsession]
    exact hg.known c (mem_of_getElem? hc)
  · dsimp only at hread'
    rw [readRecord_encode hnext] at hread'
    cases hread'
    obtain ⟨c, hc, hsession, -⟩ := bump_getElem? hc'
    refine ⟨fun _ => ⟨c', hc', rfl⟩, fun hoff => ?_⟩
    have hkey : c'.entry.txKey = c.entry.txKey := congrArg Session.txKey hsession
    rw [hkey]
    exact (hg.tracks image hread j c hc).off hoff

/-- The counter that the bank drew is handed out, and the record is ahead of it. -/
theorem NodeInv.issued (hvalid : valid image = true) (hc : image.contexts[i.val]? = some c)
    (hscope : c.scope = slot.scope) (hnext : valid (bump image i.val) = true)
    (hrecord : s.record = recordLayout s.profile (bump image i.val))
    (hknown : sessionOf slot.scope entry ∈ made) (hcounter : c.entry.txNext = entry.txNext)
    (hbank : BankSound made (h ++ [(entry.txKey, entry.txNext)]) s.bank) :
    NodeInv made (h ++ [(entry.txKey, entry.txNext)]) consumed s := by
  refine ⟨⟨hn.record.size, fun image' hread c' hmem => ?_⟩, hn.settled, hbank, hn.guards⟩
  have hsound := hn.record.sound image' hread c' hmem
  refine hsound.issue fun hkey => ?_
  rw [hrecord, readRecord_encode hnext] at hread
  cases hread
  obtain ⟨j, hj⟩ := mem_iff_getElem?.mp hmem
  obtain ⟨d, hd, hsession, htx⟩ := bump_getElem? hj
  -- the key is that of the drawn session, so this is the context that was advanced
  have heq : c'.session = sessionOf slot.scope entry := hkeys _ hsound.known _ hknown hkey
  have hdScope : d.scope = c.scope :=
    (congrArg Session.scope (hsession.symm.trans heq)).trans hscope.symm
  have hji := index_of_scope hvalid hd hc hdScope
  subst hji
  rw [hc] at hd
  cases hd
  rw [htx, if_pos rfl, hcounter]
  have hlt := (valid_txNext hvalid hc).1
  rw [hcounter] at hlt
  exact lt_succ_txNext hlt

/-- **The slot is live**: bank and record advance in lockstep, or the context is given up. -/
theorem wp_nextCounter_guarded (hslot : s.guardSlot context = some (i, image, c)) :
    Op.wp (do
        let bankCounter ← callBank (SessionBank.nextCounter context)
        match ← attempt (advanceRtcTx image i.val) with
        | .error status => loseSlot context i status
        | .ok (image, counter) => do
          let s ← Op.get
          Op.set { s with image := some image }
          if counter != bankCounter then
            loseSlot context i ⟨.internalError, "write-ahead diverged"⟩
          else pure counter)
      (Handed made h consumed context s) (Stopped made h consumed) s := by
  obtain ⟨himage, hi, hc, hscope, hpeer⟩ := guardSlot_some hslot
  rw [Op.wp_bind]
  refine wp_callBank (((SessionBank.wp_nextCounter s.bank context).and
    (SessionBank.calmOp_nextCounter context s.bank)).mono (fun n b hb => ?_) fun e b hb => ?_)
  · obtain ⟨⟨slot, entry, hfind, rfl, hsend, hdraws⟩, hcalm⟩ := hb
    obtain ⟨hslotScope, hfound, -⟩ := SessionBank.findCurrent_some hfind
    have hn' := hn.drawn hsend hdraws hcalm
    rw [Op.wp_bind]
    refine wp_attempt (wp_advanceRtcTx (s := { s with bank := b }) hn'.record.size
      (fun c' o hc' hvalid hrecord hnext => ?_) fun e r o hr => ?_)
    · rw [hc] at hc'
      cases hc'
      have hadvanced := hn'.advanced himage hi hrecord hnext o
      dsimp only
      rw [Op.wp_bind, Op.wp_get, Op.wp_bind, Op.wp_set]
      split
      · have hbumped : (bump image i.val).contexts[i.val]? =
            some { c with entry := { c.entry with txNext := c.entry.txNext + 1 } } := by
          rw [bump, getElem?_modify, hc]
          exact congrArg some (if_pos rfl)
        exact wp_loseSlot hkeys hadvanced rfl hi hbumped hscope hpeer _
      · rename_i hequal
        have hcounter : c.entry.txNext = entry.txNext := by simpa using hequal
        refine ⟨slot, entry, hfind, hcounter, ?_⟩
        rw [hcounter]
        exact hadvanced.issued hkeys hvalid hc (hscope.trans hslotScope.symm) hnext rfl
          (hn.bank slot entry hfound).known hcounter
          (Draws.bankSound hn.bank hn.settled hkeys hdraws)
    · have hfollow : Follow s.profile s.record r := by
        rcases hr with hcleared | ⟨hrecord, hvalid, hw⟩
        · exact hcleared.follow
        · dsimp only at hrecord hw
          rw [hrecord] at hw ⊢
          exact Follow.bump hvalid hw
      have hn₂ := hn'.follow hfollow hn'.settled (SessionBank.Fades.of_calm (Calm.refl _)
        fun slot e he => ⟨e, he, ⟨rfl, rfl, rfl, rfl, rfl⟩, rfl⟩) o
      exact ⟨fun status _ => wp_loseSlot hkeys hn₂ himage hi hc hscope hpeer status, fun _ => ⟨hn₂.record, fun hcut =>
        absurd rfl hcut⟩⟩
  · obtain ⟨hquiet, hcalm⟩ := hb
    have hfades := hquiet.fades hcalm
    exact (hn.fades (hn.settled.calm hcalm hfades.descends) hfades).stopped _

/-- **Handing out a counter keeps the invariant.** No guard is needed for a key that is not in the
record; for one that is, some slot must be armed. -/
theorem wp_nextCounter
    (hcovered : ∀ slot entry, s.bank.findCurrent context.scope context.receiver = some (slot, entry) →
      ∀ image, readRecord s.profile s.record = some image → ∀ c ∈ image.contexts,
        c.entry.txKey = entry.txKey → s.armed = true) :
    Op.wp (nextCounter context) (Handed made h consumed context s) (Stopped made h consumed) s := by
  unfold nextCounter
  rw [Op.wp_bind, Op.wp_get]
  cases hslot : s.guardSlot context with
  | none => exact wp_nextCounter_free hkeys hn hslot hcovered
  | some found =>
    obtain ⟨i, image, c⟩ := found
    obtain ⟨himage, hi, hc, hscope, hpeer⟩ := guardSlot_some hslot
    have hg := hn.guardAt himage hi
    have hpeerValid := (valid_txNext hg.shaped hc).2
    rw [hpeer] at hpeerValid
    have hkey : ∀ slot entry, s.bank.current slot = some entry → entry.txKey = c.entry.txKey →
        slot.scope = context.scope ∧ entry.peer = context.receiver ∧ entry.txCid = c.entry.txCid := by
      intro slot entry hentry hkey
      have heq : sessionOf slot.scope entry = c.session :=
        hkeys _ (hn.bank slot entry hentry).known _ (hg.known c (mem_of_getElem? hc)) hkey
      exact ⟨(congrArg Session.scope heq).trans hscope, (congrArg Session.peer heq).trans hpeer,
        congrArg Session.txCid heq⟩
    have hfades : Fades s.bank s.bank := (SessionBank.Quiet.refl _).fades (Calm.refl _)
    dsimp only
    rw [Op.wp_bind]
    refine wp_attempt (wp_callBank ((SessionBank.txEpoch_dead hn.settled hpeerValid hkey).mono
      (fun live b hb => ?_) fun e b hb => ⟨fun _ _ => ?_, fun hcut => by cases hcut⟩))
    · obtain ⟨rfl, hdead⟩ := hb
      split
      · rename_i hne
        exact wp_nextCounter_stale hkeys hn hslot hn.settled hfades
          (hdead (by simpa [Except.toOption] using hne))
      · exact wp_nextCounter_guarded hkeys hn hslot
    · obtain ⟨hset, hfades, hdead⟩ := hb
      rw [if_pos (by rfl)]
      exact wp_nextCounter_stale hkeys hn hslot hset hfades hdead

end

end RouteLoom.Rtc
