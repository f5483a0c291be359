import RouteLoom.Security.SessionUse
import RouteLoom.Lib.Lineage
import RouteLoom.Lib.SlidingWindow

/-!
# Counters of a session are used once

For transmit counters a use is a seal, for receive windows it is an accepted frame. Each is a lineage
of threads: an installation starts one, an export saves it and a restoration resumes it.

* `SessionBank.Keyed` : live contexts, images and uses carry the keys of their installations
* `SessionBank.sealed_once` : **no installed key seals two frames with one counter**
* `SessionBank.opened_once` : **no installed key opens two frames with one counter**
-/

namespace RouteLoom.SessionBank

open Lib List

variable {L E : Nat} {stales : Use → Bool} {st st' : System L E} {h us : List Use}

/-! ## Serials and installations -/

theorem assign_new (o : Nat) : st.assign o (st.bank.installSerial + 1) = o :=
  Function.update_self ..

variable {o : Nat} {bank bank' : SessionBank L E} {entry entry' : SessionBankEntry}
  {slot : Slot L E} {g : RxHolder L E} {rx : RxContext} {counter : UInt64}

theorem assign_old {serial : UInt32} (hexhausted : st.bank.installSerial ≠ 0xFFFFFFFF)
    (hle : serial ≤ st.bank.installSerial) : st.assign o serial = st.origins serial := by
  refine Function.update_of_ne ?_ ..
  rintro rfl
  have hne : st.bank.installSerial.toNat ≠ 0xFFFFFFFF := fun h => hexhausted (UInt32.toNat_inj.mp h)
  have hlt : st.bank.installSerial.toNat < 2 ^ 32 := st.bank.installSerial.toNat_lt
  have hle' : (st.bank.installSerial + 1).toNat ≤ st.bank.installSerial.toNat := hle
  rw [UInt32.toNat_add, show (1 : UInt32).toNat = 1 from rfl, Nat.mod_eq_of_lt (by omega)] at hle'
  omega

theorem le_succ_serial {serial : UInt32} (hexhausted : st.bank.installSerial ≠ 0xFFFFFFFF)
    (hle : serial ≤ st.bank.installSerial) : serial ≤ st.bank.installSerial + 1 := by
  have hne : st.bank.installSerial.toNat ≠ 0xFFFFFFFF := fun h => hexhausted (UInt32.toNat_inj.mp h)
  have hlt : st.bank.installSerial.toNat < 2 ^ 32 := st.bank.installSerial.toNat_lt
  have hle' : serial.toNat ≤ st.bank.installSerial.toNat := hle
  show serial.toNat ≤ (st.bank.installSerial + 1).toNat
  rw [UInt32.toNat_add, show (1 : UInt32).toNat = 1 from rfl, Nat.mod_eq_of_lt (by omega)]
  omega

/-- Live serials were given out. -/
def Serials (bank : SessionBank L E) : Prop :=
  ∀ g x, bank.identityAt g = some x → x.serial ≤ bank.installSerial

theorem Serials.current (hs : Serials bank) (he : bank.current slot = some entry) :
    entry.installSerial ≤ bank.installSerial :=
  hs (.current slot) (currentIdentity slot entry) (by rw [identityAt, he, Option.map_some])

theorem Follows.move (hf : Follows stales st st' us) : Move st.bank st'.bank False := by
  cases hf with
  | quiet _ _ hbank => exact .quiet hbank
  | blank _ _ hbank => exact .blank hbank
  | exported _ _ _ _ _ hbank => exact .of_eq hbank
  | installed slot _ entry _ _ _ hplaces
  | restored slot _ entry _ _ _ _ hplaces => exact .places slot entry hplaces False.elim
  | drawn slot entry _ _ _ hdraws => exact .draws slot entry hdraws
  | spent slot entry _ _ _ hspends => exact .spends slot entry hspends
  | accepted holder rx o _ _ haccepts => exact .accepts holder rx o.counter haccepts

theorem Serials.step (hs : Serials st.bank) (hf : Follows stales st st' us) : Serials st'.bank := by
  cases hf.move.identity with
  | keeps sub serial =>
    intro g x hx
    rw [serial]
    exact hs g x (sub g x hx)
  | blank none =>
    intro g x hx
    rw [none] at hx
    cases hx
  | places slot entry hp source hshifts _ =>
    intro g x hx
    rw [hp.serial]
    by_cases hg : g = .current slot
    · rw [hg, hshifts.new] at hx
      cases hx
      rw [currentIdentity, hp.entrySerial]
      exact UInt32.le_refl _
    · rw [hshifts.old g hg] at hx
      exact le_succ_serial hp.exhausted (hs _ x hx)

/-! ## Keys -/

/-- The receive key at `g`, with its installation. -/
def rxLive (st : System L E) (g : RxHolder L E) : Option (Nat × RxContext) :=
  (st.bank.identityAt g).bind fun x => (st.bank.rxAt g).map fun rx => (st.origins x.serial, rx)

/-- The context at `slot`, with its installation. -/
def txLive (st : System L E) (slot : Slot L E) : Option (Nat × SessionBankEntry) :=
  (st.bank.current slot).map fun entry => (st.origins entry.installSerial, entry)

theorem rxLive_eq_some :
    rxLive st g = some (o, rx) ↔
      ∃ x, st.bank.identityAt g = some x ∧ st.bank.rxAt g = some rx ∧ st.origins x.serial = o := by
  unfold rxLive
  constructor
  · intro hl
    obtain ⟨x, hx, hl⟩ := Option.bind_eq_some_iff.mp hl
    obtain ⟨rx', hrx, heq⟩ := Option.map_eq_some_iff.mp hl
    cases heq
    exact ⟨x, hx, hrx, rfl⟩
  · rintro ⟨x, hx, hrx, rfl⟩
    rw [hx, Option.bind_some, hrx, Option.map_some]

theorem txLive_eq_some :
    txLive st slot = some (o, entry) ↔
      st.bank.current slot = some entry ∧ st.origins entry.installSerial = o := by
  unfold txLive
  constructor
  · intro hl
    obtain ⟨e, he, heq⟩ := Option.map_eq_some_iff.mp hl
    cases heq
    exact ⟨he, rfl⟩
  · rintro ⟨he, rfl⟩
    rw [he, Option.map_some]

/-- Every place that holds a key holds that of its installation. -/
structure Keyed (st : System L E) (h : List Use) : Prop where
  tx : ∀ slot entry, st.bank.current slot = some entry →
    ∃ keys, st.installs[st.origins entry.installSerial]? = some keys ∧ MadeFrom keys entry
  rx : ∀ g x rx, st.bank.identityAt g = some x → st.bank.rxAt g = some rx →
    ∃ keys, st.installs[st.origins x.serial]? = some keys ∧ rx.rxKey = keys.rxKey ∧
      x.rxCid = keys.rxContextId
  images : ∀ im ∈ st.images, ∃ keys, st.installs[im.origin]? = some keys ∧ MadeFrom keys im.entry
  sealings : ∀ s, .sealed s ∈ h →
    ∃ keys, st.installs[s.origin]? = some keys ∧ s.txKey = keys.txKey ∧ s.txIv = keys.txIv
  openings : ∀ o, .opened o ∈ h → ∃ keys, st.installs[o.origin]? = some keys ∧ o.rxKey = keys.rxKey

theorem Keyed.origin_lt (hk : Keyed st h) (hl : rxLive st g = some (o, rx)) : o < st.installs.length := by
  obtain ⟨x, hx, hrx, rfl⟩ := rxLive_eq_some.mp hl
  obtain ⟨keys, hkeys, _⟩ := hk.rx g x rx hx hrx
  exact (List.getElem?_eq_some_iff.mp hkeys).1

theorem Keyed.txOrigin_lt (hk : Keyed st h) (hl : txLive st slot = some (o, entry)) :
    o < st.installs.length := by
  obtain ⟨he, rfl⟩ := txLive_eq_some.mp hl
  obtain ⟨keys, hkeys, _⟩ := hk.tx slot entry he
  exact (List.getElem?_eq_some_iff.mp hkeys).1

theorem rxLive_of_txLive (hl : txLive st slot = some (o, entry)) :
    rxLive st (.current slot) = some (o, entryRx entry) := by
  obtain ⟨he, rfl⟩ := txLive_eq_some.mp hl
  refine rxLive_eq_some.mpr ⟨currentIdentity slot entry, ?_, ?_, rfl⟩
  · rw [identityAt, he, Option.map_some]
  · rw [rxAt, he, Option.map_some]

/-- The installation of an image that can be restored is not live: its receive id would be taken. -/
theorem Keyed.dead (hk : Keyed st h) {im : Image} (hmem : im ∈ st.images)
    (hplaces : Places st.bank st'.bank slot entry) (hid : entry.rxCid = im.entry.rxCid)
    (hfresh : ∀ s e, st.bank.current s = some e → e.rxCid ≠ entry.rxCid) (g : RxHolder L E)
    (rx : RxContext) : rxLive st g ≠ some (im.origin, rx) := by
  intro hl
  obtain ⟨x, hx, hrx, ho⟩ := rxLive_eq_some.mp hl
  obtain ⟨keys, hkeys, _, hxid⟩ := hk.rx g x rx hx hrx
  obtain ⟨keys', hkeys', hmade⟩ := hk.images im hmem
  rw [ho, hkeys'] at hkeys
  cases hkeys
  have hsame : x.rxCid = entry.rxCid := by rw [hxid, hid, hmade.rxCid]
  by_cases hg : g = .current slot
  · rw [hg] at hx
    obtain ⟨e, he, rfl⟩ := Option.map_eq_some_iff.mp hx
    exact hfresh slot e he hsame
  · exact hplaces.fresh hg hx hsame

/-! ## What a context still offers -/

def Reserved (entry : SessionBankEntry) : Prop := entry.flags &&& kFlagSealReserved ≠ 0

theorem toNat_kMaxUseCounter : kMaxUseCounter.toNat = 2 ^ 32 := by decide

theorem toNat_succ_of_budget {n : UInt64} (hn : n < kMaxUseCounter) : (n + 1).toNat = n.toNat + 1 := by
  have hlt : n.toNat < kMaxUseCounter.toNat := hn
  rw [toNat_kMaxUseCounter] at hlt
  rw [UInt64.toNat_add, show (1 : UInt64).toNat = 1 from rfl, Nat.mod_eq_of_lt (by omega)]

/-- The context may still seal with this counter. -/
def TxAvail (entry : SessionBankEntry) (counter : UInt64) : Prop :=
  entry.txNext ≤ counter ∨ Reserved entry ∧ counter = entry.txNext - 1

theorem TxAvail.copy {copy : SessionBankEntry} (hnext : copy.txNext = entry.txNext)
    (hreserved : copy.flags &&& kFlagSealReserved = entry.flags &&& kFlagSealReserved)
    (ha : TxAvail copy counter) : TxAvail entry counter := by
  unfold TxAvail Reserved at ha ⊢
  rwa [hnext, hreserved] at ha

theorem TxAvail.of_drawn (hbudget : entry.txNext < kMaxUseCounter) (ha : TxAvail (drawn entry) counter) :
    TxAvail entry counter := by
  left
  rcases ha with hle | ⟨_, heq⟩
  · have hle' : (entry.txNext + 1).toNat ≤ counter.toNat := hle
    rw [toNat_succ_of_budget hbudget] at hle'
    show entry.txNext.toNat ≤ counter.toNat
    omega
  · have heq' : counter = entry.txNext + 1 - 1 := heq
    rw [heq', UInt64.add_sub_cancel]
    exact UInt64.le_refl _

def spentEntry (entry : SessionBankEntry) : SessionBankEntry :=
  { entry with flags := entry.flags &&& ~~~kFlagSealReserved }

theorem not_reserved_spentEntry (entry : SessionBankEntry) : ¬ Reserved (spentEntry entry) :=
  fun hres => hres (and_not_and_self _ _)

theorem TxAvail.of_spent (ha : TxAvail (spentEntry entry) counter) : TxAvail entry counter :=
  ha.elim .inl fun hres => absurd hres.1 (not_reserved_spentEntry entry)

theorem not_txAvail_spentEntry (hpos : 0 < entry.txNext) :
    ¬ TxAvail (spentEntry entry) (entry.txNext - 1) := by
  rintro (hle | ⟨hres, _⟩)
  · have hpos' : 0 < entry.txNext.toNat := hpos
    have hone : (1 : UInt64) ≤ entry.txNext := by
      show (1 : UInt64).toNat ≤ entry.txNext.toNat
      exact hpos'
    have hle' : entry.txNext.toNat ≤ (entry.txNext - 1).toNat := hle
    rw [UInt64.toNat_sub_of_le _ _ hone, show (1 : UInt64).toNat = 1 from rfl] at hle'
    omega
  · exact not_reserved_spentEntry entry hres

def window (rx : RxContext) : SlidingWindow := ⟨rx.rxMax, rx.rxBitmap⟩

theorem freshIn_iff : FreshIn rx counter ↔ (window rx).fresh counter = true := by
  rw [SlidingWindow.fresh_iff]
  show (counter ≤ rx.rxMax → _) ↔ rx.rxMax < counter ∨ (rx.rxMax - counter < 64 ∧ _)
  by_cases hgt : rx.rxMax < counter
  · exact ⟨fun _ => .inl hgt, fun _ hle => absurd hgt (UInt64.not_lt.mpr hle)⟩
  · have hbit : ∀ hlt : rx.rxMax - counter < 64, (rx.rxBitmap >>> (rx.rxMax - counter)) &&& 1 = 0 ↔
          SlidingWindow.bit rx.rxBitmap (rx.rxMax - counter) = false := by
      intro hlt
      rw [← SlidingWindow.bit_eq_shift_and hlt, bne_eq_false_iff_eq]
    constructor
    · intro hfresh
      obtain ⟨hlt, hzero⟩ := hfresh (UInt64.not_lt.mp hgt)
      exact .inr ⟨hlt, (hbit hlt).mp hzero⟩
    · rintro (h | ⟨hlt, hzero⟩) _
      · exact absurd h hgt
      · exact ⟨hlt, (hbit hlt).mpr hzero⟩

/-- The window of the source is the sliding window of the library. -/
theorem slideRx_eq (rx : RxContext) (counter : UInt64) :
    slideRx rx counter = (((window rx).insert counter).maximum, ((window rx).insert counter).bitmap) := by
  unfold slideRx SlidingWindow.insert window
  by_cases hgt : counter > rx.rxMax
  · rw [if_pos hgt, if_pos hgt]
  · rw [if_neg hgt, if_neg hgt]

/-- The context after it accepted a frame. -/
def slid (rx : RxContext) (counter : UInt64) : RxContext :=
  { rx with rxMax := (slideRx rx counter).1, rxBitmap := (slideRx rx counter).2 }

theorem freshIn_slid {c : UInt64} (hfresh : FreshIn rx counter) (hc : FreshIn (slid rx counter) c) :
    FreshIn rx c ∧ c ≠ counter := by
  rw [freshIn_iff] at hfresh hc
  have hw : window (slid rx counter) = (window rx).insert counter := by
    unfold slid
    rw [slideRx_eq]
    rfl
  rw [hw] at hc
  rw [freshIn_iff]
  exact SlidingWindow.fresh_insert hfresh hc

/-! ## Steps that place nothing -/

/-- Contexts may disappear and move on, under the same identities and keys, and offer no more. -/
structure Persists (bank bank' : SessionBank L E) : Prop where
  identity : ∀ g x, bank'.identityAt g = some x → bank.identityAt g = some x
  rx : ∀ g rx', bank'.rxAt g = some rx' →
    ∃ rx, bank.rxAt g = some rx ∧ rx'.rxKey = rx.rxKey ∧ ∀ c, FreshIn rx' c → FreshIn rx c
  tx : ∀ slot entry', bank'.current slot = some entry' →
    ∃ entry, bank.current slot = some entry ∧ entry'.installSerial = entry.installSerial ∧
      (∀ keys, MadeFrom keys entry → MadeFrom keys entry') ∧
      ∀ c, TxAvail entry' c → TxAvail entry c

theorem Quiet.rxAt (hq : Quiet bank bank') (g : RxHolder L E) (rx : RxContext)
    (hrx : bank'.rxAt g = some rx) : bank.rxAt g = some rx := by
  cases g with
  | current slot =>
    obtain ⟨entry', hentry', rfl⟩ := Option.map_eq_some_iff.mp hrx
    obtain ⟨entry, hentry, hsame⟩ := hq.current slot entry' hentry'
    refine Option.map_eq_some_iff.mpr ⟨entry, hentry, ?_⟩
    rw [hsame.eq]
    rfl
  | overlap i =>
    obtain ⟨entry, hentry, rfl⟩ := Option.map_eq_some_iff.mp hrx
    exact Option.map_eq_some_iff.mpr ⟨entry, hq.overlap i entry hentry, rfl⟩

theorem Blank.rxAt (hb : Blank bank) (g : RxHolder L E) : bank.rxAt g = none := by
  cases g with
  | current slot => rw [SessionBank.rxAt, hb.current slot, Option.map_none]
  | overlap i => rw [SessionBank.rxAt, hb.overlap i, Option.map_none]

theorem rxAt_update (hfound : bank.current slot = some entry)
    (hcurrent : bank'.current = Function.update bank.current slot (some entry'))
    (hoverlap : bank'.overlap = bank.overlap) (hsame : entryRx entry' = entryRx entry)
    (g : RxHolder L E) : bank'.rxAt g = bank.rxAt g := by
  cases g with
  | overlap i => rw [SessionBank.rxAt, hoverlap, SessionBank.rxAt]
  | current s =>
    rw [SessionBank.rxAt, SessionBank.rxAt, hcurrent]
    by_cases hs : s = slot
    · subst hs
      rw [Function.update_self, hfound, Option.map_some, Option.map_some, hsame]
    · rw [Function.update_of_ne hs]

theorem rxAt_setRx_self (holder : RxHolder L E) (window : UInt64 × UInt64) :
    (bank.setRx holder window).rxAt holder =
      (bank.rxAt holder).map ({ · with rxMax := window.1, rxBitmap := window.2 }) := by
  cases holder with
  | current slot =>
    cases hc : bank.current slot <;> simp [SessionBank.rxAt, setRx, hc, entryRx]
  | overlap i =>
    cases ho : bank.overlap.slots i <;> simp [SessionBank.rxAt, setRx, Pool.modify, ho, overlapRx]

variable {holder : RxHolder L E}

theorem rxAt_setRx_of_ne (hg : g ≠ holder) (window : UInt64 × UInt64) :
    (bank.setRx holder window).rxAt g = bank.rxAt g := by
  cases holder with
  | current slot =>
    cases g with
    | overlap i => rfl
    | current s =>
      have hs : s ≠ slot := fun hs => hg (by rw [hs])
      simp [SessionBank.rxAt, setRx, hs]
  | overlap i =>
    cases g with
    | current s => rfl
    | overlap j =>
      have hj : j ≠ i := fun hj => hg (by rw [hj])
      simp [SessionBank.rxAt, setRx, Pool.modify, hj]

/-- The windows are all that changes in the current contexts. -/
theorem current_setRx {window : UInt64 × UInt64} (he : (bank.setRx holder window).current slot = some entry') :
    ∃ entry, bank.current slot = some entry ∧
      entry' = { entry with rxMax := entry'.rxMax, rxBitmap := entry'.rxBitmap } := by
  cases holder with
  | overlap i => exact ⟨entry', he, rfl⟩
  | current s =>
    by_cases hs : slot = s
    · subst hs
      simp only [setRx, Function.update_self] at he
      obtain ⟨entry, hentry, rfl⟩ := Option.map_eq_some_iff.mp he
      exact ⟨entry, hentry, rfl⟩
    · simp only [setRx, Function.update_of_ne hs] at he
      exact ⟨entry', he, rfl⟩

theorem Persists.of_quiet (hq : Quiet bank bank') : Persists bank bank' := by
  refine ⟨hq.identityAt, fun g rx' hrx => ⟨rx', hq.rxAt g rx' hrx, rfl, fun _ hc => hc⟩,
    fun slot entry' he => ?_⟩
  obtain ⟨entry, hentry, hsame⟩ := hq.current slot entry' he
  refine ⟨entry, hentry, by rw [hsame.eq], fun keys hmade => ?_,
    fun c => TxAvail.copy (by rw [hsame.eq]) hsame.reserved⟩
  rw [hsame.eq]
  exact ⟨hmade.txKey, hmade.txIv, hmade.rxKey, hmade.rxCid⟩

theorem Persists.of_blank (hb : Blank bank') : Persists bank bank' := by
  refine ⟨fun g x hx => ?_, fun g rx hrx => ?_, fun slot entry he => ?_⟩
  · rw [hb.identityAt] at hx
    cases hx
  · rw [hb.rxAt] at hrx
    cases hrx
  · rw [hb.current] at he
    cases he

/-- A context is rewritten; only its transmit counter and flags differ. -/
theorem Persists.of_update (hfound : bank.current slot = some entry)
    (hcurrent : bank'.current = Function.update bank.current slot (some entry'))
    (hoverlap : bank'.overlap = bank.overlap)
    (hsame : entry' = { entry with txNext := entry'.txNext, flags := entry'.flags })
    (havail : ∀ c, TxAvail entry' c → TxAvail entry c) : Persists bank bank' := by
  refine ⟨fun g x hx => ?_, fun g rx hrx => ⟨rx, ?_, rfl, fun _ hc => hc⟩, fun s e he => ?_⟩
  · rwa [identityAt_update hfound hcurrent hoverlap (by rw [hsame]; rfl)] at hx
  · rwa [rxAt_update hfound hcurrent hoverlap (by rw [hsame]; rfl)] at hrx
  · rw [hcurrent] at he
    rcases update_eq_some he with ⟨rfl, rfl⟩ | ⟨-, he⟩
    · refine ⟨entry, hfound, by rw [hsame], fun keys hmade => ?_, havail⟩
      rw [hsame]
      exact ⟨hmade.txKey, hmade.txIv, hmade.rxKey, hmade.rxCid⟩
    · exact ⟨e, he, rfl, fun _ hmade => hmade, fun _ hc => hc⟩

theorem Persists.of_accepts (ha : Accepts bank bank' holder rx counter) : Persists bank bank' := by
  rw [ha.eq]
  refine ⟨fun g x hx => ?_, fun g rx' hrx => ?_, fun slot entry' he => ?_⟩
  · rwa [identityAt_setRx] at hx
  · by_cases hg : g = holder
    · rw [hg, rxAt_setRx_self, ha.found] at hrx
      cases hrx
      exact ⟨rx, by rw [hg, ha.found], rfl, fun c hc => (freshIn_slid ha.fresh hc).1⟩
    · rw [rxAt_setRx_of_ne hg] at hrx
      exact ⟨rx', hrx, rfl, fun _ hc => hc⟩
  · obtain ⟨entry, hentry, hsame⟩ := current_setRx he
    refine ⟨entry, hentry, by rw [hsame], fun keys hmade => ?_,
      fun c => TxAvail.copy (by rw [hsame]) (by rw [hsame])⟩
    rw [hsame]
    exact ⟨hmade.txKey, hmade.txIv, hmade.rxKey, hmade.rxCid⟩

/-- The contexts persist, and images are old or copies of contexts. -/
structure Carries (st st' : System L E) : Prop extends Kept st st' where
  bank : Persists st.bank st'.bank
  images : ∀ im ∈ st'.images, im ∈ st.images ∨ ∃ slot entry, st.bank.current slot = some entry ∧
    im.origin = st.origins entry.installSerial ∧ Copies entry im.entry

theorem Carries.quiet (hkept : Kept st st') (himages : st'.images = st.images)
    (hbank : Quiet st.bank st'.bank) : Carries st st' :=
  ⟨hkept, .of_quiet hbank, fun _ him => .inl (himages ▸ him)⟩

theorem Carries.blank (hkept : Kept st st') (himages : st'.images = st.images)
    (hbank : Blank st'.bank) : Carries st st' :=
  ⟨hkept, .of_blank hbank, fun _ him => .inl (himages ▸ him)⟩

theorem Carries.exported {image : SessionBankEntry} (hkept : Kept st st')
    (himages : st'.images = st.images ++ [⟨st.origins entry.installSerial, image⟩])
    (hbank : st'.bank = st.bank) (hfound : st.bank.current slot = some entry)
    (hcopies : Copies entry image) : Carries st st' := by
  refine ⟨hkept, ?_, fun im him => ?_⟩
  · rw [hbank]
    exact .of_quiet (Quiet.refl st.bank)
  · rw [himages] at him
    rcases mem_append.mp him with him | him
    · exact .inl him
    · rw [mem_singleton.mp him]
      exact .inr ⟨slot, entry, hfound, rfl, hcopies⟩

theorem Carries.drawn (hkept : Kept st st') (himages : ∀ im ∈ st'.images, im ∈ st.images)
    (hdraws : Draws st.bank st'.bank slot entry) : Carries st st' :=
  ⟨hkept, .of_update hdraws.found hdraws.current hdraws.overlap rfl
    fun _ => TxAvail.of_drawn hdraws.budget, fun im him => .inl (himages im him)⟩

theorem Carries.spent (hkept : Kept st st') (himages : ∀ im ∈ st'.images, im ∈ st.images)
    (hspends : Spends st.bank st'.bank slot entry) : Carries st st' :=
  ⟨hkept, .of_update hspends.found hspends.current hspends.overlap rfl fun _ => TxAvail.of_spent,
    fun im him => .inl (himages im him)⟩

theorem Carries.accepted (hkept : Kept st st') (himages : ∀ im ∈ st'.images, im ∈ st.images)
    (haccepts : Accepts st.bank st'.bank holder rx counter) : Carries st st' :=
  ⟨hkept, .of_accepts haccepts, fun im him => .inl (himages im him)⟩

/-! ## Keys along a run -/

theorem Copies.madeFrom {copy : SessionBankEntry} {keys : ContextKeys} (hc : Copies entry copy)
    (hmade : MadeFrom keys entry) : MadeFrom keys copy where
  txKey := hc.txKey.trans hmade.txKey
  txIv := hc.txIv.trans hmade.txIv
  rxKey := (congrArg RxContext.rxKey hc.rx).trans hmade.rxKey
  rxCid := hc.rxCid.trans hmade.rxCid

theorem Keyed.carry (hk : Keyed st h) (hc : Carries st st') : Keyed st' h := by
  refine ⟨fun slot entry' he => ?_, fun g x rx' hx hrx => ?_, fun im him => ?_, ?_, ?_⟩
  · obtain ⟨entry, hentry, hserial, hmade, _⟩ := hc.bank.tx slot entry' he
    obtain ⟨keys, hkeys, hfrom⟩ := hk.tx slot entry hentry
    rw [hc.installs, hc.origins, hserial]
    exact ⟨keys, hkeys, hmade keys hfrom⟩
  · obtain ⟨rx, hrx₀, hkey, _⟩ := hc.bank.rx g rx' hrx
    obtain ⟨keys, hkeys, hrxKey, hid⟩ := hk.rx g x rx (hc.bank.identity g x hx) hrx₀
    rw [hc.installs, hc.origins]
    exact ⟨keys, hkeys, hkey.trans hrxKey, hid⟩
  · rw [hc.installs]
    rcases hc.images im him with hold | ⟨slot, entry, hentry, horigin, hcopies⟩
    · exact hk.images im hold
    · obtain ⟨keys, hkeys, hfrom⟩ := hk.tx slot entry hentry
      rw [horigin]
      exact ⟨keys, hkeys, hcopies.madeFrom hfrom⟩
  · rw [hc.installs]
    exact hk.sealings
  · rw [hc.installs]
    exact hk.openings

/-- A context made from the keys of installation `o` is placed. -/
theorem Keyed.placed (hk : Keyed st h) (hs : Serials st.bank) {keys : ContextKeys}
    (hp : Places st.bank st'.bank slot entry) (horigins : st'.origins = st.assign o)
    (hinstalls : ∀ (i : Nat) k, st.installs[i]? = some k → st'.installs[i]? = some k)
    (hkeys : st'.installs[o]? = some keys) (hmade : MadeFrom keys entry)
    (himages : st'.images = st.images) : Keyed st' h := by
  have hnew : st'.origins entry.installSerial = o := by
    rw [horigins, hp.entrySerial, assign_new]
  have hold : ∀ g x, st.bank.identityAt g = some x → st'.origins x.serial = st.origins x.serial := by
    intro g x hx
    rw [horigins, assign_old hp.exhausted (hs g x hx)]
  have hlift : ∀ {i : Nat} {P : ContextKeys → Prop}, (∃ k, st.installs[i]? = some k ∧ P k) →
      ∃ k, st'.installs[i]? = some k ∧ P k := by
    rintro i P ⟨k, hk, hP⟩
    exact ⟨k, hinstalls i k hk, hP⟩
  obtain ⟨source, hshifts⟩ := hp.shifts
  refine ⟨fun s e he => ?_, fun g x rx hx hrx => ?_, fun im him => ?_,
    fun s hmem => hlift (hk.sealings s hmem), fun op hmem => hlift (hk.openings op hmem)⟩
  · rw [hp.current] at he
    rcases update_eq_some he with ⟨rfl, rfl⟩ | ⟨-, he⟩
    · rw [hnew]
      exact ⟨keys, hkeys, hmade⟩
    · rw [horigins, assign_old hp.exhausted (hs.current he)]
      exact hlift (hk.tx s e he)
  · by_cases hg : g = .current slot
    · rw [hg, hshifts.new] at hx
      rw [hg, hshifts.newRx] at hrx
      cases hx
      cases hrx
      rw [show st'.origins (currentIdentity slot entry).serial = o from hnew]
      exact ⟨keys, hkeys, hmade.rxKey, hmade.rxCid⟩
    · rw [hshifts.old g hg] at hx
      rw [hshifts.oldRx g hg] at hrx
      rw [hold _ x hx]
      exact hlift (hk.rx _ x rx hx hrx)
  · rw [himages] at him
    exact hlift (hk.images im him)

/-- The uses of one more step carry the keys of their installations. -/
theorem Keyed.append (hk : Keyed st h) (hseal : ∀ s, .sealed s ∈ us →
      ∃ keys, st.installs[s.origin]? = some keys ∧ s.txKey = keys.txKey ∧ s.txIv = keys.txIv)
    (hopen : ∀ o, .opened o ∈ us →
      ∃ keys, st.installs[o.origin]? = some keys ∧ o.rxKey = keys.rxKey) : Keyed st (h ++ us) where
  tx := hk.tx
  rx := hk.rx
  images := hk.images
  sealings s hs := (mem_append.mp hs).elim (hk.sealings s) (hseal s)
  openings o ho := (mem_append.mp ho).elim (hk.openings o) (hopen o)

theorem Keyed.append_nil (hk : Keyed st h) : Keyed st (h ++ []) := by
  rwa [List.append_nil]

/-- The window a frame was accepted in belongs to the installation the use names. -/
theorem rxLive_of_found (hrx : st.bank.rxAt g = some rx) : rxLive st g = some (st.originAt g, rx) := by
  have hx : ∃ x, st.bank.identityAt g = some x := by
    cases g with
    | current slot | overlap i =>
      obtain ⟨entry, he, _⟩ := Option.map_eq_some_iff.mp hrx
      exact ⟨_, by rw [identityAt, he, Option.map_some]⟩
  obtain ⟨x, hx⟩ := hx
  refine rxLive_eq_some.mpr ⟨x, hx, hrx, ?_⟩
  rw [System.originAt, hx, Option.map_some, Option.getD_some]

theorem Keyed.step (hk : Keyed st h) (hs : Serials st.bank) (hf : Follows stales st st' us) :
    Keyed st' (h ++ us) := by
  cases hf with
  | quiet hkept himages hbank => exact (hk.carry (.quiet hkept himages hbank)).append_nil
  | blank hkept himages hbank => exact (hk.carry (.blank hkept himages hbank)).append_nil
  | exported slot entry image hkept himages hbank hfound hcopies =>
    exact (hk.carry (.exported hkept himages hbank hfound hcopies)).append_nil
  | installed slot keys entry hinstalls horigins himages hplaces hmade _ _ =>
    refine (hk.placed hs hplaces horigins (fun i k hi => ?_) ?_ hmade himages).append_nil
    · rw [hinstalls, getElem?_append_left (List.getElem?_eq_some_iff.mp hi).1]
      exact hi
    · rw [hinstalls, getElem?_concat_length]
  | restored slot im entry hinstalls horigins himages hmem hplaces hcopies _ _ _ =>
    obtain ⟨keys, hkeys, hmade⟩ := hk.images im hmem
    refine (hk.placed hs hplaces horigins (fun i k hi => ?_) ?_ (hcopies.madeFrom hmade) himages).append_nil
    · rwa [hinstalls]
    · rwa [hinstalls]
  | drawn slot entry u hkept himages hdraws huse =>
    subst huse
    refine (hk.carry (.drawn hkept himages hdraws)).append (fun s hmem => ?_) fun o hmem => ?_
    · cases mem_singleton.mp hmem
    · cases mem_singleton.mp hmem
  | spent slot entry s hkept himages hspends horigin htxKey htxIv _ =>
    refine (hk.carry (.spent hkept (fun im him => (himages im him).1) hspends)).append
      (fun s' hmem => ?_) fun o hmem => ?_
    · cases mem_singleton.mp hmem
      obtain ⟨keys, hkeys, hmade⟩ := hk.tx slot entry hspends.found
      rw [hkept.installs, horigin]
      exact ⟨keys, hkeys, htxKey.trans hmade.txKey, htxIv.trans hmade.txIv⟩
    · cases mem_singleton.mp hmem
  | accepted holder rx o hkept himages haccepts horigin hrxKey =>
    refine (hk.carry (.accepted hkept (fun im him => (himages im him).1) haccepts)).append
      (fun s hmem => ?_) fun o' hmem => ?_
    · cases mem_singleton.mp hmem
    · cases mem_singleton.mp hmem
      obtain ⟨x, hx, hrx, hserial⟩ := rxLive_eq_some.mp (rxLive_of_found haccepts.found)
      obtain ⟨keys, hkeys, hkey, _⟩ := hk.rx holder x rx hx hrx
      rw [hkept.installs, horigin, ← hserial]
      exact ⟨keys, hkeys, hrxKey.trans hkey⟩

/-! ## Reservations -/

/-- Counters stay in the budget, and a reservation is for a counter that was handed out. -/
def Reservations (st : System L E) (h : List Use) : Prop :=
  ∀ slot entry, st.bank.current slot = some entry → entry.txNext ≤ kMaxUseCounter ∧
    (Reserved entry → 0 < entry.txNext ∧
      .issued (st.origins entry.installSerial) (entry.txNext - 1) ∈ h)

/-- Contexts disappear, or stay with their counters and reservations. -/
theorem Reservations.persist (hr : Reservations st h) (horigins : st'.origins = st.origins)
    (hcurrent : ∀ slot entry', st'.bank.current slot = some entry' →
      ∃ entry, st.bank.current slot = some entry ∧ entry'.installSerial = entry.installSerial ∧
        entry'.txNext = entry.txNext ∧ (Reserved entry' → Reserved entry)) : Reservations st' (h ++ us) := by
  intro slot entry' he
  obtain ⟨entry, hentry, hserial, hnext, hreserved⟩ := hcurrent slot entry' he
  obtain ⟨hle, hissued⟩ := hr slot entry hentry
  rw [hnext, horigins, hserial]
  exact ⟨hle, fun h => ⟨(hissued (hreserved h)).1, mem_append_left _ (hissued (hreserved h)).2⟩⟩

theorem Reservations.placed (hr : Reservations st h) (hs : Serials st.bank)
    (hp : Places st.bank st'.bank slot entry) (horigins : st'.origins = st.assign o)
    (hbudget : entry.txNext ≤ kMaxUseCounter) (hfree : entry.flags &&& kFlagSealReserved = 0) :
    Reservations st' (h ++ us) := by
  intro s e he
  rw [hp.current] at he
  rcases update_eq_some he with ⟨rfl, rfl⟩ | ⟨-, he⟩
  · exact ⟨hbudget, fun hres => absurd hfree hres⟩
  · obtain ⟨hle, hissued⟩ := hr s e he
    rw [horigins, assign_old hp.exhausted (hs.current he)]
    exact ⟨hle, fun hres => ⟨(hissued hres).1, mem_append_left _ (hissued hres).2⟩⟩

theorem Reservations.step (hr : Reservations st h) (hs : Serials st.bank)
    (hf : Follows stales st st' us) : Reservations st' (h ++ us) := by
  cases hf with
  | quiet hkept _ hbank =>
    refine hr.persist hkept.origins fun slot entry' he => ?_
    obtain ⟨entry, hentry, hsame⟩ := hbank.current slot entry' he
    refine ⟨entry, hentry, by rw [hsame.eq], by rw [hsame.eq], fun hres => ?_⟩
    rw [Reserved, ← hsame.reserved]
    exact hres
  | blank hkept _ hbank =>
    refine hr.persist hkept.origins fun slot entry' he => ?_
    rw [hbank.current] at he
    cases he
  | exported slot entry image hkept _ hbank _ _ =>
    refine hr.persist hkept.origins fun slot entry' he => ?_
    rw [hbank] at he
    exact ⟨entry', he, rfl, rfl, fun hres => hres⟩
  | installed slot keys entry _ horigins _ hplaces _ hunused hfree =>
    refine hr.placed hs hplaces horigins ?_ hfree
    rw [hunused]
    decide
  | restored slot im entry _ horigins _ _ hplaces _ hbudget hfree _ =>
    exact hr.placed hs hplaces horigins (UInt64.le_of_lt hbudget) hfree
  | drawn slot entry u hkept _ hdraws huse =>
    intro s e he
    rw [hdraws.current] at he
    rcases update_eq_some he with ⟨rfl, rfl⟩ | ⟨-, he⟩
    · have hsucc := toNat_succ_of_budget hdraws.budget
      have hlt : entry.txNext.toNat < kMaxUseCounter.toNat := hdraws.budget
      refine ⟨?_, fun _ => ⟨?_, mem_append_right _ ?_⟩⟩
      · show (entry.txNext + 1).toNat ≤ kMaxUseCounter.toNat
        omega
      · show 0 < (entry.txNext + 1).toNat
        omega
      · rw [huse, hkept.origins, mem_singleton]
        show Use.issued _ (entry.txNext + 1 - 1) = _
        rw [UInt64.add_sub_cancel]
        rfl
    · obtain ⟨hle, hissued⟩ := hr s e he
      rw [hkept.origins]
      exact ⟨hle, fun hres => ⟨(hissued hres).1, mem_append_left _ (hissued hres).2⟩⟩
  | spent slot entry s hkept _ hspends _ _ _ _ =>
    refine hr.persist hkept.origins fun s e he => ?_
    rw [hspends.current] at he
    rcases update_eq_some he with ⟨rfl, rfl⟩ | ⟨-, he⟩
    · exact ⟨entry, hspends.found, rfl, rfl, fun hres => absurd (and_not_and_self _ _) hres⟩
    · exact ⟨e, he, rfl, rfl, fun hres => hres⟩
  | accepted holder rx o hkept _ haccepts _ _ =>
    refine hr.persist hkept.origins fun slot entry' he => ?_
    rw [haccepts.eq] at he
    obtain ⟨entry, hentry, hsame⟩ := current_setRx he
    refine ⟨entry, hentry, by rw [hsame], by rw [hsame], fun hres => ?_⟩
    rw [hsame] at hres
    exact hres

/-! ## Transmit counters -/

def sealings (h : List Use) : List Sealing := h.filterMap Use.sealing

def txImages (st : System L E) : Set (Nat × SessionBankEntry) :=
  {x | ∃ im ∈ st.images, x = (im.origin, im.entry)}

/-- No installation sealed twice with one counter, nor can it. -/
def TxOnce (st : System L E) (h : List Use) : Prop :=
  Lineage TxAvail (txLive st) (txImages st) st.installs.length
    ((sealings h).map fun s => (s.origin, s.counter))

theorem Carries.txBelow (hc : Carries st st') (slot : Slot L E) (o : Nat) (entry' : SessionBankEntry)
    (hl : txLive st' slot = some (o, entry')) : Lineage.Below TxAvail (txLive st) slot o entry' := by
  obtain ⟨he, rfl⟩ := txLive_eq_some.mp hl
  obtain ⟨entry, hentry, hserial, _, havail⟩ := hc.bank.tx slot entry' he
  refine ⟨entry, txLive_eq_some.mpr ⟨hentry, ?_⟩, havail⟩
  rw [hc.origins, hserial]

theorem TxOnce.carry (ht : TxOnce st h) (hc : Carries st st') (hus : sealings us = []) :
    TxOnce st' (h ++ us) := by
  unfold TxOnce at ht ⊢
  rw [hc.installs, sealings, filterMap_append, ← sealings, ← sealings, hus, append_nil]
  refine ht.mono hc.txBelow (fun o v hv => ?_) (Nat.le_refl _)
  obtain ⟨im, him, hx⟩ := hv
  rcases hc.images im him with hold | ⟨slot, entry, hfound, horigin, hcopies⟩
  · exact .inl ⟨im, hold, hx⟩
  · cases hx
    exact .inr ⟨slot, entry, txLive_eq_some.mpr ⟨hfound, horigin.symm⟩,
      fun c => TxAvail.copy hcopies.txNext hcopies.reserved⟩

theorem txLive_placed (hs : Serials st.bank) (hp : Places st.bank st'.bank slot entry)
    (horigins : st'.origins = st.assign o) :
    txLive st' slot = some (o, entry) ∧ ∀ s, s ≠ slot → txLive st' s = txLive st s := by
  constructor
  · refine txLive_eq_some.mpr ⟨by rw [hp.current, Function.update_self], ?_⟩
    rw [horigins, hp.entrySerial, assign_new]
  · intro s hne
    unfold txLive
    rw [hp.current, Function.update_of_ne hne, horigins]
    cases he : st.bank.current s with
    | none => rfl
    | some e => rw [Option.map_some, Option.map_some, assign_old hp.exhausted (hs.current he)]

theorem TxOnce.step (ht : TxOnce st h) (hk : Keyed st h) (hs : Serials st.bank) (hr : Reservations st h)
    (hstales : ∀ s, stales (.sealed s) = true) (hf : Follows stales st st' us) : TxOnce st' (h ++ us) := by
  cases hf with
  | quiet hkept himages hbank => exact ht.carry (.quiet hkept himages hbank) rfl
  | blank hkept himages hbank => exact ht.carry (.blank hkept himages hbank) rfl
  | exported slot entry image hkept himages hbank hfound hcopies =>
    exact ht.carry (.exported hkept himages hbank hfound hcopies) rfl
  | installed slot keys entry hinstalls horigins himages hplaces _ _ _ =>
    obtain ⟨hnew, hold⟩ := txLive_placed hs hplaces horigins
    rw [append_nil, TxOnce, hinstalls, length_append, txImages, himages]
    exact ht.start slot id hnew hold (fun _ _ _ _ heq => heq) (fun s o e hl => hk.txOrigin_lt hl) subset_rfl
  | restored slot im entry hinstalls horigins himages hmem hplaces hcopies _ _ hfresh =>
    obtain ⟨hnew, hold⟩ := txLive_placed hs hplaces horigins
    rw [append_nil, TxOnce, hinstalls, txImages, himages]
    exact ht.resume slot id hnew hold (fun _ _ _ _ heq => heq)
      (fun s e hl => hk.dead hmem hplaces hcopies.rxCid hfresh _ _ (rxLive_of_txLive hl))
      ⟨im, hmem, rfl⟩ (fun c => TxAvail.copy hcopies.txNext hcopies.reserved) subset_rfl
  | drawn slot entry u hkept himages hdraws huse =>
    subst huse
    exact ht.carry (.drawn hkept himages hdraws) rfl
  | accepted holder rx o hkept himages haccepts _ _ =>
    exact ht.carry (.accepted hkept (fun im him => (himages im him).1) haccepts) rfl
  | spent slot entry s hkept himages hspends horigin _ _ hcounter =>
    have hl : txLive st slot = some (s.origin, entry) :=
      txLive_eq_some.mpr ⟨hspends.found, horigin.symm⟩
    have hpos := ((hr slot entry hspends.found).2 hspends.reserved).1
    have hc : Carries st st' := .spent hkept (fun im him => (himages im him).1) hspends
    rw [TxOnce, hkept.installs, sealings, filterMap_append, map_append]
    refine ht.use hl (.inr ⟨hspends.reserved, hcounter⟩) (hk.txOrigin_lt hl) (fun o e he => ?_)
      hc.txBelow fun o v hv => ?_
    · have he' := (txLive_eq_some.mp he).1
      rw [hspends.current, Function.update_self] at he'
      cases he'
      rw [hcounter]
      exact not_txAvail_spentEntry hpos
    · obtain ⟨im, him, hx⟩ := hv
      cases hx
      exact ⟨⟨im, (himages im him).1, rfl⟩, (himages im him).2 (hstales s)⟩

/-! ## Receive windows -/

def openings (h : List Use) : List Opening := h.filterMap Use.opening

def rxImages (st : System L E) : Set (Nat × RxContext) :=
  {x | ∃ im ∈ st.images, x = (im.origin, entryRx im.entry)}

/-- No installation opened twice with one counter, nor can it. -/
def RxOnce (st : System L E) (h : List Use) : Prop :=
  Lineage FreshIn (rxLive st) (rxImages st) st.installs.length
    ((openings h).map fun o => (o.origin, o.counter))

theorem Carries.rxBelow (hc : Carries st st') (g : RxHolder L E) (o : Nat) (rx' : RxContext)
    (hl : rxLive st' g = some (o, rx')) : Lineage.Below FreshIn (rxLive st) g o rx' := by
  obtain ⟨x, hx, hrx', rfl⟩ := rxLive_eq_some.mp hl
  obtain ⟨rx, hrx, _, hsub⟩ := hc.bank.rx g rx' hrx'
  refine ⟨rx, rxLive_eq_some.mpr ⟨x, hc.bank.identity g x hx, hrx, ?_⟩, hsub⟩
  rw [hc.origins]

theorem RxOnce.carry (ht : RxOnce st h) (hc : Carries st st') (hus : openings us = []) :
    RxOnce st' (h ++ us) := by
  unfold RxOnce at ht ⊢
  rw [hc.installs, openings, filterMap_append, ← openings, ← openings, hus, append_nil]
  refine ht.mono hc.rxBelow (fun o v hv => ?_) (Nat.le_refl _)
  obtain ⟨im, him, hx⟩ := hv
  rcases hc.images im him with hold | ⟨slot, entry, hfound, horigin, hcopies⟩
  · exact .inl ⟨im, hold, hx⟩
  · cases hx
    refine .inr ⟨.current slot, ?_⟩
    rw [hcopies.rx]
    exact .refl (rxLive_of_txLive (txLive_eq_some.mpr ⟨hfound, horigin.symm⟩))

theorem rxLive_placed (hs : Serials st.bank) (hp : Places st.bank st'.bank slot entry)
    (horigins : st'.origins = st.assign o) :
    ∃ source : RxHolder L E → RxHolder L E, rxLive st' (.current slot) = some (o, entryRx entry) ∧
      (∀ g, g ≠ .current slot → rxLive st' g = rxLive st (source g)) ∧
      ∀ g g', g ≠ .current slot → g' ≠ .current slot → source g = source g' → g = g' := by
  obtain ⟨source, hshifts⟩ := hp.shifts
  refine ⟨source, rxLive_eq_some.mpr ⟨_, hshifts.new, hshifts.newRx, ?_⟩, fun g hg => ?_, hshifts.injective⟩
  · rw [horigins, currentIdentity, hp.entrySerial, assign_new]
  · unfold rxLive
    rw [hshifts.old g hg, hshifts.oldRx g hg, horigins]
    cases hx : st.bank.identityAt (source g) with
    | none => rfl
    | some x => rw [Option.bind_some, Option.bind_some, assign_old hp.exhausted (hs _ x hx)]

theorem RxOnce.step (ht : RxOnce st h) (hk : Keyed st h) (hs : Serials st.bank)
    (hstales : ∀ o, stales (.opened o) = true) (hf : Follows stales st st' us) : RxOnce st' (h ++ us) := by
  cases hf with
  | quiet hkept himages hbank => exact ht.carry (.quiet hkept himages hbank) rfl
  | blank hkept himages hbank => exact ht.carry (.blank hkept himages hbank) rfl
  | exported slot entry image hkept himages hbank hfound hcopies =>
    exact ht.carry (.exported hkept himages hbank hfound hcopies) rfl
  | installed slot keys entry hinstalls horigins himages hplaces _ _ _ =>
    obtain ⟨source, hnew, hold, hinj⟩ := rxLive_placed hs hplaces horigins
    rw [append_nil, RxOnce, hinstalls, length_append, rxImages, himages]
    exact ht.start (.current slot) source hnew hold hinj (fun g o rx hl => hk.origin_lt hl) subset_rfl
  | restored slot im entry hinstalls horigins himages hmem hplaces hcopies _ _ hfresh =>
    obtain ⟨source, hnew, hold, hinj⟩ := rxLive_placed hs hplaces horigins
    rw [hcopies.rx] at hnew
    rw [append_nil, RxOnce, hinstalls, rxImages, himages]
    exact ht.resume (.current slot) source hnew hold hinj
      (hk.dead hmem hplaces hcopies.rxCid hfresh) ⟨im, hmem, rfl⟩ (fun _ hc => hc) subset_rfl
  | drawn slot entry u hkept himages hdraws huse =>
    subst huse
    exact ht.carry (.drawn hkept himages hdraws) rfl
  | spent slot entry s hkept himages hspends _ _ _ _ =>
    exact ht.carry (.spent hkept (fun im him => (himages im him).1) hspends) rfl
  | accepted holder rx o hkept himages haccepts horigin _ =>
    have hl : rxLive st holder = some (o.origin, rx) := by
      rw [horigin]
      exact rxLive_of_found haccepts.found
    have hc : Carries st st' := .accepted hkept (fun im him => (himages im him).1) haccepts
    rw [RxOnce, hkept.installs, openings, filterMap_append, map_append]
    refine ht.use hl haccepts.fresh (hk.origin_lt hl) (fun o' rx' hl' => ?_) hc.rxBelow fun o' v hv => ?_
    · obtain ⟨_, _, hrx', _⟩ := rxLive_eq_some.mp hl'
      rw [haccepts.eq, rxAt_setRx_self, haccepts.found] at hrx'
      cases hrx'
      exact fun hfresh => (freshIn_slid haccepts.fresh hfresh).2 rfl
    · obtain ⟨im, him, hx⟩ := hv
      cases hx
      exact ⟨⟨im, (himages im him).1, rfl⟩, (himages im him).2 (hstales o)⟩

/-! ## Whole runs -/

/-- What holds in every run, whichever uses make images stale. -/
structure Sound (st : System L E) (h : List Use) : Prop where
  serials : Serials st.bank
  keyed : Keyed st h
  reservations : Reservations st h
  /-- A sealed counter is in the budget and was handed out. -/
  sealed : ∀ s ∈ sealings h, s.counter.toNat < 2 ^ 32 ∧ .issued s.origin s.counter ∈ h

theorem mem_sealings {s : Sealing} : s ∈ sealings h ↔ .sealed s ∈ h := by
  unfold sealings
  rw [mem_filterMap]
  constructor
  · rintro ⟨u, hu, hs⟩
    cases u with
    | sealed s' =>
      cases hs
      exact hu
    | issued o c => cases hs
    | opened o => cases hs
  · exact fun hu => ⟨_, hu, rfl⟩

theorem mem_openings {o : Opening} : o ∈ openings h ↔ .opened o ∈ h := by
  unfold openings
  rw [mem_filterMap]
  constructor
  · rintro ⟨u, hu, ho⟩
    cases u with
    | opened o' =>
      cases ho
      exact hu
    | issued o c => cases ho
    | sealed s => cases ho
  · exact fun hu => ⟨_, hu, rfl⟩

/-- A new seal spends a reservation, and that was for a counter handed out. -/
theorem Follows.sealed (hf : Follows stales st st' us) (hr : Reservations st h) {s : Sealing}
    (hmem : .sealed s ∈ us) : s.counter.toNat < 2 ^ 32 ∧ .issued s.origin s.counter ∈ h := by
  cases hf with
  | quiet | blank | exported | installed | restored => cases hmem
  | drawn slot entry u _ _ _ huse =>
    rw [huse] at hmem
    cases mem_singleton.mp hmem
  | accepted => cases mem_singleton.mp hmem
  | spent slot entry s' _ _ hspends horigin _ _ hcounter =>
    cases mem_singleton.mp hmem
    obtain ⟨hle, hissued⟩ := hr slot entry hspends.found
    obtain ⟨hpos, hissued⟩ := hissued hspends.reserved
    rw [horigin, hcounter]
    refine ⟨?_, hissued⟩
    have hpos' : 0 < entry.txNext.toNat := hpos
    have hle' : entry.txNext.toNat ≤ kMaxUseCounter.toNat := hle
    have hone : (1 : UInt64) ≤ entry.txNext := by
      show (1 : UInt64).toNat ≤ entry.txNext.toNat
      exact hpos'
    rw [toNat_kMaxUseCounter] at hle'
    rw [UInt64.toNat_sub_of_le _ _ hone, show (1 : UInt64).toNat = 1 from rfl]
    omega

theorem Sound.init (hinit : (sessionSystem L E stales).Init st) : Sound st [] := by
  obtain ⟨hbank, _, himages⟩ := hinit
  have hblank : Blank st.bank := by
    rw [hbank]
    exact ⟨fun _ => rfl, fun _ => rfl⟩
  refine ⟨fun g x hx => ?_, ⟨fun slot entry he => ?_, fun g x rx hx => ?_, fun im him => ?_,
    fun s hs => absurd hs not_mem_nil, fun o ho => absurd ho not_mem_nil⟩,
    fun slot entry he => ?_, fun s hs => absurd hs not_mem_nil⟩
  · rw [hblank.identityAt] at hx
    cases hx
  · rw [hblank.current] at he
    cases he
  · rw [hblank.identityAt] at hx
    cases hx
  · rw [himages] at him
    cases him
  · rw [hblank.current] at he
    cases he

theorem Sound.step (hS : Sound st h) (hf : Follows stales st st' us) : Sound st' (h ++ us) where
  serials := hS.serials.step hf
  keyed := hS.keyed.step hS.serials hf
  reservations := hS.reservations.step hS.serials hf
  sealed s hs := by
    rcases mem_append.mp (mem_sealings.mp hs) with hs | hs
    · obtain ⟨hlt, hissued⟩ := hS.sealed s (mem_sealings.mpr hs)
      exact ⟨hlt, mem_append_left _ hissued⟩
    · obtain ⟨hlt, hissued⟩ := hf.sealed hS.reservations hs
      exact ⟨hlt, mem_append_left _ hissued⟩

theorem txLive_init (hinit : (sessionSystem L E stales).Init st) (slot : Slot L E) :
    txLive st slot = none := by
  rw [txLive, hinit.1]
  rfl

theorem rxLive_init (hinit : (sessionSystem L E stales).Init st) (g : RxHolder L E) : rxLive st g = none := by
  rw [rxLive, hinit.1]
  cases g with
  | current slot => rfl
  | overlap i => rfl

/-- Uses that differ by installation differ by key, if no key was installed twice. -/
theorem nodup_of_keys {α K : Type} {l : List α} {origin : α → Nat} {key : α → K}
    {counter : α → UInt64} {keyOf : ContextKeys → K} {installs : List ContextKeys}
    (hnodup : (l.map fun a => (origin a, counter a)).Nodup)
    (hkey : ∀ a ∈ l, ∃ keys, installs[origin a]? = some keys ∧ key a = keyOf keys)
    (hfresh : (installs.map keyOf).Nodup) : (l.map fun a => (key a, counter a)).Nodup := by
  refine hnodup.of_map.map_on fun a ha b hb hab => ?_
  obtain ⟨keys, hkeys, hk⟩ := hkey a ha
  obtain ⟨keys', hkeys', hk'⟩ := hkey b hb
  obtain ⟨hkeyEq, hcounter⟩ := Prod.mk.inj hab
  have hsame : (installs.map keyOf)[origin a]? = (installs.map keyOf)[origin b]? := by
    rw [getElem?_map, getElem?_map, hkeys, hkeys', Option.map_some, Option.map_some, ← hk, ← hk', hkeyEq]
  have horigin : origin a = origin b := by
    refine (getElem?_inj ?_ hfresh).mp hsame
    rw [length_map]
    exact (List.getElem?_eq_some_iff.mp hkeys).1
  exact inj_on_of_nodup_map hnodup ha hb (Prod.ext horigin hcounter)

/-- A port that answers every call. -/
def sampleAead : AeadGcm :=
  { encrypt := fun _ _ _ plain => some (plain, .replicate 16 0)
    decrypt := fun _ _ _ cipher _ => some cipher }

def sampleTx : SecurityContext := { network := 7, sender := 1, receiver := 2, epoch := 1 }

def sampleRx : SecurityContext := { network := 7, sender := 2, receiver := 1, epoch := 1 }

/-- One context is installed, used by `before`, exported, used by `between`, retired, restored from
the image and used by `after`. -/
def sampleResume (before between after : List Event) : List Step :=
  ((sampleInstalls [sampleKeys 1 1] ++ before ++ [Event.exportEntry .link 2] ++ between ++
      [Event.retire .link 2]).map .call) ++ .restore .link 2 0 :: after.map .call

/-- A frame is sealed with a counter that is handed out for it. -/
def sampleSeal (counter : UInt64) : List Event :=
  [.nextCounter sampleTx, .sealFrame sampleAead sampleTx counter [] (some []) (some 0)]

def sampleOpen (counter : UInt64) : List Event :=
  [.openFrame sampleAead sampleRx counter [] (some []) (.replicate 16 0) (some 0)]

/-- **Receive counters are accepted once.** In every run in which no image is restored after its key
opened another frame, each installation opens at most one frame with each counter, wherever its
window is kept; if no key was installed twice, no key opens two frames with one counter. A frame that
is refused leaves the bank as it was. -/
theorem opened_once (L E : Nat) (st : System L E) (h : List Use)
    (hr : (sessionSystem L E fun u => u.opening.isSome).Run st h) :
    ((openings h).map fun o => (o.origin, o.counter)).Nodup ∧
      (∀ o ∈ openings h, ∃ keys, st.installs[o.origin]? = some keys ∧ o.rxKey = keys.rxKey) ∧
      ((st.installs.map (·.rxKey)).Nodup → ((openings h).map fun o => (o.rxKey, o.counter)).Nodup) ∧
      ∀ (bank : SessionBank L E) (aead : AeadGcm) (context : SecurityContext) (counter : UInt64)
        (aad : List UInt8) (ciphertext : Option (List UInt8)) (tag : AeadTag)
        (plaintextSize : Option Nat) (e : Status),
        (openFrame aead context counter aad ciphertext tag plaintextSize bank).1 = .error e →
          (openFrame aead context counter aad ciphertext tag plaintextSize bank).2 = bank := by
  have hinv : Sound st h ∧ RxOnce st h := by
    refine hr.invariant (I := fun st h => Sound st h ∧ RxOnce st h) (fun st hinit => ?_) fun st h s H hs => ?_
    · refine ⟨.init hinit, Lineage.empty (rxLive_init hinit) fun x hx => ?_⟩
      obtain ⟨im, him, _⟩ := hx
      rw [hinit.2.2] at him
      cases him
    · have hf := follows_next s hs
      exact ⟨H.1.step hf, H.2.step H.1.keyed H.1.serials (fun _ => rfl) hf⟩
  have hnodup := hinv.2.alloc.nodup
  have hkeys := fun o ho => hinv.1.keyed.openings o (mem_openings.mp ho)
  refine ⟨hnodup, hkeys, nodup_of_keys hnodup hkeys, ?_⟩
  intro bank aead context counter aad ciphertext tag plaintextSize e herr
  rcases after_or_same (wp_openFrame bank aead context counter aad ciphertext tag plaintextSize)
    with ⟨plain, hok, _⟩ | ⟨_, _, hsame⟩
  · rw [hok] at herr
    cases herr
  · exact hsame

theorem opened_once_resumed :
    ((openings ((sessionSystem 1 0 fun u => u.opening.isSome).exec {} []
      (sampleResume (sampleOpen 5) [] (sampleOpen 5 ++ sampleOpen 6))).2).map
        fun o => (o.origin, o.counter)).Nodup :=
  (opened_once 1 0 _ _ (Machine.run_exec (M := sessionSystem 1 0 fun u => u.opening.isSome)
    ⟨rfl, rfl, rfl⟩ _ (by decide +kernel))).1

/-- An image that is restored after its key opened another frame opens that frame again. -/
theorem opened_twice_after_export :
    ∃ (st : System 1 0) (h : List Use), (sessionSystem 1 0 fun _ => false).Run st h ∧
      ¬ ((openings h).map fun o => (o.origin, o.counter)).Nodup :=
  ⟨_, _, Machine.run_exec (M := sessionSystem 1 0 fun _ => false) (s := {}) ⟨rfl, rfl, rfl⟩
      (sampleResume [] (sampleOpen 5) (sampleOpen 5)) (by decide +kernel),
    by decide +kernel⟩

end RouteLoom.SessionBank
