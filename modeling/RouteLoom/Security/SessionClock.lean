import RouteLoom.Security.SessionRuns

/-!
# A context that cannot send stays so

`canSend` reads the clock, the group-key epoch and the counter of a context. The clock and the epoch
only grow, and a context is dropped before its 32-bit deadline comes around again, so a context that
cannot send once never can.

* `Due` : a short deadline and the absolute one that it stands for
* `Settled` : what every bank satisfies between calls
* `Fades`, `keeps_effect` : a call that makes nothing invents no context and revives none
* `Dead` : no context with a key can send; `txEpoch_dead` tells when a key is dead
-/

namespace RouteLoom.SessionBank

open Lib List

variable {L E : Nat} {bank bank' bank'' : SessionBank L E} {slot : Slot L E}
  {entry entry' : SessionBankEntry}

/-! ## The clock during a call -/

theorem min_le_right' (a b : UInt64) : min a b ≤ b := by
  change (if a ≤ b then a else b) ≤ b
  split
  · assumption
  · exact UInt64.le_refl b

theorem calm_touch (bank : SessionBank L E) (slot : Slot L E) : Calm bank (bank.touch slot) := by
  cases slot with
  | link i => exact Calm.refl bank
  | endToEnd i => exact ⟨rfl, rfl, rfl, UInt64.le_refl _⟩

theorem calm_demote (bank : SessionBank L E) (scope : SecurityScope) (entry : SessionBankEntry) :
    Calm bank (bank.demote scope entry) := by
  unfold demote
  split
  · exact Calm.refl bank
  · exact ⟨rfl, rfl, rfl, min_le_left' _ _⟩

theorem calm_place (bank : SessionBank L E) (slot : Slot L E) (entry : SessionBankEntry)
    (lifetimeMs : UInt32) : Calm bank (bank.place slot entry lifetimeMs) := by
  cases slot with
  | link i | endToEnd i => exact ⟨rfl, rfl, rfl, min_le_left' _ _⟩

/-- Whether the method succeeds or fails, the clock stands still. -/
def CalmOp {α : Type} (m : BankOp L E α) : Prop :=
  ∀ bank, Op.wp m (fun _ b => Calm bank b) (fun _ b => Calm bank b) bank

variable {α : Type} {m : BankOp L E α}

theorem CalmOp.effect (hm : CalmOp m) (bank : SessionBank L E) : Calm bank (m bank).2 :=
  Op.Along.after (R := Calm) hm bank

theorem calmOp_nextCounter (context : SecurityContext) :
    CalmOp (nextCounter context : BankOp L E UInt64) := by
  refine Op.along_get fun bank => Op.along_check fun _ => Op.along_check fun _ => Op.along_check fun _ =>
    Op.along_check fun _ => ?_
  split
  · exact (rests_recordDemand bank context.scope context.receiver).calm
  · refine Op.along_check fun _ => Calm.trans ?_ (calm_touch _ _)
    exact ⟨rfl, rfl, rfl, UInt64.le_refl _⟩

theorem calmOp_sealFrame (aead : AeadGcm) (context : SecurityContext) (counter : UInt64)
    (aad : List UInt8) (plaintext : Option (List UInt8)) (ciphertextSize : Option Nat) :
    CalmOp (sealFrame aead context counter aad plaintext ciphertextSize :
      BankOp L E (List UInt8 × AeadTag)) := by
  refine Op.along_get fun bank => Op.along_check fun found => ?_
  obtain ⟨⟨slot, entry⟩, nonce, plain⟩ := found
  dsimp only
  rw [Op.wp_bind, Op.wp_set]
  split
  · exact ⟨rfl, rfl, rfl, UInt64.le_refl _⟩
  · exact ⟨rfl, rfl, rfl, UInt64.le_refl _⟩

theorem calmOp_openFrame (aead : AeadGcm) (context : SecurityContext) (counter : UInt64) (aad : List UInt8)
    (ciphertext : Option (List UInt8)) (tag : AeadTag) (plaintextSize : Option Nat) :
    CalmOp (openFrame aead context counter aad ciphertext tag plaintextSize : BankOp L E (List UInt8)) := by
  refine Op.along_get fun bank => Op.along_check fun found => ?_
  obtain ⟨⟨holder, rx⟩, nonce, cipher⟩ := found
  dsimp only
  split
  · exact Calm.refl bank
  · cases holder with
    | overlap i => exact ⟨rfl, rfl, rfl, UInt64.le_refl _⟩
    | current slot =>
      dsimp only
      split
      · exact Calm.refl bank
      · split
        · exact Calm.refl bank
        · exact ⟨rfl, rfl, rfl, UInt64.le_refl _⟩

/-! ## One deadline -/

variable {low : UInt32} {deadline now : MonotonicMs}

theorem remaining_toNat {deadline : UInt64} (hlow : bank.lastTick.toNat ≤ deadline.toNat)
    (hhigh : deadline.toNat < bank.lastTick.toNat + 2 ^ 32) :
    (bank.remaining deadline.toUInt32).toNat = deadline.toNat - bank.lastTick.toNat := by
  unfold remaining
  rw [UInt32.toNat_sub, UInt64.toNat_toUInt32, UInt64.toNat_toUInt32]
  omega

/-- At time `tick`, `low` stands for `deadline`, and the bank that next looks at `next` looks by then. -/
structure Due (tick next : MonotonicMs) (low : UInt32) (deadline : MonotonicMs) : Prop where
  low : deadline.toUInt32 = low
  ahead : tick ≤ deadline
  near : deadline.toNat < tick.toNat + 2 ^ 32
  looked : next ≤ deadline

namespace Due

variable {next next' : MonotonicMs}

section

variable (h : Due bank.lastTick next low deadline)
include h

theorem toNat_remaining : (bank.remaining low).toNat = deadline.toNat - bank.lastTick.toNat := by
  rw [← h.low]
  exact remaining_toNat h.ahead h.near

theorem remaining_toUInt64 : (bank.remaining low).toUInt64 = deadline - bank.lastTick := by
  rw [← UInt64.toNat_inj, UInt32.toNat_toUInt64, h.toNat_remaining, UInt64.toNat_sub_of_le _ _ h.ahead]

theorem remaining_eq : bank.remaining low = (deadline - bank.lastTick).toUInt32 := by
  rw [← h.remaining_toUInt64, UInt32.toUInt32_toUInt64]

theorem remaining_bne : (bank.remaining low != 0) = decide (bank.lastTick < deadline) := by
  have hahead : bank.lastTick.toNat ≤ deadline.toNat := h.ahead
  rw [Bool.eq_iff_iff, bne_iff_ne, decide_eq_true_eq, ne_eq, ← UInt32.toNat_inj, h.toNat_remaining,
    UInt64.lt_iff_toNat_lt]
  show ¬ _ = 0 ↔ _
  omega

theorem not_expiresBy (hnow : bank.lastTick ≤ now) : (!bank.expiresBy now low) = decide (now < deadline) := by
  have hahead : bank.lastTick.toNat ≤ deadline.toNat := h.ahead
  have hle : bank.lastTick.toNat ≤ now.toNat := hnow
  unfold expiresBy
  rw [h.remaining_toUInt64, Bool.eq_iff_iff, Bool.not_eq_true', decide_eq_false_iff_not,
    decide_eq_true_eq, ge_iff_le, UInt64.not_le, UInt64.lt_iff_toNat_lt, UInt64.lt_iff_toNat_lt,
    UInt64.toNat_sub_of_le _ _ hnow, UInt64.toNat_sub_of_le _ _ h.ahead]
  omega

end

theorem sooner (h : Due now next low deadline) (hle : next' ≤ next) : Due now next' low deadline :=
  ⟨h.low, h.ahead, h.near, UInt64.le_trans hle h.looked⟩

theorem later {tick : MonotonicMs} (h : Due tick next low deadline) (hnow : tick ≤ now)
    (hbefore : now < deadline) (hnext : next' ≤ deadline) : Due now next' low deadline :=
  ⟨h.low, UInt64.le_of_lt hbefore, Nat.lt_of_lt_of_le h.near (Nat.add_le_add_right hnow _), hnext⟩

end Due

theorem due_expiresAfter (bank : SessionBank L E) (duration : UInt32) :
    Due bank.lastTick (bank.expiresAfter duration).2.nextExpiry (bank.expiresAfter duration).1
      (if duration.toUInt64 > 0xFFFFFFFFFFFFFFFF - bank.lastTick then 0xFFFFFFFFFFFFFFFF
        else bank.lastTick + duration.toUInt64) := by
  have hmax : (0xFFFFFFFFFFFFFFFF : UInt64).toNat = 2 ^ 64 - 1 := rfl
  have hlt := bank.lastTick.toNat_lt
  have htop : (0xFFFFFFFFFFFFFFFF - bank.lastTick).toNat = 2 ^ 64 - 1 - bank.lastTick.toNat := by
    rw [UInt64.toNat_sub_of_le, hmax]
    exact UInt64.le_iff_toNat_le.mpr (by omega)
  have hduration : duration.toUInt64.toNat < 2 ^ 32 := by
    rw [UInt32.toNat_toUInt64]
    exact duration.toNat_lt
  refine ⟨rfl, UInt64.le_iff_toNat_le.mpr ?_, ?_, min_le_right' _ _⟩
  · split
    next hover =>
      rw [hmax]
      omega
    next hfits =>
      rw [gt_iff_lt, UInt64.lt_iff_toNat_lt, htop] at hfits
      rw [UInt64.toNat_add, Nat.mod_eq_of_lt (by omega)]
      omega
  · split
    next hover =>
      rw [gt_iff_lt, UInt64.lt_iff_toNat_lt, htop] at hover
      rw [hmax]
      omega
    next hfits =>
      rw [UInt64.toNat_add]
      exact Nat.lt_of_le_of_lt (Nat.mod_le _ _) (by omega)

/-- `low` stands for `deadline` in this bank. -/
def DueIn (bank : SessionBank L E) (low : UInt32) (deadline : MonotonicMs) : Prop :=
  Due bank.lastTick bank.nextExpiry low deadline

/-! ## Settled banks -/

/-- The full deadline of a context is less than a turn of the 32-bit clock away, and the bank looks at
the deadlines by then. -/
def Timed (bank : SessionBank L E) (entry : SessionBankEntry) : Prop :=
  ∃ deadline : UInt64, deadline.toUInt32 = entry.remainingMs ∧ bank.lastTick.toNat ≤ deadline.toNat ∧
    deadline.toNat < bank.lastTick.toNat + 2 ^ 32 ∧ bank.nextExpiry ≤ deadline

structure Settled (bank : SessionBank L E) : Prop where
  configured : ∀ slot entry, bank.current slot = some entry → bank.configured = true
  onePeer : ∀ slot slot' entry entry', bank.current slot = some entry →
    bank.current slot' = some entry' → slot.scope = slot'.scope → entry.peer = entry'.peer → slot = slot'
  timed : ∀ slot entry, bank.current slot = some entry → Timed bank entry
  epoch : ∀ slot entry, bank.current slot = some entry → entry.createdGk ≤ bank.view.gkEpoch

/-- The same context for the clock and for lookups. -/
structure Kin (entry entry' : SessionBankEntry) : Prop where
  peer : entry'.peer = entry.peer
  txKey : entry'.txKey = entry.txKey
  txCid : entry'.txCid = entry.txCid
  createdGk : entry'.createdGk = entry.createdGk
  remainingMs : entry'.remainingMs = entry.remainingMs

/-- Every context of `bank'` is one of `bank`. -/
def Descends (bank bank' : SessionBank L E) : Prop :=
  ∀ slot entry', bank'.current slot = some entry' →
    ∃ entry, bank.current slot = some entry ∧ Kin entry entry'

theorem Settled.onePeer_of_descends (hs : Settled bank) (hd : Descends bank bank') :
    ∀ slot slot' entry entry', bank'.current slot = some entry → bank'.current slot' = some entry' →
      slot.scope = slot'.scope → entry.peer = entry'.peer → slot = slot' := by
  intro s s' e e' he he' hscope hpeer
  obtain ⟨o, ho, hk⟩ := hd s e he
  obtain ⟨o', ho', hk'⟩ := hd s' e' he'
  exact hs.onePeer s s' o o' ho ho' hscope (by rw [← hk.peer, ← hk'.peer, hpeer])

theorem timed_iff : Timed bank entry ↔ ∃ deadline, bank.DueIn entry.remainingMs deadline :=
  ⟨fun ⟨deadline, hlow, hahead, hnear, hlooked⟩ => ⟨deadline, hlow, hahead, hnear, hlooked⟩,
    fun ⟨deadline, hdue⟩ => ⟨deadline, hdue.low, hdue.ahead, hdue.near, hdue.looked⟩⟩

theorem Timed.calm (hc : Calm bank bank') (hk : Kin entry entry') (h : Timed bank entry) :
    Timed bank' entry' := by
  obtain ⟨deadline, hdue⟩ := timed_iff.mp h
  refine timed_iff.mpr ⟨deadline, ?_⟩
  unfold DueIn
  rw [hk.remainingMs, hc.lastTick]
  exact Due.sooner hdue hc.nextExpiry

theorem Settled.calm (hs : Settled bank) (hc : Calm bank bank') (hd : Descends bank bank') :
    Settled bank' := by
  refine ⟨fun slot e he => ?_, hs.onePeer_of_descends hd, fun slot e he => ?_, fun slot e he => ?_⟩
  · obtain ⟨o, ho, -⟩ := hd slot e he
    rw [hc.configured, hs.configured slot o ho]
  · obtain ⟨o, ho, hk⟩ := hd slot e he
    exact (hs.timed slot o ho).calm hc hk
  · obtain ⟨o, ho, hk⟩ := hd slot e he
    rw [hk.createdGk, hc.view]
    exact hs.epoch slot o ho

theorem Blank.settled (hb : Blank bank) : Settled bank := by
  have hnone : ∀ {slot e}, bank.current slot ≠ some e := fun {slot e} he => by
    rw [hb.current slot] at he
    cases he
  exact ⟨fun _ _ he => absurd he hnone, fun _ _ _ _ he => absurd he hnone,
    fun _ _ he => absurd he hnone, fun _ _ he => absurd he hnone⟩

/-! ## Contexts fade -/

/-- Every context was there before with the same counter, and one that could not send still cannot. -/
def Fades (bank bank' : SessionBank L E) : Prop :=
  ∀ slot entry', bank'.current slot = some entry' →
    ∃ entry, bank.current slot = some entry ∧ Kin entry entry' ∧ entry'.txNext = entry.txNext ∧
      (bank.canSend entry = false → bank'.canSend entry' = false)

theorem Fades.descends (h : Fades bank bank') : Descends bank bank' := fun slot e' he' => by
  obtain ⟨e, he, hk, -⟩ := h slot e' he'
  exact ⟨e, he, hk⟩

theorem canSend_calm (hc : Calm bank bank') (hk : Kin entry entry')
    (hnext : entry'.txNext = entry.txNext) : bank'.canSend entry' = bank.canSend entry := by
  simp only [canSend, entryUsable, remaining, hc.lastTick, hc.view, hk.remainingMs, hk.createdGk, hnext]

theorem Fades.of_calm (hc : Calm bank bank') (h : ∀ slot entry', bank'.current slot = some entry' →
    ∃ entry, bank.current slot = some entry ∧ Kin entry entry' ∧ entry'.txNext = entry.txNext) :
    Fades bank bank' := fun slot e' he' => by
  obtain ⟨e, he, hk, hnext⟩ := h slot e' he'
  refine ⟨e, he, hk, hnext, fun hdead => ?_⟩
  rw [canSend_calm hc hk hnext, hdead]

theorem Same.kin (h : Same entry entry') : Kin entry entry' := by
  rw [h.eq]
  exact ⟨rfl, rfl, rfl, rfl, rfl⟩

theorem Quiet.fades (hq : Quiet bank bank') (hc : Calm bank bank') : Fades bank bank' := by
  refine Fades.of_calm hc fun slot e' he' => ?_
  obtain ⟨e, he, hsame⟩ := hq.current slot e' he'
  exact ⟨e, he, hsame.kin, by rw [hsame.eq]⟩

theorem Rests.fades (h : Rests bank bank') : Fades bank bank' := h.quiet.fades h.calm

theorem Blank.fades (hb : Blank bank') : Fades bank bank' := fun slot e' he' => by
  rw [hb.current slot] at he'
  cases he'

theorem Fades.update (hc : Calm bank bank') (hfound : bank.current slot = some entry)
    (hcurrent : bank'.current = Function.update bank.current slot (some entry'))
    (hk : Kin entry entry') (hnext : entry'.txNext = entry.txNext) : Fades bank bank' := by
  refine Fades.of_calm hc fun s e he => ?_
  rw [hcurrent] at he
  rcases update_eq_some he with ⟨rfl, rfl⟩ | ⟨-, he⟩
  · exact ⟨entry, hfound, hk, hnext⟩
  · exact ⟨e, he, ⟨rfl, rfl, rfl, rfl, rfl⟩, rfl⟩

theorem Spends.fades (h : Spends bank bank' slot entry) (hc : Calm bank bank') : Fades bank bank' :=
  Fades.update hc h.found h.current ⟨rfl, rfl, rfl, rfl, rfl⟩ rfl

theorem Accepts.fades {holder : RxHolder L E} {rx : RxContext} {counter : UInt64}
    (h : Accepts bank bank' holder rx counter) (hc : Calm bank bank') : Fades bank bank' := by
  have heq := h.eq
  cases holder with
  | overlap i =>
    refine Fades.of_calm hc fun s e he => ?_
    rw [heq] at he
    exact ⟨e, he, ⟨rfl, rfl, rfl, rfl, rfl⟩, rfl⟩
  | current slot =>
    obtain ⟨entry, hentry, -⟩ := Option.map_eq_some_iff.mp h.found
    have hcurrent : bank'.current = Function.update bank.current slot
        (some { entry with rxMax := (slideRx rx counter).1, rxBitmap := (slideRx rx counter).2 }) := by
      rw [heq, setRx, hentry]
      rfl
    exact Fades.update hc hentry hcurrent ⟨rfl, rfl, rfl, rfl, rfl⟩ rfl

/-! ## Time passes -/

theorem DueIn.remaining_ne (h : bank.DueIn low deadline) (hnow : bank.lastTick ≤ now)
    (hbefore : now < deadline) : bank.remaining low ≠ 0 := by
  rw [← bne_iff_ne, Due.remaining_bne h, decide_eq_true_eq]
  exact UInt64.lt_of_le_of_lt hnow hbefore

/-- Below the next look at the deadlines, no context is at its deadline. -/
theorem Timed.later (h : Timed bank entry) (hlow : bank.lastTick ≤ now) (hnow : now < bank.nextExpiry) :
    Timed { bank with lastTick := now } entry ∧ bank.remaining entry.remainingMs ≠ 0 := by
  obtain ⟨deadline, hdue⟩ := timed_iff.mp h
  have hbefore := UInt64.lt_of_lt_of_le hnow hdue.looked
  exact ⟨timed_iff.mpr ⟨deadline, Due.later hdue hlow hbefore hdue.looked⟩, hdue.remaining_ne hlow hbefore⟩

theorem foldl_min_le (f : UInt32 → UInt64) (deadlines : List UInt32) (start : UInt64) :
    deadlines.foldl (fun next d => min next (f d)) start ≤ start ∧
      ∀ d ∈ deadlines, deadlines.foldl (fun next d => min next (f d)) start ≤ f d := by
  induction deadlines generalizing start with
  | nil => exact ⟨UInt64.le_refl _, fun _ h => absurd h not_mem_nil⟩
  | cons d ds ih =>
    obtain ⟨hstart, hall⟩ := ih (min start (f d))
    refine ⟨UInt64.le_trans hstart (min_le_left' _ _), fun x hx => ?_⟩
    rcases mem_cons.mp hx with rfl | hx
    · exact UInt64.le_trans hstart (min_le_right' _ _)
    · exact hall x hx

theorem mem_deadlines_current (h : bank.current slot = some entry) : entry.remainingMs ∈ bank.deadlines :=
  mem_append_left _ (mem_append_left _ (mem_map.mpr
    ⟨entry, mem_filterMap.mpr ⟨slot, mem_allSlots slot, h⟩, rfl⟩))

theorem DueIn.before (h : bank.DueIn low deadline) (hnow : bank.lastTick ≤ now)
    (hkept : (!bank.expiresBy now low) = true) : now < deadline := by
  rwa [Due.not_expiresBy h hnow, decide_eq_true_eq] at hkept

/-- What a look at all deadlines keeps is looked at again in time. -/
theorem DueIn.expire (h : bank.DueIn low deadline) (hnow : bank.lastTick ≤ now)
    (hkept : (!bank.expiresBy now low) = true) (hmem : low ∈ (bank.expire now).deadlines) :
    (bank.expire now).DueIn low deadline := by
  have hbefore := h.before hnow hkept
  have hfold := (foldl_min_le (fun d => bank.lastTick + (bank.remaining d).toUInt64)
    (bank.expire now).deadlines 0xFFFFFFFFFFFFFFFF).2 low hmem
  refine Due.later h hnow hbefore (UInt64.le_trans hfold ?_)
  rw [h.remaining_toUInt64, UInt64.le_iff_toNat_le, UInt64.toNat_add, UInt64.toNat_sub_of_le _ _ h.ahead]
  have hahead : bank.lastTick.toNat ≤ deadline.toNat := h.ahead
  have := deadline.toNat_lt
  omega

/-- What `expire` keeps is not at its deadline, and is timed by the new clock. -/
theorem Timed.expire (h : Timed bank entry) (hlow : bank.lastTick ≤ now)
    (hkept : (bank.expire now).current slot = some entry) :
    Timed (bank.expire now) entry ∧ bank.remaining entry.remainingMs ≠ 0 := by
  obtain ⟨deadline, hdue⟩ := timed_iff.mp h
  obtain ⟨-, hnot⟩ := Option.filter_eq_some_iff.mp hkept
  exact ⟨timed_iff.mpr ⟨deadline, hdue.expire hlow hnot (mem_deadlines_current hkept)⟩,
    hdue.remaining_ne hlow (hdue.before hlow hnot)⟩

theorem canSend_false_of (hremaining : bank.remaining entry.remainingMs ≠ 0) (hview : bank'.view = bank.view)
    (hdead : bank.canSend entry = false) : bank'.canSend entry = false := by
  have hne : (bank.remaining entry.remainingMs != 0) = true := bne_iff_ne.mpr hremaining
  simp only [canSend, entryUsable, hne, Bool.true_and] at hdead ⊢
  rw [hview, Bool.and_assoc, hdead, Bool.and_false]

/-- A clock that only grows keeps the deadlines, and drops what reaches its own. -/
theorem tick_keeps (hs : Settled bank) (now : MonotonicMs) :
    Op.wp (tick now) (fun _ b => Settled b ∧ Fades bank b) (fun _ b => b = bank) bank := by
  unfold tick
  rw [Op.wp_bind, Op.wp_get]
  refine Op.wp_check_bind (fun _ _ => rfl) fun _ _ => Op.wp_check_bind (fun _ _ => rfl) fun _ hnow => ?_
  rw [refuse_eq_ok, decide_eq_false_iff_not, UInt64.not_lt] at hnow
  split
  · rename_i hnext
    have hlater := fun s e he => (hs.timed s e he).later hnow hnext
    refine ⟨⟨hs.configured, hs.onePeer, fun s e he => (hlater s e he).1, hs.epoch⟩, fun s e he => ?_⟩
    exact ⟨e, he, ⟨rfl, rfl, rfl, rfl, rfl⟩, rfl, canSend_false_of (hlater s e he).2 rfl⟩
  · have hold : ∀ {s e}, (bank.expire now).current s = some e → bank.current s = some e :=
      fun he => (Option.filter_eq_some_iff.mp he).1
    have hkept := fun s e he => (hs.timed s e (hold he)).expire hnow he
    refine ⟨⟨fun s e he => hs.configured s e (hold he), fun s s' e e' he he' =>
      hs.onePeer s s' e e' (hold he) (hold he'), fun s e he => (hkept s e he).1, fun s e he =>
      hs.epoch s e (hold he)⟩, fun s e he => ?_⟩
    exact ⟨e, hold he, ⟨rfl, rfl, rfl, rfl, rfl⟩, rfl, canSend_false_of (hkept s e he).2 rfl⟩

theorem gkUsable_false_of_le {current next created : UInt32} (hle : current ≤ next)
    (hcreated : created ≤ current) (h : gkUsable current created = false) :
    gkUsable next created = false := by
  simp only [gkUsable, Bool.not_eq_false', Bool.or_eq_true, decide_eq_true_eq] at h ⊢
  rw [UInt32.le_iff_toNat_le] at hle hcreated
  right
  rcases h with h | h
  · rw [UInt32.lt_iff_toNat_lt] at h
    omega
  · rw [ge_iff_le, UInt64.le_iff_toNat_le, UInt64.toNat_add, UInt32.toNat_toUInt64,
      UInt32.toNat_toUInt64] at h ⊢
    exact Nat.le_trans h hle

theorem setGkEpoch_keeps (hs : Settled bank) (gkEpoch : UInt32) :
    Op.wp (setGkEpoch gkEpoch) (fun _ b => Settled b ∧ Fades bank b) (fun _ b => b = bank) bank := by
  unfold setGkEpoch
  rw [Op.wp_bind, Op.wp_get]
  refine Op.wp_check_bind (fun _ _ => rfl) fun _ _ => Op.wp_check_bind (fun _ _ => rfl) fun _ hle => ?_
  rw [refuse_eq_ok, decide_eq_false_iff_not, UInt32.not_lt] at hle
  split
  · exact ⟨hs, (Rests.refl bank).fades⟩
  · have hold : ∀ {s e}, (bank.advanceGk gkEpoch).current s = some e → bank.current s = some e :=
      fun he => (Option.filter_eq_some_iff.mp he).1
    refine ⟨⟨fun s e he => hs.configured s e (hold he), fun s s' e e' he he' =>
      hs.onePeer s s' e e' (hold he) (hold he'), fun s e he => hs.timed s e (hold he), fun s e he =>
      UInt32.le_trans (hs.epoch s e (hold he)) hle⟩, fun s e he => ?_⟩
    refine ⟨e, hold he, ⟨rfl, rfl, rfl, rfl, rfl⟩, rfl, fun hdead => ?_⟩
    simp only [canSend, entryUsable, Bool.and_eq_false_iff] at hdead ⊢
    exact hdead.imp_left fun h => h.imp_right (gkUsable_false_of_le hle (hs.epoch s e (hold he)))

/-! ## Every call -/

/-- The calls that write a new context or draw a counter. -/
def Event.makes : Event → Bool
  | .installVerified .. | .install .. | .restoreEntry .. | .nextCounter .. => true
  | _ => false

theorem Fades.keeps (hs : Settled bank) (hc : Calm bank bank') (hf : Fades bank bank') :
    Settled bank' ∧ Fades bank bank' :=
  ⟨hs.calm hc hf.descends, hf⟩

theorem Rests.keeps (hs : Settled bank) (h : Rests bank bank') : Settled bank' ∧ Fades bank bank' :=
  h.fades.keeps hs h.calm

theorem keeps_of_wp (hs : Settled bank)
    (hm : Op.wp m (fun _ b => Settled b ∧ Fades bank b) (fun _ b => b = bank) bank) :
    Settled (m bank).2 ∧ Fades bank (m bank).2 := by
  refine Op.wp.after (P := fun _ b => Settled b ∧ Fades bank b) (hm.mono (fun _ _ h => h) fun _ b h => ?_)
  rw [h]
  exact ⟨hs, (Rests.refl bank).fades⟩

theorem Blank.keeps (hb : Blank bank') : Settled bank' ∧ Fades bank bank' :=
  ⟨hb.settled, hb.fades⟩

/-- **A call that makes nothing keeps the bank settled and revives no context.** -/
theorem keeps_effect (hs : Settled bank) (e : Event) (hmakes : e.makes = false) :
    Settled (e.effect bank) ∧ Fades bank (e.effect bank) := by
  cases e with
  | configure view bound salt now =>
    exact keeps_of_wp hs ((wp_configure bank view bound salt now).mono (fun _ _ h => h.keeps) fun _ _ h => h)
  | resetMembership view salt now =>
    exact keeps_of_wp hs ((wp_resetMembership bank view salt now).mono (fun _ _ h => h.keeps) fun _ _ h => h)
  | clear => exact (blank_wipeAll bank).keeps
  | tick now => exact keeps_of_wp hs (tick_keeps hs now)
  | setGkEpoch gkEpoch => exact keeps_of_wp hs (setGkEpoch_keeps hs gkEpoch)
  | installVerified keys att => cases hmakes
  | install keys => cases hmakes
  | exportEntry scope peer =>
    refine keeps_of_wp hs ((wp_exportEntry bank scope peer).mono (fun _ b h => ?_) fun _ _ h => h)
    rw [h.1]
    exact ⟨hs, (Rests.refl bank).fades⟩
  | exportSleepEntry scope peer =>
    refine keeps_of_wp hs ((wp_exportSleepEntry bank scope peer).mono (fun _ b h => ?_) fun _ _ h => h)
    rw [h.1]
    exact ⟨hs, (Rests.refl bank).fades⟩
  | restoreEntry scope peer entry => cases hmakes
  | nextCounter context => cases hmakes
  | sealFrame aead context counter aad plaintext ciphertextSize =>
    have hc := (calmOp_sealFrame aead context counter aad plaintext ciphertextSize).effect bank
    refine Fades.keeps hs hc (Op.wp.after (P := fun _ b => Calm bank b → Fades bank b)
      (wp_sealFrame bank aead context counter aad plaintext ciphertextSize (fun _ _ hc => ?_)
        fun slot entry _ _ b _ h hc => h.fades hc) hc)
    exact (Quiet.refl bank).fades hc
  | openFrame aead context counter aad ciphertext tag plaintextSize =>
    have hc := (calmOp_openFrame aead context counter aad ciphertext tag plaintextSize).effect bank
    refine Fades.keeps hs hc (Op.wp.after (P := fun _ b => Calm bank b → Fades bank b)
      ((wp_openFrame bank aead context counter aad ciphertext tag plaintextSize).mono
        (fun _ b h hc => ?_) fun _ b h hc => ?_) hc)
    · obtain ⟨holder, rx, -, haccepts⟩ := h
      exact haccepts.fades hc
    · rw [h]
      exact (Rests.refl bank).fades
  | _ => exact Rests.keeps hs (rests_effect bank _ rfl)

/-! ## New contexts and counters -/

/-- The other contexts keep their places, and the one at `slot` is new. -/
theorem place_current (bank : SessionBank L E) (slot : Slot L E) (entry : SessionBankEntry)
    (lifetimeMs : UInt32) :
    (bank.place slot entry lifetimeMs).current = Function.update bank.current slot (some
      { entry with
        remainingMs := (bank.expiresAfter lifetimeMs).1
        installSerial := bank.installSerial + 1 }) := by
  show (touch _ slot).current = _
  rw [touch_current]
  rfl

theorem timed_place (bank : SessionBank L E) (slot : Slot L E) (entry : SessionBankEntry)
    (lifetimeMs : UInt32) (e : SessionBankEntry) (he : e.remainingMs = (bank.expiresAfter lifetimeMs).1) :
    Timed (bank.place slot entry lifetimeMs) e := by
  have hclock := calm_place bank slot entry lifetimeMs
  have hnext : (bank.place slot entry lifetimeMs).nextExpiry =
      (bank.expiresAfter lifetimeMs).2.nextExpiry := by
    cases slot with
    | link i => rfl
    | endToEnd i => rfl
  have hdue := due_expiresAfter bank lifetimeMs
  rw [← hclock.lastTick, ← hnext, ← he] at hdue
  exact timed_iff.mpr ⟨_, hdue⟩

theorem Settled.place (hs : Settled bank) (hconfigured : bank.configured = true)
    (hclaims : Claims bank slot entry.peer) (hepoch : entry.createdGk ≤ bank.view.gkEpoch)
    (lifetimeMs : UInt32) : Settled (bank.place slot entry lifetimeMs) := by
  have hclock := calm_place bank slot entry lifetimeMs
  have hcurrent := place_current bank slot entry lifetimeMs
  have hcases : ∀ {s e}, (bank.place slot entry lifetimeMs).current s = some e →
      (s = slot ∧ e.peer = entry.peer ∧ e.createdGk = entry.createdGk ∧
        e.remainingMs = (bank.expiresAfter lifetimeMs).1) ∨ s ≠ slot ∧ bank.current s = some e := by
    intro s e he
    rw [hcurrent] at he
    rcases update_eq_some he with ⟨rfl, rfl⟩ | ⟨hslot, he⟩
    · exact .inl ⟨rfl, rfl, rfl, rfl⟩
    · exact .inr ⟨hslot, he⟩
  have hother : ∀ {s e}, s ≠ slot → bank.current s = some e → s.scope = slot.scope → e.peer ≠ entry.peer := by
    intro s e hne he hscope hpeer
    rcases hclaims with ⟨old, hold, hown⟩ | ⟨-, hnone⟩
    · exact hne (hs.onePeer s slot e old he hold hscope (hpeer.trans hown.symm))
    · exact hnone s e hscope he hpeer
  refine ⟨fun s e _ => by rw [hclock.configured, hconfigured], fun s s' e e' he he' hscope hpeer => ?_,
    fun s e he => ?_, fun s e he => ?_⟩
  · rcases hcases he with ⟨hslot, hp, -⟩ | ⟨hne, hold⟩
    · rcases hcases he' with ⟨hslot', -⟩ | ⟨hne', hold'⟩
      · rw [hslot, hslot']
      · exact absurd (hpeer.symm.trans hp) (hother hne' hold' (by rw [← hscope, hslot]))
    · rcases hcases he' with ⟨hslot', hp', -⟩ | ⟨-, hold'⟩
      · exact absurd (hpeer.trans hp') (hother hne hold (by rw [hscope, hslot']))
      · exact hs.onePeer s s' e e' hold hold' hscope hpeer
  · rcases hcases he with ⟨-, -, -, hremaining⟩ | ⟨-, he⟩
    · exact timed_place bank slot entry lifetimeMs e hremaining
    · exact (hs.timed s e he).calm hclock ⟨rfl, rfl, rfl, rfl, rfl⟩
  · rw [hclock.view]
    rcases hcases he with ⟨-, -, hgk, -⟩ | ⟨-, he⟩
    · rw [hgk]
      exact hepoch
    · exact hs.epoch s e he

theorem Draws.settled (h : Draws bank bank' slot entry) (hc : Calm bank bank') (hs : Settled bank) :
    Settled bank' := by
  refine hs.calm hc fun s e he => ?_
  rw [h.current] at he
  rcases update_eq_some he with ⟨rfl, rfl⟩ | ⟨-, he⟩
  · exact ⟨entry, h.found, rfl, rfl, rfl, rfl, rfl⟩
  · exact ⟨e, he, rfl, rfl, rfl, rfl, rfl⟩

theorem createdGk_le_of_usable {current created : UInt32} (h : gkUsable current created = true) :
    created ≤ current := by
  simp only [gkUsable, Bool.not_eq_true', Bool.or_eq_false_iff, decide_eq_false_iff_not] at h
  exact UInt32.not_lt.mp h.1

/-- A restored context is the image at a free slot of its scope. -/
theorem restoreEntry_place (bank : SessionBank L E) (scope : SecurityScope) (peer : NodeId)
    (entry : SessionBankEntry) :
    Op.wp (restoreEntry scope peer entry)
      (fun _ b => ∃ slot, slot.scope = scope ∧ bank.configured = true ∧ Claims bank slot entry.peer ∧
        entry.createdGk ≤ bank.view.gkEpoch ∧ b = bank.place slot entry entry.remainingMs)
      (fun _ b => b = bank) bank := by
  unfold restoreEntry
  rw [Op.wp_bind, Op.wp_get]
  refine Op.wp_check_bind (fun _ _ => rfl) fun _ hcheck => ?_
  obtain ⟨hscope, hpeer, -, -, -, hfind, -⟩ := checkRestore_ok hcheck
  unfold checkRestore at hcheck
  obtain ⟨_, hconfigured, hcheck⟩ := bind_eq_ok.mp hcheck
  obtain ⟨-, hcheck⟩ := refuse_bind_eq_ok.mp hcheck
  obtain ⟨-, hcheck⟩ := refuse_bind_eq_ok.mp hcheck
  obtain ⟨-, hcheck⟩ := refuse_bind_eq_ok.mp hcheck
  obtain ⟨-, hcheck⟩ := refuse_bind_eq_ok.mp hcheck
  obtain ⟨hgk, -⟩ := refuse_bind_eq_ok.mp hcheck
  rw [checkConfigured, refuse_eq_ok, Bool.not_eq_false'] at hconfigured
  cases hfree : bank.freeSlot scope peer with
  | none => exact rfl
  | some slot =>
    obtain ⟨hslot, hnone⟩ := freeSlot_some hscope hfree
    refine ⟨slot, hslot, hconfigured, .inr ⟨hnone, fun s e hs he => ?_⟩,
      createdGk_le_of_usable (by simpa using hgk), rfl⟩
    rw [hpeer]
    exact findCurrent_none hscope hfind (hs.trans hslot) he

/-- A new context takes the slot of the one it replaces, or a free one of its scope. -/
theorem installVerified_place (bank : SessionBank L E) (keys : ContextKeys) (att : InstallAttestation) :
    Op.wp (installVerified keys att)
      (fun _ b => ∃ slot base, slot.scope = keys.scope ∧ bank.configured = true ∧
        Claims bank slot keys.peer ∧ att.createdGkEpoch ≤ bank.view.gkEpoch ∧
        base.current = bank.current ∧ Calm bank base ∧
        b = base.place slot (freshEntry keys att) kContextLifetimeMs) (fun _ b => b = bank) bank := by
  unfold installVerified
  rw [Op.wp_bind, Op.wp_get]
  refine Op.wp_check_bind (fun _ _ => rfl) fun _ hcheck => ?_
  obtain ⟨hscope, -⟩ := checkInstall_ok hcheck
  unfold checkInstall at hcheck
  obtain ⟨_, hconfigured, hcheck⟩ := bind_eq_ok.mp hcheck
  obtain ⟨_, -, hcheck⟩ := bind_eq_ok.mp hcheck
  obtain ⟨-, hcheck⟩ := refuse_bind_eq_ok.mp hcheck
  obtain ⟨-, hcheck⟩ := refuse_bind_eq_ok.mp hcheck
  obtain ⟨hgk, -⟩ := refuse_bind_eq_ok.mp hcheck
  rw [checkConfigured, refuse_eq_ok, Bool.not_eq_false'] at hconfigured
  have hepoch := createdGk_le_of_usable (by simpa using hgk)
  cases hfind : bank.findCurrent keys.scope keys.peer with
  | some found =>
    obtain ⟨slot, existing⟩ := found
    obtain ⟨hslot, hfound, hpeer⟩ := findCurrent_some hfind
    exact ⟨slot, bank.demote keys.scope existing, hslot, hconfigured, .inl ⟨existing, hfound, hpeer⟩,
      hepoch, demote_current bank _ existing, calm_demote bank _ existing, rfl⟩
  | none =>
    cases hfree : bank.freeSlot keys.scope keys.peer with
    | none => exact rfl
    | some slot =>
      obtain ⟨hslot, hnone⟩ := freeSlot_some hscope hfree
      exact ⟨slot, bank, hslot, hconfigured, .inr ⟨hnone, fun s e hs he =>
        findCurrent_none hscope hfind (hs.trans hslot) he⟩, hepoch, rfl, Calm.refl bank, rfl⟩

/-! ## Dead keys -/

/-- No context with the transmit key can send. -/
def Dead (bank : SessionBank L E) (key : SessionKey) : Prop :=
  ∀ slot entry, bank.current slot = some entry → entry.txKey = key → bank.canSend entry = false

theorem Fades.dead (hf : Fades bank bank') {key : SessionKey} (h : Dead bank key) : Dead bank' key := by
  intro slot e' he' hkey
  obtain ⟨e, he, hk, -, hdead⟩ := hf slot e' he'
  exact hdead (h slot e he (hk.txKey.symm.trans hkey))

theorem Draws.dead (h : Draws bank bank' slot entry) (hc : Calm bank bank') {key : SessionKey}
    (hkey : entry.txKey ≠ key) (hdead : Dead bank key) : Dead bank' key := by
  intro s e he heq
  rw [h.current] at he
  rcases update_eq_some he with ⟨rfl, rfl⟩ | ⟨-, he⟩
  · exact absurd heq hkey
  · rw [canSend_calm hc ⟨rfl, rfl, rfl, rfl, rfl⟩ rfl]
    exact hdead s e he heq

/-- A settled bank finds every context by its scope and peer. -/
theorem Settled.find (hs : Settled bank) (hentry : bank.current slot = some entry) :
    bank.findCurrent slot.scope entry.peer = some (slot, entry) := by
  have hscope : unicastScope slot.scope = true := by
    cases slot with
    | link i => rfl
    | endToEnd i => rfl
  cases hfind : bank.findCurrent slot.scope entry.peer with
  | none => exact absurd rfl (findCurrent_none hscope hfind rfl hentry)
  | some found =>
    obtain ⟨slot', entry'⟩ := found
    obtain ⟨hslot, hfound, hpeer⟩ := findCurrent_some hfind
    have heq := hs.onePeer slot' slot entry' entry hfound hentry hslot hpeer
    subst heq
    rw [hentry] at hfound
    cases hfound
    rfl

/-- A key is dead once `tx_epoch` does not answer with its id. -/
theorem txEpoch_dead (hs : Settled bank) {scope : SecurityScope} {peer : NodeId} {key : SessionKey}
    {cid : UInt32} (hpeer : idValid peer = true)
    (hkey : ∀ slot entry, bank.current slot = some entry → entry.txKey = key →
      slot.scope = scope ∧ entry.peer = peer ∧ entry.txCid = cid) :
    Op.wp (txEpoch scope peer) (fun live b => b = bank ∧ (live ≠ cid → Dead b key))
      (fun _ b => Settled b ∧ Fades bank b ∧ Dead b key) bank := by
  have hanswer : Op.wp (txEpoch scope peer) (fun live b => b = bank ∧ (live ≠ cid → Dead b key))
      (fun _ _ => Dead bank key) bank := by
    unfold txEpoch
    rw [Op.wp_bind, Op.wp_get]
    refine Op.wp_check_bind (fun e he slot entry hentry _ => ?_) fun _ _ => ?_
    · simp only [checkConfigured, hs.configured slot entry hentry, refuse_eq_error] at he
      cases he.1
    refine Op.wp_check_bind (fun e he slot entry hentry hk => ?_) fun _ _ => ?_
    · rw [← (hkey slot entry hentry hk).1] at he
      cases slot with
      | link i => cases he
      | endToEnd i => cases he
    refine Op.wp_check_bind (fun e he slot entry hentry hk => ?_) fun _ _ => ?_
    · simp only [hpeer, refuse_eq_error] at he
      cases he.1
    split
    · rename_i slot entry hfilter
      obtain ⟨hfind, -⟩ := Option.filter_eq_some_iff.mp hfilter
      refine ⟨rfl, fun hne slot' entry' hentry' hk => ?_⟩
      obtain ⟨rfl, rfl, hcid⟩ := hkey slot' entry' hentry' hk
      rw [hs.find hentry'] at hfind
      cases hfind
      exact absurd hcid hne
    · rename_i hnone
      intro slot entry hentry hk
      obtain ⟨rfl, rfl, -⟩ := hkey slot entry hentry hk
      rw [hs.find hentry] at hnone
      simpa using hnone
  refine ((rests_txEpoch scope peer bank).and hanswer).mono (fun _ _ h => h.2) fun _ b h => ?_
  obtain ⟨hrests, hdead⟩ := h
  have hfades := hrests.fades
  exact ⟨hs.calm hrests.calm hfades.descends, hfades, hfades.dead hdead⟩

/-- After `retire`, the peer has no context of the scope, whatever the call returns. -/
theorem retire_gone (hs : Settled bank) (scope : SecurityScope) (peer : NodeId) :
    Op.wp (retire scope peer)
      (fun _ b => Settled b ∧ Fades bank b ∧
        ∀ slot entry, b.current slot = some entry → slot.scope = scope → entry.peer ≠ peer)
      (fun _ b => Settled b ∧ Fades bank b ∧
        ∀ slot entry, b.current slot = some entry → slot.scope = scope → entry.peer ≠ peer) bank := by
  have hkeep : Settled bank ∧ Fades bank bank := ⟨hs, (Rests.refl bank).fades⟩
  unfold retire
  rw [Op.wp_bind, Op.wp_get]
  refine Op.wp_check_bind (fun e he => ⟨hkeep.1, hkeep.2, fun slot entry hentry _ => ?_⟩) fun _ _ => ?_
  · simp only [checkConfigured, hs.configured slot entry hentry, refuse_eq_error] at he
    cases he.1
  refine Op.wp_check_bind (fun e he => ⟨hkeep.1, hkeep.2, fun slot entry hentry hscope => ?_⟩) fun _ _ => ?_
  · rw [← hscope] at he
    cases slot with
    | link i => cases he
    | endToEnd i => cases he
  · have hrests := rests_retired bank scope peer
    have hfades := hrests.fades
    refine ⟨hs.calm hrests.calm hfades.descends, hfades, fun slot entry hentry hscope hpeer => ?_⟩
    obtain ⟨hold, hkept⟩ := Option.filter_eq_some_iff.mp hentry
    have hfind := hs.find hold
    rw [hscope, hpeer] at hfind
    simp [hfind] at hkept

end RouteLoom.SessionBank
