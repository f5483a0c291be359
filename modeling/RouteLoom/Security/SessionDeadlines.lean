import RouteLoom.Lib.InStep
import RouteLoom.Security.SessionClock
import RouteLoom.Security.SessionReference

/-!
# Short deadlines

The bank keeps the low 32 bits of a deadline and the time of its next look at all deadlines; a tick
before that time looks at none. Nothing is lost: it answers every call as the bank with absolute
deadlines does, and holds the same entries.

* `Agrees` : the two banks hold the same entries, and every short deadline is due
* `reference_agrees` : after any calls both banks hold and use the same entries
-/

namespace RouteLoom.SessionBank

open Lib

variable {L E : Nat} {bank bank' bank'' : SessionBank L E} {now : MonotonicMs}

/-! ## Both banks -/

/-- The deadline that a bank sets and the one that the reference bank sets. -/
theorem due_dueAfter (bank : SessionBank L E) (r : ReferenceBank L E)
    (hr : r.bank.lastTick = bank.lastTick) (duration : UInt32) :
    Due bank.lastTick (bank.expiresAfter duration).2.nextExpiry (bank.expiresAfter duration).1
      (r.dueAfter duration) := by
  unfold ReferenceBank.dueAfter
  rw [hr]
  exact due_expiresAfter bank duration

variable {α : Type} {entry : SessionBankEntry} {slot : Slot L E}

theorem filter_congr' {o : Option α} {p q : α → Bool} (h : ∀ a, o = some a → p a = q a) :
    o.filter p = o.filter q := by
  cases o with
  | none => rfl
  | some a => rw [Option.filter_some, Option.filter_some, h a rfl]

theorem filter_eq_self' {o : Option α} {p : α → Bool} (h : ∀ a, o = some a → p a = true) :
    o.filter p = o := by
  cases o with
  | none => rfl
  | some a => rw [Option.filter_some, if_pos (h a rfl)]

/-- The bank without the time of its next look. -/
def uncached (bank : SessionBank L E) : SessionBank L E := { bank with nextExpiry := 0xFFFFFFFFFFFFFFFF }

structure Agrees (bank : SessionBank L E) (r : ReferenceBank L E) : Prop where
  same : r.bank = bank.uncached
  current : ∀ slot entry, bank.current slot = some entry → bank.DueIn entry.remainingMs (r.currentAt slot)
  overlap : ∀ i entry, bank.overlap.slots i = some entry → bank.DueIn entry.remainingMs (r.overlapAt i)
  demand : ∀ i entry, bank.demand.slots i = some entry → bank.DueIn entry.holdMs (r.demandAt i)

namespace Agrees

variable {r r' : ReferenceBank L E}

/-- A call that leaves the clock: each entry keeps its deadline, or a new one is due. -/
theorem step (h : Agrees bank r) (hsame : r'.bank = bank'.uncached) (htick : bank'.lastTick = bank.lastTick)
    (hnext : bank'.nextExpiry ≤ bank.nextExpiry) (hcurrent : ∀ slot entry', bank'.current slot = some entry' →
      (r'.currentAt slot = r.currentAt slot ∧
        ∃ entry, bank.current slot = some entry ∧ entry'.remainingMs = entry.remainingMs) ∨
      bank'.DueIn entry'.remainingMs (r'.currentAt slot))
    (hoverlap : ∀ i entry', bank'.overlap.slots i = some entry' → (r'.overlapAt i = r.overlapAt i ∧
        ∃ entry, bank.overlap.slots i = some entry ∧ entry'.remainingMs = entry.remainingMs) ∨
      bank'.DueIn entry'.remainingMs (r'.overlapAt i))
    (hdemand : ∀ i entry', bank'.demand.slots i = some entry' →
      (r'.demandAt i = r.demandAt i ∧ bank.demand.slots i = some entry') ∨
      bank'.DueIn entry'.holdMs (r'.demandAt i)) : Agrees bank' r' := by
  have hkept : ∀ {low deadline}, bank.DueIn low deadline → bank'.DueIn low deadline := by
    intro low deadline hdue
    unfold DueIn
    rw [htick]
    exact Due.sooner hdue hnext
  refine ⟨hsame, fun slot e he => ?_, fun i e he => ?_, fun i e he => ?_⟩
  · rcases hcurrent slot e he with ⟨hat, e₀, he₀, heq⟩ | hdue
    · rw [hat, heq]
      exact hkept (h.current slot e₀ he₀)
    · exact hdue
  · rcases hoverlap i e he with ⟨hat, e₀, he₀, heq⟩ | hdue
    · rw [hat, heq]
      exact hkept (h.overlap i e₀ he₀)
    · exact hdue
  · rcases hdemand i e he with ⟨hat, he₀⟩ | hdue
    · rw [hat]
      exact hkept (h.demand i e he₀)
    · exact hdue

end Agrees

/-- Entries only go or keep their deadline, and the clock stands still. -/
structure Wanes (bank bank' : SessionBank L E) : Prop where
  calm : Calm bank bank'
  current : ∀ slot entry', bank'.current slot = some entry' →
    ∃ entry, bank.current slot = some entry ∧ entry'.remainingMs = entry.remainingMs
  overlap : ∀ i entry', bank'.overlap.slots i = some entry' →
    ∃ entry, bank.overlap.slots i = some entry ∧ entry'.remainingMs = entry.remainingMs
  demand : ∀ i entry, bank'.demand.slots i = some entry → bank.demand.slots i = some entry

theorem Wanes.of_calm (hc : Calm bank bank') (hcurrent : bank'.current = bank.current)
    (hoverlap : bank'.overlap = bank.overlap) (hdemand : bank'.demand = bank.demand) : Wanes bank bank' :=
  ⟨hc, fun _ entry h => ⟨entry, hcurrent ▸ h, rfl⟩, fun _ entry h => ⟨entry, hoverlap ▸ h, rfl⟩,
    fun _ _ h => hdemand ▸ h⟩

theorem Wanes.refl (bank : SessionBank L E) : Wanes bank bank := .of_calm (.refl bank) rfl rfl rfl

theorem Wanes.trans (h₁ : Wanes bank bank') (h₂ : Wanes bank' bank'') : Wanes bank bank'' := by
  refine ⟨h₁.calm.trans h₂.calm, fun slot e₂ he₂ => ?_, fun i e₂ he₂ => ?_, fun i e he =>
    h₁.demand i e (h₂.demand i e he)⟩
  · obtain ⟨e₁, he₁, heq₁⟩ := h₂.current slot e₂ he₂
    obtain ⟨e, he, heq⟩ := h₁.current slot e₁ he₁
    exact ⟨e, he, heq₁.trans heq⟩
  · obtain ⟨e₁, he₁, heq₁⟩ := h₂.overlap i e₂ he₂
    obtain ⟨e, he, heq⟩ := h₁.overlap i e₁ he₁
    exact ⟨e, he, heq₁.trans heq⟩

theorem wanes_wipeCurrentIf (bank : SessionBank L E) (p : Slot L E → SessionBankEntry → Bool) :
    Wanes bank (bank.wipeCurrentIf p) :=
  ⟨⟨rfl, rfl, rfl, UInt64.le_refl _⟩, fun _ entry h => ⟨entry, (Option.filter_eq_some_iff.mp h).1, rfl⟩,
    fun _ entry h => ⟨entry, h, rfl⟩, fun _ _ h => h⟩

theorem wanes_wipeOverlapIf (bank : SessionBank L E) (p : SessionOverlapEntry → Bool) :
    Wanes bank (bank.wipeOverlapIf p) :=
  ⟨⟨rfl, rfl, rfl, UInt64.le_refl _⟩, fun _ entry h => ⟨entry, h, rfl⟩,
    fun _ entry h => ⟨entry, (Option.filter_eq_some_iff.mp h).1, rfl⟩, fun _ _ h => h⟩

theorem wanes_dropDemand (bank : SessionBank L E) (scope : SecurityScope) (peer : NodeId) :
    Wanes bank (bank.dropDemand scope peer) :=
  ⟨⟨rfl, rfl, rfl, UInt64.le_refl _⟩, fun _ entry h => ⟨entry, h, rfl⟩, fun _ entry h => ⟨entry, h, rfl⟩,
    fun _ _ h => (Option.filter_eq_some_iff.mp h).1⟩

theorem wanes_touch (bank : SessionBank L E) (slot : Slot L E) : Wanes bank (bank.touch slot) := by
  cases slot with
  | link i => exact .refl bank
  | endToEnd i => exact .of_calm ⟨rfl, rfl, rfl, UInt64.le_refl _⟩ rfl rfl rfl

theorem wanes_update {entry' : SessionBankEntry} (hfound : bank.current slot = some entry)
    (hsame : entry'.remainingMs = entry.remainingMs) : Wanes bank (bank.update slot entry') := by
  refine ⟨⟨rfl, rfl, rfl, UInt64.le_refl _⟩, fun s e he => ?_, fun _ entry h => ⟨entry, h, rfl⟩,
    fun _ _ h => h⟩
  change Function.update bank.current slot (some entry') s = some e at he
  rcases update_eq_some he with ⟨rfl, rfl⟩ | ⟨-, he⟩
  · exact ⟨entry, hfound, hsame⟩
  · exact ⟨e, he, rfl⟩

theorem wanes_retired (bank : SessionBank L E) (scope : SecurityScope) (peer : NodeId) :
    Wanes bank (bank.retired scope peer) :=
  ((wanes_wipeCurrentIf bank _).trans (wanes_wipeOverlapIf _ _)).trans (wanes_dropDemand _ _ _)

namespace Agrees

variable {r : ReferenceBank L E}

section

variable (h : Agrees bank r)
include h

theorem wanes (hw : Wanes bank bank') {b : SessionBank L E} (hsame : b = bank'.uncached) :
    Agrees bank' { r with bank := b } :=
  h.step hsame hw.calm.lastTick hw.calm.nextExpiry (fun slot e he => .inl ⟨rfl, hw.current slot e he⟩)
    (fun i e he => .inl ⟨rfl, hw.overlap i e he⟩) fun i e he => .inl ⟨rfl, hw.demand i e he⟩

/-! ### Writing a deadline -/

theorem recordDemand (scope : SecurityScope) (peer : NodeId) :
    Agrees (bank.recordDemand scope peer) (r.recordDemand scope peer) := by
  obtain ⟨rbank, currentAt, overlapAt, demandAt⟩ := r
  obtain rfl : rbank = bank.uncached := h.same
  have hdue := due_dueAfter bank ⟨bank.uncached, currentAt, overlapAt, demandAt⟩ rfl bank.view.demandHoldMs
  have hwrite : ∀ i, Agrees { (bank.expiresAfter bank.view.demandHoldMs).2 with
        demand := bank.demand.set i { peer, holdMs := (bank.expiresAfter bank.view.demandHoldMs).1, scope } }
      { bank := { bank.uncached with
          demand := bank.demand.set i { peer, holdMs := (bank.expiresAfter bank.view.demandHoldMs).1, scope } }
        currentAt, overlapAt
        demandAt := Function.update demandAt i (ReferenceBank.dueAfter
          ⟨bank.uncached, currentAt, overlapAt, demandAt⟩ bank.view.demandHoldMs) } := by
    intro i
    refine h.step rfl rfl (min_le_left' _ _) (fun _ e he => .inl ⟨rfl, e, he, rfl⟩)
      (fun _ e he => .inl ⟨rfl, e, he, rfl⟩) fun j e he => ?_
    change Function.update bank.demand.slots i _ j = some e at he
    rcases update_eq_some he with ⟨rfl, rfl⟩ | ⟨hj, he⟩
    · refine .inr ?_
      show DueIn _ _ (Function.update demandAt j _ j)
      rw [Function.update_self]
      exact hdue
    · exact .inl ⟨Function.update_of_ne hj .., he⟩
  unfold SessionBank.recordDemand ReferenceBank.recordDemand
  dsimp only
  rw [show bank.uncached.demand = bank.demand from rfl]
  cases bank.demand.findIdx fun demand => demand.scope == scope && demand.peer == peer with
  | some i => exact hwrite i
  | none =>
    dsimp only
    cases bank.demand.freeIdx with
    | some i => exact hwrite i
    | none => exact h

theorem setOverlap (i : Fin kOverlapCapacity) (entry : SessionOverlapEntry) (duration : UInt32) :
    Agrees
      { (bank.expiresAfter duration).2 with
        overlap := bank.overlap.set i { entry with remainingMs := (bank.expiresAfter duration).1 } }
      { r with
        bank := { r.bank with
          overlap := r.bank.overlap.set i { entry with remainingMs := (r.dueAfter duration).toUInt32 } }
        overlapAt := Function.update r.overlapAt i (r.dueAfter duration) } := by
  obtain ⟨rbank, currentAt, overlapAt, demandAt⟩ := r
  obtain rfl : rbank = bank.uncached := h.same
  refine h.step rfl rfl (min_le_left' _ _) (fun _ e he => .inl ⟨rfl, e, he, rfl⟩) (fun j e he => ?_)
    fun _ e he => .inl ⟨rfl, he⟩
  change Function.update bank.overlap.slots i _ j = some e at he
  rcases update_eq_some he with ⟨rfl, rfl⟩ | ⟨hj, he⟩
  · refine .inr ?_
    show DueIn _ _ (Function.update overlapAt j _ j)
    rw [Function.update_self]
    exact due_dueAfter bank ⟨bank.uncached, currentAt, overlapAt, demandAt⟩ rfl duration
  · exact .inl ⟨Function.update_of_ne hj .., e, he, rfl⟩

theorem demote (hentry : bank.current slot = some entry) (scope : SecurityScope) :
    Agrees (bank.demote scope entry) (r.demote scope slot entry) := by
  have hleft : (bank.remaining entry.remainingMs).toUInt64 = r.left (r.currentAt slot) := by
    rw [(h.current slot entry hentry).remaining_toUInt64, ReferenceBank.left, h.same]
    rfl
  have hduration : (if r.left (r.currentAt slot) > kOverlapLifetimeMs.toUInt64 then kOverlapLifetimeMs
      else (r.left (r.currentAt slot)).toUInt32) =
      if bank.remaining entry.remainingMs > kOverlapLifetimeMs then kOverlapLifetimeMs
      else bank.remaining entry.remainingMs := by
    rw [← hleft, UInt32.toUInt32_toUInt64]
    simp only [gt_iff_lt, UInt64.lt_iff_toNat_lt, UInt32.lt_iff_toNat_lt, UInt32.toNat_toUInt64]
  have hoverlap : r.bank.overlap = bank.overlap := by
    rw [h.same]
    rfl
  unfold SessionBank.demote ReferenceBank.demote
  dsimp only
  rw [hduration, hoverlap]
  cases bank.overlap.freeIdx with
  | none => exact h
  | some i =>
    have hset := h.setOverlap i
      { scope, peer := entry.peer, rxKey := entry.rxKey, rxIv := entry.rxIv, rxMax := entry.rxMax
        rxBitmap := entry.rxBitmap, rxCid := entry.rxCid, installSerial := entry.installSerial }
      (if bank.remaining entry.remainingMs > kOverlapLifetimeMs then kOverlapLifetimeMs
        else bank.remaining entry.remainingMs)
    rw [hoverlap] at hset
    exact hset

theorem place (slot : Slot L E) (entry : SessionBankEntry) (lifetimeMs : UInt32) :
    Agrees (bank.place slot entry lifetimeMs) (r.place slot entry lifetimeMs) := by
  obtain ⟨rbank, currentAt, overlapAt, demandAt⟩ := r
  obtain rfl : rbank = bank.uncached := h.same
  have hdue := due_dueAfter bank ⟨bank.uncached, currentAt, overlapAt, demandAt⟩ rfl lifetimeMs
  have hwritten : Agrees { (bank.expiresAfter lifetimeMs).2 with
        installSerial := bank.installSerial + 1
        current := Function.update bank.current slot (some { entry with
          remainingMs := (bank.expiresAfter lifetimeMs).1, installSerial := bank.installSerial + 1 }) }
      { bank := { bank.uncached with
          installSerial := bank.installSerial + 1
          current := Function.update bank.current slot (some { entry with
            remainingMs := (bank.expiresAfter lifetimeMs).1, installSerial := bank.installSerial + 1 }) }
        currentAt := Function.update currentAt slot (ReferenceBank.dueAfter
          ⟨bank.uncached, currentAt, overlapAt, demandAt⟩ lifetimeMs)
        overlapAt, demandAt } := by
    refine h.step rfl rfl (min_le_left' _ _) (fun s e he => ?_) (fun _ e he => .inl ⟨rfl, e, he, rfl⟩)
      fun _ e he => .inl ⟨rfl, he⟩
    change Function.update bank.current slot _ s = some e at he
    rcases update_eq_some he with ⟨rfl, rfl⟩ | ⟨hs, he⟩
    · refine .inr ?_
      show DueIn _ _ (Function.update currentAt s _ s)
      rw [Function.update_self]
      exact hdue
    · exact .inl ⟨Function.update_of_ne hs .., e, he, rfl⟩
  have hwanes := (wanes_touch { (bank.expiresAfter lifetimeMs).2 with
        installSerial := bank.installSerial + 1
        current := Function.update bank.current slot (some { entry with
          remainingMs := (bank.expiresAfter lifetimeMs).1, installSerial := bank.installSerial + 1 }) }
      slot).trans (wanes_dropDemand _ slot.scope entry.peer)
  refine hwritten.wanes hwanes ?_
  cases slot with
  | link i => rfl
  | endToEnd i => rfl

/-! ### Reading a deadline -/

variable (scope : SecurityScope) (peer : NodeId)

theorem findCurrent_eq : r.bank.findCurrent scope peer = bank.findCurrent scope peer := by
  rw [h.same]
  rfl

theorem entryUsable (hentry : bank.current slot = some entry) :
    r.entryUsable slot entry = bank.entryUsable entry := by
  unfold ReferenceBank.entryUsable SessionBank.entryUsable ReferenceBank.alive
  rw [(h.current slot entry hentry).remaining_bne, h.same]
  rfl

theorem canSend (hentry : bank.current slot = some entry) : r.canSend slot entry = bank.canSend entry := by
  unfold ReferenceBank.canSend SessionBank.canSend
  rw [h.entryUsable hentry]

theorem left (hentry : bank.current slot = some entry) :
    (r.left (r.currentAt slot)).toUInt32 = bank.remaining entry.remainingMs := by
  rw [(h.current slot entry hentry).remaining_eq, ReferenceBank.left, h.same]
  rfl

theorem filter_found {p q : Slot L E × SessionBankEntry → Bool}
    (hpq : ∀ slot entry, bank.current slot = some entry → p (slot, entry) = q (slot, entry))
    (scope : SecurityScope) (peer : NodeId) :
    (r.bank.findCurrent scope peer).filter p = (bank.findCurrent scope peer).filter q := by
  rw [h.findCurrent_eq]
  cases hfound : bank.findCurrent scope peer with
  | none => rfl
  | some x =>
    obtain ⟨slot, entry⟩ := x
    rw [Option.filter_some, Option.filter_some, hpq slot entry (findCurrent_some hfound).2.1]

theorem filter_usable :
    ((r.bank.findCurrent scope peer).filter fun x => r.entryUsable x.1 x.2) =
      (bank.findCurrent scope peer).filter fun x => bank.entryUsable x.2 :=
  h.filter_found (q := fun x => bank.entryUsable x.2) (fun _ _ he => h.entryUsable he) scope peer

theorem filter_canSend :
    ((r.bank.findCurrent scope peer).filter fun x => r.canSend x.1 x.2) =
      (bank.findCurrent scope peer).filter fun x => bank.canSend x.2 :=
  h.filter_found (q := fun x => bank.canSend x.2) (fun _ _ he => h.canSend he) scope peer

theorem inGrace (hentry : bank.current slot = some entry) : r.inGrace slot entry = bank.inGrace entry := by
  unfold ReferenceBank.inGrace SessionBank.inGrace
  rw [h.entryUsable hentry, h.left hentry]

theorem any_inGrace :
    ((r.bank.findCurrent scope peer).any fun x => r.inGrace x.1 x.2) =
      (bank.findCurrent scope peer).any fun x => bank.inGrace x.2 := by
  rw [h.findCurrent_eq]
  cases hfound : bank.findCurrent scope peer with
  | none => rw [Option.any_none, Option.any_none]
  | some x =>
    obtain ⟨slot, entry⟩ := x
    have hentry := (findCurrent_some hfound).2.1
    rw [Option.any_some, Option.any_some]
    exact h.inGrace hentry

theorem selectRx_eq (sender : NodeId) (epoch : UInt32) :
    r.selectRx scope sender epoch = bank.selectRx scope sender epoch := by
  have hcurrent : ((r.bank.findCurrent scope sender).filter fun x =>
      x.2.rxCid == epoch && r.entryUsable x.1 x.2) =
      (bank.findCurrent scope sender).filter fun x => x.2.rxCid == epoch && bank.entryUsable x.2 := by
    refine h.filter_found (q := fun x => x.2.rxCid == epoch && bank.entryUsable x.2) (fun slot entry he => ?_)
      scope sender
    dsimp only
    rw [h.entryUsable he]
  have hoverlap : ∀ i, ((r.bank.overlap.slots i).filter fun entry =>
      entry.scope == scope && entry.peer == sender && entry.rxCid == epoch && r.alive (r.overlapAt i)) =
      (bank.overlap.slots i).filter fun entry => entry.scope == scope && entry.peer == sender &&
        entry.rxCid == epoch && bank.remaining entry.remainingMs != 0 := by
    intro i
    rw [show r.bank.overlap = bank.overlap by rw [h.same]; rfl]
    refine filter_congr' fun e he => ?_
    rw [(h.overlap i e he).remaining_bne, ReferenceBank.alive, h.same]
    rfl
  unfold ReferenceBank.selectRx SessionBank.selectRx
  simp only [hcurrent]
  cases (bank.findCurrent scope sender).filter fun x => x.2.rxCid == epoch && bank.entryUsable x.2 with
  | none => simp only [hoverlap]
  | some x => rfl

theorem checkSeal_eq (context : SecurityContext) (counter : UInt64)
    (plaintext : Option (List UInt8)) (ciphertextSize : Option Nat) :
    r.checkSeal context counter plaintext ciphertextSize =
      bank.checkSeal context counter plaintext ciphertextSize := by
  unfold ReferenceBank.checkSeal SessionBank.checkSeal
  rw [h.filter_usable, h.same]
  rfl

theorem checkOpen_eq (context : SecurityContext) (counter : UInt64)
    (ciphertext : Option (List UInt8)) (plaintextSize : Option Nat) :
    r.checkOpen context counter ciphertext plaintextSize =
      bank.checkOpen context counter ciphertext plaintextSize := by
  unfold ReferenceBank.checkOpen SessionBank.checkOpen
  rw [h.selectRx_eq, h.same]
  rfl

end

end Agrees

/-! ## Time passes -/

theorem mem_deadlines_overlap {i : Fin kOverlapCapacity} {entry : SessionOverlapEntry}
    (h : bank.overlap.slots i = some entry) : entry.remainingMs ∈ bank.deadlines :=
  List.mem_append_left _ (List.mem_append_right _ (List.mem_map.mpr
    ⟨entry, List.mem_filterMap.mpr ⟨i, List.mem_finRange i, h⟩, rfl⟩))

theorem mem_deadlines_demand {i : Fin kDemandCapacity} {entry : DemandEntry}
    (h : bank.demand.slots i = some entry) : entry.holdMs ∈ bank.deadlines :=
  List.mem_append_right _ (List.mem_map.mpr
    ⟨entry, List.mem_filterMap.mpr ⟨i, List.mem_finRange i, h⟩, rfl⟩)

namespace Agrees

variable {r : ReferenceBank L E}

theorem skip (h : Agrees bank r) (hnow : bank.lastTick ≤ now) (hbefore : now < bank.nextExpiry) :
    Agrees { bank with lastTick := now } (r.expire now) := by
  obtain ⟨rbank, currentAt, overlapAt, demandAt⟩ := r
  obtain rfl : rbank = bank.uncached := h.same
  have hahead : ∀ {low deadline}, bank.DueIn low deadline → decide (now < deadline) = true :=
    fun hdue => decide_eq_true (UInt64.lt_of_lt_of_le hbefore hdue.looked)
  have hlater : ∀ {low deadline}, bank.DueIn low deadline →
      DueIn { bank with lastTick := now } low deadline :=
    fun hdue => Due.later hdue hnow (of_decide_eq_true (hahead hdue)) hdue.looked
  have hcurrent : (fun slot => (bank.current slot).filter fun _ => now < currentAt slot) = bank.current := by
    funext slot
    exact filter_eq_self' fun e he => hahead (h.current slot e he)
  have hoverlap : (fun i => (bank.overlap.slots i).filter fun _ => now < overlapAt i) = bank.overlap.slots := by
    funext i
    exact filter_eq_self' fun e he => hahead (h.overlap i e he)
  have hdemand : (fun i => (bank.demand.slots i).filter fun _ => now < demandAt i) = bank.demand.slots := by
    funext i
    exact filter_eq_self' fun e he => hahead (h.demand i e he)
  refine ⟨?_, fun slot e he => hlater (h.current slot e he), fun i e he => hlater (h.overlap i e he),
    fun i e he => hlater (h.demand i e he)⟩
  show SessionBank.mk _ _ _ _ _ _ _ (fun slot => (bank.current slot).filter fun _ => now < currentAt slot) _
    ⟨fun i => (bank.overlap.slots i).filter fun _ => now < overlapAt i⟩
    ⟨fun i => (bank.demand.slots i).filter fun _ => now < demandAt i⟩ _ _ = _
  rw [hcurrent, hoverlap, hdemand]
  rfl

theorem expire (h : Agrees bank r) (hnow : bank.lastTick ≤ now) :
    Agrees (bank.expire now) (r.expire now) := by
  obtain ⟨rbank, currentAt, overlapAt, demandAt⟩ := r
  obtain rfl : rbank = bank.uncached := h.same
  have hcurrent : (fun slot => (bank.current slot).filter fun _ => now < currentAt slot) =
      (bank.expire now).current := by
    funext slot
    exact filter_congr' fun e he => (Due.not_expiresBy (h.current slot e he) hnow).symm
  have hoverlap : (fun i => (bank.overlap.slots i).filter fun _ => now < overlapAt i) =
      (bank.expire now).overlap.slots := by
    funext i
    exact filter_congr' fun e he => (Due.not_expiresBy (h.overlap i e he) hnow).symm
  have hdemand : (fun i => (bank.demand.slots i).filter fun _ => now < demandAt i) =
      (bank.expire now).demand.slots := by
    funext i
    exact filter_congr' fun e he => (Due.not_expiresBy (h.demand i e he) hnow).symm
  refine ⟨?_, fun slot e he => ?_, fun i e he => ?_, fun i e he => ?_⟩
  · show SessionBank.mk _ _ _ _ _ _ _ (fun slot => (bank.current slot).filter fun _ => now < currentAt slot) _
      ⟨fun i => (bank.overlap.slots i).filter fun _ => now < overlapAt i⟩
      ⟨fun i => (bank.demand.slots i).filter fun _ => now < demandAt i⟩ _ _ = _
    rw [hcurrent, hoverlap, hdemand]
    rfl
  · obtain ⟨hold, hkept⟩ := Option.filter_eq_some_iff.mp he
    exact (h.current slot e hold).expire hnow hkept (mem_deadlines_current he)
  · obtain ⟨hold, hkept⟩ := Option.filter_eq_some_iff.mp he
    exact (h.overlap i e hold).expire hnow hkept (mem_deadlines_overlap he)
  · obtain ⟨hold, hkept⟩ := Option.filter_eq_some_iff.mp he
    exact (h.demand i e hold).expire hnow hkept (mem_deadlines_demand he)

theorem advanceGk (h : Agrees bank r) (gkEpoch : UInt32) :
    Agrees (bank.advanceGk gkEpoch) (r.advanceGk gkEpoch) := by
  have hview : Agrees { bank.wipeOverlapIf (fun _ => true) with view := { bank.view with gkEpoch } }
      { r with bank := { r.bank.wipeOverlapIf (fun _ => true) with view := { r.bank.view with gkEpoch } } } := by
    refine h.step ?_ rfl (UInt64.le_refl _) (fun _ e he => .inl ⟨rfl, e, he, rfl⟩)
      (fun _ e he => .inl ⟨rfl, e, (Option.filter_eq_some_iff.mp he).1, rfl⟩) fun _ e he => .inl ⟨rfl, he⟩
    rw [h.same]
    rfl
  refine hview.wanes (wanes_wipeCurrentIf _ _) ?_
  obtain ⟨rbank, currentAt, overlapAt, demandAt⟩ := r
  obtain rfl : rbank = bank.uncached := h.same
  show SessionBank.mk _ _ _ _ _ _ _ _ _ _ _ _ _ = SessionBank.mk _ _ _ _ _ _ _ _ _ _ _ _ _
  congr 1
  funext slot
  refine filter_congr' fun e he => ?_
  exact congrArg (fun usable => !!usable) (hview.entryUsable he)

end Agrees

/-! ## Every call -/

section Calls

variable {r : ReferenceBank L E}

open ReferenceBank (onBank)

section

variable (h : Agrees bank r)
include h

theorem inStep_tick (now : MonotonicMs) : Op.InStep Agrees (tick now) (ReferenceBank.tick now) bank r := by
  refine Op.inStep_get_bind ?_
  rw [h.same]
  refine Op.inStep_check_bind h fun _ _ => ?_
  refine Op.inStep_check_bind h fun _ hnow => ?_
  rw [refuse_eq_ok, decide_eq_false_iff_not, UInt64.not_lt] at hnow
  split
  next hbefore => exact Op.inStep_set (h.skip hnow hbefore)
  next => exact Op.inStep_set (h.expire hnow)

theorem inStep_setGkEpoch (gkEpoch : UInt32) :
    Op.InStep Agrees (setGkEpoch gkEpoch) (ReferenceBank.setGkEpoch gkEpoch) bank r := by
  refine Op.inStep_get_bind ?_
  rw [h.same]
  refine Op.inStep_check_bind h fun _ _ => ?_
  refine Op.inStep_check_bind h fun _ _ => ?_
  show Op.InStep Agrees (if gkEpoch == bank.view.gkEpoch then _ else _)
    (if gkEpoch == bank.view.gkEpoch then _ else _) bank r
  split
  · exact Op.inStep_pure h ()
  · exact Op.inStep_set (h.advanceGk gkEpoch)

theorem inStep_installVerified (keys : ContextKeys) (att : InstallAttestation) :
    Op.InStep Agrees (installVerified keys att) (ReferenceBank.installVerified keys att) bank r := by
  refine Op.inStep_get_bind ?_
  rw [h.same]
  refine Op.inStep_check_bind h fun _ _ => ?_
  rw [show bank.uncached.findCurrent keys.scope keys.peer = bank.findCurrent keys.scope keys.peer from rfl]
  cases hfound : bank.findCurrent keys.scope keys.peer with
  | some found =>
    obtain ⟨slot, existing⟩ := found
    exact Op.inStep_set ((h.demote (findCurrent_some hfound).2.1 keys.scope).place slot _ _)
  | none =>
    dsimp only
    rw [show bank.uncached.freeSlot keys.scope keys.peer = bank.freeSlot keys.scope keys.peer from rfl]
    cases bank.freeSlot keys.scope keys.peer with
    | none => exact Op.inStep_throw h _
    | some slot => exact Op.inStep_set (h.place slot _ _)

theorem inStep_install (keys : ContextKeys) :
    Op.InStep Agrees (install keys) (ReferenceBank.install keys) bank r := by
  refine Op.inStep_get_bind ?_
  rw [h.same]
  exact inStep_installVerified h keys _

variable (scope : SecurityScope) (peer : NodeId)

theorem inStep_exportEntry :
    Op.InStep Agrees (exportEntry scope peer) (ReferenceBank.exportEntry scope peer) bank r := by
  refine Op.inStep_get_bind ?_
  rw [h.filter_usable, h.same]
  refine Op.inStep_check_bind h fun _ _ => ?_
  refine Op.inStep_check_bind h fun _ _ => ?_
  cases hfound : (bank.findCurrent scope peer).filter fun x => bank.entryUsable x.2 with
  | none => exact Op.inStep_throw h _
  | some found =>
    obtain ⟨slot, entry⟩ := found
    have hentry := (findCurrent_some (Option.filter_eq_some_iff.mp hfound).1).2.1
    dsimp only
    rw [h.left hentry]
    exact Op.inStep_pure h _

theorem inStep_exportSleepEntry :
    Op.InStep Agrees (exportSleepEntry scope peer) (ReferenceBank.exportSleepEntry scope peer) bank r :=
  (inStep_exportEntry h scope peer).bind fun _ _ _ h =>
    Op.inStep_check_bind h fun _ _ => Op.inStep_check_bind h fun _ _ => Op.inStep_pure h _

theorem inStep_restoreEntry (entry : SessionBankEntry) :
    Op.InStep Agrees (restoreEntry scope peer entry) (ReferenceBank.restoreEntry scope peer entry) bank r := by
  refine Op.inStep_get_bind ?_
  rw [h.same]
  refine Op.inStep_check_bind h fun _ _ => ?_
  rw [show bank.uncached.freeSlot scope peer = bank.freeSlot scope peer from rfl]
  cases bank.freeSlot scope peer with
  | none => exact Op.inStep_throw h _
  | some slot => exact Op.inStep_set (h.place slot _ _)

theorem inStep_takeDemand : Op.InStep Agrees takeDemand ReferenceBank.takeDemand bank r := by
  refine Op.inStep_get_bind ?_
  rw [h.same]
  rw [show bank.uncached.demand = bank.demand from rfl, show bank.uncached.configured = bank.configured from rfl]
  cases hfound : (bank.demand.findIdx fun _ => bank.configured).bind fun i =>
      (bank.demand.slots i).map (i, ·) with
  | none => exact Op.inStep_pure h none
  | some found =>
    obtain ⟨j, hj, hmap⟩ := Option.bind_eq_some_iff.mp hfound
    obtain ⟨demand, hdemand, rfl⟩ := Option.map_eq_some_iff.mp hmap
    have hdue := h.demand j demand hdemand
    have hdeadline : bank.lastTick + (bank.remaining demand.holdMs).toUInt64 = r.demandAt j := by
      rw [hdue.remaining_toUInt64, UInt64.add_comm, UInt64.sub_add_cancel]
    have hahead : ¬ r.demandAt j < bank.lastTick := UInt64.not_lt.mpr hdue.ahead
    have hgone : Wanes bank { bank with demand := bank.demand.release j } := by
      refine ⟨⟨rfl, rfl, rfl, UInt64.le_refl _⟩, fun _ e he => ⟨e, he, rfl⟩, fun _ e he => ⟨e, he, rfl⟩,
        fun i e he => ?_⟩
      change Function.update bank.demand.slots j none i = some e at he
      by_cases hi : i = j
      · rw [hi, Function.update_self] at he
        cases he
      · rwa [Function.update_of_ne hi] at he
    refine Op.inStep_set_bind ?_
    dsimp only
    rw [hdeadline, if_neg hahead]
    exact Op.inStep_pure (h.wanes hgone rfl) _

theorem inStep_noteDemand :
    Op.InStep Agrees (noteDemand scope peer) (ReferenceBank.noteDemand scope peer) bank r := by
  refine Op.inStep_get_bind ?_
  rw [h.same]
  show Op.InStep Agrees (if bank.configured && unicastScope scope && idValid peer then _ else _)
    (if bank.configured && unicastScope scope && idValid peer then _ else _) bank r
  split
  · exact Op.inStep_set (h.recordDemand scope peer)
  · exact Op.inStep_pure h ()

theorem inStep_demandContext :
    Op.InStep Agrees (demandContext scope peer : BankOp L E α) (ReferenceBank.demandContext scope peer)
      bank r :=
  Op.inStep_get_bind (Op.inStep_set_bind (Op.inStep_throw (h.recordDemand scope peer) _))

theorem inStep_txEpoch : Op.InStep Agrees (txEpoch scope peer) (ReferenceBank.txEpoch scope peer) bank r := by
  refine Op.inStep_get_bind ?_
  rw [h.filter_canSend, h.same]
  refine Op.inStep_check_bind h fun _ _ => ?_
  refine Op.inStep_check_bind h fun _ _ => ?_
  refine Op.inStep_check_bind h fun _ _ => ?_
  cases (bank.findCurrent scope peer).filter fun x => bank.canSend x.2 with
  | some found => exact Op.inStep_pure h _
  | none => exact inStep_demandContext h scope peer

theorem inStep_nextCounter (context : SecurityContext) :
    Op.InStep Agrees (nextCounter context) (ReferenceBank.nextCounter context) bank r := by
  refine Op.inStep_get_bind ?_
  dsimp only
  rw [h.filter_canSend, h.same]
  refine Op.inStep_check_bind h fun _ _ => ?_
  refine Op.inStep_check_bind h fun _ _ => ?_
  refine Op.inStep_check_bind h fun _ _ => ?_
  refine Op.inStep_check_bind h fun _ _ => ?_
  cases hfound : (bank.findCurrent context.scope context.receiver).filter fun x => bank.canSend x.2 with
  | none => exact inStep_demandContext h _ _
  | some found =>
    obtain ⟨slot, entry⟩ := found
    have hentry := (findCurrent_some (Option.filter_eq_some_iff.mp hfound).1).2.1
    have hdrawn : Wanes bank (bank.update slot (drawn entry)) := wanes_update hentry rfl
    refine Op.inStep_check_bind h fun _ _ => Op.inStep_set_bind (Op.inStep_pure ?_ _)
    refine h.wanes (hdrawn.trans (wanes_touch _ slot)) ?_
    cases slot with
    | link i => rfl
    | endToEnd i => rfl

theorem inStep_noteRxUnknown :
    Op.InStep Agrees (noteRxUnknown scope peer) (ReferenceBank.noteRxUnknown scope peer) bank r := by
  refine Op.inStep_get_bind ?_
  rw [h.any_inGrace]
  have hquiet : (!r.bank.configured || scope != .endToEnd || !idValid peer || peer == r.bank.view.self ||
      (r.bank.rxUnknownDemandStarted &&
        r.bank.lastTick - r.bank.lastRxUnknownDemandMs < kRxUnknownRateMs.toUInt64)) =
      (!bank.configured || scope != .endToEnd || !idValid peer || peer == bank.view.self ||
      (bank.rxUnknownDemandStarted &&
        bank.lastTick - bank.lastRxUnknownDemandMs < kRxUnknownRateMs.toUInt64)) := by
    rw [h.same]
    rfl
  rw [hquiet]
  split
  · exact Op.inStep_pure h ()
  · have hdemand := h.recordDemand scope peer
    have hpending : (r.recordDemand scope peer).bank.demandPending scope peer =
        (bank.recordDemand scope peer).demandPending scope peer := by
      rw [hdemand.same]
      rfl
    refine Op.inStep_set ?_
    rw [hpending]
    split
    · have hnoted : Wanes (bank.recordDemand scope peer) { bank.recordDemand scope peer with
          lastRxUnknownDemandMs := (bank.recordDemand scope peer).lastTick
          rxUnknownDemandStarted := true } :=
        .of_calm ⟨rfl, rfl, rfl, UInt64.le_refl _⟩ rfl rfl rfl
      refine hdemand.wanes hnoted ?_
      rw [hdemand.same]
      rfl
    · exact hdemand

theorem inStep_sealFrame (aead : AeadGcm) (context : SecurityContext) (counter : UInt64)
    (aad : List UInt8) (plaintext : Option (List UInt8)) (ciphertextSize : Option Nat) :
    Op.InStep Agrees (sealFrame aead context counter aad plaintext ciphertextSize)
      (ReferenceBank.sealFrame aead context counter aad plaintext ciphertextSize) bank r := by
  refine Op.inStep_get_bind ?_
  rw [h.checkSeal_eq]
  refine Op.inStep_check_bind h fun found hcheck => ?_
  obtain ⟨⟨slot, entry⟩, nonce, plain⟩ := found
  have hentry := (findCurrent_some (checkSeal_ok hcheck).1).2.1
  have hspent : Wanes bank (bank.update slot { entry with flags := entry.flags &&& ~~~kFlagSealReserved }) :=
    wanes_update hentry rfl
  have hafter := h.wanes hspent (b := r.bank.update slot _) (by rw [h.same]; rfl)
  refine Op.inStep_set_bind ?_
  cases aead.encrypt entry.txKey nonce aad plain with
  | none => exact Op.inStep_throw hafter _
  | some sealed => exact Op.inStep_pure hafter _

theorem inStep_openFrame (aead : AeadGcm) (context : SecurityContext) (counter : UInt64) (aad : List UInt8)
    (ciphertext : Option (List UInt8)) (tag : AeadTag) (plaintextSize : Option Nat) :
    Op.InStep Agrees (openFrame aead context counter aad ciphertext tag plaintextSize)
      (ReferenceBank.openFrame aead context counter aad ciphertext tag plaintextSize) bank r := by
  refine Op.inStep_get_bind ?_
  rw [h.checkOpen_eq]
  refine Op.inStep_check_bind h fun found _ => ?_
  obtain ⟨⟨holder, rx⟩, nonce, cipher⟩ := found
  dsimp only
  cases aead.decrypt rx.rxKey nonce aad cipher tag with
  | none => exact Op.inStep_throw h _
  | some plaintext =>
    cases holder with
    | overlap i =>
      refine Op.inStep_set_bind (Op.inStep_pure (h.wanes ?_ (by rw [h.same]; rfl)) _)
      refine ⟨⟨rfl, rfl, rfl, UInt64.le_refl _⟩, fun _ e he => ⟨e, he, rfl⟩, fun j e he => ?_,
        fun _ _ he => he⟩
      change Function.update bank.overlap.slots i ((bank.overlap.slots i).map _) j = some e at he
      by_cases hj : j = i
      · subst hj
        rw [Function.update_self] at he
        obtain ⟨e₀, he₀, rfl⟩ := Option.map_eq_some_iff.mp he
        exact ⟨e₀, he₀, rfl⟩
      · rw [Function.update_of_ne hj] at he
        exact ⟨e, he, rfl⟩
    | current slot =>
      dsimp only
      rw [h.findCurrent_eq]
      cases hfound : bank.findCurrent context.scope context.sender with
      | none => exact Op.inStep_throw h _
      | some found =>
        obtain ⟨slot, live⟩ := found
        dsimp only
        split
        · exact Op.inStep_throw h _
        · have hslid : Wanes bank (bank.update slot { live with
              rxMax := (slideRx rx counter).1, rxBitmap := (slideRx rx counter).2 }) :=
            wanes_update (findCurrent_some hfound).2.1 rfl
          exact Op.inStep_set_bind (Op.inStep_pure (h.wanes hslid (by rw [h.same]; rfl)) _)

/-! ### Calls that see no deadline -/

omit h in
theorem onBank_bind {β : Type} (m : BankOp L E α) (f : α → BankOp L E β) :
    onBank (m >>= f) = onBank m >>= fun a => onBank (f a) := by
  funext r
  unfold onBank
  simp only [bind]
  cases m r.bank with
  | mk a b =>
    cases a with
    | ok a => rfl
    | error e => rfl

omit h in
theorem inStep_onBank_get {f : SessionBank L E → BankOp L E α}
    (h : Op.InStep Agrees (f bank) (onBank (f r.bank)) bank r) :
    Op.InStep Agrees (Op.get >>= f) (onBank (Op.get >>= f)) bank r := h

theorem inStep_onBank_check {β : Type} {x : Except Status α} {f g : α → BankOp L E β}
    (hfg : ∀ a, x = .ok a → Op.InStep Agrees (f a) (onBank (g a)) bank r) :
    Op.InStep Agrees (Op.check x >>= f) (onBank (Op.check x >>= g)) bank r := by
  rw [onBank_bind]
  exact Op.inStep_check_bind h hfg

omit h in
theorem inStep_onBank_bind {β : Type} {m m' : BankOp L E α} {f g : α → BankOp L E β}
    (hm : Op.InStep Agrees m (onBank m') bank r)
    (hfg : ∀ a bank r, Agrees bank r → Op.InStep Agrees (f a) (onBank (g a)) bank r) :
    Op.InStep Agrees (m >>= f) (onBank (m' >>= g)) bank r := by
  rw [onBank_bind]
  exact hm.bind hfg

omit h in
theorem agrees_of_blank (hb : Blank bank) (hdemand : ∀ i, bank.demand.slots i = none)
    (hsame : r.bank = bank.uncached) : Agrees bank r := by
  refine ⟨hsame, fun slot e he => ?_, fun i e he => ?_, fun i e he => ?_⟩
  · rw [hb.current slot] at he
    cases he
  · rw [hb.overlap i] at he
    cases he
  · rw [hdemand i] at he
    cases he

theorem inStep_configure (view : LocalView) (bound : Bool) (salt : Option (Vector UInt8 32))
    (now : MonotonicMs) :
    Op.InStep Agrees (configure view bound salt now) (onBank (configure view bound salt now)) bank r := by
  refine inStep_onBank_check h fun _ _ => ?_
  cases salt with
  | none => exact ⟨rfl, h⟩
  | some salt =>
    refine ⟨rfl, agrees_of_blank ⟨fun _ => rfl, fun _ => rfl⟩ (fun _ => rfl) ?_⟩
    show SessionBank.mk _ _ _ _ _ _ _ _ _ _ _ _ _ = _
    rw [h.same]
    rfl

theorem inStep_resetMembership (view : LocalView) (salt : Option (Vector UInt8 32)) (now : MonotonicMs) :
    Op.InStep Agrees (resetMembership view salt now) (onBank (resetMembership view salt now)) bank r := by
  refine inStep_onBank_get ?_
  rw [h.same]
  exact inStep_onBank_check h fun _ _ => inStep_configure h view true salt now

theorem inStep_clear : Op.InStep Agrees (clear : BankOp L E Unit) (onBank clear) bank r := by
  refine ⟨rfl, agrees_of_blank (blank_wipeAll bank) (fun _ => rfl) ?_⟩
  show r.bank.wipeAll = _
  rw [h.same]
  rfl

theorem inStep_allocateContextId (draws : List (Option UInt32)) :
    Op.InStep Agrees (allocateContextId draws) (onBank (allocateContextId draws)) bank r := by
  have hfree : ∀ draws, r.bank.firstFreeId draws = bank.firstFreeId draws := by
    intro draws
    induction draws with
    | nil => rfl
    | cons draw draws ih =>
      cases draw with
      | none => rfl
      | some id =>
        rw [firstFreeId, firstFreeId, ih, h.same]
        rfl
  refine inStep_onBank_get ?_
  rw [hfree, h.same]
  refine inStep_onBank_check h fun _ _ => ⟨rfl, ?_⟩
  exact h

theorem inStep_retire : Op.InStep Agrees (retire scope peer) (onBank (retire scope peer)) bank r := by
  refine inStep_onBank_get ?_
  rw [h.same]
  refine inStep_onBank_check h fun _ _ => inStep_onBank_check h fun _ _ => ⟨rfl, ?_⟩
  exact h.wanes (wanes_retired bank scope peer) rfl

theorem inStep_retireAll : Op.InStep Agrees (retireAll peer) (onBank (retireAll peer)) bank r := by
  refine inStep_onBank_get ?_
  rw [h.same]
  exact inStep_onBank_check h fun _ _ =>
    inStep_onBank_bind (inStep_retire h .link peer) fun _ _ _ h => inStep_retire h .endToEnd peer

theorem inStep_retireBelow (minGeneration : UInt32) :
    Op.InStep Agrees (retireBelow scope peer minGeneration)
      (onBank (retireBelow scope peer minGeneration)) bank r := by
  refine inStep_onBank_get ?_
  rw [h.findCurrent_eq]
  split
  · exact inStep_onBank_bind (inStep_retire h scope peer) fun _ _ _ h => ⟨rfl, h⟩
  · exact ⟨rfl, h⟩

theorem inStep_retireBelowGeneration (minGeneration : UInt32) :
    Op.InStep Agrees (retireBelowGeneration peer minGeneration)
      (onBank (retireBelowGeneration peer minGeneration)) bank r := by
  refine inStep_onBank_get ?_
  rw [h.same]
  refine inStep_onBank_check h fun _ _ => inStep_onBank_check h fun _ _ => ?_
  refine inStep_onBank_bind (inStep_retireBelow h .link peer minGeneration) fun _ _ _ h => ?_
  refine inStep_onBank_bind (inStep_retireBelow h .endToEnd peer minGeneration) fun _ bank r h => ?_
  refine ⟨rfl, h.wanes (wanes_wipeOverlapIf bank _) ?_⟩
  show r.bank.wipeOverlapIf _ = _
  rw [h.same]
  rfl

theorem inStep_evictIdleEnd :
    Op.InStep Agrees (evictIdleEnd : BankOp L E NodeId) (onBank evictIdleEnd) bank r := by
  have hidle : r.bank.idleEnd = bank.idleEnd := by
    rw [h.same]
    rfl
  refine inStep_onBank_get ?_
  rw [hidle, h.same]
  refine inStep_onBank_check h fun _ _ => ?_
  cases bank.idleEnd with
  | none => exact ⟨rfl, h⟩
  | some found => exact inStep_onBank_bind (inStep_retire h .endToEnd found.2.peer) fun _ _ _ h => ⟨rfl, h⟩

theorem inStep_setPinned (pinned : Bool) :
    Op.InStep Agrees (setPinned scope peer pinned) (onBank (setPinned scope peer pinned)) bank r := by
  refine inStep_onBank_get ?_
  rw [h.findCurrent_eq, h.same]
  refine inStep_onBank_check h fun _ _ => ?_
  cases hfound : bank.findCurrent scope peer with
  | none => exact ⟨rfl, h⟩
  | some found =>
    obtain ⟨slot, entry⟩ := found
    have hpinned : Wanes bank (bank.update slot { entry with
        flags := if pinned then entry.flags ||| kFlagPinned else entry.flags &&& ~~~kFlagPinned }) :=
      wanes_update (findCurrent_some hfound).2.1 rfl
    exact ⟨rfl, h.wanes hpinned rfl⟩

theorem agrees_effect (e : Event) : Agrees (e.effect bank) (r.effect e) := by
  cases e with
  | configure view bound salt now => exact (inStep_configure h view bound salt now).2
  | resetMembership view salt now => exact (inStep_resetMembership h view salt now).2
  | clear => exact (inStep_clear h).2
  | tick now => exact (inStep_tick h now).2
  | setGkEpoch gkEpoch => exact (inStep_setGkEpoch h gkEpoch).2
  | allocateContextId draws => exact (inStep_allocateContextId h draws).2
  | installVerified keys att => exact (inStep_installVerified h keys att).2
  | install keys => exact (inStep_install h keys).2
  | exportEntry scope peer => exact (inStep_exportEntry h scope peer).2
  | exportSleepEntry scope peer => exact (inStep_exportSleepEntry h scope peer).2
  | restoreEntry scope peer entry => exact (inStep_restoreEntry h scope peer entry).2
  | retire scope peer => exact (inStep_retire h scope peer).2
  | retireAll peer => exact (inStep_retireAll h peer).2
  | retireBelowGeneration peer minGeneration =>
    exact (inStep_retireBelowGeneration h peer minGeneration).2
  | evictIdleEnd => exact (inStep_evictIdleEnd h).2
  | setPinned scope peer pinned => exact (inStep_setPinned h scope peer pinned).2
  | takeDemand => exact (inStep_takeDemand h).2
  | noteDemand scope peer => exact (inStep_noteDemand h scope peer).2
  | noteRxUnknown scope peer => exact (inStep_noteRxUnknown h scope peer).2
  | txEpoch scope peer => exact (inStep_txEpoch h scope peer).2
  | nextCounter context => exact (inStep_nextCounter h context).2
  | sealFrame aead context counter aad plaintext ciphertextSize =>
    exact (inStep_sealFrame h aead context counter aad plaintext ciphertextSize).2
  | openFrame aead context counter aad ciphertext tag plaintextSize =>
    exact (inStep_openFrame h aead context counter aad ciphertext tag plaintextSize).2

end

end Calls

/-- The bank after the calls. -/
def ran (L E : Nat) (events : List Event) : SessionBank L E :=
  events.foldl (fun bank e => e.effect bank) {}

/-- The reference bank after the calls. -/
def referenceRan (L E : Nat) (events : List Event) : ReferenceBank L E :=
  events.foldl (fun r e => r.effect e) {}

theorem agrees_foldl (events : List Event) {r : ReferenceBank L E} (h : Agrees bank r) :
    Agrees (events.foldl (fun bank e => e.effect bank) bank) (events.foldl (fun r e => r.effect e) r) := by
  induction events generalizing bank r with
  | nil => exact h
  | cons e events ih => exact ih (agrees_effect h e)

theorem agrees_ran (events : List Event) : Agrees (ran L E events) (referenceRan L E events) :=
  agrees_foldl events (agrees_of_blank ⟨fun _ => rfl, fun _ => rfl⟩ (fun _ => rfl) rfl)

/-- **The short deadlines lose nothing**: after any calls, at any times, the bank holds the contexts,
overlap entries and demands that the bank with absolute deadlines holds, and it can use the same
ones. -/
theorem reference_agrees (L E : Nat) (events : List Event) :
    (∀ slot, (ran L E events).current slot = (referenceRan L E events).bank.current slot ∧
        ∀ entry ∈ (ran L E events).current slot,
          (ran L E events).entryUsable entry = (referenceRan L E events).entryUsable slot entry) ∧
      (∀ i, (ran L E events).overlap.slots i = (referenceRan L E events).bank.overlap.slots i ∧
        ∀ entry ∈ (ran L E events).overlap.slots i, ((ran L E events).remaining entry.remainingMs != 0) =
          (referenceRan L E events).alive ((referenceRan L E events).overlapAt i)) ∧
      ∀ i, (ran L E events).demand.slots i = (referenceRan L E events).bank.demand.slots i := by
  have h := agrees_ran (L := L) (E := E) events
  refine ⟨fun slot => ⟨?_, fun entry he => (h.entryUsable he).symm⟩, fun i => ⟨?_, fun entry he => ?_⟩,
    fun i => ?_⟩
  · rw [h.same]
    rfl
  · rw [h.same]
    rfl
  · rw [(h.overlap i entry he).remaining_bne, ReferenceBank.alive, h.same]
    rfl
  · rw [h.same]
    rfl

end RouteLoom.SessionBank
