import RouteLoom.Security.SessionMoves
import RouteLoom.Lib.Machine

/-!
# Runs of a session bank

A run is a sequence of calls of any methods with any arguments. Each call is one of the moves, and
for the question which receive keys are live where, most moves are the same.

* `Event`, `Event.effect` : a call and the bank it leaves
* `Move`, `move_effect` : every call is one of the moves
* `identityAt` : scope, peer, receive id and serial at each place that holds a receive key
* `Move.identity` : how a move changes these
-/

namespace RouteLoom.SessionBank

open Lib

variable {L E : Nat} {bank bank' : SessionBank L E}

/-- A call with its arguments and what the ports answer. -/
inductive Event
  | configure (view : LocalView) (bound : Bool) (salt : Option (Vector UInt8 32)) (now : MonotonicMs)
  | resetMembership (view : LocalView) (salt : Option (Vector UInt8 32)) (now : MonotonicMs)
  | clear
  | tick (now : MonotonicMs)
  | setGkEpoch (gkEpoch : UInt32)
  | allocateContextId (draws : List (Option UInt32))
  | installVerified (keys : ContextKeys) (att : InstallAttestation)
  | install (keys : ContextKeys)
  | exportEntry (scope : SecurityScope) (peer : NodeId)
  | exportSleepEntry (scope : SecurityScope) (peer : NodeId)
  | restoreEntry (scope : SecurityScope) (peer : NodeId) (entry : SessionBankEntry)
  | retire (scope : SecurityScope) (peer : NodeId)
  | retireAll (peer : NodeId)
  | retireBelowGeneration (peer : NodeId) (minGeneration : UInt32)
  | evictIdleEnd
  | setPinned (scope : SecurityScope) (peer : NodeId) (pinned : Bool)
  | takeDemand
  | noteDemand (scope : SecurityScope) (peer : NodeId)
  | noteRxUnknown (scope : SecurityScope) (peer : NodeId)
  | txEpoch (scope : SecurityScope) (peer : NodeId)
  | nextCounter (context : SecurityContext)
  | sealFrame (aead : AeadGcm) (context : SecurityContext) (counter : UInt64) (aad : List UInt8)
      (plaintext : Option (List UInt8)) (ciphertextSize : Option Nat)
  | openFrame (aead : AeadGcm) (context : SecurityContext) (counter : UInt64) (aad : List UInt8)
      (ciphertext : Option (List UInt8)) (tag : AeadTag) (plaintextSize : Option Nat)

/-- The bank a call leaves. -/
def Event.effect (e : Event) (bank : SessionBank L E) : SessionBank L E :=
  match e with
  | .configure view bound salt now => (SessionBank.configure view bound salt now bank).2
  | .resetMembership view salt now => (SessionBank.resetMembership view salt now bank).2
  | .clear => (SessionBank.clear bank).2
  | .tick now => (SessionBank.tick now bank).2
  | .setGkEpoch gkEpoch => (SessionBank.setGkEpoch gkEpoch bank).2
  | .allocateContextId draws => (SessionBank.allocateContextId draws bank).2
  | .installVerified keys att => (SessionBank.installVerified keys att bank).2
  | .install keys => (SessionBank.install keys bank).2
  | .exportEntry scope peer => (SessionBank.exportEntry scope peer bank).2
  | .exportSleepEntry scope peer => (SessionBank.exportSleepEntry scope peer bank).2
  | .restoreEntry scope peer entry => (SessionBank.restoreEntry scope peer entry bank).2
  | .retire scope peer => (SessionBank.retire scope peer bank).2
  | .retireAll peer => (SessionBank.retireAll peer bank).2
  | .retireBelowGeneration peer minGeneration =>
    (SessionBank.retireBelowGeneration peer minGeneration bank).2
  | .evictIdleEnd => (SessionBank.evictIdleEnd bank).2
  | .setPinned scope peer pinned => (SessionBank.setPinned scope peer pinned bank).2
  | .takeDemand => (SessionBank.takeDemand bank).2
  | .noteDemand scope peer => (SessionBank.noteDemand scope peer bank).2
  | .noteRxUnknown scope peer => (SessionBank.noteRxUnknown scope peer bank).2
  | .txEpoch scope peer => (SessionBank.txEpoch scope peer bank).2
  | .nextCounter context => (SessionBank.nextCounter context bank).2
  | .sealFrame aead context counter aad plaintext ciphertextSize =>
    (SessionBank.sealFrame aead context counter aad plaintext ciphertextSize bank).2
  | .openFrame aead context counter aad ciphertext tag plaintextSize =>
    (SessionBank.openFrame aead context counter aad ciphertext tag plaintextSize bank).2

/-- An installation offers another receive id than that of the context it replaces. -/
def Event.offersNewId (bank : SessionBank L E) (e : Event) : Bool :=
  match e with
  | .installVerified keys _ | .install keys =>
    (bank.findCurrent keys.scope keys.peer).all fun x => x.2.rxCid != keys.rxContextId
  | _ => true

variable {slot : Slot L E}

theorem offersNewId_found {keys : ContextKeys} {old : SessionBankEntry}
    (hnew : ((bank.findCurrent keys.scope keys.peer).all fun x => x.2.rxCid != keys.rxContextId) = true)
    (hfind : bank.findCurrent keys.scope keys.peer = some (slot, old)) : old.rxCid ≠ keys.rxContextId := by
  rw [hfind] at hnew
  simpa using hnew

/-- The kinds of moves; `renews` says that a placement does not take over the replaced id. -/
inductive Move (bank bank' : SessionBank L E) (renews : Prop) : Prop
  | quiet (h : Quiet bank bank')
  | blank (h : Blank bank')
  | places (slot : Slot L E) (entry : SessionBankEntry) (h : Places bank bank' slot entry)
      (renewed : renews → ∀ old, bank.current slot = some old → old.rxCid ≠ entry.rxCid)
  | draws (slot : Slot L E) (entry : SessionBankEntry) (h : Draws bank bank' slot entry)
  | spends (slot : Slot L E) (entry : SessionBankEntry) (h : Spends bank bank' slot entry)
  | accepts (holder : RxHolder L E) (rx : RxContext) (counter : UInt64)
      (h : Accepts bank bank' holder rx counter)

theorem QuietOp.effect {α : Type} {m : BankOp L E α} (hm : QuietOp m) (bank : SessionBank L E) :
    Quiet bank (m bank).2 :=
  Op.Along.after (R := Quiet) hm bank

/-- The calls that neither move the clock nor use or write a context. -/
def Event.resting : Event → Bool
  | .allocateContextId .. | .retire .. | .retireAll .. | .retireBelowGeneration .. | .evictIdleEnd
  | .setPinned .. | .takeDemand | .noteDemand .. | .noteRxUnknown .. | .txEpoch .. => true
  | _ => false

theorem rests_effect (bank : SessionBank L E) (e : Event) (h : e.resting = true) :
    Rests bank (e.effect bank) := by
  cases e with
  | allocateContextId draws => exact (rests_allocateContextId draws).after bank
  | retire scope peer => exact (rests_retire scope peer).after bank
  | retireAll peer => exact (rests_retireAll peer).after bank
  | retireBelowGeneration peer minGeneration =>
    exact (rests_retireBelowGeneration peer minGeneration).after bank
  | evictIdleEnd => exact rests_evictIdleEnd.after bank
  | setPinned scope peer pinned => exact (rests_setPinned scope peer pinned).after bank
  | takeDemand => exact rests_takeDemand.after bank
  | noteDemand scope peer => exact (rests_noteDemand scope peer).after bank
  | noteRxUnknown scope peer => exact (rests_noteRxUnknown scope peer).after bank
  | txEpoch scope peer => exact (rests_txEpoch scope peer).after bank
  | _ => cases h

theorem Move.of_eq {renews : Prop} (h : bank' = bank) : Move bank bank' renews :=
  .quiet (h ▸ Quiet.refl bank)

/-- A method that fails without a change makes the move of its success. -/
theorem move_of_wp {α : Type} {m : BankOp L E α} {renews : Prop}
    (hm : Op.wp m (fun _ b => Move bank b renews) (fun _ b => b = bank) bank) : Move bank (m bank).2 renews :=
  Op.wp.after (P := fun _ b => Move bank b renews)
    (hm.mono (fun _ _ h => h) fun _ _ h => Move.of_eq h)

theorem move_effect (bank : SessionBank L E) (e : Event) :
    Move bank (e.effect bank) (e.offersNewId bank = true) := by
  cases e with
  | configure view bound salt now =>
    exact move_of_wp ((wp_configure bank view bound salt now).mono (fun _ _ h => .blank h) fun _ _ h => h)
  | resetMembership view salt now =>
    exact move_of_wp ((wp_resetMembership bank view salt now).mono (fun _ _ h => .blank h) fun _ _ h => h)
  | clear => exact .blank (blank_wipeAll bank)
  | tick now => exact .quiet ((quietOp_tick now).effect bank)
  | setGkEpoch gkEpoch => exact .quiet ((quietOp_setGkEpoch gkEpoch).effect bank)
  | installVerified keys att =>
    refine move_of_wp ((wp_installVerified bank keys att).mono (fun _ b h => ?_) fun _ _ h => h)
    obtain ⟨slot, remainingMs, hold, hplaces⟩ := h
    exact .places slot _ hplaces fun hnew old h => offersNewId_found hnew (hold old h)
  | install keys =>
    refine move_of_wp ((wp_install bank keys).mono (fun _ b h => ?_) fun _ _ h => h)
    obtain ⟨slot, remainingMs, hold, hplaces⟩ := h
    exact .places slot _ hplaces fun hnew old h => offersNewId_found hnew (hold old h)
  | exportEntry scope peer =>
    exact move_of_wp ((wp_exportEntry bank scope peer).mono (fun _ _ h => .of_eq h.1) fun _ _ h => h)
  | exportSleepEntry scope peer =>
    exact move_of_wp ((wp_exportSleepEntry bank scope peer).mono (fun _ _ h => .of_eq h.1) fun _ _ h => h)
  | restoreEntry scope peer entry =>
    refine move_of_wp ((wp_restoreEntry bank scope peer entry).mono (fun _ b h => ?_) fun _ _ h => h)
    obtain ⟨slot, remainingMs, _, _, hfresh, hplaces⟩ := h
    exact .places slot _ hplaces fun _ old hold => hfresh slot old hold
  | nextCounter context =>
    refine Op.wp.after (P := fun _ b => Move bank b _) ((wp_nextCounter bank context).mono
      (fun _ b h => ?_) fun _ _ h => .quiet h)
    obtain ⟨slot, entry, _, _, _, hdraws⟩ := h
    exact .draws slot entry hdraws
  | sealFrame aead context counter aad plaintext ciphertextSize =>
    exact Op.wp.after (P := fun _ b => Move bank b _)
      (wp_sealFrame bank aead context counter aad plaintext ciphertextSize
        (fun _ _ => Move.of_eq rfl) fun slot entry _ _ _ _ h => .spends slot entry h)
  | openFrame aead context counter aad ciphertext tag plaintextSize =>
    refine move_of_wp ((wp_openFrame bank aead context counter aad ciphertext tag
      plaintextSize).mono (fun _ b h => ?_) fun _ _ h => h)
    obtain ⟨holder, rx, _, haccepts⟩ := h
    exact .accepts holder rx counter haccepts
  | _ => exact .quiet (rests_effect bank _ rfl).quiet

/-! ## Where receive keys are held -/

/-- What a receive key is looked up by, and the serial of its installation. -/
structure Identity where
  scope : SecurityScope
  peer : NodeId
  rxCid : UInt32
  serial : UInt32
  deriving DecidableEq

def currentIdentity (slot : Slot L E) (entry : SessionBankEntry) : Identity :=
  ⟨slot.scope, entry.peer, entry.rxCid, entry.installSerial⟩

def overlapIdentity (entry : SessionOverlapEntry) : Identity :=
  ⟨entry.scope, entry.peer, entry.rxCid, entry.installSerial⟩

def identityAt (bank : SessionBank L E) : RxHolder L E → Option Identity
  | .current slot => (bank.current slot).map (currentIdentity slot)
  | .overlap i => (bank.overlap.slots i).map overlapIdentity

/-- How a placement at `slot` moves what was there: `source` says where the receive key at each of
the other places was before. -/
structure Shifts (bank bank' : SessionBank L E) (slot : Slot L E) (entry : SessionBankEntry)
    (source : RxHolder L E → RxHolder L E) : Prop where
  new : bank'.identityAt (.current slot) = some (currentIdentity slot entry)
  newRx : bank'.rxAt (.current slot) = some (entryRx entry)
  old : ∀ g, g ≠ .current slot → bank'.identityAt g = bank.identityAt (source g)
  oldRx : ∀ g, g ≠ .current slot → bank'.rxAt g = bank.rxAt (source g)
  injective : ∀ g g', g ≠ .current slot → g' ≠ .current slot → source g = source g' → g = g'
  currents : ∀ s, source (.current s) = .current s

/-- The three ways in which the identities change. -/
inductive IdentityMove (bank bank' : SessionBank L E) (renews : Prop) : Prop
  | keeps (sub : ∀ h x, bank'.identityAt h = some x → bank.identityAt h = some x)
      (serial : bank'.installSerial = bank.installSerial)
  | blank (none : ∀ h, bank'.identityAt h = none)
  | places (slot : Slot L E) (entry : SessionBankEntry) (h : Places bank bank' slot entry)
      (source : RxHolder L E → RxHolder L E) (shifts : Shifts bank bank' slot entry source)
      (renewed : renews → ∀ old, bank.current slot = some old → old.rxCid ≠ entry.rxCid)

theorem identityAt_update {entry entry' : SessionBankEntry} (hfound : bank.current slot = some entry)
    (hcurrent : bank'.current = Function.update bank.current slot (some entry'))
    (hoverlap : bank'.overlap = bank.overlap)
    (hsame : currentIdentity slot entry' = currentIdentity slot entry) (h : RxHolder L E) :
    bank'.identityAt h = bank.identityAt h := by
  cases h with
  | overlap i => rw [identityAt, hoverlap, identityAt]
  | current s =>
    rw [identityAt, identityAt, hcurrent]
    by_cases hs : s = slot
    · subst hs
      rw [Function.update_self, hfound, Option.map_some, Option.map_some, hsame]
    · rw [Function.update_of_ne hs]

theorem identityAt_setRx (holder : RxHolder L E) (window : UInt64 × UInt64) (h : RxHolder L E) :
    (bank.setRx holder window).identityAt h = bank.identityAt h := by
  cases holder with
  | current slot =>
    cases h with
    | overlap i => rfl
    | current s =>
      by_cases hs : s = slot
      · subst hs
        cases hc : bank.current s <;> simp [identityAt, setRx, hc, currentIdentity]
      · simp [identityAt, setRx, hs]
  | overlap i =>
    cases h with
    | current s => rfl
    | overlap j =>
      by_cases hj : j = i
      · subst hj
        cases ho : bank.overlap.slots j <;>
          simp [identityAt, setRx, Pool.modify, ho, overlapIdentity]
      · simp [identityAt, setRx, Pool.modify, hj]

theorem Quiet.identityAt (hq : Quiet bank bank') (h : RxHolder L E) (x : Identity)
    (hx : bank'.identityAt h = some x) : bank.identityAt h = some x := by
  cases h with
  | current slot =>
    obtain ⟨entry', hentry', rfl⟩ := Option.map_eq_some_iff.mp hx
    obtain ⟨entry, hentry, hsame⟩ := hq.current slot entry' hentry'
    refine Option.map_eq_some_iff.mpr ⟨entry, hentry, ?_⟩
    rw [hsame.eq]
    rfl
  | overlap i =>
    obtain ⟨entry, hentry, rfl⟩ := Option.map_eq_some_iff.mp hx
    exact Option.map_eq_some_iff.mpr ⟨entry, hq.overlap i entry hentry, rfl⟩

theorem Blank.identityAt (hb : Blank bank) (h : RxHolder L E) : bank.identityAt h = none := by
  cases h with
  | current slot => rw [SessionBank.identityAt, hb.current slot, Option.map_none]
  | overlap i => rw [SessionBank.identityAt, hb.overlap i, Option.map_none]

theorem Places.shifts {entry : SessionBankEntry} (hp : Places bank bank' slot entry) :
    ∃ source, Shifts bank bank' slot entry source := by
  have hnew : bank'.identityAt (.current slot) = some (currentIdentity slot entry) := by
    rw [identityAt, hp.current, Function.update_self, Option.map_some]
  have hnewRx : bank'.rxAt (.current slot) = some (entryRx entry) := by
    rw [rxAt, hp.current, Function.update_self, Option.map_some]
  have hothers : ∀ s, RxHolder.current s ≠ .current slot →
      bank'.identityAt (.current s) = bank.identityAt (.current s) ∧
        bank'.rxAt (.current s) = bank.rxAt (.current s) := by
    intro s hs
    have hne : s ≠ slot := fun h => hs (by rw [h])
    rw [identityAt, identityAt, rxAt, rxAt, hp.current, Function.update_of_ne hne]
    exact ⟨rfl, rfl⟩
  rcases hp.overlap with heq | ⟨j, old, demoted, hold, _, heq, hdemoted⟩
  · have hall : ∀ g, g ≠ .current slot →
        bank'.identityAt g = bank.identityAt g ∧ bank'.rxAt g = bank.rxAt g := by
      intro g hg
      cases g with
      | current s => exact hothers s hg
      | overlap i =>
        rw [identityAt, identityAt, rxAt, rxAt, heq]
        exact ⟨rfl, rfl⟩
    exact ⟨id, hnew, hnewRx, fun g hg => (hall g hg).1, fun g hg => (hall g hg).2,
      fun _ _ _ _ h => h, fun _ => rfl⟩
  · -- the replaced context is now the overlap entry `j`
    let source : RxHolder L E → RxHolder L E := fun g => if g = .overlap j then .current slot else g
    have hall : ∀ g, g ≠ .current slot →
        bank'.identityAt g = bank.identityAt (source g) ∧ bank'.rxAt g = bank.rxAt (source g) := by
      intro g hg
      cases g with
      | current s => exact hothers s hg
      | overlap i =>
        by_cases hij : i = j
        · subst hij
          rw [show source (.overlap i) = .current slot from if_pos rfl, identityAt, identityAt,
            rxAt, rxAt, heq, Pool.set_slots_self, hold]
          refine ⟨?_, ?_⟩
          · rw [Option.map_some, Option.map_some, overlapIdentity, currentIdentity, hdemoted.scope,
              hdemoted.peer, hdemoted.rxCid, hdemoted.serial]
          · rw [Option.map_some, Option.map_some, hdemoted.rx]
        · rw [show source (.overlap i) = .overlap i from if_neg (by simpa using hij), identityAt,
            identityAt, rxAt, rxAt, heq, Pool.set_slots_ne _ _ hij]
          exact ⟨rfl, rfl⟩
    refine ⟨source, hnew, hnewRx, fun g hg => (hall g hg).1, fun g hg => (hall g hg).2,
      fun g g' hg hg' h => ?_, fun s => if_neg (by simp)⟩
    change (if g = .overlap j then _ else g) = if g' = .overlap j then _ else g' at h
    split at h
    · rename_i hj
      split at h
      · rename_i hj'
        rw [hj, hj']
      · exact absurd h.symm hg'
    · split at h
      · exact absurd h hg
      · exact h

/-- The new receive id is live nowhere else, except possibly at the replaced context. -/
theorem Places.fresh {entry : SessionBankEntry} (hp : Places bank bank' slot entry) {g : RxHolder L E}
    {x : Identity} (hg : g ≠ .current slot) (hx : bank.identityAt g = some x) : x.rxCid ≠ entry.rxCid := by
  cases g with
  | current s =>
    obtain ⟨e, he, rfl⟩ := Option.map_eq_some_iff.mp hx
    exact hp.freshCurrent s e (fun hs => hg (by rw [hs])) he
  | overlap i =>
    obtain ⟨e, he, rfl⟩ := Option.map_eq_some_iff.mp hx
    exact hp.freshOverlap i e he

theorem Move.identity {renews : Prop} (hm : Move bank bank' renews) : IdentityMove bank bank' renews := by
  cases hm with
  | quiet h => exact .keeps h.identityAt h.serial
  | blank h => exact .blank h.identityAt
  | places slot entry h renewed =>
    obtain ⟨source, hshifts⟩ := h.shifts
    exact .places slot entry h source hshifts renewed
  | draws slot entry h | spends slot entry h =>
    refine .keeps (fun holder x hx => ?_) h.serial
    rwa [identityAt_update h.found h.current h.overlap rfl] at hx
  | accepts holder rx counter h =>
    refine .keeps (fun holder' x hx => ?_) ?_
    · rwa [h.eq, identityAt_setRx] at hx
    · rw [h.eq]
      cases holder with
      | current slot => rfl
      | overlap i => rfl

/-! ## A sample peer -/

def sampleView : LocalView := { self := 1, network := 7 }

/-- Link keys for peer 2 with the receive id `rxContextId` and everything else made from `n`. -/
def sampleKeys (n : UInt32) (rxContextId : UInt32) : ContextKeys :=
  { network := 7, peer := 2, txContextId := n, rxContextId
    txKey := .replicate 16 n.toUInt8, rxKey := .replicate 16 n.toUInt8 }

/-- A bank is configured and one context is installed after another. -/
def sampleInstalls (keys : List ContextKeys) : List Event :=
  .configure sampleView true (some (.replicate 32 0)) 0 :: keys.map .install

end RouteLoom.SessionBank
