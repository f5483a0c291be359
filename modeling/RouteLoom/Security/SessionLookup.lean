import RouteLoom.Security.SessionRuns

/-!
# A frame meets one session

A frame is matched to a receive key by its scope, its sender and the receive id it carries. In every
bank that calls can lead to, a peer has one current context for a scope, receive ids are not zero,
and one receive id is never live for two peers. Within one scope and peer an id can be live more than
once only after an installation that offered the id of the very context it replaced; and several
overlap entries of one scope and peer are normal, one for each recent rekey.

* `SessionBank.bankMachine` : runs of any calls
* `SessionBank.Unambiguous` : the invariant
* `SessionBank.lookup_unambiguous` : **every reachable bank is unambiguous**
-/

namespace RouteLoom.SessionBank

open Lib

variable {L E : Nat} {bank bank' : SessionBank L E}

/-- Runs from a bank that was never configured. With `renewing` no installation offers the id of the
context it replaces. -/
def bankMachine (L E : Nat) (renewing : Bool) : Machine (SessionBank L E) Event Unit where
  Init bank := bank = {}
  Enabled bank e := renewing = true → e.offersNewId bank = true
  next bank e := e.effect bank
  out _ _ := []

instance (renewing : Bool) (bank : SessionBank L E) (e : Event) :
    Decidable ((bankMachine L E renewing).Enabled bank e) :=
  inferInstanceAs (Decidable (renewing = true → e.offersNewId bank = true))

structure Unambiguous (bank : SessionBank L E) : Prop where
  /-- One current context for a scope and peer. -/
  current : ∀ s s' e e', s.scope = s'.scope → bank.current s = some e → bank.current s' = some e' →
    e.peer = e'.peer → s = s'
  nonzero : ∀ h x, bank.identityAt h = some x → x.rxCid ≠ 0
  /-- One receive id belongs to one scope and peer. -/
  shared : ∀ h h' x x', bank.identityAt h = some x → bank.identityAt h' = some x' →
    x.rxCid = x'.rxCid → x.scope = x'.scope ∧ x.peer = x'.peer

/-- No receive id is live in two places. -/
def Distinct (bank : SessionBank L E) : Prop :=
  ∀ h h' x x', bank.identityAt h = some x → bank.identityAt h' = some x' → x.rxCid = x'.rxCid → h = h'

theorem Unambiguous.of_identities (hcurrent : ∀ s s' x x', bank.identityAt (.current s) = some x →
      bank.identityAt (.current s') = some x' → x.scope = x'.scope → x.peer = x'.peer → s = s')
    (hnonzero : ∀ h x, bank.identityAt h = some x → x.rxCid ≠ 0)
    (hshared : ∀ h h' x x', bank.identityAt h = some x → bank.identityAt h' = some x' →
      x.rxCid = x'.rxCid → x.scope = x'.scope ∧ x.peer = x'.peer) : Unambiguous bank := by
  refine ⟨fun s s' e e' hscope he he' hpeer => ?_, hnonzero, hshared⟩
  exact hcurrent s s' (currentIdentity s e) (currentIdentity s' e') (by rw [identityAt, he]; rfl)
    (by rw [identityAt, he']; rfl) hscope hpeer

theorem Unambiguous.identities (hu : Unambiguous bank) {s s' : Slot L E} {x x' : Identity}
    (hx : bank.identityAt (.current s) = some x) (hx' : bank.identityAt (.current s') = some x')
    (hscope : x.scope = x'.scope) (hpeer : x.peer = x'.peer) : s = s' := by
  obtain ⟨e, he, rfl⟩ := Option.map_eq_some_iff.mp hx
  obtain ⟨e', he', rfl⟩ := Option.map_eq_some_iff.mp hx'
  exact hu.current s s' e e' hscope he he' hpeer

/-- The replaced context has the scope and peer of the new one. -/
theorem replaced_identity {slot : Slot L E} {entry : SessionBankEntry} (hp : Places bank bank' slot entry)
    {x : Identity} (hx : bank.identityAt (.current slot) = some x) :
    x.scope = slot.scope ∧ x.peer = entry.peer := by
  obtain ⟨e, he, rfl⟩ := Option.map_eq_some_iff.mp hx
  rcases hp.peer with ⟨old, hold, hpeer⟩ | ⟨hnone, _⟩
  · rw [hold] at he
    cases he
    exact ⟨rfl, hpeer⟩
  · rw [hnone] at he
    cases he

theorem Unambiguous.move {renews : Prop} (hu : Unambiguous bank) (hm : Move bank bank' renews) :
    Unambiguous bank' := by
  cases hm.identity with
  | keeps sub _ =>
    exact .of_identities (fun s s' x x' hx hx' => hu.identities (sub _ x hx) (sub _ x' hx'))
      (fun h x hx => hu.nonzero h x (sub h x hx))
      fun h h' x x' hx hx' => hu.shared h h' x x' (sub h x hx) (sub h' x' hx')
  | blank none =>
    exact .of_identities (fun s _ _ _ hx => by rw [none] at hx; cases hx)
      (fun h _ hx => by rw [none] at hx; cases hx) fun h _ _ _ hx => by rw [none] at hx; cases hx
  | places slot entry hp source hshifts _ =>
    obtain ⟨new, _, old, _, injective, currents⟩ := hshifts
    -- an old identity with the new id is that of the replaced context
    have hmixed : ∀ g x, g ≠ .current slot → bank'.identityAt g = some x → x.rxCid = entry.rxCid →
        x.scope = slot.scope ∧ x.peer = entry.peer := by
      intro g x hg hx hid
      rw [old g hg] at hx
      by_cases hsource : source g = .current slot
      · rw [hsource] at hx
        exact replaced_identity hp hx
      · exact absurd hid (hp.fresh hsource hx)
    refine .of_identities (fun s s' x x' hx hx' hscope hpeer => ?_) (fun h x hx => ?_)
      fun h h' x x' hx hx' hid => ?_
    · -- a peer that claims the slot has no other one
      have hclaim : ∀ s x, s ≠ slot → bank'.identityAt (.current s) = some x →
          x.scope = slot.scope → x.peer ≠ entry.peer := by
        intro s x hs hx hscope hpeer
        rw [old _ (by simpa using hs), currents] at hx
        obtain ⟨e, he, rfl⟩ := Option.map_eq_some_iff.mp hx
        rcases hp.peer with ⟨o, ho, hop⟩ | ⟨_, hfree⟩
        · exact hs (hu.current s slot e o hscope he ho (hpeer.trans hop.symm))
        · exact hfree s e hscope he hpeer
      by_cases hs : s = slot
      · by_cases hs' : s' = slot
        · rw [hs, hs']
        · rw [hs, new] at hx
          cases hx
          exact absurd hpeer.symm (hclaim s' x' hs' hx' hscope.symm)
      · by_cases hs' : s' = slot
        · rw [hs', new] at hx'
          cases hx'
          exact absurd hpeer (hclaim s x hs hx hscope)
        · rw [old _ (by simpa using hs), currents] at hx
          rw [old _ (by simpa using hs'), currents] at hx'
          exact hu.identities hx hx' hscope hpeer
    · by_cases hh : h = .current slot
      · rw [hh, new] at hx
        cases hx
        exact hp.rxCid
      · rw [old h hh] at hx
        exact hu.nonzero _ x hx
    · by_cases hh : h = .current slot
      · rw [hh, new] at hx
        cases hx
        by_cases hh' : h' = .current slot
        · rw [hh', new] at hx'
          cases hx'
          exact ⟨rfl, rfl⟩
        · obtain ⟨hscope, hpeer⟩ := hmixed h' x' hh' hx' hid.symm
          exact ⟨hscope.symm, hpeer.symm⟩
      · by_cases hh' : h' = .current slot
        · rw [hh', new] at hx'
          cases hx'
          exact hmixed h x hh hx hid
        · rw [old h hh] at hx
          rw [old h' hh'] at hx'
          exact hu.shared _ _ x x' hx hx' hid

theorem Distinct.move {renews : Prop} (hd : Distinct bank) (hm : Move bank bank' renews)
    (hrenews : renews) : Distinct bank' := by
  cases hm.identity with
  | keeps sub _ => exact fun h h' x x' hx hx' => hd h h' x x' (sub h x hx) (sub h' x' hx')
  | blank none =>
    intro h _ _ _ hx
    rw [none] at hx
    cases hx
  | places slot entry hp source hshifts renewed =>
    obtain ⟨new, _, old, _, injective, _⟩ := hshifts
    -- with a renewed id nothing else has the new id, not even the replaced context
    have hfresh : ∀ g x, g ≠ .current slot → bank'.identityAt g = some x → x.rxCid ≠ entry.rxCid := by
      intro g x hg hx
      rw [old g hg] at hx
      by_cases hsource : source g = .current slot
      · rw [hsource] at hx
        obtain ⟨e, he, rfl⟩ := Option.map_eq_some_iff.mp hx
        exact renewed hrenews e he
      · exact hp.fresh hsource hx
    intro h h' x x' hx hx' hid
    by_cases hh : h = .current slot
    · by_cases hh' : h' = .current slot
      · rw [hh, hh']
      · rw [hh, new] at hx
        cases hx
        exact absurd hid.symm (hfresh h' x' hh' hx')
    · by_cases hh' : h' = .current slot
      · rw [hh', new] at hx'
        cases hx'
        exact absurd hid (hfresh h x hh hx)
      · rw [old h hh] at hx
        rw [old h' hh'] at hx'
        exact injective h h' hh hh' (hd _ _ x x' hx hx' hid)

theorem identityAt_default (h : RxHolder L E) : ({} : SessionBank L E).identityAt h = none := by
  cases h with
  | current slot => rfl
  | overlap i => rfl

/-- **Lookup is unambiguous**: in every bank that any calls lead to, a scope and peer has at most one
current context, live receive ids are not zero, and live entries with one receive id belong to one
scope and peer. If no installation offers the id of the context it replaces, all live receive ids
are different. -/
theorem lookup_unambiguous (L E : Nat) (renewing : Bool) (bank : SessionBank L E) (h : List Unit)
    (hr : (bankMachine L E renewing).Run bank h) : Unambiguous bank ∧ (renewing = true → Distinct bank) := by
  refine hr.invariant (I := fun bank _ => Unambiguous bank ∧ (renewing = true → Distinct bank))
    (fun bank hinit => ?_) fun bank _ e H he => ?_
  · obtain rfl : bank = {} := hinit
    refine ⟨.of_identities (fun s _ _ _ hx => ?_) (fun h _ hx => ?_) fun h _ _ _ hx => ?_,
      fun _ h _ _ _ hx => ?_⟩
    all_goals
      rw [identityAt_default] at hx
      cases hx
  · exact ⟨H.1.move (move_effect bank e), fun hrenew => (H.2 hrenew).move (move_effect bank e) (he hrenew)⟩

theorem lookup_unambiguous_rekey :
    Distinct ((bankMachine 1 0 true).exec {} [] (sampleInstalls [sampleKeys 1 1, sampleKeys 2 2])).1 :=
  (lookup_unambiguous 1 0 true _ _ (Machine.run_exec rfl _ (by decide +kernel))).2 rfl

/-- Two rekeys shortly after each other leave two overlap entries for one peer; and a rekey that
offers the id of the replaced context leaves that id live twice. -/
theorem rekeys_ambiguous :
    (∃ (bank : SessionBank 1 0) (h : List Unit) (i j : Fin kOverlapCapacity)
      (o o' : SessionOverlapEntry), (bankMachine 1 0 false).Run bank h ∧ i ≠ j ∧
        bank.overlap.slots i = some o ∧ bank.overlap.slots j = some o' ∧ o.scope = o'.scope ∧
        o.peer = o'.peer) ∧ ∃ (bank : SessionBank 1 0) (h : List Unit),
        (bankMachine 1 0 false).Run bank h ∧ ¬ Distinct bank := by
  constructor
  · have hrun := Machine.run_exec (M := bankMachine 1 0 false) rfl
      (sampleInstalls [sampleKeys 1 1, sampleKeys 2 2, sampleKeys 3 3]) (by decide +kernel)
    have hfirst : (((bankMachine 1 0 false).exec {} []
        (sampleInstalls [sampleKeys 1 1, sampleKeys 2 2, sampleKeys 3 3])).1.overlap.slots
          ⟨0, by decide⟩).map (fun o => (o.scope, o.peer)) = some (.link, 2) := by decide +kernel
    have hsecond : (((bankMachine 1 0 false).exec {} []
        (sampleInstalls [sampleKeys 1 1, sampleKeys 2 2, sampleKeys 3 3])).1.overlap.slots
          ⟨1, by decide⟩).map (fun o => (o.scope, o.peer)) = some (.link, 2) := by decide +kernel
    obtain ⟨o, ho, hop⟩ := Option.map_eq_some_iff.mp hfirst
    obtain ⟨o', ho', hop'⟩ := Option.map_eq_some_iff.mp hsecond
    exact ⟨_, _, _, _, o, o', hrun, by decide, ho, ho', congrArg Prod.fst (hop.trans hop'.symm),
      congrArg Prod.snd (hop.trans hop'.symm)⟩
  · have hrun := Machine.run_exec (M := bankMachine 1 0 false) rfl
      (sampleInstalls [sampleKeys 1 1, sampleKeys 2 1]) (by decide +kernel)
    refine ⟨_, _, hrun, fun hd => ?_⟩
    have hcurrent : (((bankMachine 1 0 false).exec {} []
        (sampleInstalls [sampleKeys 1 1, sampleKeys 2 1])).1.identityAt
          (.current (.link 0))).map (·.rxCid) = some 1 := by decide +kernel
    have hoverlap : (((bankMachine 1 0 false).exec {} []
        (sampleInstalls [sampleKeys 1 1, sampleKeys 2 1])).1.identityAt
          (.overlap ⟨0, by decide⟩)).map (·.rxCid) = some 1 := by decide +kernel
    obtain ⟨x, hx, hid⟩ := Option.map_eq_some_iff.mp hcurrent
    obtain ⟨x', hx', hid'⟩ := Option.map_eq_some_iff.mp hoverlap
    cases hd _ _ x x' hx hx' (hid.trans hid'.symm)

end RouteLoom.SessionBank
