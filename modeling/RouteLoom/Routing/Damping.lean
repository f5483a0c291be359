import RouteLoom.Routing.TableRuns

/-!
# Damping of route switches

After the committed next hop of a destination was replaced, `evaluate_entry` lets it be replaced
again only when it can no longer be selected, when the new hop carries another sequence, or when
`kSwitchHoldMs` have passed. The hold is kept in the entry. It is lost with the entry when
`reclaim_tombstone` releases it; `expire` releases an entry only after its tombstone has dwelt, which
takes longer than the hold.

* `dampingMachine` : table operations in time order, observed at one destination
* `switches_damped` : two replacements are `kSwitchHoldMs` apart
* `switch_after_reclaim` : a reclaimed entry forgets its hold
-/

namespace RouteLoom

open Lib List

variable {cap : Nat}

/-! ## Replacements of the committed hop -/

/-- What is observed of a destination. -/
inductive TableChange
  | replaced (atMs : MonotonicMs) (voluntary : Bool)
  | restarted
  | reclaimed
  deriving DecidableEq, Repr

/-- The hop that was left can still be selected, with the sequence of the hop that replaced it. -/
def voluntary (e e' : RouteEntry) : Bool :=
  (e'.selectable e.committedNextHop).any fun left =>
    (e'.selectable e'.committedNextHop).any fun taken => left.sequence == taken.sequence

/-- From entry `e` to `e'` at `now`. -/
def entryChange (now : MonotonicMs) (e e' : RouteEntry) : List TableChange :=
  if e'.generation != e.generation then [.restarted]
  else if e.committedNextHop != kInvalidNodeId && e'.committedNextHop != kInvalidNodeId &&
      e'.committedNextHop != e.committedNextHop then [.replaced now (voluntary e e')]
  else []

def tableChange (now : MonotonicMs) (ev : TableEvent) :
    Option RouteEntry → Option RouteEntry → List TableChange
  | some e, some e' => entryChange now e e'
  | some _, none =>
    match ev with
    | .reclaimTombstone => [.reclaimed]
    | _ => []
  | none, _ => []

structure TimedTable (cap : Nat) where
  table : RouteTable cap := {}
  clock : MonotonicMs := 0

namespace TimedTable

variable (s : TimedTable cap) (ev : TableEvent)

/-- The time after an operation. -/
def clockAfter : MonotonicMs := ev.now.getD s.clock

/-- Times do not decrease and stay clear of the end of the clock. -/
def timely : Bool := ev.now.all fun now => s.clock ≤ now && now.toNat + 2 ^ 32 < 2 ^ 64

end TimedTable

/-- The operations on a fresh table, observed at destination `d`. -/
def dampingMachine (cap : Nat) (d : NodeId) : Machine (TimedTable cap) TableEvent TableChange where
  Init s := s = {}
  Enabled s ev := s.timely ev = true
  next s ev := ⟨ev.next s.table, s.clockAfter ev⟩
  out s ev := tableChange (s.clockAfter ev) ev (s.table.find d) ((ev.next s.table).find d)

/-- The hop was replaced at `t`, and since then nothing but replacements was observed. -/
inductive Since : List TableChange → MonotonicMs → Prop
  | last (h : List TableChange) (t : MonotonicMs) (v : Bool) : Since (h ++ [.replaced t v]) t
  | later {h : List TableChange} {t : MonotonicMs} (t' : MonotonicMs) (v : Bool) :
      Since h t → Since (h ++ [.replaced t' v]) t

/-! ## What an entry keeps -/

/-- Two valid candidates have different hops. -/
def RouteEntry.UniqueHops (e : RouteEntry) : Prop :=
  ∀ i j, (e.candidates i).valid = true → (e.candidates j).valid = true →
    (e.candidates i).nextHop = (e.candidates j).nextHop → i = j

/-- A tombstone stands only where nothing is left. -/
structure RouteEntry.Ordered (e : RouteEntry) : Prop where
  hops : e.UniqueHops
  buried : e.tombstoneExpiresAtMs ≠ 0 → e.hasCandidates = false

namespace RouteEntry

variable {e e' : RouteEntry}

theorem hasCandidates_eq_false : e.hasCandidates = false ↔ ∀ i, (e.candidates i).valid = false := by
  unfold hasCandidates
  rw [any_eq_false]
  constructor
  · intro h i
    exact Bool.eq_false_iff.mpr (h _ (mem_candidateList.mpr ⟨i, rfl⟩))
  · intro h c hc
    obtain ⟨i, rfl⟩ := mem_candidateList.mp hc
    rw [h i]
    exact Bool.false_ne_true

/-- The slot of a new candidate is the one that its hop already has. -/
theorem candidateSlot_eq (hu : e.UniqueHops) {hop : NodeId} {i : Fin kRouteCandidatesPerDestination}
    (hv : (e.candidates i).valid = true) (hhop : (e.candidates i).nextHop = hop) :
    e.candidateSlot hop = i := by
  unfold candidateSlot
  cases hs : firstSlot fun i => (e.candidates i).valid && (e.candidates i).nextHop == hop with
  | none =>
    have := firstSlot_none.mp hs i
    simp [hv, hhop] at this
  | some j =>
    have hj := firstSlot_some hs
    rw [Bool.and_eq_true, beq_iff_eq] at hj
    exact hu j i hj.1 hv (hj.2.trans hhop.symm)

theorem UniqueHops.of_same (hu : e.UniqueHops) (hc : e'.candidates = e.candidates) : e'.UniqueHops := by
  unfold UniqueHops
  rw [hc]
  exact hu

theorem Ordered.of_same (ho : e.Ordered) (hc : e'.candidates = e.candidates)
    (ht : e'.tombstoneExpiresAtMs = e.tombstoneExpiresAtMs) : e'.Ordered := by
  refine ⟨ho.hops.of_same hc, fun hne => ?_⟩
  rw [ht] at hne
  have hnone := ho.buried hne
  rw [hasCandidates_eq_false] at hnone ⊢
  rw [hc]
  exact hnone

theorem ordered_blank (d : NodeId) (generation : RouteGeneration) :
    ({ destination := d, generation } : RouteEntry).Ordered :=
  ⟨fun _ _ hi => (by cases hi), fun hne => absurd rfl hne⟩

theorem ordered_restartEntry (e : RouteEntry) (generation : RouteGeneration) :
    (RouteTable.restartEntry e generation).Ordered :=
  ⟨fun _ _ hi => (by cases hi), fun hne => absurd rfl hne⟩

end RouteEntry

theorem Recast.valid {c c' : RouteCandidate} (h : Recast c c') (hv : c'.valid = true) :
    c.valid = true ∧ c'.nextHop = c.nextHop := by
  cases h with
  | same => exact ⟨hv, rfl⟩
  | dropped => cases hv
  | withdrawn => exact ⟨hv, rfl⟩
  | repriced feasible hcost => exact ⟨hv, rfl⟩

theorem Edit.ordered {dwell : UInt32} {now : MonotonicMs} {e e' : RouteEntry} (h : Edit dwell now e e')
    (ho : e.Ordered) : e'.Ordered := by
  refine ⟨?_, fun hne => ?_⟩
  · cases h.candidates with
    | each hall =>
      intro i j hi hj hhop
      obtain ⟨hvi, hni⟩ := (hall i).valid hi
      obtain ⟨hvj, hnj⟩ := (hall j).valid hj
      exact ho.hops i j hvi hvj (hni.symm.trans (hhop.trans hnj))
    | learned hop hlink heq =>
      have hother : ∀ i, i ≠ e.candidateSlot hop → (e'.candidates i).valid = true →
          (e.candidates i).valid = true ∧ (e'.candidates i).nextHop = (e.candidates i).nextHop ∧
            (e'.candidates i).nextHop ≠ hop := by
        intro i hi hv
        rw [heq, Function.update_of_ne hi] at hv ⊢
        exact ⟨hv, rfl, fun hn => hi (RouteEntry.candidateSlot_eq ho.hops hv hn).symm⟩
      have hself : (e'.candidates (e.candidateSlot hop)).nextHop = hop := by
        rw [heq, Function.update_self]
      intro i j hi hj hhop
      by_cases hi' : i = e.candidateSlot hop
      · by_cases hj' : j = e.candidateSlot hop
        · exact hi'.trans hj'.symm
        · rw [hi', hself] at hhop
          exact absurd hhop.symm (hother j hj' hj).2.2
      · obtain ⟨hvi, hni, hnehop⟩ := hother i hi' hi
        by_cases hj' : j = e.candidateSlot hop
        · rw [hj', hself] at hhop
          exact absurd hhop hnehop
        · obtain ⟨hvj, hnj, -⟩ := hother j hj' hj
          exact ho.hops i j hvi hvj (hni.symm.trans (hhop.trans hnj))
  · cases h.tombstone with
    | cleared hz => exact absurd hz hne
    | armed hnone _ => exact hnone
    | kept hk hvalid =>
      rw [hk] at hne
      have hnone := RouteEntry.hasCandidates_eq_false.mp (ho.buried hne)
      refine RouteEntry.hasCandidates_eq_false.mpr fun i => Bool.eq_false_iff.mpr fun hv => ?_
      have hwas := hvalid i hv
      rw [hnone i] at hwas
      cases hwas

theorem Decides.tombstone {now : MonotonicMs} {e e' : RouteEntry} (h : Decides now e e') :
    e'.tombstoneExpiresAtMs = e.tombstoneExpiresAtMs := by
  cases h with
  | stays improvement since => rfl
  | repairs hlost => rfl
  | switches hheld hraw hlive hwhy => rfl

theorem Shift.ordered {table : RouteTable cap} {now : MonotonicMs} {e e' : RouteEntry}
    (h : Shift table now e e') (ho : e.Ordered) : e'.Ordered := by
  cases h with
  | edited hedit => exact hedit.ordered ho
  | @evaluated e₁ hedit =>
    have hd := table.evaluateEntry_decides e₁ now
    exact (hedit.ordered ho).of_same hd.candidates hd.tombstone

/-! ## What a step does to the hold -/

/-- From `e` to `e'` at `now`: the hold stays, or it is set again, as at every replacement. -/
inductive Moves (now : MonotonicMs) (e e' : RouteEntry) : Prop
  | quiet (hhold : e'.switchHoldUntilMs = e.switchHoldUntilMs) (hc : entryChange now e e' = [])
  | held (hhold : e'.switchHoldUntilMs = now + kSwitchHoldMs) (hc : entryChange now e e' = [])
  | replaced (v : Bool) (hhold : e'.switchHoldUntilMs = now + kSwitchHoldMs)
      (hc : entryChange now e e' = [.replaced now v]) (htomb : e'.tombstoneExpiresAtMs = 0)
      (hwhy : v = true → e.switchHoldUntilMs ≤ now)

section Moves

variable {now : MonotonicMs} {e e' e₁ : RouteEntry}

theorem entryChange_eq (hg : e'.generation = e.generation) : entryChange now e e' =
    if e.committedNextHop ≠ kInvalidNodeId ∧ e'.committedNextHop ≠ kInvalidNodeId ∧
        e'.committedNextHop ≠ e.committedNextHop then [.replaced now (voluntary e e')] else [] := by
  unfold entryChange
  rw [if_neg (by simp [hg])]
  simp only [Bool.and_eq_true, bne_iff_ne, and_assoc]

theorem entryChange_same (hg : e'.generation = e.generation)
    (hc : e'.committedNextHop = e.committedNextHop) : entryChange now e e' = [] := by
  rw [entryChange_eq hg, if_neg fun h => h.2.2 hc]

theorem RouteEntry.Ordered.tombstone_eq (ho : e.Ordered) {c : RouteCandidate} (hc : c ∈ e.candidateList)
    (hl : e.live c = true) : e.tombstoneExpiresAtMs = 0 := by
  by_contra hne
  have hnone := hasCandidates_eq_false.mp (ho.buried hne)
  obtain ⟨i, rfl⟩ := mem_candidateList.mp hc
  simp only [live, Bool.and_eq_true] at hl
  rw [hnone i] at hl
  exact Bool.false_ne_true hl.1.1.1

theorem RouteEntry.UniqueHops.selectable_eq (hu : e.UniqueHops) {c x : RouteCandidate}
    (hc : c ∈ e.candidateList) (hl : e.live c = true) (hx : e.selectable c.nextHop = some x) : x = c := by
  obtain ⟨hxm, hxl⟩ := selectable_live hx
  have hhop : x.nextHop = c.nextHop := by
    unfold selectable at hx
    split at hx
    · cases hx
    · have := find?_some hx
      rw [Bool.and_eq_true, beq_iff_eq] at this
      exact this.1
  obtain ⟨i, rfl⟩ := mem_candidateList.mp hc
  obtain ⟨j, rfl⟩ := mem_candidateList.mp hxm
  simp only [live, Bool.and_eq_true] at hl hxl
  rw [hu j i hxl.1.1.1 hl.1.1.1 hhop]

theorem Decides.moves (h : Decides now e e') (ho : e.Ordered) : Moves now e e' := by
  cases h with
  | stays improvement since => exact .quiet rfl (entryChange_same rfl rfl)
  | repairs hlost =>
    have hleft : voluntary e (e.repair now) = false := by
      show ((e.selectable e.committedNextHop).any _) = false
      rw [hlost]
      rfl
    have hcommitted : (e.repair now).committedNextHop =
        (e.bestCandidate kInvalidNodeId).elim kInvalidNodeId (·.nextHop) := rfl
    have hhold : (e.repair now).switchHoldUntilMs = if (e.bestCandidate kInvalidNodeId).isSome &&
        e.committedNextHop != kInvalidNodeId then now + kSwitchHoldMs else e.switchHoldUntilMs := rfl
    have hchange : entryChange now e (e.repair now) = _ := entryChange_eq rfl
    cases hbest : e.bestCandidate kInvalidNodeId with
    | none =>
      rw [hbest] at hcommitted hhold
      refine .quiet hhold (hchange.trans (if_neg fun hc => hc.2.1 hcommitted))
    | some raw =>
      obtain ⟨hraw, hlive⟩ := RouteEntry.bestCandidate_live hbest
      have htomb : (e.repair now).tombstoneExpiresAtMs = 0 := ho.tombstone_eq hraw hlive
      rw [hbest, Option.isSome_some, Bool.true_and] at hhold
      by_cases hwas : e.committedNextHop = kInvalidNodeId
      · rw [if_neg (by simpa using hwas)] at hhold
        exact .quiet hhold (hchange.trans (if_neg fun hc => hc.1 hwas))
      · rw [if_pos (by simpa using hwas)] at hhold
        rw [hleft] at hchange
        split at hchange
        · exact .replaced false hhold hchange htomb fun hv => by cases hv
        · exact .held hhold hchange
  | switches hheld hraw hlive hwhy =>
    rename_i committed raw
    have htomb : (e.switchTo raw.nextHop now).tombstoneExpiresAtMs = 0 := ho.tombstone_eq hraw hlive
    have hchange : entryChange now e (e.switchTo raw.nextHop now) = _ := entryChange_eq rfl
    split at hchange
    · refine .replaced _ rfl hchange htomb fun hv => ?_
      -- a voluntary replacement has the sequence of the hop it left
      have hany : ((e.selectable e.committedNextHop).any fun left =>
          (e.selectable raw.nextHop).any fun taken => left.sequence == taken.sequence) = true := hv
      rw [hheld, Option.any_some] at hany
      obtain ⟨taken, htaken, hsame⟩ := (Option.any_eq_true _ _).mp hany
      rw [ho.hops.selectable_eq hraw hlive htaken, beq_iff_eq] at hsame
      exact hwhy.resolve_right fun hne => hne hsame.symm
    · exact .held rfl hchange

theorem Edit.entryChange {dwell : UInt32} (h : Edit dwell now e e₁) (hg : e'.generation = e₁.generation) :
    entryChange now e e' = entryChange now e₁ e' := by
  rw [entryChange_eq hg, entryChange_eq (hg.trans h.generation), h.committed]
  unfold voluntary
  rw [h.committed]

theorem Decides.generation (h : Decides now e e') : e'.generation = e.generation := by
  cases h with
  | stays improvement since => rfl
  | repairs hlost => rfl
  | switches hheld hraw hlive hwhy => rfl

theorem Shift.moves {table : RouteTable cap} (h : Shift table now e e') (ho : e.Ordered) :
    Moves now e e' ∧ e'.generation = e.generation ∧
      (e'.tombstoneExpiresAtMs = 0 ∨ e'.tombstoneExpiresAtMs = now + table.tombstoneDwellMs.toUInt64 ∨
        e'.tombstoneExpiresAtMs = e.tombstoneExpiresAtMs) := by
  have htomb : ∀ {e₁ : RouteEntry}, Edit table.tombstoneDwellMs now e e₁ →
      e₁.tombstoneExpiresAtMs = 0 ∨ e₁.tombstoneExpiresAtMs = now + table.tombstoneDwellMs.toUInt64 ∨
        e₁.tombstoneExpiresAtMs = e.tombstoneExpiresAtMs := by
    intro e₁ hedit
    cases hedit.tombstone with
    | cleared hz => exact .inl hz
    | armed _ ha => exact .inr (.inl ha)
    | kept hk _ => exact .inr (.inr hk)
  cases h with
  | edited hedit =>
    exact ⟨.quiet hedit.hold (entryChange_same hedit.generation hedit.committed), hedit.generation,
      htomb hedit⟩
  | @evaluated e₁ hedit =>
    have hd := table.evaluateEntry_decides e₁ now
    refine ⟨?_, hd.generation.trans hedit.generation, hd.tombstone ▸ htomb hedit⟩
    have hchange := hedit.entryChange hd.generation
    cases hd.moves (hedit.ordered ho) with
    | quiet hhold hc => exact .quiet (hhold.trans hedit.hold) (hchange.trans hc)
    | held hhold hc => exact .held hhold (hchange.trans hc)
    | replaced v hhold hc hz hwhy =>
      exact .replaced v hhold (hchange.trans hc) hz (hedit.hold ▸ hwhy)

end Moves

/-! ## The invariant -/

/-- The hold of the entry covers every replacement that is not long past. -/
structure Remembers (h : List TableChange) (clock : MonotonicMs) (o : Option RouteEntry) : Prop where
  ordered : ∀ e ∈ o, e.Ordered
  past : ∀ t, Since h t → t ≤ clock
  held : ∀ t, Since h t → t.toNat + kSwitchHoldMs.toNat ≤ clock.toNat ∨
    ∃ e, o = some e ∧ t.toNat + kSwitchHoldMs.toNat ≤ e.switchHoldUntilMs.toNat ∧
      (e.tombstoneExpiresAtMs ≠ 0 → t.toNat + kSwitchHoldMs.toNat ≤ e.tombstoneExpiresAtMs.toNat)

/-- Every voluntary replacement comes a hold after those before it. -/
def Damped (h : List TableChange) : Prop :=
  ∀ pre t post, h = pre ++ .replaced t true :: post →
    ∀ t', Since pre t' → t'.toNat + kSwitchHoldMs.toNat ≤ t.toNat

section Step

variable {h : List TableChange} {clock now : MonotonicMs} {o : Option RouteEntry} {e e' : RouteEntry}

theorem since_append_replaced {t t' : MonotonicMs} {v : Bool} (hs : Since (h ++ [.replaced t' v]) t) :
    t = t' ∨ Since h t := by
  generalize hl : h ++ [TableChange.replaced t' v] = l at hs
  cases hs with
  | last h₀ _ v₀ =>
    obtain ⟨-, heq⟩ := append_inj' hl rfl
    cases heq
    exact .inl rfl
  | later t₀ v₀ hs =>
    obtain ⟨rfl, -⟩ := append_inj' hl rfl
    exact .inr hs

theorem not_since_append {c : TableChange} (hc : ∀ t v, c ≠ .replaced t v) {t : MonotonicMs} :
    ¬ Since (h ++ [c]) t := by
  intro hs
  generalize hl : h ++ [c] = l at hs
  cases hs with
  | last h₀ _ v₀ | later t₀ v₀ hs =>
    obtain ⟨-, heq⟩ := append_inj' hl rfl
    cases heq
    exact hc _ _ rfl

theorem Damped.append (hd : Damped h) {c : TableChange}
    (hc : ∀ t, c = .replaced t true → ∀ t', Since h t' → t'.toNat + kSwitchHoldMs.toNat ≤ t.toNat) :
    Damped (h ++ [c]) := by
  intro pre t post heq t' hs
  rcases eq_nil_or_concat post with rfl | ⟨post', last, rfl⟩
  · obtain ⟨rfl, hlast⟩ := append_inj' heq rfl
    cases hlast
    exact hc t rfl t' hs
  · rw [concat_eq_append, ← cons_append, ← append_assoc] at heq
    obtain ⟨rfl, -⟩ := append_inj' heq rfl
    exact hd pre t post' rfl t' hs

/-- Nothing is observed, and the hold and the tombstone cover as before. -/
theorem Remembers.quiet (hc : Remembers h clock o) (hclock : clock ≤ now) {o' : Option RouteEntry}
    (ho : ∀ e ∈ o', e.Ordered)
    (hheld : ∀ t, Since h t → ∀ e, o = some e → t.toNat + kSwitchHoldMs.toNat ≤ e.switchHoldUntilMs.toNat →
      (e.tombstoneExpiresAtMs ≠ 0 → t.toNat + kSwitchHoldMs.toNat ≤ e.tombstoneExpiresAtMs.toNat) →
      t.toNat + kSwitchHoldMs.toNat ≤ now.toNat ∨
        ∃ e, o' = some e ∧ t.toNat + kSwitchHoldMs.toNat ≤ e.switchHoldUntilMs.toNat ∧
          (e.tombstoneExpiresAtMs ≠ 0 → t.toNat + kSwitchHoldMs.toNat ≤ e.tombstoneExpiresAtMs.toNat)) :
    Remembers h now o' := by
  have hle : clock.toNat ≤ now.toNat := hclock
  refine ⟨ho, fun t hs => UInt64.le_trans (hc.past t hs) hclock, fun t hs => ?_⟩
  rcases hc.held t hs with hpast | ⟨e, he, hhold, htomb⟩
  · exact .inl (by omega)
  · exact hheld t hs e he hhold htomb

theorem Remembers.restart {c : TableChange} (hc : ∀ t v, c ≠ .replaced t v) (ho : ∀ e ∈ o, e.Ordered) :
    Remembers (h ++ [c]) now o :=
  ⟨ho, fun _ hs => absurd hs (not_since_append hc), fun _ hs => absurd hs (not_since_append hc)⟩

theorem toNat_hold (hroom : now.toNat + 2 ^ 32 < 2 ^ 64) :
    (now + kSwitchHoldMs).toNat = now.toNat + kSwitchHoldMs.toNat := by
  have hval : kSwitchHoldMs.toNat = 5000 := rfl
  rw [UInt64.toNat_add, hval]
  omega

theorem toNat_dwell (hroom : now.toNat + 2 ^ 32 < 2 ^ 64) (dwell : UInt32) :
    (now + dwell.toUInt64).toNat = now.toNat + dwell.toNat := by
  have := dwell.toNat_lt
  rw [UInt64.toNat_add, UInt32.toNat_toUInt64]
  omega

theorem Remembers.shift {table : RouteTable cap} (hc : Remembers h clock (some e)) (hclock : clock ≤ now)
    (hroom : now.toNat + 2 ^ 32 < 2 ^ 64) (hdwell : kSwitchHoldMs.toNat ≤ table.tombstoneDwellMs.toNat)
    (hs : Shift table now e e') :
    Remembers (h ++ entryChange now e e') now (some e') ∧
      (Damped h → Damped (h ++ entryChange now e e')) := by
  have ho := hc.ordered e rfl
  obtain ⟨hmoves, -, htomb⟩ := hs.moves ho
  have ho' : ∀ x ∈ some e', x.Ordered := by
    rintro _ ⟨⟩
    exact hs.ordered ho
  have hle : clock.toNat ≤ now.toNat := hclock
  -- the tombstone of `e'` covers what the one of `e` covered
  have htomb' : ∀ t, Since h t → (e.tombstoneExpiresAtMs ≠ 0 →
      t.toNat + kSwitchHoldMs.toNat ≤ e.tombstoneExpiresAtMs.toNat) → e'.tombstoneExpiresAtMs ≠ 0 →
      t.toNat + kSwitchHoldMs.toNat ≤ e'.tombstoneExpiresAtMs.toNat := by
    intro t ht hold hne
    have hpast : t.toNat ≤ clock.toNat := hc.past t ht
    rcases htomb with hz | ha | hk
    · exact absurd hz hne
    · rw [ha, toNat_dwell hroom]
      omega
    · rw [hk] at hne ⊢
      exact hold hne
  cases hmoves with
  | quiet hhold hchange =>
    rw [hchange, append_nil]
    refine ⟨hc.quiet hclock ho' fun t ht e₀ he₀ hold htombs => .inr ?_, id⟩
    cases he₀
    exact ⟨e', rfl, hhold ▸ hold, htomb' t ht htombs⟩
  | held hhold hchange =>
    rw [hchange, append_nil]
    refine ⟨hc.quiet hclock ho' fun t ht e₀ he₀ _ htombs => .inr ?_, id⟩
    cases he₀
    have hpast : t.toNat ≤ clock.toNat := hc.past t ht
    refine ⟨e', rfl, ?_, htomb' t ht htombs⟩
    rw [hhold, toNat_hold hroom]
    omega
  | replaced v hhold hchange hz hwhy =>
    rw [hchange]
    refine ⟨⟨ho', fun t ht => ?_, fun t ht => .inr ⟨e', rfl, ?_, fun hne => absurd hz hne⟩⟩, fun hd => ?_⟩
    · rcases since_append_replaced ht with rfl | ht
      · exact UInt64.le_refl _
      · exact UInt64.le_trans (hc.past t ht) hclock
    · rw [hhold, toNat_hold hroom]
      rcases since_append_replaced ht with rfl | ht
      · exact Nat.le_refl _
      · have hpast : t.toNat ≤ clock.toNat := hc.past t ht
        omega
    · refine hd.append fun t ht t' hs' => ?_
      cases ht
      have hdue : e.switchHoldUntilMs.toNat ≤ now.toNat := hwhy rfl
      rcases hc.held t' hs' with hpast | ⟨e₀, he₀, hold, -⟩
      · omega
      · cases he₀
        omega

theorem Touched.remembers {table : RouteTable cap} {d : NodeId} {ev : TableEvent} {o' : Option RouteEntry}
    (ht : Touched table d ev o o') (hnow : ∀ t, ev.now = some t → t = now) (hc : Remembers h clock o)
    (hclock : clock ≤ now) (hroom : ev.now.isSome → now.toNat + 2 ^ 32 < 2 ^ 64)
    (hdwell : kSwitchHoldMs.toNat ≤ table.tombstoneDwellMs.toNat) :
    Remembers (h ++ tableChange now ev o o') now o' ∧ (Damped h → Damped (h ++ tableChange now ev o o')) := by
  have hsilent : ∀ {e e' : RouteEntry}, o = some e → e'.generation = e.generation →
      e'.committedNextHop = e.committedNextHop → e'.switchHoldUntilMs = e.switchHoldUntilMs →
      e'.candidates = e.candidates → e'.tombstoneExpiresAtMs = e.tombstoneExpiresAtMs →
      Remembers (h ++ entryChange now e e') now (some e') ∧
        (Damped h → Damped (h ++ entryChange now e e')) := by
    intro e e' he hg hcommitted hhold hcand htomb
    rw [entryChange_same hg hcommitted, append_nil]
    refine ⟨hc.quiet hclock ?_ fun t _ e₀ he₀ hold htombs => .inr ?_, id⟩
    · rintro _ ⟨⟩
      exact (hc.ordered e he).of_same hcand htomb
    · rw [he] at he₀
      cases he₀
      exact ⟨e', rfl, hhold ▸ hold, htomb ▸ htombs⟩
  cases ht with
  | absent =>
    show Remembers (h ++ []) now none ∧ (Damped h → Damped (h ++ []))
    rw [append_nil]
    exact ⟨hc.quiet hclock (by simp) (fun t _ e₀ he₀ => by cases he₀), id⟩
  | noted e last adMs up => exact hsilent rfl rfl rfl rfl rfl rfl
  | shifted hev hshift =>
    obtain rfl := hnow _ hev
    exact hc.shift hclock (hroom (by rw [hev]; rfl)) hdwell hshift
  | @restarted _ now' e e' generation hev hnewer hshift =>
    obtain rfl := hnow _ hev
    have ho := RouteEntry.ordered_restartEntry e generation
    obtain ⟨-, hg, -⟩ := hshift.moves ho
    have hchange : entryChange now' e e' = [.restarted] := by
      unfold entryChange
      rw [if_pos]
      rw [bne_iff_ne, hg]
      rintro heq
      exact UInt32.lt_irrefl _ (heq ▸ hnewer)
    show Remembers (h ++ entryChange now' e e') now' _ ∧ (Damped h → Damped (h ++ entryChange now' e e'))
    rw [hchange]
    refine ⟨.restart (fun _ _ => by simp) ?_, fun hd => hd.append fun t ht => by cases ht⟩
    rintro _ ⟨⟩
    exact hshift.ordered ho
  | created hev hshift =>
    show Remembers (h ++ []) now _ ∧ (Damped h → Damped (h ++ []))
    rw [append_nil]
    refine ⟨hc.quiet hclock ?_ (fun t _ e₀ he₀ => by cases he₀), id⟩
    rintro _ ⟨⟩
    exact hshift.ordered (RouteEntry.ordered_blank d _)
  | marked hvalid => exact hsilent rfl rfl rfl rfl rfl rfl
  | @expired now' e hdue =>
    obtain rfl := hnow _ rfl
    show Remembers (h ++ []) now' none ∧ (Damped h → Damped (h ++ []))
    rw [append_nil]
    simp only [RouteTable.collectable, Bool.and_eq_true, bne_iff_ne, decide_eq_true_eq] at hdue
    refine ⟨hc.quiet hclock (by simp) fun t _ e₀ he₀ _ htombs => .inl ?_, id⟩
    cases he₀
    exact Nat.le_trans (htombs hdue.1) hdue.2
  | reclaimed =>
    show Remembers (h ++ [.reclaimed]) now none ∧ (Damped h → Damped (h ++ [.reclaimed]))
    exact ⟨.restart (fun _ _ => by simp) (by simp), fun hd => hd.append fun t ht => by cases ht⟩

end Step

/-! ## Runs -/

/-- What holds of every run, observed at `d`. -/
structure DampingInv (d : NodeId) (s : TimedTable cap) (h : List TableChange) : Prop where
  keys : s.table.UniqueKeys
  dwell : kRouteTombstoneDwellMs ≤ s.table.tombstoneDwellMs
  remembers : Remembers h s.clock (s.table.find d)
  damped : Damped h

theorem dwell_next {table : RouteTable cap} (h : kRouteTombstoneDwellMs ≤ table.tombstoneDwellMs)
    (ev : TableEvent) : kRouteTombstoneDwellMs ≤ (ev.next table).tombstoneDwellMs := by
  cases ev with
  | setTombstoneDwell lifetime =>
    show kRouteTombstoneDwellMs ≤ if lifetime > kRouteTombstoneDwellMs then lifetime else
      kRouteTombstoneDwellMs
    split
    · rename_i hlt
      exact UInt32.le_of_lt hlt
    · exact UInt32.le_refl _
  | consider ad hop link now life =>
    rcases table.consider_cases ad hop link now life with heq | ⟨-, i, e, -, heq⟩
    all_goals
      show _ ≤ (table.consider ad hop link now life).1.tombstoneDwellMs
      rw [heq]
      exact h
  | withdraw d hop now =>
    show _ ≤ (table.withdraw d hop now).1.tombstoneDwellMs
    unfold RouteTable.withdraw
    repeat' split
    all_goals exact h
  | reclaimTombstone =>
    rcases table.reclaimTombstone_cases with heq | ⟨i, e, -, -, heq⟩
    all_goals
      show _ ≤ table.reclaimTombstone.1.tombstoneDwellMs
      rw [heq]
      exact h
  | updateLinkCost hop cost now =>
    show _ ≤ (table.updateLinkCost hop cost now).1.tombstoneDwellMs
    unfold RouteTable.updateLinkCost
    split
    all_goals exact h
  | noteNextHopBusy hop since =>
    show _ ≤ (table.noteNextHopBusy hop since).tombstoneDwellMs
    unfold RouteTable.noteNextHopBusy
    repeat' split
    all_goals exact h
  | clearNextHopBusy hop =>
    show _ ≤ (table.clearNextHopBusy hop).tombstoneDwellMs
    unfold RouteTable.clearNextHopBusy
    split
    all_goals exact h
  | markAdvertised d =>
    show _ ≤ (table.markAdvertised d).1.tombstoneDwellMs
    unfold RouteTable.markAdvertised
    repeat' split
    all_goals exact h
  | setAnnouncedUp d announced =>
    show _ ≤ (table.setAnnouncedUp d announced).tombstoneDwellMs
    unfold RouteTable.setAnnouncedUp
    repeat' split
    all_goals exact h
  | invalidateNextHop hop now hold => exact h
  | expire now => exact h
  | setSelf self => exact h
  | evaluate now => exact h
  | forEachSelectedChange now => exact h

theorem DampingInv.step {d : NodeId} {s : TimedTable cap} {h : List TableChange} (hi : DampingInv d s h)
    {ev : TableEvent} (htimely : s.timely ev = true) :
    DampingInv d ((dampingMachine cap d).next s ev) (h ++ (dampingMachine cap d).out s ev) := by
  have hnow : ∀ t, ev.now = some t → t = s.clockAfter ev := by
    intro t ht
    rw [TimedTable.clockAfter, ht, Option.getD_some]
  have hclock : s.clock ≤ s.clockAfter ev ∧ (ev.now.isSome → (s.clockAfter ev).toNat + 2 ^ 32 < 2 ^ 64) := by
    unfold TimedTable.timely at htimely
    unfold TimedTable.clockAfter
    cases hev : ev.now with
    | none => exact ⟨UInt64.le_refl _, fun h => by cases h⟩
    | some t =>
      rw [hev, Option.all_some, Bool.and_eq_true, decide_eq_true_eq, decide_eq_true_eq] at htimely
      exact ⟨htimely.1, fun _ => htimely.2⟩
  have hdwell : kSwitchHoldMs.toNat ≤ s.table.tombstoneDwellMs.toNat := by
    have hd : kRouteTombstoneDwellMs.toNat ≤ s.table.tombstoneDwellMs.toNat := hi.dwell
    have h₁ : kRouteTombstoneDwellMs.toNat = 60000 := rfl
    have h₂ : kSwitchHoldMs.toNat = 5000 := rfl
    omega
  obtain ⟨hremembers, hdamped⟩ := (ev.touched hi.keys d).remembers hnow hi.remembers hclock.1 hclock.2 hdwell
  exact ⟨ev.uniqueKeys hi.keys, dwell_next hi.dwell ev, hremembers, hdamped hi.damped⟩

theorem dampingMachine_inv {d : NodeId} {s : TimedTable cap} {h : List TableChange}
    (hr : (dampingMachine cap d).Run s h) : DampingInv d s h := by
  refine Machine.Run.invariant (M := dampingMachine cap d) (I := DampingInv d) (fun s hs => ?_)
    (fun s h ev hi htimely => hi.step htimely) hr
  cases hs
  have hnone : ∀ t, ¬ Since [] t := by
    intro t hs
    generalize hl : ([] : List TableChange) = l at hs
    cases hs with
    | last h₀ _ v => simp at hl
    | later t₀ v hs => simp at hl
  refine ⟨uniqueKeys_empty, UInt32.le_refl _, ⟨fun e he => ?_, fun t hs => absurd hs (hnone t),
    fun t hs => absurd hs (hnone t)⟩, fun pre t post heq => by simp at heq⟩
  simp [RouteTable.find] at he

theorem since_of_split {pre mid : List TableChange} {t : MonotonicMs} {v : Bool}
    (hmid : ∀ c ∈ mid, ∃ t v, c = .replaced t v) : Since (pre ++ .replaced t v :: mid) t := by
  induction mid using List.reverseRecOn with
  | nil => exact .last pre t v
  | append_singleton mid c ih =>
    obtain ⟨t', v', rfl⟩ := hmid c (by simp)
    rw [← cons_append, ← append_assoc]
    exact .later t' v' (ih fun c hc => hmid c (by simp [hc]))

/-- **Two replacements of a committed hop are `kSwitchHoldMs` apart** when the second one leaves a hop
that can still be selected for one with the same sequence, unless the origin restarted or the entry
was reclaimed in between. -/
theorem switches_damped {d : NodeId} {s : TimedTable cap} {h : List TableChange}
    (hr : (dampingMachine cap d).Run s h) {pre mid post : List TableChange} {t₁ t₂ : MonotonicMs} {v : Bool}
    (hh : h = pre ++ .replaced t₁ v :: mid ++ .replaced t₂ true :: post)
    (hmid : .restarted ∉ mid ∧ .reclaimed ∉ mid) : t₁ ≤ t₂ ∧ kSwitchHoldMs ≤ t₂ - t₁ := by
  have hall : ∀ c ∈ mid, ∃ t v, c = .replaced t v := by
    intro c hc
    cases c with
    | replaced t v => exact ⟨t, v, rfl⟩
    | restarted => exact absurd hc hmid.1
    | reclaimed => exact absurd hc hmid.2
  have hle := (dampingMachine_inv hr).damped _ t₂ post hh t₁ (since_of_split hall)
  have hfirst : t₁ ≤ t₂ := UInt64.le_iff_toNat_le.mpr (by omega)
  refine ⟨hfirst, ?_⟩
  rw [UInt64.le_iff_toNat_le, UInt64.toNat_sub_of_le _ _ hfirst]
  omega

instance decidableEnabled (s : TimedTable cap) (ev : TableEvent) :
    Decidable ((dampingMachine cap d).Enabled s ev) :=
  inferInstanceAs (Decidable (s.timely ev = true))

/-- Neighbor `hop` offers destination 5 at `metric`. -/
def offer (hop : NodeId) (metric : RouteMetric) (now : MonotonicMs) : TableEvent :=
  .consider { destination := 5, generation := 1, sequence := 1, metric } hop 1 now 60000

/-- Neighbor 8 replaces 7 at 0, and 7 replaces 8 at 5000. -/
theorem switches_damped_sample :
    ∃ s : TimedTable 1, (dampingMachine 1 5).Run s [.replaced 0 true, .replaced 5000 true] ∧
      kSwitchHoldMs ≤ (5000 : MonotonicMs) - 0 := by
  have hr : (dampingMachine 1 5).Run _ [.replaced 0 true, .replaced 5000 true] :=
    Machine.run_exec (M := dampingMachine 1 5) rfl [offer 7 10 0, offer 8 5 0, offer 7 1 5000]
      (by decide +kernel)
  have hsplit : [.replaced 0 true, .replaced 5000 true] =
      [] ++ TableChange.replaced 0 true :: [] ++ .replaced 5000 true :: [] := rfl
  exact ⟨_, hr, (switches_damped hr hsplit (by simp)).2⟩

/-- A full table reclaims the entry of destination 5 between two switches, and the hold of the first
is lost. -/
theorem switch_after_reclaim :
    ∃ s : TimedTable 1, (dampingMachine 1 5).Run s
        [.replaced 0 true, .replaced 1 false, .reclaimed, .replaced 2 true] ∧
      ¬ kSwitchHoldMs ≤ (2 : MonotonicMs) - 0 := by
  have hr : (dampingMachine 1 5).Run _ [.replaced 0 true, .replaced 1 false, .reclaimed, .replaced 2 true] :=
    Machine.run_exec (M := dampingMachine 1 5) rfl
      [offer 7 10 0, offer 8 5 0, .invalidateNextHop 8 1 false, .invalidateNextHop 7 1 false,
        .reclaimTombstone, offer 9 10 2, offer 11 5 2]
      (by decide +kernel)
  exact ⟨_, hr, by decide⟩

end RouteLoom
