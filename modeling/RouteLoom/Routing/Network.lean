import RouteLoom.Routing.Feasibility
import RouteLoom.Lib.DistanceVector
import RouteLoom.Lib.Machine
import Mathlib.Data.List.Basic

/-!
# A network of route tables

Any number of nodes, each with its route table, and every record that was ever sent. A record stays
in `sent`, so it may be considered by any node, any number of times, at any later moment, or never:
loss, duplication, delay and reordering are all runs of the machine below.

* `Network.Event` : the table operations, and the ways a record comes into being
* `Network.network` : the machine, under the assumptions on origins and tombstones
* `Network.view` : the network as a distance-vector view of one destination
* `Network.best_loop_free` : **following the selected next hops never returns to a node**
-/

namespace RouteLoom.Network

open Lib Function

/-- A route record on its way, with the node that sent it. -/
structure Message where
  sender : NodeId
  ad : RouteAdvertisement
  deriving DecidableEq

structure Net (cap : Nat) where
  table : NodeId → RouteTable cap
  /-- generation and sequence that a node announces for itself -/
  own : NodeId → RouteGeneration × RouteSequence
  sent : List Message

inductive Event
  | consider (u : NodeId) (m : Message) (link : RouteMetric) (now life : MonotonicMs)
  | withdraw (u d hop : NodeId) (now : MonotonicMs)
  | invalidateNextHop (u hop : NodeId) (now : MonotonicMs) (hold : Bool)
  | updateLinkCost (u hop : NodeId) (cost : RouteMetric) (now : MonotonicMs)
  | evaluate (u : NodeId) (now : MonotonicMs)
  | noteNextHopBusy (u hop : NodeId) (since : MonotonicMs)
  | clearNextHopBusy (u hop : NodeId)
  | expire (u : NodeId) (now : MonotonicMs)
  | markAdvertised (u d : NodeId)
  /-- send the selected route, with the feasible distance updated before it leaves -/
  | advertise (u d : NodeId)
  /-- a destination sends its own record -/
  | originate (d : NodeId)
  /-- a destination raises what it announces for itself -/
  | raise (d : NodeId) (generation : RouteGeneration) (sequence : RouteSequence)
  /-- a retraction, with any content -/
  | retract (u : NodeId) (ad : RouteAdvertisement)

variable {cap : Nat}

/-- The record of a selection. -/
def recordOf (selection : RouteSelection) : RouteAdvertisement :=
  ⟨selection.destination, selection.generation, selection.sequence, selection.metric⟩

def Net.setTable (s : Net cap) (u : NodeId) (table : RouteTable cap) : Net cap :=
  { s with table := update s.table u table }

def Net.send (s : Net cap) (u : NodeId) (ad : RouteAdvertisement) : Net cap :=
  { s with sent := ⟨u, ad⟩ :: s.sent }

/-- The half space in which the sequences of each (destination, generation) stay. -/
abbrev Bases := NodeId → RouteGeneration → RouteSequence

/-- What is assumed of a run: a considered record was sent and is not about the node itself, no
tombstone is due when leases expire, and an origin only raises what it announces. -/
def Enabled (base : Bases) (s : Net cap) : Event → Prop
  | .consider u m _ _ _ => m ∈ s.sent ∧ u ≠ m.ad.destination
  | .expire u now =>
    ∀ e ∈ (s.table u).entries.toList, RouteTable.collectable now e = false
  | .advertise u d => ((s.table u).best d).valid = true
  | .raise d generation sequence =>
    Serial.InHalf (base d generation) sequence ∧
      ((s.own d).1 < generation ∨
        ((s.own d).1 = generation ∧ Serial.newer sequence (s.own d).2 = true))
  | .retract _ ad => ad.metric = kInfiniteRouteMetric
  | _ => True

instance (base : Bases) (s : Net cap) : (e : Event) → Decidable (Enabled base s e)
  | .consider u m _ _ _ => inferInstanceAs (Decidable (m ∈ s.sent ∧ u ≠ m.ad.destination))
  | .expire u now => inferInstanceAs (Decidable
      (∀ e ∈ (s.table u).entries.toList, RouteTable.collectable now e = false))
  | .advertise u d => inferInstanceAs (Decidable (((s.table u).best d).valid = true))
  | .raise d generation sequence => inferInstanceAs (Decidable
      (Serial.InHalf (base d generation) sequence ∧ ((s.own d).1 < generation ∨
        ((s.own d).1 = generation ∧ Serial.newer sequence (s.own d).2 = true))))
  | .retract _ ad => inferInstanceAs (Decidable (ad.metric = kInfiniteRouteMetric))
  | .withdraw .. | .invalidateNextHop .. | .updateLinkCost .. | .evaluate .. => isTrue trivial
  | .noteNextHopBusy .. | .clearNextHopBusy .. | .markAdvertised .. => isTrue trivial
  | .originate _ => isTrue trivial

def next (s : Net cap) : Event → Net cap
  | .consider u m link now life =>
    s.setTable u ((s.table u).consider m.ad m.sender link now life).1
  | .withdraw u d hop now => s.setTable u ((s.table u).withdraw d hop now).1
  | .invalidateNextHop u hop now hold => s.setTable u ((s.table u).invalidateNextHop hop now hold)
  | .updateLinkCost u hop cost now => s.setTable u ((s.table u).updateLinkCost hop cost now).1
  | .evaluate u now => s.setTable u ((s.table u).evaluate now)
  | .noteNextHopBusy u hop since => s.setTable u ((s.table u).noteNextHopBusy hop since)
  | .clearNextHopBusy u hop => s.setTable u ((s.table u).clearNextHopBusy hop)
  | .expire u now => s.setTable u ((s.table u).expire now).1
  | .markAdvertised u d => s.setTable u ((s.table u).markAdvertised d).1
  | .advertise u d =>
    (s.setTable u ((s.table u).markAdvertised d).1).send u (recordOf ((s.table u).best d))
  | .originate d => s.send d ⟨d, (s.own d).1, (s.own d).2, 0⟩
  | .raise d generation sequence =>
    { s with own := update s.own d (generation, sequence) }
  | .retract u ad => s.send u ad

/-- Empty tables, nothing sent, and every own sequence in its half space. -/
def Init (base : Bases) (s : Net cap) : Prop :=
  (∀ u, (s.table u).entries = Pool.empty) ∧ s.sent = [] ∧
    ∀ d, Serial.InHalf (base d (s.own d).1) (s.own d).2

def network (cap : Nat) (base : Bases) : Machine (Net cap) Event Unit where
  Init := Init base
  Enabled := Enabled base
  next := next
  out := fun _ _ => []

instance (base : Bases) (s : Net cap) (e : Event) : Decidable ((network cap base).Enabled s e) :=
  inferInstanceAs (Decidable (Enabled base s e))

/-! ## The distance-vector view -/

/-- Generation first, then the sequence, then the smaller metric. -/
def value (base : Bases) (ad : RouteAdvertisement) : Nat :=
  ad.generation.toNat * 2 ^ 32 + 1 +
    Serial.offset (base ad.destination ad.generation) ad.sequence * 2 ^ 16 +
    (0xFFFF - ad.metric.toNat)

/-- The advertisement that the feasible distance of an entry stands for. -/
def feasibleRecord (e : RouteEntry) : RouteAdvertisement :=
  ⟨e.destination, e.generation, e.feasible.sequence, e.feasible.metric⟩

def entryScore (base : Bases) (e : RouteEntry) : Nat :=
  if e.feasible.valid then value base (feasibleRecord e) else e.generation.toNat * 2 ^ 32

def score (base : Bases) (o : Option RouteEntry) : Nat :=
  o.elim 0 (entryScore base)

/-- `e` holds the advertisement `ad` of `hop` as a candidate that is not withdrawn. -/
def Holds (e : RouteEntry) (d hop : NodeId) (ad : RouteAdvertisement) : Prop :=
  ∃ i, (e.candidates i).valid = true ∧ ¬ (e.candidates i).Withdrawn ∧
    (e.candidates i).nextHop = hop ∧
    ad = ⟨d, e.generation, (e.candidates i).sequence, (e.candidates i).advertised⟩

def view (base : Bases) (s : Net cap) (d : NodeId) : View NodeId RouteAdvertisement where
  root := d
  score u := score base ((s.table u).find d)
  value := value base
  sent v ad := ⟨v, ad⟩ ∈ s.sent ∧ ad.destination = d ∧ ad.metric ≠ kInfiniteRouteMetric
  cand u v ad := ∃ e, (s.table u).find d = some e ∧ Holds e d v ad

/-! ## Scores -/

theorem value_le_of_generation_lt {base : Bases} {a b : RouteAdvertisement}
    (h : a.generation < b.generation) : value base a ≤ b.generation.toNat * 2 ^ 32 := by
  have hg : a.generation.toNat < b.generation.toNat := UInt32.lt_iff_toNat_lt.mp h
  have ho : Serial.offset (base a.destination a.generation) a.sequence < 2 ^ 16 := UInt16.toNat_lt _
  unfold value
  omega

theorem generation_lt_value (base : Bases) (a : RouteAdvertisement) :
    a.generation.toNat * 2 ^ 32 < value base a := by
  unfold value
  omega

variable {d u : NodeId} {e : RouteEntry}

/-- Within one generation the value orders by sequence, then by metric. -/
theorem value_lt_of_better {base : Bases} {g : RouteGeneration} {q q' : RouteSequence} {m m' : RouteMetric}
    (hq : Serial.InHalf (base d g) q) (hq' : Serial.InHalf (base d g) q') (h : Better q' m' q m) :
    value base ⟨d, g, q, m⟩ < value base ⟨d, g, q', m'⟩ := by
  have hm := m.toNat_lt
  unfold value
  rcases h with hn | ⟨rfl, hlt⟩
  · have ho := (Serial.newer_iff_offset_lt hq' hq).mp hn
    simp only
    omega
  · have hm' : m'.toNat < m.toNat := UInt16.lt_iff_toNat_lt.mp hlt
    simp only
    omega

theorem value_le_of_not_better {base : Bases} {g : RouteGeneration} {q q' : RouteSequence}
    {m m' : RouteMetric} (hq : Serial.InHalf (base d g) q) (hq' : Serial.InHalf (base d g) q')
    (h : ¬ Better q' m' q m) : value base ⟨d, g, q', m'⟩ ≤ value base ⟨d, g, q, m⟩ := by
  have hm := m.toNat_lt
  have hm' := m'.toNat_lt
  have hold : ¬ Serial.offset (base d g) q < Serial.offset (base d g) q' := fun ho =>
    h (Or.inl ((Serial.newer_iff_offset_lt hq' hq).mpr ho))
  unfold value
  by_cases hseq : q' = q
  · have hge : ¬ m' < m := fun hlt => h (Or.inr ⟨hseq, hlt⟩)
    rw [UInt16.lt_iff_toNat_lt] at hge
    simp only [hseq]
    omega
  · have hne : Serial.offset (base d g) q' ≠ Serial.offset (base d g) q :=
      fun ho => hseq (Serial.offset_inj ho)
    simp only
    omega

/-- The feasible distance of `e`, when there is one, lies in the half space of its generation. -/
def InBase (base : Bases) (e : RouteEntry) : Prop :=
  e.feasible.valid = true → Serial.InHalf (base e.destination e.generation) e.feasible.sequence

/-- What passes the feasibility test beats the score of the entry. -/
theorem entryScore_lt_of_feasible {base : Bases} {q : RouteSequence} {m : RouteMetric} (he : InBase base e)
    (hq : Serial.InHalf (base e.destination e.generation) q) (h : e.isFeasible q m = true) :
    entryScore base e < value base ⟨e.destination, e.generation, q, m⟩ := by
  unfold entryScore
  split
  · rename_i hv
    exact value_lt_of_better (he hv) hq ((RouteEntry.isFeasible_iff hv).mp h)
  · exact generation_lt_value base ⟨e.destination, e.generation, q, m⟩

/-- Marking a selection whose sequence is in the half space covers it and loses nothing. -/
theorem markEntry_score {base : Bases} {sel : RouteSelection} (he : InBase base e)
    (hq : Serial.InHalf (base e.destination e.generation) sel.sequence) :
    entryScore base e ≤ entryScore base (RouteTable.markEntry e sel) ∧
      value base ⟨e.destination, e.generation, sel.sequence, sel.metric⟩ ≤
        entryScore base (RouteTable.markEntry e sel) ∧ InBase base (RouteTable.markEntry e sel) := by
  by_cases hv : e.feasible.valid = true
  · by_cases hb : Better sel.sequence sel.metric e.feasible.sequence e.feasible.metric
    · rw [RouteTable.markEntry_of_better (Or.inr hb)]
      simp only [entryScore, hv, feasibleRecord, if_true]
      exact ⟨(value_lt_of_better (he hv) hq hb).le, le_refl _, fun _ => hq⟩
    · rw [RouteTable.markEntry_of_not_better hv hb]
      simp only [entryScore, hv, feasibleRecord, if_true]
      exact ⟨le_refl _, value_le_of_not_better (he hv) hq hb, he⟩
  · rw [RouteTable.markEntry_of_better (Or.inl (by simpa using hv))]
    simp only [entryScore, hv, feasibleRecord, if_true, Bool.false_eq_true, if_false]
    exact ⟨(generation_lt_value base ⟨e.destination, e.generation, sel.sequence, sel.metric⟩).le,
      le_refl _, fun _ => hq⟩

/-! ## The invariant -/

structure Inv (base : Bases) (s : Net cap) : Prop where
  sound : ∀ d, (view base s d).Sound
  sent : ∀ m ∈ s.sent, m.ad.metric ≠ kInfiniteRouteMetric →
    Serial.InHalf (base m.ad.destination m.ad.generation) m.ad.sequence
  feasible : ∀ u d e, (s.table u).find d = some e → InBase base e
  own : ∀ d, Serial.InHalf (base d (s.own d).1) (s.own d).2

theorem find_destination {T : RouteTable cap} (h : T.find d = some e) : e.destination = d := by
  simpa using (Pool.find_some h).2

theorem holds_of_live {c : RouteCandidate} (hm : c ∈ e.candidateList) (hl : e.live c = true) :
    Holds e d c.nextHop ⟨d, e.generation, c.sequence, c.advertised⟩ := by
  obtain ⟨i, rfl⟩ := RouteEntry.mem_candidateList.mp hm
  simp only [RouteEntry.live, Bool.and_eq_true, bne_iff_ne] at hl
  exact ⟨i, hl.1.1.1, fun hw => hl.1.2 hw.2, rfl, rfl⟩

variable {base : Bases} {s : Net cap}

/-- What an entry of node `u` may hold after a table operation: what it held, or a sent record. -/
def Allowed (base : Bases) (s : Net cap) (u hop : NodeId) (ad : RouteAdvertisement) : Prop :=
  (view base s ad.destination).cand u hop ad ∨
    (u ≠ ad.destination ∧ (view base s ad.destination).sent hop ad)

/-- The sequence of every held advertisement is in its half space. -/
theorem Inv.holds_half (h : Inv base s) {hop : NodeId} {ad : RouteAdvertisement}
    (he : (s.table u).find d = some e) (hh : Holds e d hop ad) :
    Serial.InHalf (base d e.generation) ad.sequence := by
  obtain ⟨hmem, hd, hfin⟩ := (h.sound d).announced u hop ad ⟨e, he, hh⟩
  have hhalf := h.sent _ hmem hfin
  obtain ⟨_, _, _, _, rfl⟩ := hh
  exact hhalf

theorem Inv.select_half (h : Inv base s) (he : (s.table u).find d = some e) (hv : e.select.valid = true) :
    Serial.InHalf (base e.destination e.generation) e.select.sequence := by
  obtain ⟨c, hm, hl, hsel⟩ := RouteEntry.select_valid hv
  rw [hsel, find_destination he]
  exact h.holds_half he (holds_of_live hm hl)

theorem supported_of_holds {P : NodeId → RouteAdvertisement → Prop}
    (h : ∀ hop ad, Holds e d hop ad → P hop ad) :
    e.Supported fun hop q m => P hop ⟨d, e.generation, q, m⟩ := by
  intro i hv
  by_cases hw : (e.candidates i).Withdrawn
  · exact Or.inl hw
  · exact Or.inr (h _ _ ⟨i, hv, hw, rfl, rfl⟩)

theorem holds_of_supported {P : NodeId → RouteAdvertisement → Prop}
    (h : e.Supported fun hop q m => P hop ⟨d, e.generation, q, m⟩) {hop : NodeId}
    {ad : RouteAdvertisement} (hh : Holds e d hop ad) : P hop ad := by
  obtain ⟨i, hv, hw, rfl, rfl⟩ := hh
  exact (h i hv).resolve_left hw

/-- What one table operation does to the score, the candidates and the feasible distance. -/
theorem Inv.entryStep (h : Inv base s) {o' : Option RouteEntry}
    (hstep : EntryStep (Allowed base s u) d ((s.table u).find d) o') :
    score base ((s.table u).find d) ≤ score base o' ∧
      ∀ e', o' = some e' → InBase base e' ∧ ∀ hop ad, Holds e' d hop ad → Allowed base s u hop ad := by
  have held : ∀ e, (s.table u).find d = some e → ∀ hop ad, Holds e d hop ad → Allowed base s u hop ad := by
    intro e he hop ad hh
    refine Or.inl ?_
    obtain ⟨_, _, _, _, had⟩ := id hh
    have hd : ad.destination = d := by rw [had]
    rw [hd]
    exact ⟨e, he, hh⟩
  generalize ho : (s.table u).find d = o at hstep held
  cases hstep with
  | absent => exact ⟨le_refl _, fun e' he' => by cases he'⟩
  | @keep e e' hk =>
    have hsup := hk.supported (supported_of_holds (held e rfl))
    have hscore : entryScore base e' = entryScore base e := by
      simp only [entryScore, feasibleRecord, hk.destination, hk.generation, hk.feasible]
    refine ⟨(le_of_eq hscore.symm : entryScore base e ≤ entryScore base e'), ?_⟩
    rintro _ ⟨⟩
    refine ⟨?_, fun hop ad hh => holds_of_supported (P := Allowed base s u) ?_ hh⟩
    · intro hv
      rw [hk.feasible] at hv ⊢
      rw [hk.destination, hk.generation]
      exact h.feasible u d e ho hv
    · rw [hk.generation]
      exact hsup
  | @restart _ e' hg hv hsup =>
    refine ⟨?_, ?_⟩
    · have hscore : score base (some e') = e'.generation.toNat * 2 ^ 32 := by
        simp [score, entryScore, hv]
      rw [hscore]
      cases o with
      | none => exact Nat.zero_le _
      | some e =>
        have hlt := hg e rfl
        have hnat : e.generation.toNat < e'.generation.toNat := UInt32.lt_iff_toNat_lt.mp hlt
        simp only [score, Option.elim, entryScore]
        split
        · exact value_le_of_generation_lt (b := feasibleRecord e') hlt
        · omega
    · rintro _ ⟨⟩
      exact ⟨fun hv' => absurd hv' (by simp [hv]),
        fun hop ad hh => holds_of_supported (P := Allowed base s u) hsup hh⟩
  | @mark e hv =>
    obtain ⟨hle, _, hin⟩ := markEntry_score (h.feasible u d e ho) (h.select_half ho hv)
    exact ⟨hle, by rintro _ ⟨⟩; exact ⟨hin, held e rfl⟩⟩

theorem Inv.setTable (h : Inv base s) {T' : RouteTable cap}
    (hstep : TableStep (Allowed base s u) (s.table u) T') : Inv base (s.setTable u T') where
  sound := by
    intro d
    refine (h.sound d).evolves ⟨rfl, rfl, ?_, fun _ _ hs => hs, fun _ _ hs => Or.inl hs, ?_⟩
    · intro v
      by_cases hv : v = u
      · subst hv
        simpa [view, Net.setTable] using (h.entryStep (hstep d)).1
      · simp [view, Net.setTable, update_of_ne hv]
    · rintro v hop ad ⟨e, he, hh⟩
      by_cases hv : v = u
      · subst hv
        have he' : T'.find d = some e := by simpa [Net.setTable] using he
        have hall := ((h.entryStep (hstep d)).2 e he').2 hop ad hh
        obtain ⟨_, _, _, _, rfl⟩ := hh
        exact hall
      · have he' : (s.table v).find d = some e := by
          simpa [Net.setTable, update_of_ne hv] using he
        exact Or.inl ⟨e, he', hh⟩
  sent := h.sent
  feasible := by
    intro v d e he
    by_cases hv : v = u
    · subst hv
      exact ((h.entryStep (hstep d)).2 e (by simpa [Net.setTable] using he)).1
    · exact h.feasible v d e (by simpa [Net.setTable, update_of_ne hv] using he)
  own := h.own

/-- Sending a record that its sender covers, or that its own destination sends. -/
theorem Inv.send (h : Inv base s) {ad : RouteAdvertisement} (hcov : ad.metric ≠ kInfiniteRouteMetric →
      (u = ad.destination ∨ value base ad ≤ score base ((s.table u).find ad.destination)) ∧
        Serial.InHalf (base ad.destination ad.generation) ad.sequence) : Inv base (s.send u ad) where
  sound := by
    intro d
    refine (h.sound d).evolves ⟨rfl, rfl, fun _ => le_refl _, ?_, ?_, fun _ _ _ hc => Or.inl hc⟩
    · rintro v a ⟨hm, hd, hf⟩
      exact ⟨List.mem_cons_of_mem _ hm, hd, hf⟩
    · rintro v a ⟨hm, hd, hf⟩
      rcases List.mem_cons.mp hm with heq | hold
      · cases heq
        subst hd
        exact Or.inr (hcov hf).1
      · exact Or.inl ⟨hold, hd, hf⟩
  sent := by
    intro m hm hf
    rcases List.mem_cons.mp hm with rfl | hold
    · exact (hcov hf).2
    · exact h.sent m hold hf
  feasible := h.feasible
  own := h.own

theorem inv_init (h : Init base s) : Inv base s where
  sound := by
    intro d
    have hempty : ∀ u, (s.table u).find d = none := fun u => by
      rw [RouteTable.find, h.1 u, Pool.find_empty]
    refine ⟨?_, ?_, ?_⟩
    · rintro v a ⟨hm, _⟩
      rw [h.2.1] at hm
      cases hm
    · rintro u v a ⟨e, he, _⟩
      rw [hempty u] at he
      cases he
    · rintro v a ⟨e, he, _⟩
      rw [show (s.table (view base s d).root).find d = none from hempty _] at he
      cases he
  sent := by
    intro m hm
    rw [h.2.1] at hm
    cases hm
  feasible := by
    intro u d e he
    rw [RouteTable.find, h.1 u, Pool.find_empty] at he
    cases he
  own := h.2.2

/-- Once marked, the selected route is within the sender's score. -/
theorem Inv.marked_covers (h : Inv base s) (hv : ((s.table u).best d).valid = true) :
    (recordOf ((s.table u).best d)).destination = d ∧ value base (recordOf ((s.table u).best d)) ≤
        score base (((s.table u).markAdvertised d).1.find d) ∧
      Serial.InHalf (base d (recordOf ((s.table u).best d)).generation)
        (recordOf ((s.table u).best d)).sequence := by
  unfold RouteTable.best at hv ⊢
  cases he : (s.table u).find d with
  | none =>
    rw [he] at hv
    cases hv
  | some e =>
    simp only [he] at hv ⊢
    have hd := find_destination he
    have hhalf := h.select_half he hv
    have hrec : recordOf e.select = ⟨d, e.generation, e.select.sequence, e.select.metric⟩ := by
      obtain ⟨c, _, _, hsel⟩ := RouteEntry.select_valid hv
      rw [hsel, ← hd]
      rfl
    have hmark : ((s.table u).markAdvertised d).1.find d = some (RouteTable.markEntry e e.select) := by
      simp [RouteTable.find_markAdvertised, he, hv]
    rw [hmark, hrec]
    obtain ⟨_, hle, _⟩ := markEntry_score (h.feasible u d e he) hhalf
    rw [hd] at hle hhalf
    exact ⟨rfl, hle, hhalf⟩

/-- **One step of the network keeps the invariant.** -/
theorem inv_next (h : Inv base s) {ev : Event} (hen : Enabled base s ev) : Inv base (next s ev) := by
  cases ev with
  | consider u m link now life =>
    refine h.setTable ((s.table u).consider_step m.ad m.sender link now life fun hf => ?_)
    exact Or.inr ⟨hen.2, hen.1, rfl, hf⟩
  | withdraw u d hop now => exact h.setTable ((s.table u).withdraw_step d hop now)
  | invalidateNextHop u hop now hold =>
    exact h.setTable ((s.table u).invalidateNextHop_step hop now hold)
  | updateLinkCost u hop cost now => exact h.setTable ((s.table u).updateLinkCost_step hop cost now)
  | evaluate u now => exact h.setTable ((s.table u).evaluate_step now)
  | noteNextHopBusy u hop since => exact h.setTable ((s.table u).noteNextHopBusy_step hop since)
  | clearNextHopBusy u hop => exact h.setTable ((s.table u).clearNextHopBusy_step hop)
  | expire u now =>
    refine h.setTable ((s.table u).expire_step now fun e he => ?_)
    exact hen e (Pool.mem_toList.mpr he)
  | markAdvertised u d => exact h.setTable ((s.table u).markAdvertised_step d)
  | advertise u d =>
    obtain ⟨hdest, hle, hhalf⟩ := h.marked_covers hen
    refine (h.setTable ((s.table u).markAdvertised_step d)).send fun _ => ⟨Or.inr ?_, ?_⟩
    · rw [hdest]
      simpa [Net.setTable] using hle
    · rw [hdest]
      exact hhalf
  | originate d => exact h.send fun _ => ⟨Or.inl rfl, h.own d⟩
  | raise d g q =>
    refine ⟨h.sound, h.sent, h.feasible, fun d' => ?_⟩
    by_cases hd : d' = d
    · subst hd
      simpa [next] using hen.1
    · simpa [next, update_of_ne hd] using h.own d'
  | retract u ad => exact h.send fun hf => absurd hen hf

theorem inv_of_run {out : List Unit} (h : (network cap base).Run s out) : Inv base s :=
  h.invariant (I := fun s _ => Inv base s) (fun _ hi => inv_init hi)
    fun _ _ _ hI hen => inv_next hI hen

/-- Node `u` forwards toward `d` through `v`. -/
def NextHop (s : Net cap) (d u v : NodeId) : Prop :=
  ((s.table u).best d).valid = true ∧ ((s.table u).best d).nextHop = v

instance (s : Net cap) (d u v : NodeId) : Decidable (NextHop s d u v) :=
  inferInstanceAs (Decidable (_ ∧ _))

/-- A selected next hop is a feasible candidate, so its announcement beats the node's score. -/
theorem Inv.follows_of_nextHop (h : Inv base s) {v : NodeId} (hn : NextHop s d u v) :
    (view base s d).Follows u v := by
  obtain ⟨hv, rfl⟩ := hn
  unfold RouteTable.best at hv ⊢
  cases he : (s.table u).find d with
  | none =>
    rw [he] at hv
    cases hv
  | some e =>
    simp only [he] at hv ⊢
    obtain ⟨c, hm, hl, hsel⟩ := RouteEntry.select_valid hv
    have hh : Holds e d c.nextHop ⟨d, e.generation, c.sequence, c.advertised⟩ :=
      holds_of_live hm hl
    have hfeas : e.isFeasible c.sequence c.advertised = true := (Bool.and_eq_true_iff.mp hl).2
    have hd := find_destination he
    have hhalf := h.holds_half he hh
    have hlt := entryScore_lt_of_feasible (h.feasible u d e he) (by rw [hd]; exact hhalf) hfeas
    rw [hsel]
    refine ⟨_, ⟨e, he, hh⟩, ?_⟩
    simpa [view, score, he, hd] using hlt

/-- **Loop freedom.** In every run of the network and for every destination, following the selected
next hops from node to node never returns to a node already visited. -/
theorem best_loop_free {out : List Unit} (h : (network cap base).Run s out) (d : NodeId)
    (path : List NodeId) (hpath : path.IsChain (NextHop s d)) : path.Nodup :=
  ((inv_of_run h).sound d).nodup_of_chain
    (hpath.imp fun _ _ => (inv_of_run h).follows_of_nextHop)

/-- Three nodes in a line: node 1 announces itself, node 2 learns and advertises, node 3 learns. -/
def lineEvents : List Event :=
  [.originate 1,
    .consider 2 ⟨1, ⟨1, 1, 1, 0⟩⟩ 10 0 1000,
    .advertise 2 1,
    .consider 3 ⟨2, ⟨1, 1, 1, 10⟩⟩ 10 5 1000]

def lineStart : Net 2 :=
  { table := fun _ => {}, own := fun _ => (1, 1), sent := [] }

theorem best_loop_free_line :
    [3, 2, 1].IsChain (NextHop ((network 2 fun _ _ => 0).exec lineStart [] lineEvents).1 1) ∧
      ([3, 2, 1] : List NodeId).Nodup := by
  have hinit : (network 2 fun _ _ => 0).Init lineStart :=
    ⟨fun _ => rfl, rfl, fun _ => (by decide : Serial.InHalf 0 1)⟩
  have hen : (network 2 fun _ _ => 0).AllEnabled lineStart lineEvents := by
    decide +kernel
  have hchain : [3, 2, 1].IsChain (NextHop ((network 2 fun _ _ => 0).exec lineStart [] lineEvents).1 1) := by
    decide +kernel
  exact ⟨hchain, best_loop_free (Machine.run_exec hinit lineEvents hen) 1 _ hchain⟩

/-- Every finite record repeats a generation and sequence that its destination sent. -/
def Rooted (s : Net cap) : Prop :=
  ∀ m ∈ s.sent, m.ad.metric ≠ kInfiniteRouteMetric → ⟨m.ad.destination, { m.ad with metric := 0 }⟩ ∈ s.sent

theorem Inv.best_sent (h : Inv base s) (hv : ((s.table u).best d).valid = true) :
    (recordOf ((s.table u).best d)).destination = d ∧ ∃ m, m ≠ kInfiniteRouteMetric ∧
      ⟨((s.table u).best d).nextHop, { recordOf ((s.table u).best d) with metric := m }⟩ ∈ s.sent := by
  unfold RouteTable.best at hv ⊢
  cases he : (s.table u).find d with
  | none =>
    rw [he] at hv
    cases hv
  | some e =>
    simp only [he] at hv ⊢
    obtain ⟨c, hm, hl, hsel⟩ := RouteEntry.select_valid hv
    obtain ⟨hsent, _, hfin⟩ := (h.sound d).announced u _ _ ⟨e, he, holds_of_live hm hl⟩
    rw [hsel, ← find_destination he] at *
    exact ⟨rfl, _, hfin, hsent⟩

theorem Rooted.next (h : Rooted s) (hi : Inv base s) {ev : Event} (hen : Enabled base s ev) :
    Rooted (next s ev) := by
  have send : ∀ u ad, (ad.metric ≠ kInfiniteRouteMetric →
      ⟨ad.destination, { ad with metric := 0 }⟩ ∈ (s.send u ad).sent) → Rooted (s.send u ad) := by
    intro u ad hroot m hm hf
    rcases List.mem_cons.mp hm with rfl | hold
    · exact hroot hf
    · exact List.mem_cons_of_mem _ (h m hold hf)
  cases ev with
  | advertise u d =>
    obtain ⟨_, _, hfin, hsent⟩ := hi.best_sent hen
    exact send u _ fun _ => List.mem_cons_of_mem _ (h _ hsent hfin)
  | originate d => exact send d _ fun _ => List.mem_cons_self
  | retract u ad => exact send u ad fun hf => absurd hen hf
  | _ => exact h

end RouteLoom.Network
