import Mathlib.Order.Interval.Finset.Nat
import RouteLoom.Lib.Machine
import RouteLoom.Lib.Stateful
import RouteLoom.Object.Assembler

/-!
# What an assembly has received

`ObjectAssembler::insert` compares a whole run of bytes with what is there before it writes any of
it. So the bytes that have arrived are those of every accepted call that covered them, and the count
is the number of positions covered.

* `insertCall` : `insert` as it reads and writes the assembler step by step
* `Painted` : an assembler that has received a set of positions
* `assembly_follows_coverage` : the state after any sequence of calls
-/

namespace RouteLoom.Object

open Lib ObjectAssembler List

/-- One call of `insert`. -/
structure Insertion where
  offset : Nat
  bytes : List UInt8
  now : MonotonicMs
  deriving DecidableEq, Repr

/-- The byte positions that a call covers. -/
def Insertion.positions (c : Insertion) : Finset Nat :=
  Finset.Ico c.offset (c.offset + c.bytes.length)

/-- The positions covered by some call of the list. -/
def covered (h : List Insertion) : Finset Nat :=
  h.toFinset.biUnion Insertion.positions

theorem Insertion.mem_positions {c : Insertion} {p : Nat} :
    p ∈ c.positions ↔ c.offset ≤ p ∧ p < c.offset + c.bytes.length :=
  Finset.mem_Ico

theorem mem_covered {h : List Insertion} {p : Nat} : p ∈ covered h ↔ ∃ c ∈ h, p ∈ c.positions := by
  simp only [covered, Finset.mem_biUnion, mem_toFinset]

theorem covered_append (h : List Insertion) (c : Insertion) :
    covered (h ++ [c]) = covered h ∪ c.positions := by
  ext p
  simp only [mem_covered, mem_append, mem_singleton, Finset.mem_union, or_and_right,
    exists_or, exists_eq_left]

theorem covered_congr {h h' : List Insertion} (hsame : ∀ c, c ∈ h ↔ c ∈ h') : covered h = covered h' := by
  ext p
  simp only [mem_covered, hsame]

/-! ## The call, step by step -/

/-- Refuse a byte that contradicts one that is there. -/
def compareAt (c : Insertion) (i : Nat) : Op ObjectAssembler Status Unit := do
  let a ← Op.get
  Op.check (refuse (a.bit ((c.offset + i) / a.cell) &&
    a.storage.getD (c.offset + i) 0 != c.bytes.getD i 0) ⟨.conflict, "assembly conflict"⟩)

/-- Write one byte of a grid of single bytes. -/
def writeAt (c : Insertion) (i : Nat) : Op ObjectAssembler Status Unit := do
  let a ← Op.get
  Op.set (a.put (c.offset + i) [c.bytes.getD i 0])

/-- `ObjectAssembler::insert` on the assembler in place. -/
def insertCall (c : Insertion) : Op ObjectAssembler Status Unit := do
  let a ← Op.get
  Op.check (refuse (!a.active) ⟨.invalidState, "assembly inactive"⟩)
  Op.check (refuse (a.expired c.now) ⟨.expired, "assembly expired"⟩)
  Op.check (refuse (c.bytes.isEmpty || a.total ≤ c.offset || a.total - c.offset < c.bytes.length ||
      (a.cell != 1 && (c.offset % a.cell != 0 || c.bytes.length != min (a.total - c.offset) a.cell)))
    ⟨.invalidArgument, "assembly grid"⟩)
  -- every overlap is compared before anything is written
  (List.range c.bytes.length).forM (compareAt c)
  if a.cell != 1 then Op.set (a.put (c.offset / a.cell) c.bytes)
  else (List.range c.bytes.length).forM (writeAt c)

variable {a a' start : ObjectAssembler} {c : Insertion}

/-- Byte `i` of the call contradicts what is there. -/
def clash (c : Insertion) (a : ObjectAssembler) (i : Nat) : Bool :=
  a.bit ((c.offset + i) / a.cell) && a.storage.getD (c.offset + i) 0 != c.bytes.getD i 0

/-- What the call writes once everything was compared. -/
def written (c : Insertion) (a : ObjectAssembler) : ObjectAssembler :=
  if a.cell != 1 then a.put (c.offset / a.cell) c.bytes
  else (List.range c.bytes.length).foldl (fun a i => a.put (c.offset + i) [c.bytes.getD i 0]) a

theorem forM_compareAt (c : Insertion) (a : ObjectAssembler) (is : List Nat) :
    is.forM (compareAt c) a = (refuse (is.any (clash c a)) ⟨.conflict, "assembly conflict"⟩, a) := by
  induction is with
  | nil => rfl
  | cons i is ih =>
    have hstep : compareAt c i a = (refuse (clash c a i) ⟨.conflict, "assembly conflict"⟩, a) := rfl
    show (compareAt c i >>= fun _ => is.forM (compareAt c)) a = _
    rw [any_cons]
    cases hclash : clash c a i with
    | true => exact Op.bind_error (by rw [hstep, hclash]; rfl)
    | false => exact (Op.bind_ok (by rw [hstep, hclash]; rfl)).trans ih

theorem forM_writeAt (c : Insertion) (a : ObjectAssembler) (is : List Nat) :
    is.forM (writeAt c) a = (.ok (), is.foldl (fun a i => a.put (c.offset + i) [c.bytes.getD i 0]) a) := by
  induction is generalizing a with
  | nil => rfl
  | cons i is ih =>
    rw [foldl_cons]
    exact ih _

/-- The call passes every check that does not depend on what has arrived. -/
structure Fits (c : Insertion) (a : ObjectAssembler) : Prop where
  active : a.active = true
  unexpired : a.expired c.now = false
  nonempty : c.bytes ≠ []
  inside : c.offset + c.bytes.length ≤ a.total
  aligned : a.cell ≠ 1 → c.offset % a.cell = 0 ∧ c.bytes.length = min (a.total - c.offset) a.cell

theorem fits_iff : Fits c a ↔ (!a.active) = false ∧ a.expired c.now = false ∧
    (c.bytes.isEmpty || decide (a.total ≤ c.offset) || decide (a.total - c.offset < c.bytes.length) ||
      (a.cell != 1 && (c.offset % a.cell != 0 ||
        c.bytes.length != min (a.total - c.offset) a.cell))) = false := by
  simp only [Bool.not_eq_false', Bool.or_eq_false_iff, isEmpty_eq_false_iff, decide_eq_false_iff_not,
    Nat.not_le, Nat.not_lt, Bool.and_eq_false_imp, bne_iff_ne, ne_eq, bne_eq_false_iff_eq]
  constructor
  · rintro ⟨hactive, hexpired, hbytes, hinside, haligned⟩
    have hpos := length_pos_iff.mpr hbytes
    exact ⟨hactive, hexpired, ⟨⟨hbytes, by omega⟩, by omega⟩, haligned⟩
  · rintro ⟨hactive, hexpired, ⟨⟨hbytes, hlow⟩, hhigh⟩, haligned⟩
    exact ⟨hactive, hexpired, hbytes, by omega, haligned⟩

theorem insertCall_eq (c : Insertion) (a : ObjectAssembler) : insertCall c a =
    if !a.active then (.error ⟨.invalidState, "assembly inactive"⟩, a)
    else if a.expired c.now then (.error ⟨.expired, "assembly expired"⟩, a)
    else if c.bytes.isEmpty || a.total ≤ c.offset || a.total - c.offset < c.bytes.length ||
        (a.cell != 1 && (c.offset % a.cell != 0 || c.bytes.length != min (a.total - c.offset) a.cell))
      then (.error ⟨.invalidArgument, "assembly grid"⟩, a)
    else if (List.range c.bytes.length).any (clash c a) then
      (.error ⟨.conflict, "assembly conflict"⟩, a)
    else (.ok (), written c a) := by
  have hwrite : (if a.cell != 1 then Op.set (a.put (c.offset / a.cell) c.bytes)
      else (List.range c.bytes.length).forM (writeAt c) : Op ObjectAssembler Status Unit) a =
      (.ok (), written c a) := by
    unfold written
    cases a.cell != 1 with
    | true => rfl
    | false => exact forM_writeAt c a _
  unfold insertCall
  rw [Op.bind_ok (show Op.get a = (.ok a, a) from rfl), Op.refuse_bind, Op.refuse_bind, Op.refuse_bind]
  have hcompare := forM_compareAt c a (List.range c.bytes.length)
  cases hany : (List.range c.bytes.length).any (clash c a) with
  | false =>
    rw [hany] at hcompare
    rw [Op.bind_ok hcompare, hwrite, if_neg Bool.false_ne_true]
  | true =>
    rw [hany] at hcompare
    rw [Op.bind_error hcompare, if_pos rfl]

/-- **A call is refused as a whole or written as a whole.** -/
theorem insertCall_cases (c : Insertion) (a : ObjectAssembler) :
    (Fits c a ∧ (∀ i < c.bytes.length, clash c a i = false) ∧ insertCall c a = (.ok (), written c a)) ∨
      ¬ (Fits c a ∧ ∀ i < c.bytes.length, clash c a i = false) ∧ ∃ e, insertCall c a = (.error e, a) := by
  rw [insertCall_eq]
  by_cases hfits : Fits c a
  · obtain ⟨hactive, hexpired, hgrid⟩ := fits_iff.mp hfits
    rw [hactive, hexpired, hgrid, if_neg Bool.false_ne_true, if_neg Bool.false_ne_true,
      if_neg Bool.false_ne_true]
    cases hany : (List.range c.bytes.length).any (clash c a) with
    | false =>
      refine .inl ⟨hfits, fun i hi => ?_, rfl⟩
      exact Bool.eq_false_iff.mpr (any_eq_false.mp hany i (mem_range.mpr hi))
    | true =>
      refine .inr ⟨fun ⟨_, hclash⟩ => ?_, _, rfl⟩
      obtain ⟨i, hi, hbad⟩ := any_eq_true.mp hany
      rw [hclash i (mem_range.mp hi)] at hbad
      cases hbad
  · refine .inr ⟨fun h => hfits h.1, ?_⟩
    rw [fits_iff] at hfits
    cases hactive : !a.active with
    | true => exact ⟨_, rfl⟩
    | false =>
      cases hexpired : a.expired c.now with
      | true => exact ⟨_, rfl⟩
      | false =>
        have hgrid := fun h => hfits ⟨hactive, hexpired, h⟩
        rw [if_neg Bool.false_ne_true, if_neg Bool.false_ne_true, if_pos (Bool.not_eq_false _ ▸ hgrid)]
        exact ⟨_, rfl⟩

/-! ## The positions received -/

/-- The assembler as `begin` leaves it. -/
structure Begun (start : ObjectAssembler) : Prop where
  active : 0 < start.total
  cell : 0 < start.cell
  room : start.total ≤ start.storage.length
  width : cells start ≤ start.bitmap.length
  clear : ∀ k, start.bit k = false
  count : start.received = 0

/-- What has become of `start` once it received the positions `S`. -/
structure Painted (start : ObjectAssembler) (S : Finset Nat) (a : ObjectAssembler) : Prop where
  total : a.total = start.total
  cell : a.cell = start.cell
  deadline : a.deadlineMs = start.deadlineMs
  room : a.storage.length = start.storage.length
  width : a.bitmap.length = start.bitmap.length
  within : ∀ p ∈ S, p < start.total
  bits : ∀ p < start.total, (a.bit (p / start.cell) = true ↔ p ∈ S)
  spare : ∀ k, cells start ≤ k → a.bit k = false
  kept : ∀ p, p ∉ S → a.storage[p]? = start.storage[p]?
  count : a.received = S.card

/-- `bytes` at `offset` where nothing has been received yet. -/
def Fills (S : Finset Nat) (offset : Nat) (bytes : List UInt8) (a a' : ObjectAssembler) : Prop :=
  ∀ p, a'.storage[p]? =
    if p ∉ S ∧ p ∈ Finset.Ico offset (offset + bytes.length) then bytes[p - offset]? else a.storage[p]?

variable {S : Finset Nat}

theorem begin_begun {old : ObjectAssembler} {storage : List UInt8} {bitmapBytes total cell : Nat}
    {deadline : MonotonicMs} (h : old.begin storage bitmapBytes total cell deadline = .ok start) :
    Begun start ∧ start.total = total := by
  unfold ObjectAssembler.begin at h
  split at h
  · cases h
  split at h
  · cases h
  next hbounds =>
  simp only [Bool.or_eq_true, beq_iff_eq, decide_eq_true_eq, not_or, Nat.not_lt] at hbounds
  obtain ⟨⟨⟨htotal, hcell⟩, hroom⟩, hbits⟩ := hbounds
  cases h
  refine ⟨⟨Nat.pos_of_ne_zero htotal, Nat.pos_of_ne_zero hcell, hroom, ?_, fun k => ?_, rfl⟩, rfl⟩
  · rw [length_replicate]
    show (total + cell - 1) / cell ≤ _
    omega
  · rw [bit, getD_eq_getElem?_getD, getElem?_replicate]
    split <;> rfl

theorem Begun.painted (hb : Begun start) : Painted start ∅ start where
  total := rfl
  cell := rfl
  deadline := rfl
  room := rfl
  width := rfl
  within := by simp
  bits := fun p _ => by simp [hb.clear]
  spare := fun k _ => hb.clear k
  kept := fun _ _ => rfl
  count := hb.count

theorem mem_cell_iff (hb : Begun start) {k p : Nat} (hp : p < start.total) :
    p ∈ Finset.Ico (k * start.cell) (k * start.cell + start.cellSize k) ↔ p / start.cell = k := by
  rw [Finset.mem_Ico, cellSize]
  constructor
  · rintro ⟨hlow, hhigh⟩
    refine Nat.div_eq_of_lt_le hlow ?_
    rw [Nat.add_mul, Nat.one_mul]
    omega
  · rintro rfl
    have hlt := Nat.lt_div_mul_add (a := p) hb.cell
    exact ⟨Nat.div_mul_le_self p start.cell, by omega⟩

theorem Painted.put (hb : Begun start) (h : Painted start S a) {k : Nat} (hk : k < cells start)
    {bytes : List UInt8} (hlength : bytes.length = start.cellSize k) :
    Painted start (S ∪ Finset.Ico (k * start.cell) (k * start.cell + bytes.length)) (a.put k bytes) ∧
      Fills S (k * start.cell) bytes a (a.put k bytes) := by
  have hstart := mul_lt_of_lt_cells hk
  have hmem : ∀ p < start.total, p ∈ Finset.Ico (k * start.cell) (k * start.cell + bytes.length) ↔
      p / start.cell = k := by
    intro p hp
    rw [hlength]
    exact mem_cell_iff hb hp
  have hbelow : ∀ p ∈ Finset.Ico (k * start.cell) (k * start.cell + bytes.length), p < start.total := by
    intro p hp
    rw [Finset.mem_Ico, hlength, cellSize] at hp
    omega
  unfold ObjectAssembler.put
  by_cases hbit : a.bit k = true
  · -- the cell is there already
    rw [if_pos hbit]
    have hsub : Finset.Ico (k * start.cell) (k * start.cell + bytes.length) ⊆ S := by
      intro p hp
      rw [← h.bits p (hbelow p hp), (hmem p (hbelow p hp)).mp hp]
      exact hbit
    rw [Finset.union_eq_left.mpr hsub]
    exact ⟨h, fun p => (if_neg fun hp => hp.1 (hsub hp.2)).symm⟩
  rw [if_neg hbit]
  have hfresh : ∀ p ∈ Finset.Ico (k * start.cell) (k * start.cell + bytes.length), p ∉ S := by
    intro p hp hS
    have hon := (h.bits p (hbelow p hp)).mpr hS
    rw [(hmem p (hbelow p hp)).mp hp] at hon
    exact hbit hon
  have hroom : k * a.cell + bytes.length ≤ a.storage.length := by
    have := hb.room
    rw [h.cell, h.room, hlength, cellSize]
    omega
  have hwidth : k < a.bitmap.length := by
    rw [h.width]
    exact Nat.lt_of_lt_of_le hk hb.width
  have hset := bit_set hwidth (patch a.storage (k * a.cell) bytes) (a.received + bytes.length)
  have hread : Fills S (k * start.cell) bytes a { a with
      storage := patch a.storage (k * a.cell) bytes, bitmap := a.bitmap.set k true
      received := a.received + bytes.length } := by
    intro p
    show (patch a.storage (k * a.cell) bytes)[p]? = _
    rw [getElem?_patch (by omega), h.cell]
    by_cases hp : p ∈ Finset.Ico (k * start.cell) (k * start.cell + bytes.length)
    · rw [if_pos (Finset.mem_Ico.mp hp), if_pos ⟨hfresh p hp, hp⟩]
    · rw [if_neg fun hin => hp (Finset.mem_Ico.mpr hin), if_neg fun hin => hp hin.2]
  refine ⟨⟨h.total, h.cell, h.deadline, ?_, ?_, ?_, ?_, ?_, ?_, ?_⟩, hread⟩
  · rw [← h.room]
    exact length_patch hroom
  · rw [← h.width]
    exact length_set
  · intro p hp
    rcases Finset.mem_union.mp hp with hp | hp
    · exact h.within p hp
    · exact hbelow p hp
  · intro p hp
    rw [hset, Bool.or_eq_true, decide_eq_true_eq, h.bits p hp, Finset.mem_union, hmem p hp, or_comm]
  · intro j hj
    rw [hset, h.spare j hj, Bool.or_false, decide_eq_false_iff_not]
    omega
  · intro p hp
    rw [Finset.mem_union, not_or] at hp
    rw [hread, if_neg fun hin => hp.2 hin.2]
    exact h.kept p hp.1
  · have hdisjoint : Disjoint S (Finset.Ico (k * start.cell) (k * start.cell + bytes.length)) :=
      Finset.disjoint_right.mpr fun p hp => hfresh p hp
    rw [Finset.card_union_of_disjoint hdisjoint, Nat.card_Ico, Nat.add_sub_cancel_left, ← h.count]

theorem Painted.puts (hb : Begun start) (h : Painted start S a) (hcell : start.cell = 1) {offset : Nat}
    {bytes : List UInt8} (n : Nat) (hn : n ≤ bytes.length) (hinside : offset + bytes.length ≤ start.total) :
    Painted start (S ∪ Finset.Ico offset (offset + n))
        ((List.range n).foldl (fun a i => a.put (offset + i) [bytes.getD i 0]) a) ∧
      Fills S offset (bytes.take n) a
        ((List.range n).foldl (fun a i => a.put (offset + i) [bytes.getD i 0]) a) := by
  induction n with
  | zero =>
    refine ⟨?_, fun p => ?_⟩
    · rw [Nat.add_zero, Finset.Ico_self, Finset.union_empty]
      exact h
    · rw [take_zero, length_nil, Nat.add_zero, Finset.Ico_self, if_neg fun hp => Finset.notMem_empty p hp.2]
      rfl
  | succ n ih =>
    obtain ⟨hpainted, hfills⟩ := ih (Nat.le_of_succ_le hn)
    rw [range_succ, foldl_append, foldl_cons, foldl_nil]
    generalize (List.range n).foldl (fun a i => a.put (offset + i) [bytes.getD i 0]) a = b at *
    have hk : offset + n < cells start := by
      rw [cells, hcell, Nat.add_sub_cancel, Nat.div_one]
      omega
    have hsize : [bytes.getD n 0].length = start.cellSize (offset + n) := by
      rw [cellSize, hcell, length_singleton]
      omega
    have hunion : S ∪ Finset.Ico offset (offset + (n + 1)) =
        S ∪ Finset.Ico offset (offset + n) ∪ Finset.Ico (offset + n) (offset + n + 1) := by
      rw [Finset.union_assoc, Finset.Ico_union_Ico_eq_Ico (Nat.le_add_right _ _) (Nat.le_succ _)]
      rfl
    obtain ⟨hput, hread⟩ := hpainted.put hb hk hsize
    rw [hcell, Nat.mul_one, length_singleton, ← hunion] at hput
    refine ⟨hput, fun p => ?_⟩
    rw [hread, hcell, Nat.mul_one, length_singleton, hfills p, length_take_of_le (by omega),
      length_take_of_le hn]
    simp only [Finset.mem_union, Finset.mem_Ico, not_or, not_and, Nat.not_lt]
    by_cases hS : p ∈ S
    · rw [if_neg fun hp => hp.1.1 hS, if_neg fun hp => hp.1 hS, if_neg fun hp => hp.1 hS]
    by_cases hp : p = offset + n
    · subst hp
      rw [if_pos ⟨⟨hS, fun _ => Nat.le_refl _⟩, Nat.le_refl _, Nat.lt_succ_self _⟩,
        if_pos ⟨hS, Nat.le_add_right _ _, by omega⟩, Nat.sub_self, Nat.add_sub_cancel_left,
        getElem?_take_of_lt (Nat.lt_succ_self n), getElem?_cons_zero,
        getD_eq_getElem?_getD, getElem?_eq_getElem hn, Option.getD_some]
    · rw [if_neg fun h => hp (by omega)]
      by_cases hin : offset ≤ p ∧ p < offset + n
      · rw [if_pos ⟨hS, hin⟩, if_pos ⟨hS, hin.1, by omega⟩, getElem?_take_of_lt (by omega),
          getElem?_take_of_lt (by omega)]
      · rw [if_neg fun h => hin h.2, if_neg fun h => hin ⟨h.2.1, by omega⟩]

theorem Fits.congr (h : Fits c a) (htotal : a'.total = a.total) (hcell : a'.cell = a.cell)
    (hdeadline : a'.deadlineMs = a.deadlineMs) : Fits c a' := by
  obtain ⟨hactive, hexpired, hbytes, hinside, haligned⟩ := h
  refine ⟨?_, ?_, hbytes, ?_, ?_⟩
  · rw [ObjectAssembler.active, htotal]
    exact hactive
  · rw [expired, ObjectAssembler.active, htotal, hdeadline]
    exact hexpired
  · rw [htotal]
    exact hinside
  · rw [hcell, htotal]
    exact haligned

theorem Painted.written (hb : Begun start) (h : Painted start S a) (hfits : Fits c a) :
    Painted start (S ∪ c.positions) (written c a) ∧ Fills S c.offset c.bytes a (written c a) := by
  have hinside := hfits.inside
  rw [h.total] at hinside
  unfold Object.written
  by_cases hcell : a.cell = 1
  · rw [hcell, if_neg (by decide)]
    have hputs := h.puts hb (h.cell.symm.trans hcell) c.bytes.length (Nat.le_refl _) hinside
    rw [take_length] at hputs
    exact hputs
  · rw [if_pos (by simpa using hcell)]
    obtain ⟨hmod, hsize⟩ := hfits.aligned hcell
    rw [h.cell] at hmod hsize ⊢
    rw [h.total] at hsize
    have hoffset : c.offset / start.cell * start.cell = c.offset :=
      Nat.div_mul_cancel (Nat.dvd_of_mod_eq_zero hmod)
    have hpos := length_pos_iff.mpr hfits.nonempty
    have hcellSize : c.bytes.length = start.cellSize (c.offset / start.cell) := by
      rw [cellSize, hoffset, hsize]
    have hput := h.put hb (lt_cells hb.cell (p := c.offset) (by omega)) hcellSize
    rw [hoffset] at hput
    exact hput

/-! ## Sequences of calls -/

/-- Whether the call succeeds. -/
def accepts (c : Insertion) (a : ObjectAssembler) : Bool :=
  (insertCall c a).1.isOk

/-- Calls of `insert` after `begin` has left `start`; a run emits the calls that were accepted. -/
def assemblyMachine (start : ObjectAssembler) : Machine ObjectAssembler Insertion Insertion where
  Init a := a = start
  Enabled _ _ := True
  next a c := (insertCall c a).2
  out a c := if accepts c a then [c] else []

/-- The state after the calls `h` have been accepted. -/
structure Assembled (start : ObjectAssembler) (h : List Insertion) (a : ObjectAssembler) : Prop where
  painted : Painted start (covered h) a
  stored : ∀ c ∈ h, ∀ i < c.bytes.length, a.storage[c.offset + i]? = c.bytes[i]?
  fits : ∀ c ∈ h, Fits c start

variable {h h' : List Insertion}

section

variable (hb : Begun start)
include hb

theorem Begun.assembled : Assembled start [] start :=
  ⟨hb.painted, by simp, by simp⟩

theorem Painted.stored_of_clash (hp : Painted start S a)
    (hinside : c.offset + c.bytes.length ≤ start.total) {i : Nat} (hi : i < c.bytes.length)
    (hS : c.offset + i ∈ S) : clash c a i = false ↔ a.storage[c.offset + i]? = c.bytes[i]? := by
  have hroom := hb.room
  have hlt : c.offset + i < a.storage.length := by
    rw [hp.room]
    omega
  have hbit : a.bit ((c.offset + i) / a.cell) = true := by
    rw [hp.cell, hp.bits _ (by omega)]
    exact hS
  rw [clash, hbit, Bool.true_and, getD_eq_getElem?_getD, getD_eq_getElem?_getD,
    getElem?_eq_getElem hlt, getElem?_eq_getElem hi, bne_eq_false_iff_eq, Option.getD_some,
    Option.getD_some, Option.some.injEq]

theorem Assembled.written (ha : Assembled start h a) (hfits : Fits c a)
    (hclash : ∀ i < c.bytes.length, clash c a i = false) : Assembled start (h ++ [c]) (written c a) := by
  obtain ⟨hpainted, hfills⟩ := ha.painted.written hb hfits
  have hinside := hfits.inside
  rw [ha.painted.total] at hinside
  refine ⟨?_, ?_, ?_⟩
  · rw [covered_append]
    exact hpainted
  · intro d hd i hi
    rw [hfills]
    rcases mem_append.mp hd with hd | hd
    · -- covered before, so the byte stays
      have hcovered : d.offset + i ∈ covered h :=
        mem_covered.mpr ⟨d, hd, Insertion.mem_positions.mpr ⟨Nat.le_add_right _ _, by omega⟩⟩
      rw [if_neg fun hp => hp.1 hcovered]
      exact ha.stored d hd i hi
    · rw [mem_singleton.mp hd] at hi ⊢
      by_cases hcovered : c.offset + i ∈ covered h
      · rw [if_neg fun hp => hp.1 hcovered]
        exact (ha.painted.stored_of_clash hb hinside hi hcovered).mp (hclash i hi)
      · rw [if_pos ⟨hcovered, Finset.mem_Ico.mpr ⟨Nat.le_add_right _ _, by omega⟩⟩, Nat.add_sub_cancel_left]
  · intro d hd
    rcases mem_append.mp hd with hd | hd
    · exact ha.fits d hd
    · rw [mem_singleton.mp hd]
      exact hfits.congr ha.painted.total.symm ha.painted.cell.symm ha.painted.deadline.symm

theorem Assembled.step (ha : Assembled start h a) (c : Insertion) :
    Assembled start (h ++ (assemblyMachine start).out a c) ((assemblyMachine start).next a c) := by
  show Assembled start (h ++ if accepts c a then [c] else []) (insertCall c a).2
  unfold accepts
  rcases insertCall_cases c a with ⟨hfits, hclash, heq⟩ | ⟨-, e, heq⟩
  · rw [heq]
    exact ha.written hb hfits hclash
  · rw [heq]
    show Assembled start (h ++ []) a
    rw [append_nil]
    exact ha

omit hb in
theorem allEnabled_assembly (cs : List Insertion) (a : ObjectAssembler) :
    (assemblyMachine start).AllEnabled a cs := by
  induction cs generalizing a with
  | nil => trivial
  | cons c cs ih => exact ⟨trivial, ih _⟩

theorem run_assembled (hr : (assemblyMachine start).Run a h) : Assembled start h a := by
  refine Machine.Run.invariant (M := assemblyMachine start) (I := fun a h => Assembled start h a)
    (fun s hs => ?_) (fun s h c ha _ => ha.step hb c) hr
  cases hs
  exact hb.assembled

theorem Assembled.complete_iff (ha : Assembled start h a) :
    a.complete = true ↔ ∀ p < start.total, p ∈ covered h := by
  have hsub : covered h ⊆ Finset.range start.total := fun p hp =>
    Finset.mem_range.mpr (ha.painted.within p hp)
  have hactive : a.active = true := by
    have := hb.active
    rw [active, ha.painted.total, bne_iff_ne]
    omega
  rw [complete, hactive, Bool.true_and, beq_iff_eq, ha.painted.total, ha.painted.count]
  constructor
  · intro hcard p hp
    have hall := Finset.eq_of_subset_of_card_le hsub (by rw [Finset.card_range, hcard])
    rw [hall]
    exact Finset.mem_range.mpr hp
  · intro hall
    have heq : covered h = Finset.range start.total :=
      Finset.Subset.antisymm hsub fun p hp => hall p (Finset.mem_range.mp hp)
    rw [heq, Finset.card_range]

theorem Painted.bit_eq (hp : Painted start S a) (hp' : Painted start S a') (k : Nat) :
    a.bit k = a'.bit k := by
  by_cases hk : k < cells start
  · have hlt := mul_lt_of_lt_cells hk
    have hdiv : k * start.cell / start.cell = k := Nat.mul_div_cancel k hb.cell
    have h₁ := hp.bits _ hlt
    have h₂ := hp'.bits _ hlt
    rw [hdiv] at h₁ h₂
    exact Bool.eq_iff_iff.mpr (h₁.trans h₂.symm)
  · rw [hp.spare k (Nat.le_of_not_lt hk), hp'.spare k (Nat.le_of_not_lt hk)]

/-- **The state depends on which calls were accepted, not on their order.** -/
theorem Assembled.unique (ha : Assembled start h a) (ha' : Assembled start h' a')
    (hsame : ∀ c, c ∈ h ↔ c ∈ h') : a' = a := by
  have hcovered := covered_congr hsame
  have hp := ha.painted
  have hp' := ha'.painted
  rw [← hcovered] at hp'
  have hstorage : a'.storage = a.storage := by
    refine ext_getElem? fun p => ?_
    by_cases hin : p ∈ covered h
    · obtain ⟨c, hc, hpos⟩ := mem_covered.mp hin
      obtain ⟨i, rfl⟩ := Nat.exists_eq_add_of_le (Insertion.mem_positions.mp hpos).1
      have hi : i < c.bytes.length := by
        have := (Insertion.mem_positions.mp hpos).2
        omega
      rw [ha.stored c hc i hi, ha'.stored c ((hsame c).mp hc) i hi]
    · rw [hp.kept p hin, hp'.kept p hin]
  have hbitmap : a'.bitmap = a.bitmap := by
    have hlength : a'.bitmap.length = a.bitmap.length := hp'.width.trans hp.width.symm
    refine ext_getElem hlength fun k hk hk' => ?_
    have hbit := hp'.bit_eq hb hp k
    rwa [bit, bit, getD_eq_getElem?_getD, getD_eq_getElem?_getD, getElem?_eq_getElem hk,
      getElem?_eq_getElem hk'] at hbit
  obtain ⟨⟩ := a
  obtain ⟨⟩ := a'
  simp only [ObjectAssembler.mk.injEq]
  exact ⟨hstorage, hbitmap, hp'.deadline.trans hp.deadline.symm, hp'.total.trans hp.total.symm,
    hp'.cell.trans hp.cell.symm, hp'.count.trans hp.count.symm⟩

/-- A call that was accepted in one order is accepted in any other. -/
theorem Assembled.accepts (ha : Assembled start h a) (ha' : Assembled start h' a')
    (hsub : ∀ d ∈ h', d ∈ h) (hc : c ∈ h) : insertCall c a' = (.ok (), Object.written c a') := by
  have hp' := ha'.painted
  have hfits := ha.fits c hc
  have hclash : ∀ i < c.bytes.length, clash c a' i = false := by
    intro i hi
    by_cases hin : c.offset + i ∈ covered h'
    · rw [hp'.stored_of_clash hb hfits.inside hi hin, ← ha.stored c hc i hi]
      obtain ⟨d, hd, hpos⟩ := mem_covered.mp hin
      obtain ⟨j, hj⟩ := Nat.exists_eq_add_of_le (Insertion.mem_positions.mp hpos).1
      have hjlt : j < d.bytes.length := by
        have := (Insertion.mem_positions.mp hpos).2
        omega
      rw [hj, ha'.stored d hd j hjlt, ha.stored d (hsub d hd) j hjlt]
    · have hlt : c.offset + i < start.total := by
        have := hfits.inside
        omega
      have hbit : a'.bit ((c.offset + i) / a'.cell) = false := by
        rw [hp'.cell]
        exact Bool.eq_false_iff.mpr fun hon => hin ((hp'.bits _ hlt).mp hon)
      rw [clash, hbit, Bool.false_and]
  rcases insertCall_cases c a' with ⟨-, -, heq⟩ | ⟨hrefused, -⟩
  · exact heq
  · exact absurd ⟨hfits.congr hp'.total hp'.cell hp'.deadline, hclash⟩ hrefused

/-- Calls that were all accepted in one order are all accepted in another. -/
theorem exec_accepted (ha : Assembled start h a) (cs : List Insertion) (hcs : ∀ c ∈ cs, c ∈ h)
    (ha' : Assembled start h' a') (hsub : ∀ d ∈ h', d ∈ h) :
    ∃ b, (assemblyMachine start).exec a' h' cs = (b, h' ++ cs) ∧ Assembled start (h' ++ cs) b := by
  induction cs generalizing a' h' with
  | nil => exact ⟨a', by rw [append_nil]; rfl, by rw [append_nil]; exact ha'⟩
  | cons c cs ih =>
    have hc := hcs c mem_cons_self
    have hok := ha.accepts hb ha' hsub hc
    have hstep := ha'.step hb c
    have hout : (assemblyMachine start).out a' c = [c] := by
      show (if Object.accepts c a' then [c] else []) = [c]
      rw [Object.accepts, hok]
      rfl
    rw [hout] at hstep
    have hsub' : ∀ d ∈ h' ++ [c], d ∈ h := by
      intro d hd
      rcases mem_append.mp hd with hd | hd
      · exact hsub d hd
      · rw [mem_singleton.mp hd]
        exact hc
    obtain ⟨b, hexec, hb'⟩ := ih (fun d hd => hcs d (mem_cons_of_mem c hd)) hstep hsub'
    rw [append_assoc, singleton_append] at hexec hb'
    refine ⟨b, ?_, hb'⟩
    rw [Machine.exec, hout]
    exact hexec

end

/-- **The assembly follows the positions covered by the accepted calls**, and does not depend on
their order. -/
theorem assembly_follows_coverage {old start : ObjectAssembler} {storage : List UInt8}
    {bitmapBytes total cell : Nat} {deadline : MonotonicMs}
    (hbegin : old.begin storage bitmapBytes total cell deadline = .ok start) :
    (∀ a h, (assemblyMachine start).Run a h →
      a.received = (covered h).card ∧ (a.complete = true ↔ ∀ p < total, p ∈ covered h) ∧
        (∀ c ∈ h, ∀ i < c.bytes.length, a.storage[c.offset + i]? = c.bytes[i]?) ∧
        ∀ c e, (insertCall c a).1 = .error e → (insertCall c a).2 = a) ∧
      (∀ a a' h h', (assemblyMachine start).Run a h → (assemblyMachine start).Run a' h' →
        (∀ c, c ∈ h ↔ c ∈ h') → a' = a) ∧
      ∀ cs cs', cs.Perm cs' → ((assemblyMachine start).exec start [] cs).2 = cs →
        (assemblyMachine start).exec start [] cs' = (((assemblyMachine start).exec start [] cs).1, cs') := by
  obtain ⟨hb, rfl⟩ := begin_begun hbegin
  refine ⟨fun a h hr => ?_, fun a a' h h' hr hr' hsame => ?_, fun cs cs' hperm hall => ?_⟩
  · have ha := run_assembled hb hr
    refine ⟨ha.painted.count, ha.complete_iff hb, ha.stored, fun c e he => ?_⟩
    rcases insertCall_cases c a with ⟨-, -, heq⟩ | ⟨-, e', heq⟩
    · rw [heq] at he
      cases he
    · rw [heq]
  · exact (run_assembled hb hr).unique hb (run_assembled hb hr') hsame
  · have hr := Machine.run_exec (M := assemblyMachine start) rfl cs (allEnabled_assembly cs start)
    rw [hall] at hr
    have ha := run_assembled hb hr
    obtain ⟨b, hexec, hb'⟩ := exec_accepted hb ha cs' (fun c hc => hperm.mem_iff.mpr hc) hb.assembled (by simp)
    rw [nil_append] at hexec hb'
    rw [hexec, ha.unique hb hb' fun c => hperm.mem_iff]

/-- Three single bytes. -/
def tray : ObjectAssembler :=
  { storage := [0, 0, 0], bitmap := List.replicate 8 false, total := 3, cell := 1 }

/-- Two calls that share the middle byte. -/
def shared : List Insertion := [⟨1, [8, 9], 0⟩, ⟨0, [7, 8], 0⟩]

/-- The two calls complete the object, in either order. -/
theorem assembly_follows_coverage_sample :
    ({} : ObjectAssembler).begin [0, 0, 0] 1 3 1 0 = .ok tray ∧
      ∃ a, (assemblyMachine tray).Run a shared ∧ a.received = 3 ∧ a.complete = true ∧
        (assemblyMachine tray).exec tray [] shared.reverse = (a, shared.reverse) := by
  have hbegin : ({} : ObjectAssembler).begin [0, 0, 0] 1 3 1 0 = .ok tray := rfl
  obtain ⟨hruns, -, horders⟩ := assembly_follows_coverage hbegin
  have hall : ((assemblyMachine tray).exec tray [] shared).2 = shared := by decide
  have hr := Machine.run_exec (M := assemblyMachine tray) rfl shared (allEnabled_assembly shared tray)
  rw [hall] at hr
  obtain ⟨hcount, hcomplete, -, -⟩ := hruns _ _ hr
  refine ⟨hbegin, _, hr, ?_, hcomplete.mpr (by decide), horders shared _ (reverse_perm shared).symm hall⟩
  rw [hcount]
  decide

end RouteLoom.Object
