import Mathlib.Algebra.BigOperators.Group.Finset.Basic
import Mathlib.Algebra.Order.BigOperators.Group.Finset
import RouteLoom.Basic
import RouteLoom.Lib.Segment
import RouteLoom.Lib.Sha256

/-!
# Assembling an object

An object of known length arrives in cells of a fixed grid, in any order and with repetitions. Each
cell is written once; a repetition must repeat its bytes. The assembly is complete when as many bytes
have been received as the object is long.

* `ObjectAssembler.begin`, `insert`, `verify`, `reset`
* `Holds` : the cells received so far are cells of one content
* `Holds.data_eq` : a complete assembly is that content
-/

namespace RouteLoom.Object

open Lib List

structure ObjectAssembler where
  storage : List UInt8 := []
  bitmap : List Bool := []
  deadlineMs : MonotonicMs := 0
  total : Nat := 0
  cell : Nat := 0
  received : Nat := 0
  deriving DecidableEq, Repr

namespace ObjectAssembler

def active (a : ObjectAssembler) : Bool := a.total != 0

def complete (a : ObjectAssembler) : Bool := a.active && a.received == a.total

def expired (now : MonotonicMs) (a : ObjectAssembler) : Bool :=
  a.active && a.deadlineMs != 0 && a.deadlineMs ≤ now

def data (a : ObjectAssembler) : List UInt8 := a.storage.take a.total

/-- Whether cell `k` has been received. -/
def bit (k : Nat) (a : ObjectAssembler) : Bool := a.bitmap.getD k false

/-- The number of bytes of cell `k`. -/
def cellSize (k : Nat) (a : ObjectAssembler) : Nat := min (a.total - k * a.cell) a.cell

/-- Start over in a buffer of the caller, whose content is immaterial. -/
def begin (storage : List UInt8) (bitmapBytes total cell : Nat) (deadlineMs : MonotonicMs)
    (a : ObjectAssembler) : Except Status ObjectAssembler :=
  if a.active then .error ⟨.busy, "assembly active"⟩
  else if total == 0 || cell == 0 || storage.length < total ||
      bitmapBytes < ((total + cell - 1) / cell + 7) / 8 then
    .error ⟨.invalidArgument, "assembly bounds"⟩
  else .ok {
    storage, total, cell, deadlineMs, bitmap := List.replicate (8 * bitmapBytes) false, received := 0 }

/-- Write a cell, unless it is there. -/
def put (k : Nat) (bytes : List UInt8) (a : ObjectAssembler) : ObjectAssembler :=
  if a.bit k then a
  else { a with
    storage := patch a.storage (k * a.cell) bytes
    bitmap := a.bitmap.set k true
    received := a.received + bytes.length }

/-- One cell of the grid, or any run of bytes if the cells are single bytes. -/
def insert (offset : Nat) (bytes : List UInt8) (now : MonotonicMs) (a : ObjectAssembler) :
    Except Status ObjectAssembler :=
  if !a.active then .error ⟨.invalidState, "assembly inactive"⟩
  else if a.expired now then .error ⟨.expired, "assembly expired"⟩
  else if bytes.isEmpty || a.total ≤ offset || a.total - offset < bytes.length ||
      (a.cell != 1 && (offset % a.cell != 0 || bytes.length != min (a.total - offset) a.cell)) then
    .error ⟨.invalidArgument, "assembly grid"⟩
  else if (List.range bytes.length).any fun i =>
      a.bit ((offset + i) / a.cell) && a.storage.getD (offset + i) 0 != bytes.getD i 0 then
    .error ⟨.conflict, "assembly conflict"⟩
  else if a.cell != 1 then .ok (a.put (offset / a.cell) bytes)
  else .ok ((List.range bytes.length).foldl (fun a i => a.put (offset + i) [bytes.getD i 0]) a)

def verify (digest : List UInt8) (a : ObjectAssembler) : Except Status Unit :=
  if !a.complete then .error ⟨.invalidState, "assembly incomplete"⟩
  else if digest.length != 16 && digest.length != 32 then
    .error ⟨.invalidArgument, "assembly digest length"⟩
  else if (Sha256.digest a.data).take digest.length == digest then .ok ()
  else .error ⟨.integrityError, "assembly digest mismatch"⟩

def reset (_ : ObjectAssembler) : ObjectAssembler := {}

end ObjectAssembler

/-! ## Cells of one content -/

open ObjectAssembler

variable {content : List UInt8} {a : ObjectAssembler}

/-- The number of cells. -/
def cells (a : ObjectAssembler) : Nat := (a.total + a.cell - 1) / a.cell

/-- Every cell received is a cell of `content`, and `received` counts their bytes. -/
structure Holds (content : List UInt8) (a : ObjectAssembler) : Prop where
  total : a.total = content.length
  cell : 0 < a.cell
  room : a.total ≤ a.storage.length
  bits : cells a ≤ a.bitmap.length
  bytes : ∀ p < a.total, a.bit (p / a.cell) = true → a.storage[p]? = content[p]?
  count : a.received = ∑ k ∈ Finset.range (cells a), if a.bit k then a.cellSize k else 0

theorem lt_cells (hcell : 0 < a.cell) {p : Nat} (hp : p < a.total) : p / a.cell < cells a := by
  unfold cells
  rw [Nat.div_lt_iff_lt_mul hcell]
  have h := Nat.lt_mul_div_succ (a.total + a.cell - 1) hcell
  have hmul : a.cell * ((a.total + a.cell - 1) / a.cell + 1) =
      (a.total + a.cell - 1) / a.cell * a.cell + a.cell := by
    rw [Nat.mul_add, Nat.mul_one, Nat.mul_comm]
  omega

theorem mul_lt_of_lt_cells {k : Nat} (hk : k < cells a) : k * a.cell < a.total := by
  unfold cells at hk
  have hcell : 0 < a.cell := by
    by_contra hzero
    rw [Nat.eq_zero_of_not_pos hzero] at hk
    simp at hk
  have h : (k + 1) * a.cell ≤ a.total + a.cell - 1 := (Nat.le_div_iff_mul_le hcell).mp hk
  rw [Nat.add_mul, Nat.one_mul] at h
  omega

theorem sum_cellSize (a : ObjectAssembler) (n : Nat) :
    ∑ k ∈ Finset.range n, a.cellSize k = min a.total (n * a.cell) := by
  induction n with
  | zero => simp
  | succ n ih =>
    rw [Finset.sum_range_succ, ih, cellSize, Nat.add_mul, Nat.one_mul]
    omega

theorem begin_holds {storage : List UInt8} {bitmapBytes total cell : Nat} {deadline : MonotonicMs}
    {a' : ObjectAssembler} (h : a.begin storage bitmapBytes total cell deadline = .ok a')
    (hcontent : total = content.length) : Holds content a' ∧ a'.cell = cell ∧ a'.deadlineMs = deadline := by
  unfold ObjectAssembler.begin at h
  split at h
  · cases h
  split at h
  · cases h
  next hbounds =>
  simp only [Bool.or_eq_true, beq_iff_eq, decide_eq_true_eq, not_or, Nat.not_lt] at hbounds
  obtain ⟨⟨⟨htotal, hcell⟩, hroom⟩, hbits⟩ := hbounds
  simp only [Except.ok.injEq] at h
  have hbitmap : a'.bitmap = List.replicate (8 * bitmapBytes) false := by rw [← h]
  have hfalse : ∀ k, a'.bit k = false := by
    intro k
    rw [bit, hbitmap, getD_eq_getElem?_getD, getElem?_replicate]
    split <;> rfl
  subst h
  refine ⟨⟨hcontent, Nat.pos_of_ne_zero hcell, hroom, ?_, fun p _ hp => ?_, ?_⟩, rfl, rfl⟩
  · rw [length_replicate]
    show (total + cell - 1) / cell ≤ _
    omega
  · rw [hfalse] at hp
    cases hp
  · simp only [hfalse, Bool.false_eq_true, if_false, Finset.sum_const_zero]

theorem bit_set {k : Nat} (hk : k < a.bitmap.length) (storage : List UInt8) (received j : Nat) :
    bit j { a with storage, bitmap := a.bitmap.set k true, received } = (decide (j = k) || a.bit j) := by
  rw [bit, bit, getD_eq_getElem?_getD, getD_eq_getElem?_getD, getElem?_set]
  by_cases hj : k = j
  · subst hj
    simp [hk]
  · simp [hj, Ne.symm hj]

theorem Holds.put (h : Holds content a) {k : Nat} (hk : k < cells a) {bytes : List UInt8}
    (hbytes : bytes = Lib.segment content (k * a.cell) (a.cellSize k)) : Holds content (a.put k bytes) := by
  unfold ObjectAssembler.put
  split
  · exact h
  next hbit =>
  have hstart := mul_lt_of_lt_cells hk
  have htotal := h.total
  have hroom := h.room
  have hlength : bytes.length = a.cellSize k := by
    rw [hbytes, segment_length]
    unfold cellSize
    omega
  have hsize : k * a.cell + bytes.length ≤ a.total := by
    rw [hlength]
    unfold cellSize
    omega
  have hset := bit_set (Nat.lt_of_lt_of_le hk h.bits) (patch a.storage (k * a.cell) bytes)
    (a.received + bytes.length)
  refine ⟨h.total, h.cell, ?_, ?_, fun p hp hbit' => ?_, ?_⟩
  · rw [length_patch (by omega)]
    exact hroom
  · rw [length_set]
    exact h.bits
  · rw [hset] at hbit'
    dsimp only at hp hbit' ⊢
    rw [getElem?_patch (by omega)]
    split
    · next hin =>
      rw [hbytes, Lib.segment, getElem?_take_of_lt (by omega), getElem?_drop]
      congr 1
      omega
    · next hout =>
      refine h.bytes p hp ?_
      have hne : p / a.cell ≠ k := by
        rintro rfl
        refine hout ⟨Nat.div_mul_le_self p a.cell, ?_⟩
        rw [hlength, cellSize]
        have := Nat.lt_div_mul_add (a := p) h.cell
        omega
      simpa only [hne, decide_false, Bool.false_or] using hbit'
  · simp only [hset]
    show a.received + bytes.length =
      ∑ j ∈ Finset.range (cells a), if (decide (j = k) || a.bit j) = true then a.cellSize j else 0
    rw [h.count, hlength, ← Finset.sum_erase_add _ _ (Finset.mem_range.mpr hk),
      ← Finset.sum_erase_add (Finset.range (cells a)) _ (Finset.mem_range.mpr hk), if_neg hbit,
      if_pos (by simp), Nat.add_zero]
    congr 1
    refine Finset.sum_congr rfl fun j hj => ?_
    simp only [Finset.ne_of_mem_erase hj, decide_false, Bool.false_or]

/-- **A complete assembly is the content.** -/
theorem Holds.data_eq (h : Holds content a) (hcomplete : a.complete = true) : a.data = content := by
  simp only [complete, Bool.and_eq_true, beq_iff_eq] at hcomplete
  have hcover : ∑ k ∈ Finset.range (cells a), a.cellSize k = a.total := by
    rw [sum_cellSize, Nat.min_eq_left]
    rcases Nat.eq_zero_or_pos a.total with hzero | hpos
    · omega
    · have := lt_cells h.cell (show a.total - 1 < a.total by omega)
      have hlt := Nat.lt_div_mul_add (a := a.total - 1) h.cell
      have hle : ((a.total - 1) / a.cell + 1) * a.cell ≤ cells a * a.cell := Nat.mul_le_mul_right _ this
      rw [Nat.add_mul, Nat.one_mul] at hle
      omega
  have hall : ∀ k < cells a, a.bit k = true := by
    intro k hk
    by_contra hbit
    have hlt : (∑ j ∈ Finset.range (cells a), if a.bit j then a.cellSize j else 0) <
        ∑ j ∈ Finset.range (cells a), a.cellSize j := by
      refine Finset.sum_lt_sum (fun j _ => ?_) ⟨k, Finset.mem_range.mpr hk, ?_⟩
      · split
        · exact Nat.le_refl _
        · exact Nat.zero_le _
      · rw [if_neg hbit, cellSize]
        have := mul_lt_of_lt_cells hk
        have := h.cell
        omega
    rw [← h.count, hcover, hcomplete.2] at hlt
    exact Nat.lt_irrefl _ hlt
  have htotal := h.total
  have hroom := h.room
  unfold data
  refine ext_getElem? fun p => ?_
  by_cases hp : p < a.total
  · rw [getElem?_take_of_lt hp]
    exact h.bytes p hp (hall _ (lt_cells h.cell hp))
  · rw [getElem?_eq_none, getElem?_eq_none]
    · omega
    · rw [length_take]
      omega

/-- On a grid of cells, a part of the content that is accepted is a cell of it. -/
theorem insert_holds (h : Holds content a) (hgrid : a.cell ≠ 1) {offset : Nat} {bytes : List UInt8}
    {now : MonotonicMs} {a' : ObjectAssembler} (hinsert : a.insert offset bytes now = .ok a')
    (hbytes : bytes = Lib.segment content offset bytes.length) :
    Holds content a' ∧ a'.cell = a.cell ∧ a'.deadlineMs = a.deadlineMs ∧ a'.total = a.total := by
  unfold ObjectAssembler.insert at hinsert
  split at hinsert
  · cases hinsert
  split at hinsert
  · cases hinsert
  split at hinsert
  · cases hinsert
  next hbounds =>
  split at hinsert
  · cases hinsert
  rw [if_pos (by simpa using hgrid)] at hinsert
  cases hinsert
  simp only [Bool.or_eq_true, decide_eq_true_eq, not_or, Nat.not_le, Nat.not_lt, Bool.and_eq_true,
    bne_iff_ne, ne_eq, hgrid, not_false_eq_true, true_and, Decidable.not_not] at hbounds
  obtain ⟨⟨⟨-, hlow⟩, -⟩, hmod, hsize⟩ := hbounds
  have hoffset : offset / a.cell * a.cell = offset := Nat.div_mul_cancel (Nat.dvd_of_mod_eq_zero hmod)
  refine ⟨h.put (lt_cells h.cell hlow) ?_, ?_, ?_, ?_⟩
  · rw [hoffset, cellSize, hoffset, ← hsize]
    exact hbytes
  all_goals
    unfold ObjectAssembler.put
    split <;> rfl

end RouteLoom.Object
