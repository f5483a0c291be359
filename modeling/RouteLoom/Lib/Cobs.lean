import Mathlib.Data.List.Basic

/-!
# Zero-free coding in blocks

A byte string is cut at its zeros, and also after every 254 bytes without one. Each block is sent
behind a byte that holds its length plus one, so a codeword has no zero. A block that is not full
stands for its bytes and the zero behind them; the last block stands for its bytes alone.

* `Cobs.wire`, `plain` : what a list of blocks is sent as and what it stands for
* `Cobs.Cutting` : an open block behind complete ones, and how one more byte extends it
* `Cobs.zero_notMem_wire`, `Cobs.length_wire_le` : a codeword has no zero and bounded overhead
-/

namespace Lib.Cobs

open List

def maxBlock : Nat := 254

/-- Short enough for its code byte, and without a zero. -/
structure Block (b : List UInt8) : Prop where
  length_le : b.length ≤ maxBlock
  zero_notMem : 0 ∉ b

def code (b : List UInt8) : UInt8 := UInt8.ofNat (b.length + 1)

/-- A block behind its code byte. -/
def coded (b : List UInt8) : List UInt8 := code b :: b

/-- The zero that a block stands for besides its bytes. -/
def implicitZero (b : List UInt8) : List UInt8 :=
  if b.length = maxBlock then [] else [0]

def wire (blocks : List (List UInt8)) (last : List UInt8) : List UInt8 :=
  blocks.flatMap coded ++ coded last

def plain (blocks : List (List UInt8)) (last : List UInt8) : List UInt8 :=
  blocks.flatMap (fun b => b ++ implicitZero b) ++ last

variable {b last : List UInt8} {blocks : List (List UInt8)}

theorem Block.toNat_code (h : Block b) : (code b).toNat = b.length + 1 := by
  have := h.length_le
  unfold maxBlock at this
  exact UInt8.toNat_ofNat_of_lt' (by simp only [UInt8.size]; omega)

theorem Block.code_ne_zero (h : Block b) : code b ≠ 0 := by
  intro hz
  have hcode := h.toNat_code
  rw [hz] at hcode
  exact absurd hcode (by simp)

theorem Block.code_eq_max (h : Block b) : code b = 0xFF ↔ b.length = maxBlock := by
  rw [← UInt8.toNat_inj, h.toNat_code]
  show b.length + 1 = 255 ↔ b.length = 254
  omega

theorem block_nil : Block [] := ⟨Nat.zero_le _, by simp⟩

theorem Block.zero_notMem_coded (h : Block b) : 0 ∉ coded b := by
  unfold coded
  rw [mem_cons, not_or]
  exact ⟨fun hz => h.code_ne_zero hz.symm, h.zero_notMem⟩

@[simp] theorem length_coded (b : List UInt8) : (coded b).length = b.length + 1 := rfl

theorem wire_cons : wire (b :: blocks) last = coded b ++ wire blocks last := by
  simp [wire]

theorem plain_cons : plain (b :: blocks) last = b ++ implicitZero b ++ plain blocks last := by
  simp [plain]

theorem wire_ne_nil : wire blocks last ≠ [] := by
  simp [wire, coded]

theorem zero_notMem_wire (hb : ∀ b ∈ blocks, Block b) (hlast : Block last) : 0 ∉ wire blocks last := by
  intro h
  rcases mem_append.mp h with h | h
  · obtain ⟨b, hmem, hz⟩ := mem_flatMap.mp h
    exact (hb b hmem).zero_notMem_coded hz
  · exact hlast.zero_notMem_coded h

/-- Each full block costs one byte, and so does the last one. -/
theorem length_wire_le (blocks : List (List UInt8)) (last : List UInt8) :
    (wire blocks last).length ≤ (plain blocks last).length + (plain blocks last).length / maxBlock + 1 := by
  have hfull : ∃ full, (wire blocks last).length = (plain blocks last).length + full + 1 ∧
      full * maxBlock ≤ (plain blocks last).length := by
    induction blocks with
    | nil => exact ⟨0, by simp [wire, plain], by simp⟩
    | cons b blocks ih =>
      obtain ⟨full, hlength, hle⟩ := ih
      rw [wire_cons, plain_cons]
      by_cases hb : b.length = maxBlock
      · refine ⟨full + 1, ?_, ?_⟩
        · simp only [length_append, length_coded, implicitZero, if_pos hb, length_nil]
          omega
        · simp only [length_append, implicitZero, if_pos hb, length_nil, Nat.add_mul]
          omega
      · refine ⟨full, ?_, ?_⟩
        · simp only [length_append, length_coded, implicitZero, if_neg hb, length_singleton]
          omega
        · simp only [length_append, implicitZero, if_neg hb, length_singleton]
          omega
  obtain ⟨full, hlength, hle⟩ := hfull
  have hdiv : full ≤ (plain blocks last).length / maxBlock :=
    (Nat.le_div_iff_mul_le (by decide)).mpr hle
  omega

/-! ## Cutting a string into blocks -/

/-- `blocks` are complete, `last` is open, and together they stand for `bytes`. -/
structure Cutting (bytes : List UInt8) (blocks : List (List UInt8)) (last : List UInt8) : Prop where
  stands : plain blocks last = bytes
  complete : ∀ b ∈ blocks, Block b
  open_block : Block last
  room : last.length < maxBlock

variable {bytes : List UInt8}

theorem Cutting.nil : Cutting [] [] [] :=
  ⟨rfl, fun b hb => by simp at hb, block_nil, by decide⟩

theorem plain_concat : plain (blocks ++ [b]) [] = plain blocks b ++ implicitZero b := by
  simp [plain]

theorem Cutting.close (hb : ∀ b ∈ blocks, Block b) (hlast : Block last)
    (hplain : plain blocks last ++ implicitZero last = bytes) : Cutting bytes (blocks ++ [last]) [] := by
  refine ⟨plain_concat.trans hplain, fun b hmem => ?_, block_nil, by decide⟩
  rcases mem_append.mp hmem with hmem | hmem
  · exact hb b hmem
  · rw [mem_singleton.mp hmem]
    exact hlast

theorem Cutting.zero (h : Cutting bytes blocks last) : Cutting (bytes ++ [0]) (blocks ++ [last]) [] := by
  refine .close h.complete h.open_block ?_
  rw [h.stands, implicitZero, if_neg (Nat.ne_of_lt h.room)]

theorem Cutting.block_concat (h : Cutting bytes blocks last) {byte : UInt8} (hbyte : byte ≠ 0) :
    Block (last ++ [byte]) := by
  refine ⟨?_, ?_⟩
  · rw [length_append]
    exact h.room
  · rw [mem_append, mem_singleton, not_or]
    exact ⟨h.open_block.zero_notMem, fun hz => hbyte hz.symm⟩

theorem Cutting.plain_byte (h : Cutting bytes blocks last) (byte : UInt8) :
    plain blocks (last ++ [byte]) = bytes ++ [byte] := by
  rw [← h.stands, plain, plain, append_assoc]

theorem Cutting.fill (h : Cutting bytes blocks last) {byte : UInt8} (hbyte : byte ≠ 0)
    (hfull : last.length + 1 = maxBlock) : Cutting (bytes ++ [byte]) (blocks ++ [last ++ [byte]]) [] := by
  refine .close h.complete (h.block_concat hbyte) ?_
  rw [h.plain_byte, implicitZero, if_pos (by rw [length_append]; exact hfull), append_nil]

theorem Cutting.extend (h : Cutting bytes blocks last) {byte : UInt8} (hbyte : byte ≠ 0)
    (hroom : last.length + 1 ≠ maxBlock) : Cutting (bytes ++ [byte]) blocks (last ++ [byte]) := by
  refine ⟨h.plain_byte byte, h.complete, h.block_concat hbyte, ?_⟩
  have := h.room
  rw [length_append, length_singleton]
  omega

end Lib.Cobs
