import Mathlib.Algebra.Group.Nat.Defs
import Mathlib.Data.Nat.Bitwise

/-!
# A 64-bit sliding window

The largest counter seen and one bit for each of the 64 counters up to it. A counter above the
maximum is fresh, one inside the window is fresh while its bit is clear, and one below the window
never is.

* `SlidingWindow.fresh` : the counter was not recorded and is not too old
* `SlidingWindow.fresh_insert` : **recording a counter makes only fresh counters stale**
-/

namespace Lib

structure SlidingWindow where
  maximum : UInt64 := 0
  bitmap : UInt64 := 0
  deriving DecidableEq, Repr

namespace SlidingWindow

/-- Bit `i` of a 64-bit map. -/
def bit (bitmap i : UInt64) : Bool := bitmap.toNat.testBit i.toNat

def fresh (w : SlidingWindow) (c : UInt64) : Bool :=
  w.maximum < c || (w.maximum - c < 64 && !bit w.bitmap (w.maximum - c))

/-- Record a counter. -/
def insert (w : SlidingWindow) (c : UInt64) : SlidingWindow :=
  if w.maximum < c then
    ⟨c, if 64 ≤ c - w.maximum then 1 else (w.bitmap <<< (c - w.maximum)) ||| 1⟩
  else ⟨w.maximum, w.bitmap ||| (1 <<< (w.maximum - c))⟩

variable {i b c : UInt64}

theorem toNat_mask (hi : i < 64) : ((1 : UInt64) <<< i).toNat = 2 ^ i.toNat := by
  have hlt : i.toNat < 64 := hi
  rw [UInt64.toNat_shiftLeft, Nat.mod_eq_of_lt hlt, show (1 : UInt64).toNat = 1 from rfl, Nat.one_shiftLeft]
  exact Nat.mod_eq_of_lt (Nat.pow_lt_pow_right (by decide) hlt)

theorem bit_eq_and_mask (hi : i < 64) : ((b &&& (1 <<< i)) != 0) = bit b i := by
  have hval : (b &&& (1 <<< i)).toNat = b.toNat &&& 2 ^ i.toNat := by
    rw [UInt64.toNat_and, toNat_mask hi]
  have hne : (b &&& (1 <<< i)) ≠ 0 ↔ b.toNat &&& 2 ^ i.toNat ≠ 0 := by
    rw [← hval, ne_eq, ne_eq, ← UInt64.toNat_inj]
    rfl
  rw [Bool.eq_iff_iff, bne_iff_ne, hne, Nat.and_two_pow, bit]
  cases b.toNat.testBit i.toNat
  · simp
  · simp

theorem bit_eq_shift_and (hi : i < 64) : ((b >>> i) &&& 1 != 0) = bit b i := by
  have hlt : i.toNat < 64 := hi
  have hval : ((b >>> i) &&& 1).toNat = (b.toNat >>> i.toNat) &&& 1 := by
    rw [UInt64.toNat_and, UInt64.toNat_shiftRight, Nat.mod_eq_of_lt hlt]
    rfl
  have hne : ((b >>> i) &&& 1) ≠ 0 ↔ (b.toNat >>> i.toNat) &&& 1 ≠ 0 := by
    rw [← hval, ne_eq, ne_eq, ← UInt64.toNat_inj]
    rfl
  rw [Bool.eq_iff_iff, bne_iff_ne, hne, bit, Nat.testBit, bne_iff_ne, Nat.land_comm]

theorem bit_or_one (h : bit (b ||| 1) i = false) : bit b i = false ∧ i ≠ 0 := by
  unfold bit at h ⊢
  rw [UInt64.toNat_or, Nat.testBit_or, Bool.or_eq_false_iff] at h
  refine ⟨h.1, ?_⟩
  rintro rfl
  exact absurd h.2 (by decide)

theorem bit_or_mask {j : UInt64} (hj : j < 64) (h : bit (b ||| (1 <<< j)) i = false) :
    bit b i = false ∧ i ≠ j := by
  unfold bit at h ⊢
  rw [UInt64.toNat_or, Nat.testBit_or, Bool.or_eq_false_iff, toNat_mask hj] at h
  refine ⟨h.1, ?_⟩
  rintro rfl
  rw [Nat.testBit_two_pow_self] at h
  exact absurd h.2 (by decide)

theorem bit_shiftLeft {d : UInt64} (hd : d < 64) (hi : d.toNat + i.toNat < 64) :
    ((b <<< d).toNat).testBit (d.toNat + i.toNat) = bit b i := by
  have hlt : d.toNat < 64 := hd
  rw [UInt64.toNat_shiftLeft, Nat.mod_eq_of_lt hlt, Nat.testBit_mod_two_pow, Nat.testBit_shiftLeft]
  simp [hi, bit]

theorem maximum_insert (w : SlidingWindow) (c : UInt64) :
    (w.insert c).maximum = if w.maximum < c then c else w.maximum := by
  unfold insert
  split
  · rfl
  · rfl

theorem le_maximum_insert (w : SlidingWindow) (c : UInt64) :
    w.maximum ≤ (w.insert c).maximum ∧ c ≤ (w.insert c).maximum := by
  rw [maximum_insert]
  split
  · rename_i h
    exact ⟨UInt64.le_of_lt h, UInt64.le_refl c⟩
  · rename_i h
    exact ⟨UInt64.le_refl _, UInt64.not_lt.mp h⟩

theorem fresh_iff {w : SlidingWindow} :
    w.fresh c = true ↔ w.maximum < c ∨ (w.maximum - c < 64 ∧ bit w.bitmap (w.maximum - c) = false) := by
  simp [fresh]

/-- A counter inside the window after the maximum moved to `c`. -/
theorem fresh_of_moved {w : SlidingWindow} {x : UInt64} (hmax : w.maximum < c) (hx : x ≤ c) (hlt : c - x < 64)
    (hbit : bit (if 64 ≤ c - w.maximum then 1 else (w.bitmap <<< (c - w.maximum)) ||| 1)
      (c - x) = false) : w.fresh x = true ∧ x ≠ c := by
  have hne : c - x ≠ 0 → x ≠ c := by
    rintro h rfl
    exact h (UInt64.sub_self x)
  have hsub : (c - x).toNat = c.toNat - x.toNat := UInt64.toNat_sub_of_le _ _ hx
  have hd : (c - w.maximum).toNat = c.toNat - w.maximum.toNat :=
    UInt64.toNat_sub_of_le _ _ (UInt64.le_of_lt hmax)
  rw [fresh_iff]
  split at hbit
  · rename_i hfar
    -- the whole old window fell out
    refine ⟨Or.inl ?_, hne (bit_or_one (b := 0) hbit).2⟩
    have h₁ : (c - x).toNat < 64 := hlt
    have h₂ : 64 ≤ (c - w.maximum).toNat := hfar
    have h₃ : w.maximum.toNat < c.toNat := hmax
    show w.maximum.toNat < x.toNat
    omega
  · rename_i hnear
    obtain ⟨hold, hzero⟩ := bit_or_one hbit
    refine ⟨?_, hne hzero⟩
    by_cases hgt : w.maximum < x
    · exact Or.inl hgt
    · have hle : x ≤ w.maximum := UInt64.not_lt.mp hgt
      have hm : (w.maximum - x).toNat = w.maximum.toNat - x.toNat :=
        UInt64.toNat_sub_of_le _ _ hle
      have h₀ : x.toNat ≤ w.maximum.toNat := hle
      have h₁ : (c - x).toNat < 64 := hlt
      have h₃ : w.maximum.toNat < c.toNat := hmax
      have hsum : (c - x).toNat = (c - w.maximum).toNat + (w.maximum - x).toNat := by omega
      refine Or.inr ⟨show (w.maximum - x).toNat < 64 by omega, ?_⟩
      rw [← bit_shiftLeft (UInt64.not_le.mp hnear) (by omega), ← hsum]
      exact hold

/-- **Recording a fresh counter: what is fresh afterwards was fresh before and is another
counter.** -/
theorem fresh_insert {w : SlidingWindow} {x : UInt64} (hc : w.fresh c = true)
    (hx : (w.insert c).fresh x = true) : w.fresh x = true ∧ x ≠ c := by
  unfold insert at hx
  split at hx
  · rename_i hmax
    rw [fresh_iff] at hx
    by_cases hgt : c < x
    · refine ⟨fresh_iff.mpr (Or.inl (UInt64.lt_trans hmax hgt)), ?_⟩
      rintro rfl
      exact UInt64.lt_irrefl _ hgt
    · rcases hx with hx | ⟨hlt, hbit⟩
      · exact absurd hx hgt
      · exact fresh_of_moved hmax (UInt64.not_lt.mp hgt) hlt hbit
  · rename_i hmax
    rw [fresh_iff] at hc hx
    obtain ⟨hlt, _⟩ := hc.resolve_left hmax
    rcases hx with hx | ⟨hxlt, hbit⟩
    · refine ⟨fresh_iff.mpr (Or.inl hx), ?_⟩
      rintro rfl
      exact hmax hx
    · obtain ⟨hold, hne⟩ := bit_or_mask hlt hbit
      refine ⟨fresh_iff.mpr (Or.inr ⟨hxlt, hold⟩), ?_⟩
      rintro rfl
      exact hne rfl

/-- A window whose bits are all set has nothing fresh up to its maximum. -/
theorem lt_of_fresh_full {m : UInt64} (h : (⟨m, 0xFFFFFFFFFFFFFFFF⟩ : SlidingWindow).fresh c = true) :
    m < c := by
  rcases fresh_iff.mp h with h | ⟨hlt, hbit⟩
  · exact h
  · have hlt' : (m - c).toNat < 64 := hlt
    have hset : bit 0xFFFFFFFFFFFFFFFF (m - c) = true := by
      show Nat.testBit (2 ^ 64 - 1) (m - c).toNat = true
      rw [Nat.testBit_two_pow_sub_one]
      simpa using hlt'
    rw [hset] at hbit
    cases hbit

end SlidingWindow

end Lib
