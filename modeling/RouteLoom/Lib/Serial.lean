import Mathlib.Algebra.Group.Nat.Defs

/-!
# Serial numbers on sixteen bits

A serial number is compared by the signed distance modulo `2 ^ 16`. While all numbers in use lie in
the half space that starts at one base, the comparison is the order of their offsets from that base.

* `Serial.newer_iff_offset_lt` : inside a half space, newer means a larger offset
* `Serial.not_ambiguous` : inside a half space, no two numbers are half a turn apart
-/

namespace Lib.Serial

/-- `s` is ahead of `t` by less than half a turn. -/
def newer (s t : UInt16) : Bool :=
  s - t != 0 && s - t < 0x8000

/-- `s` and `t` are exactly half a turn apart. -/
def ambiguous (s t : UInt16) : Bool :=
  s - t == 0x8000

/-- How far `s` is ahead of the base `b`. -/
def offset (b s : UInt16) : Nat :=
  (s - b).toNat

/-- `s` lies in the half space that starts at `b`. -/
def InHalf (b s : UInt16) : Prop :=
  offset b s < 2 ^ 15

instance (b s : UInt16) : Decidable (InHalf b s) :=
  inferInstanceAs (Decidable (offset b s < 2 ^ 15))

variable {s t : UInt16}

theorem newer_eq_true : newer s t = true ↔ 0 < (s - t).toNat ∧ (s - t).toNat < 2 ^ 15 := by
  simp only [newer, Bool.and_eq_true, bne_iff_ne, ne_eq, decide_eq_true_eq, UInt16.lt_iff_toNat_lt,
    ← UInt16.toNat_inj]
  change ¬ (s - t).toNat = 0 ∧ (s - t).toNat < 2 ^ 15 ↔ _
  omega

theorem ambiguous_eq_true : ambiguous s t = true ↔ (s - t).toNat = 2 ^ 15 := by
  simp only [ambiguous, beq_iff_eq, ← UInt16.toNat_inj]
  rfl

theorem newer_iff_offset_lt {b : UInt16} (hs : InHalf b s) (ht : InHalf b t) :
    newer s t = true ↔ offset b t < offset b s := by
  rw [newer_eq_true]
  unfold InHalf offset at *
  simp only [UInt16.toNat_sub] at *
  have := s.toNat_lt
  have := t.toNat_lt
  have := b.toNat_lt
  omega

theorem not_ambiguous {b : UInt16} (hs : InHalf b s) (ht : InHalf b t) : ambiguous s t = false := by
  rw [← Bool.not_eq_true, ambiguous_eq_true]
  unfold InHalf offset at *
  simp only [UInt16.toNat_sub] at *
  have := s.toNat_lt
  have := t.toNat_lt
  have := b.toNat_lt
  omega

theorem offset_inj {b : UInt16} (h : offset b s = offset b t) : s = t := by
  unfold offset at h
  rw [UInt16.toNat_sub, UInt16.toNat_sub] at h
  rw [← UInt16.toNat_inj]
  have := s.toNat_lt
  have := t.toNat_lt
  have := b.toNat_lt
  omega

/-- No number is newer than itself, and none is half a turn from itself. -/
@[simp] theorem newer_self (s : UInt16) : newer s s = false := by
  simp [newer]

@[simp] theorem ambiguous_self (s : UInt16) : ambiguous s s = false := by
  simp [ambiguous]

end Lib.Serial
