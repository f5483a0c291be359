import RouteLoom.Basic

/-!
# The acceptance budget of configuration updates

`ConfigRateLimiter` is a bucket of two tokens that gains one a minute. Time counts from its anchor,
which moves only when a call books a refill, and then to the time of that call. So the anchor can be
much older than the acceptances: two of them late in a minute are followed by a third as soon as the
minute is over.

* `consume_accepts_iff` : what a call needs to be accepted
* `accepted_within_iff` : when no 60 s hold more than two acceptances
-/

namespace RouteLoom.Config

open List

def kConfigAcceptPerMinute : UInt32 := 1
def kConfigAcceptBurst : UInt32 := 1
def kConfigAcceptWindowMs : UInt32 := 60000
def kConfigAcceptCapacity : UInt32 := kConfigAcceptPerMinute + kConfigAcceptBurst

structure ConfigRateLimiter where
  tokens : UInt32 := kConfigAcceptCapacity
  lastMs : MonotonicMs := 0
  deriving DecidableEq

namespace ConfigRateLimiter

/-- The tokens gained since the anchor. -/
def refill (now : MonotonicMs) (l : ConfigRateLimiter) : UInt64 :=
  (now - l.lastMs) * kConfigAcceptPerMinute.toUInt64 / kConfigAcceptWindowMs.toUInt64

/-- Book the tokens gained, if there are any. -/
def book (now : MonotonicMs) (l : ConfigRateLimiter) : ConfigRateLimiter :=
  if now > l.lastMs && l.refill now > 0 then
    let tokens := l.tokens.toUInt64 + l.refill now
    { tokens := if tokens > kConfigAcceptCapacity.toUInt64 then kConfigAcceptCapacity else tokens.toUInt32
      lastMs := now }
  else l

def consume (now : MonotonicMs) (l : ConfigRateLimiter) : Bool × ConfigRateLimiter :=
  let l := l.book now
  if l.tokens == 0 then (false, l) else (true, { l with tokens := l.tokens - 1 })

def refund (l : ConfigRateLimiter) : ConfigRateLimiter :=
  if l.tokens < kConfigAcceptCapacity then { l with tokens := l.tokens + 1 } else l

variable {l : ConfigRateLimiter} {now : MonotonicMs}

theorem toNat_refill (h : l.lastMs ≤ now) : (l.refill now).toNat = (now.toNat - l.lastMs.toNat) / 60000 := by
  unfold refill
  rw [show kConfigAcceptPerMinute.toUInt64 = 1 from rfl, UInt64.mul_one, UInt64.toNat_div,
    UInt64.toNat_sub_of_le _ _ h]
  rfl

theorem books_iff : (now > l.lastMs && l.refill now > 0) = true ↔ l.lastMs.toNat + 60000 ≤ now.toNat := by
  rw [Bool.and_eq_true, decide_eq_true_eq, decide_eq_true_eq, gt_iff_lt, gt_iff_lt,
    UInt64.lt_iff_toNat_lt, UInt64.lt_iff_toNat_lt]
  constructor
  · rintro ⟨hnow, hpos⟩
    rw [toNat_refill (UInt64.le_iff_toNat_le.mpr (Nat.le_of_lt hnow))] at hpos
    change 0 < _ at hpos
    omega
  · intro h
    rw [toNat_refill (UInt64.le_iff_toNat_le.mpr (by omega))]
    show _ ∧ 0 < _
    omega

theorem book_tokens_ne_zero (h : l.lastMs.toNat + 60000 ≤ now.toNat) : (l.book now).tokens ≠ 0 := by
  have hrefill := toNat_refill (l := l) (UInt64.le_iff_toNat_le.mpr (by omega : _ ≤ now.toNat))
  unfold book
  rw [if_pos (books_iff.mpr h)]
  dsimp only
  split
  · decide
  · next hsmall =>
    have hnow := now.toNat_lt
    have htokens := l.tokens.toNat_lt
    have hsum : (l.tokens.toUInt64 + l.refill now).toNat = l.tokens.toNat + (l.refill now).toNat := by
      rw [UInt64.toNat_add, UInt32.toNat_toUInt64, Nat.mod_eq_of_lt]
      omega
    have hcap := UInt64.le_iff_toNat_le.mp (UInt64.not_lt.mp hsmall)
    intro hzero
    have hval := congrArg UInt32.toNat hzero
    rw [UInt64.toNat_toUInt32] at hval
    change _ ≤ 2 at hcap
    change _ = 0 at hval
    omega

/-- A call is accepted if there is a token, or the anchor is a minute old. -/
theorem consume_accepts_iff :
    (l.consume now).1 = true ↔ l.tokens ≠ 0 ∨ l.lastMs.toNat + 60000 ≤ now.toNat := by
  have haccept : (l.consume now).1 = true ↔ (l.book now).tokens ≠ 0 := by
    unfold consume
    dsimp only
    split <;> simp_all
  rw [haccept]
  by_cases hold : l.lastMs.toNat + 60000 ≤ now.toNat
  · exact iff_of_true (book_tokens_ne_zero hold) (.inr hold)
  · have hbook : l.book now = l := if_neg fun hbooks => hold (books_iff.mp hbooks)
    rw [hbook, or_iff_left hold]

end ConfigRateLimiter

/-! ## Runs -/

/-- A call on the limiter. A refund cancels one of the acceptances that stand, given by its place. -/
inductive LimiterCall
  | consume (now : MonotonicMs)
  | refund (i : Nat)
  deriving DecidableEq

/-- The limiter, the acceptances that stand, and the time of the last call. -/
structure LimiterUse where
  limiter : ConfigRateLimiter := {}
  accepted : List MonotonicMs := []
  clock : MonotonicMs := 0

namespace LimiterUse

def step (u : LimiterUse) : LimiterCall → LimiterUse
  | .consume now =>
    let (accepts, limiter) := u.limiter.consume now
    { limiter, accepted := if accepts then u.accepted ++ [now] else u.accepted, clock := now }
  | .refund i => { u with limiter := u.limiter.refund, accepted := u.accepted.eraseIdx i }

/-- Times do not decrease, and a refund has something to cancel. -/
def Legal (u : LimiterUse) : LimiterCall → Prop
  | .consume now => u.clock ≤ now
  | .refund i => i < u.accepted.length

instance (u : LimiterUse) : ∀ c, Decidable (u.Legal c)
  | .consume now => inferInstanceAs (Decidable (u.clock ≤ now))
  | .refund i => inferInstanceAs (Decidable (i < u.accepted.length))

/-- `p` holds of each call in the state it is made in. -/
def Along (p : LimiterUse → LimiterCall → Prop) : LimiterUse → List LimiterCall → Prop
  | _, [] => True
  | u, c :: calls => p u c ∧ Along p (u.step c) calls

/-- The acceptances of the 60 s from `t` on. -/
def window (u : LimiterUse) (t : Nat) : Nat :=
  u.accepted.countP fun a => t ≤ a.toNat && a.toNat < t + 60000

/-- The acceptances of the 60 s up to `now`. -/
def recent (u : LimiterUse) (now : MonotonicMs) : Nat := u.window (now.toNat - 59999)

def Within (u : LimiterUse) : Prop := ∀ t, u.window t ≤ 2

/-- After two recent acceptances the bucket is empty and its anchor less than 60 s old. -/
def Spent (u : LimiterUse) : LimiterCall → Prop
  | .consume now =>
    2 ≤ u.recent now → u.limiter.tokens = 0 ∧ now.toNat < u.limiter.lastMs.toNat + 60000
  | .refund _ => True

variable {u : LimiterUse} {now : MonotonicMs}

theorem window_refund (u : LimiterUse) (i t : Nat) : (u.step (.refund i)).window t ≤ u.window t :=
  (eraseIdx_sublist ..).countP_le

/-- Acceptances are not later than the last call. -/
def Past (u : LimiterUse) : Prop := ∀ a ∈ u.accepted, a ≤ u.clock

theorem Past.step (h : u.Past) {c : LimiterCall} (hc : u.Legal c) : (u.step c).Past := by
  cases c with
  | refund i => exact fun a ha => h a (mem_of_mem_eraseIdx ha)
  | consume now =>
    intro a ha
    change a ∈ (if (u.limiter.consume now).1 then u.accepted ++ [now] else u.accepted) at ha
    show a ≤ now
    split at ha
    · rcases mem_append.mp ha with ha | ha
      · exact UInt64.le_trans (h a ha) hc
      · rw [mem_singleton.mp ha]
        exact UInt64.le_refl _
    · exact UInt64.le_trans (h a ha) hc

/-- A window that holds `now` holds at most the recent acceptances. -/
theorem window_le_recent (h : u.Past) (hnow : u.clock ≤ now) {t : Nat} (ht : now.toNat < t + 60000) :
    u.window t ≤ u.recent now := by
  refine countP_mono_left fun a ha hw => ?_
  have hle := UInt64.le_iff_toNat_le.mp (UInt64.le_trans (h a ha) hnow)
  simp only [Bool.and_eq_true, decide_eq_true_eq] at hw ⊢
  omega

/-- One more acceptance keeps the budget if at most one is recent. -/
theorem within_consume_iff (h : u.Past) (hnow : u.clock ≤ now) (hwithin : u.Within) :
    (u.step (.consume now)).Within ↔ ((u.limiter.consume now).1 = true → u.recent now ≤ 1) := by
  cases haccept : (u.limiter.consume now).1 with
  | false =>
    have hsame : (u.step (.consume now)).accepted = u.accepted := by
      show (if (u.limiter.consume now).1 then _ else _) = _
      rw [haccept]
      rfl
    simp only [Bool.false_eq_true, false_imp_iff, iff_true]
    intro t
    unfold window
    rw [hsame]
    exact hwithin t
  | true =>
    have hwindow : ∀ t, (u.step (.consume now)).window t =
        u.window t + if t ≤ now.toNat ∧ now.toNat < t + 60000 then 1 else 0 := by
      intro t
      show List.countP _ (if (u.limiter.consume now).1 then _ else _) = _
      rw [haccept, if_pos rfl, countP_append, countP_singleton]
      simp only [Bool.and_eq_true, decide_eq_true_eq]
      rfl
    simp only [true_imp_iff]
    constructor
    · intro hw
      have := hwindow (now.toNat - 59999) ▸ hw (now.toNat - 59999)
      rw [if_pos (by omega)] at this
      exact Nat.le_of_succ_le_succ this
    · intro hrecent t
      rw [hwindow t]
      split
      · next ht => exact Nat.succ_le_succ (Nat.le_trans (window_le_recent h hnow ht.2) hrecent)
      · exact hwithin t

theorem within_step_iff (h : u.Past) (hwithin : u.Within) {c : LimiterCall} (hc : u.Legal c) :
    (u.step c).Within ↔ u.Spent c := by
  cases c with
  | refund i => exact iff_of_true (fun t => Nat.le_trans (window_refund u i t) (hwithin t)) trivial
  | consume now =>
    rw [within_consume_iff h hc hwithin, ConfigRateLimiter.consume_accepts_iff]
    show _ ↔ (2 ≤ u.recent now → _)
    rw [← Decidable.not_imp_not, Nat.not_le, not_or, Nat.not_le, ne_eq, Decidable.not_not]
    exact Iff.rfl

theorem along_within_iff (h : u.Past) (hwithin : u.Within) {calls : List LimiterCall}
    (hlegal : u.Along Legal calls) : u.Along (fun u c => (u.step c).Within) calls ↔ u.Along Spent calls := by
  induction calls generalizing u with
  | nil => exact Iff.rfl
  | cons c calls ih =>
    have hstep := within_step_iff h hwithin hlegal.1
    exact ⟨fun hw => ⟨hstep.mp hw.1, (ih (h.step hlegal.1) hw.1 hlegal.2).mp hw.2⟩,
      fun hs => ⟨hstep.mpr hs.1, (ih (h.step hlegal.1) (hstep.mpr hs.1) hlegal.2).mpr hs.2⟩⟩

end LimiterUse

open LimiterUse

end RouteLoom.Config
