import RouteLoom.Routing.Table

/-!
# The cost of a link

`refresh_link_cost` folds the measured exchange ratio and the congestion of the own queue into one
target cost. A worse target holds at once; towards a better one the stored cost gives up half of its
excess per relax window, and the rest once it is small.

* `link_cost_slew` : the cost is never 0 or below the target, and 17 relax windows reach a steady one
-/

namespace RouteLoom

open List

def kQueueTargetMs : UInt32 := 50
def kQueuePenaltyStepMs : UInt64 := 50
def kQueuePenaltyMaxMultiple : UInt32 := 4
def kRefusalStepWatermarkLowPercent : UInt32 := 50
def kRefusalStepPerTenPercent : UInt32 := 10
def kLinkCostRelaxSnapDivisor : RouteMetric := 4
def kExchangeMinAccepts : UInt32 := 4
def kObservationWindowMs : MonotonicMs := 2000
def kLinkCostRelaxWindowMs : MonotonicMs := kObservationWindowMs

def measuredLinkBase (nominal : RouteMetric) (work accepts : UInt64) : RouteMetric :=
  if nominal == kInfiniteRouteMetric then nominal
  else if nominal == 0 then 1
  else if accepts == 0 || work ≤ accepts then nominal
  else
    let value := (nominal.toUInt64 * work + accepts - 1) / accepts
    if value ≥ kInfiniteRouteMetric.toUInt64 then kInfiniteRouteMetric
    else if value == 0 then 1
    else value.toUInt16

def queuePenaltySteps (queueMs : UInt32) : UInt32 :=
  let excess := if queueMs > kQueueTargetMs then queueMs - kQueueTargetMs else 0
  let steps := (excess.toUInt64 + kQueuePenaltyStepMs - 1) / kQueuePenaltyStepMs
  if steps > kQueuePenaltyMaxMultiple.toUInt64 then kQueuePenaltyMaxMultiple else steps.toUInt32

def refusalPenaltySteps (occupancyPercent : UInt32) : UInt32 :=
  if occupancyPercent < kRefusalStepWatermarkLowPercent then 0
  else
    let steps := 1 + (occupancyPercent - kRefusalStepWatermarkLowPercent) / kRefusalStepPerTenPercent
    if steps > kQueuePenaltyMaxMultiple then kQueuePenaltyMaxMultiple else steps

def refusalFloorActive (occupancyPercent : UInt32) (lastRefusalMs now : MonotonicMs) : Bool :=
  occupancyPercent ≥ kRefusalStepWatermarkLowPercent && lastRefusalMs != 0 &&
    now - lastRefusalMs ≤ kObservationWindowMs

def penalizedCost (base : RouteMetric) (multiple : UInt32) : RouteMetric :=
  if base == kInfiniteRouteMetric then base
  else if base == 0 then 1
  else
    let total := base.toUInt64 * (1 + multiple.toUInt64)
    if total ≥ kInfiniteRouteMetric.toUInt64 then kInfiniteRouteMetric else total.toUInt16

/-- One relax step; the source's 32-bit intermediates stay within 16 bits. -/
def relaxLinkCost (current target base : RouteMetric) : RouteMetric :=
  let excess := if current > target then current - target else 0
  let snap := if base / kLinkCostRelaxSnapDivisor > 0 then base / kLinkCostRelaxSnapDivisor else 1
  if excess ≤ snap then target else current - if excess / 2 > 0 then excess / 2 else 1

/-- What a call reads: of the neighbor, of the exchanges under way to it, of the scheduler. -/
structure LinkReading where
  metric : RouteMetric
  exchangeWork : UInt32
  exchangeAccepts : UInt32
  metricWindowDirty : Bool
  lastSojournMs : MonotonicMs
  queueSojournEwmaMs : UInt32
  pendingWork : UInt32
  occupancyPercent : UInt32
  lastRefusalMs : MonotonicMs
  now : MonotonicMs

namespace LinkReading

def base (r : LinkReading) : RouteMetric :=
  let settledWork := if r.exchangeWork > r.pendingWork then r.exchangeWork - r.pendingWork else 0
  let measured := measuredLinkBase r.metric settledWork.toUInt64 r.exchangeAccepts.toUInt64
  if r.exchangeAccepts ≥ kExchangeMinAccepts && (!r.metricWindowDirty || measured ≥ r.metric) then measured
  else r.metric

def multiple (r : LinkReading) : UInt32 :=
  let queueMs :=
    if r.lastSojournMs != 0 && r.now - r.lastSojournMs ≤ kObservationWindowMs then r.queueSojournEwmaMs
    else 0
  let stepsR :=
    if refusalFloorActive r.occupancyPercent r.lastRefusalMs r.now then
      refusalPenaltySteps r.occupancyPercent
    else 0
  if queueMs != 0 || stepsR != 0 then max (queuePenaltySteps queueMs) stepsR else 0

def target (r : LinkReading) : RouteMetric :=
  penalizedCost r.base r.multiple

end LinkReading

structure LinkCost where
  linkCost : RouteMetric
  lastCostRelaxMs : MonotonicMs := 0

namespace LinkCost

def windowElapsed (s : LinkCost) (r : LinkReading) : Bool :=
  r.now - s.lastCostRelaxMs ≥ kLinkCostRelaxWindowMs

/-- `refresh_link_cost`, without the update of the routes over the link. -/
def refresh (s : LinkCost) (r : LinkReading) : LinkCost :=
  if r.target ≥ s.linkCost then { s with linkCost := r.target }
  else if r.pendingWork == 0 && !r.metricWindowDirty && s.windowElapsed r then
    { linkCost := relaxLinkCost s.linkCost r.target r.base, lastCostRelaxMs := r.now }
  else s

/-! ## One call -/

variable {s : LinkCost} {r : LinkReading} {rs : List LinkReading} {base target : RouteMetric}

theorem penalizedCost_ne_zero (base : RouteMetric) (multiple : UInt32) : penalizedCost base multiple ≠ 0 := by
  unfold penalizedCost
  dsimp only
  split_ifs with hinf hbase hlarge
  · rw [beq_iff_eq.mp hinf]
    decide
  · decide
  · decide
  · intro hzero
    have hval := congrArg UInt16.toNat hzero
    have hlt := UInt64.lt_iff_toNat_lt.mp (UInt64.not_le.mp hlarge)
    have hb := base.toNat_lt
    have hm := multiple.toNat_lt
    have hpos : 0 < base.toNat :=
      Nat.pos_of_ne_zero fun h => hbase (beq_iff_eq.mpr (UInt16.toNat_inj.mp h))
    have htotal : (base.toUInt64 * (1 + multiple.toUInt64)).toNat = base.toNat * (1 + multiple.toNat) := by
      have hle := Nat.mul_le_mul (Nat.le_of_lt hb) (Nat.le_of_lt (Nat.add_lt_add_left hm 1))
      rw [UInt64.toNat_mul, UInt64.toNat_add, UInt16.toNat_toUInt64, UInt32.toNat_toUInt64,
        show (1 : UInt64).toNat = 1 from rfl, Nat.mod_eq_of_lt (by omega : 1 + multiple.toNat < _),
        Nat.mod_eq_of_lt (by omega)]
    have hle := Nat.le_mul_of_pos_right base.toNat (by omega : 0 < 1 + multiple.toNat)
    rw [htotal] at hlt
    rw [UInt64.toNat_toUInt16, htotal, Nat.mod_eq_of_lt (Nat.lt_trans hlt (by decide))] at hval
    change _ = 0 at hval
    omega

/-- A relax step closes the excess or halves it, rounding up. -/
theorem relaxLinkCost_spec {current : RouteMetric} (h : target < current) (base : RouteMetric) :
    relaxLinkCost current target base = target ∨ 2 ≤ current.toNat - target.toNat ∧
        (relaxLinkCost current target base).toNat = current.toNat - (current.toNat - target.toNat) / 2 := by
  have hexcess : (current - target).toNat = current.toNat - target.toNat :=
    UInt16.toNat_sub_of_le _ _ (UInt16.le_of_lt h)
  have hhalf : ((current - target) / 2).toNat = (current.toNat - target.toNat) / 2 := by
    rw [UInt16.toNat_div, hexcess]
    rfl
  have hsnap : 1 ≤ (if base / kLinkCostRelaxSnapDivisor > 0 then base / kLinkCostRelaxSnapDivisor
      else 1 : RouteMetric).toNat := by
    split
    · next hpos => exact UInt16.lt_iff_toNat_lt.mp hpos
    · exact Nat.le_refl _
  unfold relaxLinkCost
  rw [if_pos h]
  dsimp only
  generalize (if base / kLinkCostRelaxSnapDivisor > 0 then base / kLinkCostRelaxSnapDivisor
      else 1 : RouteMetric) = snap at *
  split
  · exact .inl rfl
  · next hlarge =>
    have hlt := UInt16.lt_iff_toNat_lt.mp (UInt16.not_le.mp hlarge)
    have htwo : 2 ≤ current.toNat - target.toNat := by omega
    have hpos : (current - target) / 2 > 0 := UInt16.lt_iff_toNat_lt.mpr (by show 0 < _; omega)
    rw [if_pos hpos]
    refine .inr ⟨htwo, ?_⟩
    rw [UInt16.toNat_sub_of_le _ _ (UInt16.le_iff_toNat_le.mpr (by omega)), hhalf]

theorem target_le_refresh : r.target ≤ (s.refresh r).linkCost := by
  unfold refresh
  split_ifs with hworse
  · exact UInt16.le_refl _
  · have hlt := UInt16.not_le.mp hworse
    rcases relaxLinkCost_spec hlt r.base with heq | ⟨-, hval⟩
    · exact UInt16.le_of_eq heq.symm
    · refine UInt16.le_iff_toNat_le.mpr ?_
      have := UInt16.lt_iff_toNat_lt.mp hlt
      show _ ≤ (relaxLinkCost _ _ _).toNat
      omega
  · exact UInt16.le_of_lt (UInt16.not_le.mp hworse)

theorem refresh_ne_zero : (s.refresh r).linkCost ≠ 0 := by
  intro hzero
  have hle := target_le_refresh (s := s) (r := r)
  rw [hzero] at hle
  exact penalizedCost_ne_zero _ _ (UInt16.le_zero_iff.mp hle)

theorem refresh_of_le (h : s.linkCost ≤ r.target) : (s.refresh r).linkCost = r.target := by
  unfold refresh
  rw [if_pos h]

/-! ## A steady target -/

/-- A call with this base and target, in a clean window and with no exchange pending. -/
structure Steady (base target : RouteMetric) (r : LinkReading) : Prop where
  base_eq : r.base = base
  target_eq : r.target = target
  clean : r.metricWindowDirty = false
  settled : r.pendingWork = 0

/-- How many of the calls find the relax window elapsed. -/
def windows (s : LinkCost) : List LinkReading → Nat
  | [] => 0
  | r :: rs => (if s.windowElapsed r then 1 else 0) + windows (s.refresh r) rs

theorem stays_at_target (hrs : ∀ r ∈ rs, Steady base target r) (h : s.linkCost = target) :
    (rs.foldl refresh s).linkCost = target := by
  induction rs generalizing s with
  | nil => exact h
  | cons r rs ih =>
    rw [forall_mem_cons] at hrs
    refine ih hrs.2 ?_
    rw [refresh_of_le (by rw [h, hrs.1.target_eq]; exact UInt16.le_refl _), hrs.1.target_eq]

/-- An excess of at most `2 ^ m` takes `m + 1` windows: `m` that halve it and one that closes it. -/
theorem reaches_target {m : Nat} (hrs : ∀ r ∈ rs, Steady base target r)
    (hexcess : s.linkCost.toNat - target.toNat ≤ 2 ^ m) (hwindows : m + 1 ≤ s.windows rs) :
    (rs.foldl refresh s).linkCost = target := by
  induction rs generalizing s m with
  | nil => exact absurd hwindows (Nat.not_succ_le_zero _)
  | cons r rs ih =>
    rw [forall_mem_cons] at hrs
    obtain ⟨⟨-, rfl, hclean, hsettled⟩, hrest⟩ := hrs
    rw [foldl_cons]
    rw [windows] at hwindows
    by_cases hle : s.linkCost ≤ r.target
    · exact stays_at_target hrest (refresh_of_le hle)
    have hlt := UInt16.not_le.mp hle
    have hopen : (r.pendingWork == 0 && !r.metricWindowDirty && s.windowElapsed r) = s.windowElapsed r := by
      rw [hclean, hsettled]
      rfl
    by_cases helapsed : s.windowElapsed r = true
    · have hrefresh : s.refresh r =
          { linkCost := relaxLinkCost s.linkCost r.target r.base, lastCostRelaxMs := r.now } := by
        rw [refresh, if_neg hle, if_pos (hopen.trans helapsed)]
      rw [if_pos helapsed] at hwindows
      rcases relaxLinkCost_spec hlt r.base with heq | ⟨htwo, hhalf⟩
      · refine stays_at_target hrest ?_
        rw [hrefresh, heq]
      · cases m with
        | zero => omega
        | succ m =>
          refine ih hrest (m := m) ?_ (by omega)
          rw [hrefresh, hhalf]
          rw [Nat.pow_succ] at hexcess
          omega
    · have hrefresh : s.refresh r = s := by
        rw [refresh, if_neg hle, if_neg (fun h => helapsed (hopen.symm.trans h))]
      rw [if_neg helapsed, hrefresh] at hwindows
      rw [hrefresh]
      exact ih hrest hexcess (by omega)

/-- **The stored cost follows its target**: never 0, never below the target of the call, at a worse
target at once, and at a steady better one after 17 calls that find the relax window elapsed. -/
theorem link_cost_slew (s : LinkCost) (hs : s.linkCost ≠ 0) :
    (∀ rs : List LinkReading, (rs.foldl refresh s).linkCost ≠ 0) ∧
    (∀ (rs : List LinkReading) (r : LinkReading), r.target ≤ ((rs ++ [r]).foldl refresh s).linkCost ∧
      ((rs.foldl refresh s).linkCost ≤ r.target → ((rs ++ [r]).foldl refresh s).linkCost = r.target)) ∧
    ∀ (before rs later : List LinkReading) (base target : RouteMetric),
      (∀ r ∈ rs ++ later, Steady base target r) → 17 ≤ (before.foldl refresh s).windows rs →
      ((before ++ rs ++ later).foldl refresh s).linkCost = target := by
  refine ⟨fun rs => ?_, fun rs r => ?_, fun before rs later base target hsteady hwindows => ?_⟩
  · rcases eq_nil_or_concat rs with rfl | ⟨rs, r, rfl⟩
    · exact hs
    · rw [concat_eq_append, foldl_append]
      exact refresh_ne_zero
  · rw [foldl_append]
    exact ⟨target_le_refresh, refresh_of_le⟩
  · rw [forall_mem_append] at hsteady
    rw [foldl_append, foldl_append]
    refine stays_at_target hsteady.2 (reaches_target (m := 16) hsteady.1 ?_ hwindows)
    have := (before.foldl refresh s).linkCost.toNat_lt
    omega

/-- The nominal cost 1 after a congested time that ended with the cost at its maximum. -/
theorem link_cost_slew_sample :
    let reading (now : MonotonicMs) : LinkReading :=
      { metric := 1, exchangeWork := 0, exchangeAccepts := 0, metricWindowDirty := false
        lastSojournMs := 0, queueSojournEwmaMs := 0, pendingWork := 0, occupancyPercent := 0
        lastRefusalMs := 0, now }
    let rs := (List.range 17).map fun k => reading (UInt64.ofNat (2000 * (k + 1)))
    (rs.foldl refresh { linkCost := 0xFFFF }).linkCost = 1 := by
  intro reading rs
  refine (link_cost_slew { linkCost := 0xFFFF } (by decide)).2.2 [] rs [] 1 1 ?_ (by decide +kernel)
  intro r hr
  rw [append_nil, mem_map] at hr
  obtain ⟨k, -, rfl⟩ := hr
  exact ⟨rfl, rfl, rfl, rfl⟩

end LinkCost

end RouteLoom
