import Moligate.Foundation.Calendar
import Moligate.Foundation.Run
import Moligate.Subscription.Model

namespace Moligate.Subscription

open Foundation Common Calendar

def secondsPerDay : ℤ := 86400
def nanosPerSecond : ℤ := 1000000000

namespace Runtime

variable (rt : Runtime)

def day (t : ℤ) : ℤ := (t + rt.zoneOffset) / secondsPerDay

def clock (t : ℤ) : ℤ := (t + rt.zoneOffset) % secondsPerDay

def unix (day clock : ℤ) : ℤ := secondsPerDay * day + clock - rt.zoneOffset

def month (t : ℤ) : ℤ := monthOfDay (rt.day t)

def dayOfMonth (t : ℤ) : ℤ := rt.day t - monthStart (rt.month t) + 1

@[simp] theorem unix_day_clock (t : ℤ) : rt.unix (rt.day t) (rt.clock t) = t := by
  simp only [unix, day, clock, secondsPerDay]
  omega

theorem day_unix {d c : ℤ} (h : 0 ≤ c) (h' : c < 86400) : rt.day (rt.unix d c) = d := by
  simp only [unix, day, secondsPerDay]
  omega

theorem clock_bounds (t : ℤ) : 0 ≤ rt.clock t ∧ rt.clock t < 86400 := by
  simp only [clock, secondsPerDay]
  omega

theorem unix_lt_unix {d d' c c' : ℤ} (h : d < d') (hc : c < 86400) (hc' : 0 ≤ c') :
    rt.unix d c < rt.unix d' c' := by
  simp only [unix, secondsPerDay]
  omega

theorem dayOfMonth_pos (t : ℤ) : 1 ≤ rt.dayOfMonth t := by
  have := (monthOfDay_spec (rt.day t)).1
  rw [dayOfMonth, month]
  omega

theorem clampedDay_dayOfMonth (t : ℤ) : clampedDay (rt.month t) (rt.dayOfMonth t) = rt.day t := by
  have := (monthOfDay_spec (rt.day t)).2
  rw [clampedDay, dayOfMonth, monthLength, month]
  omega

end Runtime

/-- A duration is an int64 number of nanoseconds; `Time.Sub` saturates. -/
def saturateDuration (nanos : ℤ) : ℤ := max minInt64 (min maxInt64 nanos)

def nanosPerDay : ℤ := secondsPerDay * nanosPerSecond

def daysBetween (anchorDay afterDay : ℤ) : ℤ :=
  (saturateDuration ((afterDay - anchorDay) * nanosPerDay)).tdiv nanosPerDay

variable (rt : Runtime)

/-- The candidate reset of the monthly branch, `months` months after the anchor's month. -/
def monthlyCandidate (anchor months : ℤ) : ℤ :=
  rt.unix (clampedDay (rt.month anchor + months) (rt.dayOfMonth anchor)) (rt.clock anchor)

def monthlyNext (anchor after : ℤ) : ℤ :=
  let months := max 0 (rt.month after - rt.month anchor)
  ((whileLoop (fun k ↦ monthlyCandidate rt anchor k ≤ after) (· + 1) 2 months).map
    (monthlyCandidate rt anchor)).getD 0

def nextPeriodReset (anchor after : ℤ) : Period → ℤ
  | .daily =>
    let next := anchor + daysBetween (rt.day anchor) (rt.day after) * secondsPerDay
    if after < next then next else next + secondsPerDay
  | .weekly =>
    let weeks := (daysBetween (rt.day anchor) (rt.day after)).tdiv 7
    let next := anchor + weeks * 7 * secondsPerDay
    if after < next then next else next + 7 * secondsPerDay
  | .monthly => monthlyNext rt anchor after

def calcNextAnchoredPeriodReset (anchor after : ℤ) (period : Period) (endUnix : ℤ) : ℤ :=
  let after := max after anchor
  let next := nextPeriodReset rt anchor after period
  if 0 < endUnix ∧ endUnix < next then 0 else next

inductive ResetPeriod where
  | never
  | anchored (period : Period)
  | custom
  deriving DecidableEq

def normalizeResetPeriod (period : String) : ResetPeriod :=
  match rt.trimSpace period with
  | "daily" => .anchored .daily
  | "weekly" => .anchored .weekly
  | "monthly" => .anchored .monthly
  | "custom" => .custom
  | _ => .never

/-- `time.Duration(seconds) * time.Second`, an int64 product. -/
def durationOfSeconds (seconds : ℤ) : ℤ := Int.bmod (seconds * nanosPerSecond) (2 ^ 64)

def calcNextResetTime (anchor after : ℤ) (plan : SubscriptionPlan) (endUnix : ℤ) : ℤ :=
  match normalizeResetPeriod rt plan.quotaResetPeriod with
  | .never => 0
  | .custom =>
    if plan.quotaResetCustomSeconds ≤ 0 then 0
    else
      let next := after + durationOfSeconds plan.quotaResetCustomSeconds / nanosPerSecond
      if 0 < endUnix ∧ endUnix < next then 0 else next
  | .anchored period => calcNextAnchoredPeriodReset rt anchor after period endUnix

def boundary (anchor : ℤ) : Period → ℕ → ℤ
  | .daily, k => anchor + k * secondsPerDay
  | .weekly, k => anchor + k * 7 * secondsPerDay
  | .monthly, k => monthlyCandidate rt anchor k

theorem monthlyCandidate_strictMono (anchor : ℤ) : StrictMono (monthlyCandidate rt anchor) := by
  intro k k' h
  obtain ⟨h₀, h₁⟩ := rt.clock_bounds anchor
  exact rt.unix_lt_unix (clampedDay_strictMono (rt.dayOfMonth_pos anchor) (by omega)) h₁ h₀

theorem boundary_strictMono (anchor : ℤ) (p : Period) : StrictMono (boundary rt anchor p) := by
  intro k k' h
  cases p with
  | daily | weekly => simp only [boundary, secondsPerDay]; omega
  | monthly => exact monthlyCandidate_strictMono rt anchor (by exact_mod_cast h)

@[simp] theorem boundary_zero (anchor : ℤ) (p : Period) : boundary rt anchor p 0 = anchor := by
  cases p with
  | daily | weekly => simp [boundary]
  | monthly => simp [boundary, monthlyCandidate, rt.clampedDay_dayOfMonth]

theorem daysBetween_nonneg {d d' : ℤ} (h : d ≤ d') : 0 ≤ daysBetween d d' := by
  refine Int.tdiv_nonneg ?_ (by decide)
  simp only [saturateDuration, nanosPerDay, secondsPerDay, nanosPerSecond, minInt64, maxInt64]
  omega

theorem day_le_day {t t' : ℤ} (h : t ≤ t') : rt.day t ≤ rt.day t' :=
  Int.ediv_le_ediv (by decide) (by omega)

theorem lt_monthlyCandidate_succ (anchor after : ℤ) :
    after < monthlyCandidate rt anchor (rt.month after - rt.month anchor + 1) := by
  have hday := (monthOfDay_spec (rt.day after)).2
  have hcand := (clampedDay_mem (m := rt.month after + 1) (rt.dayOfMonth_pos anchor)).1
  have hlt := hday.trans_le hcand
  have h := rt.unix_lt_unix hlt (rt.clock_bounds after).2 (rt.clock_bounds anchor).1
  rw [rt.unix_day_clock] at h
  have hm : rt.month anchor + (rt.month after - rt.month anchor + 1) = rt.month after + 1 := by
    omega
  rwa [monthlyCandidate, hm]

theorem monthlyCandidate_pred_lt (anchor after : ℤ) :
    monthlyCandidate rt anchor (rt.month after - rt.month anchor - 1) < after := by
  have hday := (monthOfDay_spec (rt.day after)).1
  have hcand := (clampedDay_mem (m := rt.month after - 1) (rt.dayOfMonth_pos anchor)).2
  rw [sub_add_cancel] at hcand
  have h := rt.unix_lt_unix (hcand.trans_le hday) (rt.clock_bounds anchor).2
    (rt.clock_bounds after).1
  rw [rt.unix_day_clock] at h
  have hm : rt.month anchor + (rt.month after - rt.month anchor - 1) = rt.month after - 1 := by
    omega
  rwa [monthlyCandidate, hm]

/-- The loop over the months starts in the month of `after` and makes at most one step. -/
theorem months_around {f : ℤ → ℤ} (hf : StrictMono f) {after m : ℤ} (h : f 0 ≤ after)
    (hpred : f (m - 1) ≤ after) (hsucc : after < f (m + 1)) :
    ∃ k : ℕ, f k ≤ after ∧ after < f (k + 1 : ℕ) ∧
      ((whileLoop (fun k ↦ f k ≤ after) (· + 1) 2 (max 0 m)).map f).getD 0 = f (k + 1 : ℕ) := by
  have hm : 0 < m + 1 := hf.lt_iff_lt.1 (h.trans_lt hsucc)
  obtain ⟨n, rfl⟩ := Int.eq_ofNat_of_zero_le (Int.lt_add_one_iff.1 hm)
  by_cases hle : f n ≤ after
  · refine ⟨n, hle, by exact_mod_cast hsucc, ?_⟩
    rw [whileLoop, if_pos (by simpa using hle), whileLoop_of_not (by simpa using hsucc)]
    rfl
  rw [whileLoop_of_not (by simpa using hle)]
  cases n with
  | zero => exact absurd h hle
  | succ n =>
    rw [Nat.cast_succ, add_sub_cancel_right] at hpred
    exact ⟨n, hpred, not_le.1 hle, rfl⟩

theorem nextPeriodReset_boundary {anchor after : ℤ} (h : anchor ≤ after) (p : Period) :
    ∃ k, nextPeriodReset rt anchor after p = boundary rt anchor p (k + 1) := by
  have hdays := daysBetween_nonneg (day_le_day rt h)
  cases p with
  | daily =>
    obtain ⟨n, hn⟩ := Int.eq_ofNat_of_zero_le hdays
    simp only [nextPeriodReset, boundary, hn, secondsPerDay]
    split
    · exact ⟨n - 1, by push_cast; omega⟩
    · exact ⟨n, by push_cast; omega⟩
  | weekly =>
    obtain ⟨n, hn⟩ := Int.eq_ofNat_of_zero_le (Int.tdiv_nonneg hdays (by decide : (0 : ℤ) ≤ 7))
    simp only [nextPeriodReset, boundary, hn, secondsPerDay]
    split
    · exact ⟨n - 1, by push_cast; omega⟩
    · exact ⟨n, by push_cast; omega⟩
  | monthly =>
    have hzero : monthlyCandidate rt anchor 0 = anchor := boundary_zero rt anchor .monthly
    obtain ⟨k, -, -, hnext⟩ := months_around (monthlyCandidate_strictMono rt anchor)
      (hzero.trans_le h) (monthlyCandidate_pred_lt rt anchor after).le
      (lt_monthlyCandidate_succ rt anchor after)
    exact ⟨k, hnext⟩

theorem calcNextAnchoredPeriodReset_boundary (anchor after : ℤ) (p : Period) (endUnix : ℤ) :
    calcNextAnchoredPeriodReset rt anchor after p endUnix = 0 ∨
      ∃ k, calcNextAnchoredPeriodReset rt anchor after p endUnix = boundary rt anchor p (k + 1) := by
  rw [calcNextAnchoredPeriodReset]
  split
  · exact .inl rfl
  · exact .inr (nextPeriodReset_boundary rt (le_max_right _ _) p)

end Moligate.Subscription
