import Moligate.Subscription.Period

namespace Moligate.Subscription.Instant

open Foundation Common Calendar Set Int

section

variable (rt : Runtime)

def unixSeconds (t : ℤ) : ℤ := t / nanosPerSecond

def day (t : ℤ) : ℤ := rt.day (unixSeconds t)

def month (t : ℤ) : ℤ := rt.month (unixSeconds t)

def monthlyCandidate (anchor months : ℤ) : ℤ :=
  Subscription.monthlyCandidate rt (unixSeconds anchor) months * nanosPerSecond +
    anchor % nanosPerSecond

def monthlyNext (anchor after : ℤ) : ℤ :=
  let months := max 0 (month rt after - month rt anchor)
  ((whileLoop (fun k ↦ monthlyCandidate rt anchor k ≤ after) (· + 1) 2 months).map
    (monthlyCandidate rt anchor)).getD 0

def nextPeriodReset (anchor after : ℤ) : Period → ℤ
  | .daily =>
    let next := anchor + daysBetween (day rt anchor) (day rt after) * nanosPerDay
    if after < next then next else next + nanosPerDay
  | .weekly =>
    let weeks := (daysBetween (day rt anchor) (day rt after)).tdiv 7
    let next := anchor + weeks * 7 * nanosPerDay
    if after < next then next else next + 7 * nanosPerDay
  | .monthly => monthlyNext rt anchor after

def calcNextAnchoredPeriodReset (anchor after : ℤ) (period : Period) (endUnix : ℤ) : ℤ :=
  let after := max after anchor
  let next := unixSeconds (nextPeriodReset rt anchor after period)
  if 0 < endUnix ∧ endUnix < next then 0 else next

def anchoredPeriodWindowStart (anchor now : ℤ) (period : Period) : ℤ :=
  let next := calcNextAnchoredPeriodReset rt anchor now period 0
  if next = 0 then unixSeconds anchor
  else
    match period with
    | .daily => next - secondsPerDay
    | .weekly => next - 7 * secondsPerDay
    | .monthly =>
      let months := rt.month next - month rt anchor - 1
      Subscription.monthlyCandidate rt (unixSeconds anchor) months

/-- The anchored sequence: the anchor and `k` days, weeks or months after it, where a month without
the anchor's day gives its last day. -/
def element (anchor : ℤ) : Period → ℕ → ℤ
  | .daily, k => anchor + k * nanosPerDay
  | .weekly, k => anchor + 7 * k * nanosPerDay
  | .monthly, k => monthlyCandidate rt anchor k

end

variable {rt : Runtime} {anchor after now : ℤ} {p : Period} {k : ℕ}

theorem unixSeconds_spec (t : ℤ) :
    unixSeconds t * nanosPerSecond ≤ t ∧ t < (unixSeconds t + 1) * nanosPerSecond := by
  simp only [unixSeconds, nanosPerSecond]
  omega

theorem element_eq (anchor : ℤ) (p : Period) (k : ℕ) :
    element rt anchor p k =
      boundary rt (unixSeconds anchor) p k * nanosPerSecond + anchor % nanosPerSecond := by
  cases p with
  | daily | weekly =>
    simp only [element, boundary, unixSeconds, nanosPerDay, secondsPerDay, nanosPerSecond]
    omega
  | monthly => rfl

@[simp] theorem unixSeconds_element (anchor : ℤ) (p : Period) (k : ℕ) :
    unixSeconds (element rt anchor p k) = boundary rt (unixSeconds anchor) p k := by
  rw [element_eq, unixSeconds]
  simp only [nanosPerSecond]
  omega

theorem element_strictMono (anchor : ℤ) (p : Period) : StrictMono (element rt anchor p) := by
  intro k k' h
  have hlt := boundary_strictMono rt (unixSeconds anchor) p h
  rw [element_eq, element_eq]
  simp only [nanosPerSecond]
  omega

@[simp] theorem element_zero (anchor : ℤ) (p : Period) : element rt anchor p 0 = anchor := by
  rw [element_eq, boundary_zero]
  simp only [unixSeconds, nanosPerSecond]
  omega

def Around (rt : Runtime) (anchor : ℤ) (p : Period) (t : ℤ) (k : ℕ) : Prop :=
  element rt anchor p k ≤ t ∧ t < element rt anchor p (k + 1)

variable {t : ℤ}

theorem Around.isGreatest (h : Around rt anchor p t k) :
    IsGreatest {x ∈ range (element rt anchor p) | x ≤ t} (element rt anchor p k) := by
  refine ⟨⟨⟨k, rfl⟩, h.1⟩, ?_⟩
  rintro _ ⟨⟨j, rfl⟩, hj⟩
  have hlt : j < k + 1 := (element_strictMono anchor p).lt_iff_lt.1 (lt_of_le_of_lt hj h.2)
  exact (element_strictMono anchor p).monotone (Nat.lt_succ_iff.1 hlt)

theorem Around.isLeast (h : Around rt anchor p t k) :
    IsLeast {x ∈ range (element rt anchor p) | t < x} (element rt anchor p (k + 1)) := by
  refine ⟨⟨⟨k + 1, rfl⟩, h.2⟩, ?_⟩
  rintro _ ⟨⟨j, rfl⟩, hj⟩
  have hlt : k < j := (element_strictMono anchor p).lt_iff_lt.1 (lt_of_le_of_lt h.1 hj)
  exact (element_strictMono anchor p).monotone hlt

/-- The longest distance in days that a duration can hold. -/
def maxDays : ℤ := 106751

theorem daysBetween_exact {d d' : ℤ} (h : d ≤ d') (hmax : d' - d ≤ maxDays) :
    daysBetween d d' = d' - d := by
  have hfits : saturateDuration ((d' - d) * nanosPerDay) = (d' - d) * nanosPerDay := by
    simp only [saturateDuration, nanosPerDay, secondsPerDay, nanosPerSecond, minInt64, maxInt64,
      maxDays] at *
    omega
  rw [daysBetween, hfits]
  exact mul_tdiv_cancel _ (by decide)

theorem day_spec (rt : Runtime) (t : ℤ) :
    day rt t * nanosPerDay ≤ t + rt.zoneOffset * nanosPerSecond ∧
      t + rt.zoneOffset * nanosPerSecond < (day rt t + 1) * nanosPerDay := by
  simp only [day, Runtime.day, unixSeconds, nanosPerDay, secondsPerDay, nanosPerSecond]
  omega

theorem day_le_day {t' : ℤ} (h : t ≤ t') : day rt t ≤ day rt t' :=
  Subscription.day_le_day rt (Int.ediv_le_ediv (by decide) h)

/-- The day and the week branch look `w` days ahead: the clock time of the anchor in the `w` days
that hold `after` comes before or after it. -/
theorem days_around {w n : ℕ} (hw : w = 1 ∨ w = 7) (h : anchor ≤ after)
    (hn : day rt after - day rt anchor = n) :
    ∃ k : ℕ, anchor + w * k * nanosPerDay ≤ after ∧ after < anchor + w * (k + 1 : ℕ) * nanosPerDay ∧
      (if after < anchor + (n / w : ℕ) * w * nanosPerDay then
        anchor + (n / w : ℕ) * w * nanosPerDay
      else anchor + (n / w : ℕ) * w * nanosPerDay + w * nanosPerDay) =
        anchor + w * (k + 1 : ℕ) * nanosPerDay := by
  have hanchor := day_spec rt anchor
  have hafter := day_spec rt after
  by_cases hlt : after < anchor + (n / w : ℕ) * w * nanosPerDay
  · refine ⟨n / w - 1, ?_⟩
    simp only [nanosPerDay, secondsPerDay, nanosPerSecond] at *
    rcases hw with rfl | rfl <;> omega
  · refine ⟨n / w, ?_⟩
    simp only [nanosPerDay, secondsPerDay, nanosPerSecond] at *
    rcases hw with rfl | rfl <;> omega

theorem monthlyCandidate_strictMono (anchor : ℤ) : StrictMono (monthlyCandidate rt anchor) := by
  intro k k' h
  have hlt := Subscription.monthlyCandidate_strictMono rt (unixSeconds anchor) h
  simp only [monthlyCandidate, nanosPerSecond]
  omega

theorem monthlyCandidate_pred_le (anchor t : ℤ) :
    monthlyCandidate rt anchor (month rt t - month rt anchor - 1) ≤ t := by
  have hlt := Subscription.monthlyCandidate_pred_lt rt (unixSeconds anchor) (unixSeconds t)
  have ht := (unixSeconds_spec t).1
  rw [monthlyCandidate, month, month]
  simp only [nanosPerSecond] at *
  omega

theorem lt_monthlyCandidate_succ (anchor t : ℤ) :
    t < monthlyCandidate rt anchor (month rt t - month rt anchor + 1) := by
  have hlt := Subscription.lt_monthlyCandidate_succ rt (unixSeconds anchor) (unixSeconds t)
  have ht := (unixSeconds_spec t).2
  rw [monthlyCandidate, month, month]
  simp only [nanosPerSecond] at *
  omega

theorem nextPeriodReset_around (h : anchor ≤ after)
    (hdays : p ≠ .monthly → day rt after - day rt anchor ≤ maxDays) :
    ∃ k, Around rt anchor p after k ∧
      nextPeriodReset rt anchor after p = element rt anchor p (k + 1) := by
  have hle : day rt anchor ≤ day rt after := day_le_day h
  obtain ⟨n, hn⟩ := eq_ofNat_of_zero_le (sub_nonneg.2 hle)
  cases p with
  | daily =>
    obtain ⟨k, hk, hk', hnext⟩ := days_around (.inl rfl) h hn
    simp only [Nat.div_one, Nat.cast_one, one_mul, mul_one] at hk hk' hnext
    refine ⟨k, ⟨hk, hk'⟩, ?_⟩
    rw [nextPeriodReset, daysBetween_exact hle (hdays (by decide)), hn]
    exact hnext
  | weekly =>
    obtain ⟨k, hk, hk', hnext⟩ := days_around (.inr rfl) h hn
    refine ⟨k, ⟨hk, hk'⟩, ?_⟩
    rw [nextPeriodReset, daysBetween_exact hle (hdays (by decide)), hn]
    exact hnext
  | monthly =>
    have hzero : monthlyCandidate rt anchor 0 = anchor := element_zero anchor .monthly
    obtain ⟨k, hle, hlt, hnext⟩ := months_around (monthlyCandidate_strictMono anchor)
      (hzero.trans_le h) (@monthlyCandidate_pred_le rt anchor after)
      (lt_monthlyCandidate_succ anchor after)
    exact ⟨k, ⟨hle, hlt⟩, hnext⟩

theorem month_monthlyCandidate (anchor months : ℤ) :
    rt.month (Subscription.monthlyCandidate rt anchor months) = rt.month anchor + months := by
  obtain ⟨h₀, h₁⟩ := rt.clock_bounds anchor
  obtain ⟨hlow, hhigh⟩ :=
    clampedDay_mem (m := rt.month anchor + months) (rt.dayOfMonth_pos anchor)
  rw [Runtime.month, Subscription.monthlyCandidate, rt.day_unix h₀ h₁, monthOfDay_eq hlow hhigh]

theorem anchoredPeriodWindowStart_eq
    (hnext : calcNextAnchoredPeriodReset rt anchor now p 0 =
      boundary rt (unixSeconds anchor) p (k + 1))
    (hepoch : boundary rt (unixSeconds anchor) p (k + 1) ≠ 0) :
    anchoredPeriodWindowStart rt anchor now p = boundary rt (unixSeconds anchor) p k := by
  unfold anchoredPeriodWindowStart
  simp only [hnext, if_neg hepoch]
  cases p with
  | daily | weekly => simp only [boundary, secondsPerDay]; omega
  | monthly =>
    simp only [boundary, month_monthlyCandidate, month]
    congr 1
    omega

theorem unixSeconds_mono {t' : ℤ} (h : t ≤ t') : unixSeconds t ≤ unixSeconds t' :=
  Int.ediv_le_ediv (by decide) h

def utcZone : Runtime := ⟨0, .finite, id, id⟩

def newYear : ℤ := 1767259800 * nanosPerSecond

def farAhead : ℤ := newYear + 106753 * nanosPerDay

def beforeEpoch : ℤ := -2 * nanosPerDay

@[simp] theorem unixSeconds_mul (t : ℤ) : unixSeconds (t * nanosPerSecond) = t :=
  mul_ediv_cancel t (by decide)

theorem monthlyCandidate_seconds (anchor months : ℤ) :
    monthlyCandidate rt (anchor * nanosPerSecond) months =
      Subscription.monthlyCandidate rt anchor months * nanosPerSecond := by
  rw [monthlyCandidate, unixSeconds_mul, mul_emod_left, add_zero]

theorem nextPeriodReset_seconds (rt : Runtime) (anchor after : ℤ) (p : Period) :
    nextPeriodReset rt (anchor * nanosPerSecond) (after * nanosPerSecond) p =
      Subscription.nextPeriodReset rt anchor after p * nanosPerSecond := by
  cases p with
  | daily | weekly =>
    simp only [nextPeriodReset, Subscription.nextPeriodReset, day, unixSeconds_mul]
    split <;> split <;> simp only [nanosPerDay, secondsPerDay, nanosPerSecond] at * <;> omega
  | monthly =>
    have hcond : (fun k ↦ decide (monthlyCandidate rt (anchor * nanosPerSecond) k ≤
        after * nanosPerSecond)) =
        fun k ↦ decide (Subscription.monthlyCandidate rt anchor k ≤ after) := by
      funext k
      rw [monthlyCandidate_seconds, decide_eq_decide]
      exact Int.mul_le_mul_right (by decide)
    simp only [nextPeriodReset, Subscription.nextPeriodReset, monthlyNext,
      Subscription.monthlyNext, hcond, month, unixSeconds_mul]
    cases whileLoop (fun k ↦ decide (Subscription.monthlyCandidate rt anchor k ≤ after)) (· + 1) 2
      (max 0 (rt.month after - rt.month anchor)) with
    | none => rfl
    | some k => exact monthlyCandidate_seconds anchor k

theorem calcNextAnchoredPeriodReset_seconds (rt : Runtime) (anchor after : ℤ) (p : Period)
    (endUnix : ℤ) :
    calcNextAnchoredPeriodReset rt (anchor * nanosPerSecond) (after * nanosPerSecond) p endUnix =
      Subscription.calcNextAnchoredPeriodReset rt anchor after p endUnix := by
  have hmax : max (after * nanosPerSecond) (anchor * nanosPerSecond) =
      max after anchor * nanosPerSecond := by
    simp only [nanosPerSecond]
    omega
  rw [calcNextAnchoredPeriodReset, Subscription.calcNextAnchoredPeriodReset, hmax,
    nextPeriodReset_seconds, unixSeconds_mul]

end Moligate.Subscription.Instant
