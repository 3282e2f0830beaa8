import Moligate.Subscription.Anchored
import Moligate.Subscription.Reset

namespace Moligate.Subscription

open Foundation Common Instant

section

variable (rt : Runtime) (sub : UserSubscription) (plan : SubscriptionPlan)

def catchUpStart : ℤ × ℤ :=
  let baseUnix := if sub.lastResetTime ≤ 0 then sub.startTime else sub.lastResetTime
  (baseUnix, calcNextResetTime rt sub.startTime baseUnix plan sub.endTime)

def catchUpDue (now : ℤ) (x : ℤ × ℤ) : Bool := decide (0 < x.2 ∧ x.2 ≤ now)

def catchUpStep (x : ℤ × ℤ) : ℤ × ℤ :=
  (x.2, calcNextResetTime rt sub.startTime x.2 plan sub.endTime)

/-- The inputs for which a reset time is followed by a later one: the custom period is at least a
second after its product has wrapped, and the days since the start still fit in a duration. -/
def Progresses (now : ℤ) : Prop :=
  match normalizeResetPeriod rt plan.quotaResetPeriod with
  | .never | .anchored .monthly => True
  | .anchored _ => rt.day now - rt.day sub.startTime ≤ maxDays
  | .custom => nanosPerSecond ≤ durationOfSeconds plan.quotaResetCustomSeconds

end

variable {rt : Runtime} {sub : UserSubscription} {plan : SubscriptionPlan}
  {anchor after now : ℤ} {p : Period}

/-- The reset of the code runs this loop. -/
theorem resetPrimary_eq_catchUp
    (hopen : normalizeResetPeriod rt plan.quotaResetPeriod ≠ .never ∧
      (sub.nextResetTime = 0 ∨ sub.nextResetTime ≤ now)) :
    resetPrimary rt sub plan now =
      (whileLoop (catchUpDue now) (catchUpStep rt sub plan) now.toNat (catchUpStart rt sub plan)).map
        fun x ↦ finishPrimaryReset sub (catchUpDue now (catchUpStart rt sub plan)) x.1 x.2 := by
  rw [resetPrimary, if_pos hopen]
  rfl

theorem lt_nextPeriodReset (h : anchor ≤ after)
    (hdays : p ≠ .monthly → rt.day after - rt.day anchor ≤ maxDays) :
    after < nextPeriodReset rt anchor after p := by
  have hday (t : ℤ) : day rt (t * nanosPerSecond) = rt.day t := by
    rw [day, unixSeconds_mul]
  obtain ⟨k, haround, hnext⟩ := nextPeriodReset_around
    (Int.mul_le_mul_of_nonneg_right h (by decide : 0 ≤ nanosPerSecond))
    (by rw [hday, hday]; exact hdays)
  rw [nextPeriodReset_seconds] at hnext
  have hlt := haround.2
  rw [← hnext] at hlt
  exact lt_of_mul_lt_mul_right hlt (by decide)

theorem lt_calcNextResetTime (h : Progresses rt sub plan now) (hafter : after ≤ now) :
    calcNextResetTime rt sub.startTime after plan sub.endTime = 0 ∨
      after < calcNextResetTime rt sub.startTime after plan sub.endTime := by
  rw [Progresses] at h
  rw [calcNextResetTime]
  cases hperiod : normalizeResetPeriod rt plan.quotaResetPeriod with
  | never => exact .inl rfl
  | custom =>
    simp only [hperiod] at h
    have hone : 1 ≤ durationOfSeconds plan.quotaResetCustomSeconds / nanosPerSecond :=
      Int.le_ediv_of_mul_le (by decide) (by omega)
    dsimp only
    split_ifs
    · exact .inl rfl
    · exact .inl rfl
    · exact .inr (by omega)
  | anchored p =>
    have hlt := @lt_nextPeriodReset rt _ _ p (le_max_right after sub.startTime) fun hp ↦ ?_
    · dsimp only
      rw [calcNextAnchoredPeriodReset]
      split_ifs
      · exact .inl rfl
      · exact .inr (lt_of_le_of_lt (le_max_left after sub.startTime) hlt)
    have hmax : max after sub.startTime ≤ max now sub.startTime := max_le_max hafter le_rfl
    have hday := day_le_day rt hmax
    have hnow : rt.day now - rt.day sub.startTime ≤ maxDays := by
      cases p with
      | monthly => exact absurd rfl hp
      | daily | weekly => simpa [hperiod] using h
    rcases le_total now sub.startTime with hle | hle
    · rw [max_eq_right hle] at hday
      simp only [maxDays]
      omega
    · rw [max_eq_left hle] at hday
      omega

/-- A subscription as it is bought at 10 under a custom plan whose period is 0 after it has
wrapped. -/
def boughtAt10 : UserSubscription where
  id := 1
  userId := 1
  planId := 1
  amountTotal := 100
  amountUsed := 0
  daily := {}
  weekly := {}
  monthly := {}
  periodResetAnchorVersion := 1
  startTime := 10
  endTime := 100
  status := .active
  lastResetTime := 10
  nextResetTime := 10
  applicableGroups := []
  modelFamily := ""
  includedModels := []
  billingRatio := .finite 1
  resourceGrants := []

def customPlan (seconds : ℤ) : SubscriptionPlan := ⟨1, "custom", seconds⟩

end Moligate.Subscription
