import Moligate.Foundation.Call
import Moligate.Subscription.Reset

namespace Moligate.Subscription

open Foundation Common

inductive SubscriptionError where
  | invalidUserId | requestIdEmpty | amountNotPositive | amountExceedsLimit | invalidResourceRequest
  | alreadyRefunded | recordNotFound | noActiveSubscription | invalidPlanId
  | clamp (c : QuotaClamp)
  | quotaInsufficient (need : ℤ)
  | invalidUserSubscriptionId | resourceKeyEmpty | imageCountAtPreConsume | grantNotFound
  | usageNegative | usageOverflow
  | resourceUpdateFailed (e : SubscriptionError)
  | totalUpdateFailed (e : SubscriptionError)
  | periodUpdateFailed (p : Period) (e : SubscriptionError)
  | resourceExceedsGrant (used total : ℤ)
  | exceedsTotal (used total : ℤ)
  | exceedsPeriod (p : Period) (used total : ℤ)
  | imageDeltaExceedsLimit | imageUnitExceedsLimit | imageGrantNotFound
  | imageUpdateFailed (e : SubscriptionError)
  | imageOverageUnsettled (imageCount : ℤ)
  | imageOverageRejected (e : SubscriptionError)
  | imageUnitMissing | invalidImageCount
  deriving DecidableEq

def Period.name : Period → String
  | .daily => "daily"
  | .weekly => "weekly"
  | .monthly => "monthly"

def QuotaClampKind.name : QuotaClampKind → String
  | .overflow => "overflow"
  | .underflow => "underflow"
  | .nan => "nan"

def SubscriptionError.message (formatG : Float64 → String) : SubscriptionError → String
  | invalidUserId => "invalid userId"
  | requestIdEmpty => "requestId is empty"
  | amountNotPositive => "amount must be > 0"
  | amountExceedsLimit => "amount exceeds subscription quota limit"
  | invalidResourceRequest => "invalid subscription resource request"
  | alreadyRefunded => "subscription pre-consume already refunded"
  | recordNotFound => "record not found"
  | noActiveSubscription => "no active subscription"
  | invalidPlanId => "invalid plan id"
  | clamp c =>
    let kind := QuotaClampKind.name c.kind
    let original := formatG c.original
    let op := c.op
    let clamped := c.clamped
    s!"quota conversion ({op}) {kind}: original={original}, clamped={clamped}"
  | quotaInsufficient need => s!"subscription quota insufficient, need={need}"
  | invalidUserSubscriptionId => "invalid userSubscriptionId"
  | resourceKeyEmpty => "resource key is empty"
  | imageCountAtPreConsume => "image-count resources are consumed at pre-consume time"
  | grantNotFound => "subscription resource grant not found"
  | usageNegative => "subscription usage is negative"
  | usageOverflow => "subscription usage overflow"
  | resourceUpdateFailed e => "subscription resource usage update failed: " ++ e.message formatG
  | totalUpdateFailed e => "subscription total usage update failed: " ++ e.message formatG
  | periodUpdateFailed p e =>
    "subscription " ++ p.name ++ " usage update failed: " ++ e.message formatG
  | resourceExceedsGrant used total =>
    s!"subscription resource used exceeds grant, used={used} total={total}"
  | exceedsTotal used total => s!"subscription used exceeds total, used={used} total={total}"
  | exceedsPeriod p used total =>
    "subscription " ++ p.name ++ s!" usage exceeds limit, used={used} total={total}"
  | imageDeltaExceedsLimit => "image resource delta exceeds limit"
  | imageUnitExceedsLimit => "image unit quota exceeds limit"
  | imageGrantNotFound => "subscription image resource grant not found"
  | imageUpdateFailed e => "subscription image resource usage update failed: " ++ e.message formatG
  | imageOverageUnsettled imageCount =>
    s!"subscription image overage cannot be settled: image_count={imageCount}"
  | imageOverageRejected e =>
    "subscription image overage cannot be settled: " ++ e.message formatG
  | imageUnitMissing => "subscription image overage cannot be settled: missing image unit quota"
  | invalidImageCount => "invalid image generation count"

def usageHasCapacity (limit used amount : ℤ) : Bool :=
  if amount ≤ 0 ∨ used < 0 ∨ maxInt64 - amount < used then false
  else if limit ≤ 0 then true
  else used ≤ limit && amount ≤ limit - used

def applyUsageDelta (current delta : ℤ) : Except SubscriptionError ℤ :=
  if current < 0 then .error .usageNegative
  else if 0 < delta then
    if maxInt64 - delta < current then .error .usageOverflow else .ok (current + delta)
  else if delta = minInt64 ∨ current ≤ -delta then .ok 0
  else .ok (current + delta)

def applyPeriodDelta (delta : ℤ) (p : Period) (q : PeriodQuota) :
    Except SubscriptionError PeriodQuota :=
  if 0 < q.amount then
    match applyUsageDelta q.used delta with
    | .error e => .error (.periodUpdateFailed p e)
    | .ok used => .ok { q with used }
  else .ok q

def checkPeriodLimit (p : Period) (q : PeriodQuota) : Except SubscriptionError Unit :=
  if 0 < q.amount ∧ q.amount < q.used then .error (.exceedsPeriod p q.used q.amount) else .ok ()

def checkQuotaLimits (delta amountTotal amountUsed : ℤ) (daily weekly monthly : PeriodQuota) :
    Call SubscriptionError Unit :=
  if 0 < delta then do
    .check (.exceedsTotal amountUsed amountTotal) (!(0 < amountTotal && amountTotal < amountUsed))
    .ofExcept (checkPeriodLimit .daily daily)
    .ofExcept (checkPeriodLimit .weekly weekly)
    .ofExcept (checkPeriodLimit .monthly monthly)
  else .ok ()

def applySubscriptionQuotaDelta (sub : UserSubscription) (delta : ℤ) :
    Call SubscriptionError UserSubscription := do
  let amountUsed ← .ofExcept ((applyUsageDelta sub.amountUsed delta).mapError .totalUpdateFailed)
  let daily ← .ofExcept (applyPeriodDelta delta .daily sub.daily)
  let weekly ← .ofExcept (applyPeriodDelta delta .weekly sub.weekly)
  let monthly ← .ofExcept (applyPeriodDelta delta .monthly sub.monthly)
  checkQuotaLimits delta sub.amountTotal amountUsed daily weekly monthly
  pure { sub with amountUsed, daily, weekly, monthly }

variable {current delta used amount limit : ℤ} {p : Period} {q q' : PeriodQuota}
  {s s' : UserSubscription}

theorem usageHasCapacity_spec (hl : 0 < limit) (h : usageHasCapacity limit used amount = true) :
    0 < amount ∧ 0 ≤ used ∧ used + amount ≤ limit := by
  rw [usageHasCapacity] at h
  split at h
  · simp at h
  · rw [if_neg (not_le.2 hl)] at h
    simp only [Bool.and_eq_true, decide_eq_true_eq] at h
    omega

theorem applyUsageDelta_spec (h : applyUsageDelta current delta = .ok used) :
    0 ≤ current ∧ 0 ≤ used ∧ (current ≤ maxInt64 → current + delta ≤ used) ∧
      (delta ≤ 0 → used ≤ current) ∧ (0 ≤ current + delta → delta ≠ minInt64 →
        used = current + delta) := by
  rw [applyUsageDelta] at h
  split at h
  · simp at h
  split at h
  · split at h
    · simp at h
    · cases h
      omega
  · split at h <;> cases h
    next hd =>
      rcases hd with hd | hd
      · simp only [minInt64, maxInt64] at *
        omega
      · omega
    · omega

structure Charged (delta : ℤ) (q q' : PeriodQuota) : Prop where
  amount : q'.amount = q.amount
  resetTime : q'.resetTime = q.resetTime
  before : 0 ≤ q.used
  after : 0 ≤ q'.used
  covers : q.used ≤ maxInt64 → q.used + delta ≤ q'.used
  within : q.used ≤ q.amount → q'.used ≤ q.amount

end Moligate.Subscription
