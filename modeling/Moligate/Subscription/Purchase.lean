import Moligate.Subscription.Consume

namespace Moligate.Subscription

open Foundation Common Calendar

inductive DurationUnit where
  | year | month | day | hour | custom
  | other (unit : String)
  deriving DecidableEq

structure BonusResource where
  (resourceKey resourceType modelName displayName : String)
  amount : ℤ

structure Plan extends SubscriptionPlan where
  billingRatio : Float64
  durationUnit : DurationUnit
  (durationValue customSeconds : ℤ)
  allowWalletOverflow : Option Bool
  maxPurchasePerUser : ℤ
  (upgradeGroup downgradeGroup : String)
  applicableGroups : List String
  modelFamily : String
  includedModels : List String
  bonusResources : List BonusResource
  (totalAmount dailyAmount weeklyAmount monthlyAmount : ℤ)

structure SubscriptionRow extends UserSubscription where
  (upgradeGroup prevUserGroup downgradeGroup : String)
  allowWalletOverflow : Bool
  deriving DecidableEq

inductive PurchaseError where
  | invalidPlan | invalidUserId | purchaseLimit | durationNotPositive | customSecondsNotPositive
  | invalidDurationUnit (unit : String)
  | noBillingRatio | duplicateKey
  deriving DecidableEq

def PurchaseError.message : PurchaseError → String
  | invalidPlan => "invalid plan"
  | invalidUserId => "invalid user id"
  | purchaseLimit => "已达到该套餐购买上限"
  | durationNotPositive => "duration_value must be > 0"
  | customSecondsNotPositive => "custom_seconds must be > 0"
  | invalidDurationUnit unit => "invalid duration_unit: " ++ unit
  | noBillingRatio => "subscription plan has no valid fixed billing ratio"
  | duplicateKey => "duplicate key"

def subscriptionMaxBonusResources : ℕ := 32

section

variable (rt : Runtime)

/-- `start.AddDate(0, months, 0)`: a day that the month does not have runs over into the next. -/
def addMonths (start months : ℤ) : ℤ :=
  rt.unix (monthStart (rt.month start + months) + rt.dayOfMonth start - 1) (rt.clock start)

/-- `start.Add(n * unit)` for a unit of `seconds` seconds; the product is an int64. -/
def addDuration (start n seconds : ℤ) : ℤ :=
  start + durationOfSeconds (n * seconds) / nanosPerSecond

def calcPlanEndTime (start : ℤ) (plan : Plan) : Except PurchaseError ℤ :=
  if plan.durationValue ≤ 0 ∧ plan.durationUnit ≠ .custom then .error .durationNotPositive
  else
    match plan.durationUnit with
    | .year => .ok (addMonths rt start (12 * plan.durationValue))
    | .month => .ok (addMonths rt start plan.durationValue)
    | .day => .ok (addDuration start plan.durationValue 86400)
    | .hour => .ok (addDuration start plan.durationValue 3600)
    | .custom =>
      if plan.customSeconds ≤ 0 then .error .customSecondsNotPositive
      else .ok (addDuration start plan.customSeconds 1)
    | .other unit => .error (.invalidDurationUnit unit)

def firstOfEach {α κ : Type*} [DecidableEq κ] (key : α → κ) (xs : List α) : List α :=
  xs.foldl (fun kept x ↦ if key x ∈ kept.map key then kept else kept ++ [x]) []

def normalizeSubscriptionGroups (groups : List String) : List String :=
  firstOfEach id ((groups.map rt.trimSpace).filter fun g ↦ g ≠ "" && g.utf8ByteSize ≤ 64)

def normalizeSubscriptionModels (models : List String) : List String :=
  (firstOfEach id ((models.map rt.trimSpace).filter fun m ↦
    m ≠ "" && m.utf8ByteSize ≤ 128)).take 128

def truncateBytes (n : ℕ) (s : String) : String :=
  String.ofList (s.toList.foldl (fun (kept : List Char × ℕ) c ↦
    if kept.2 + c.utf8Size ≤ n then (kept.1 ++ [c], kept.2 + c.utf8Size) else (kept.1, n + 1))
    ([], 0)).1

def normalizeSubscriptionModelFamily (family : String) : String :=
  let family := rt.trimSpace (rt.toLower family)
  if 32 < family.utf8ByteSize then truncateBytes 32 family else family

def normalizeBonusResource (r : BonusResource) : BonusResource :=
  let resourceKey := rt.trimSpace (rt.toLower r.resourceKey)
  let resourceType := rt.trimSpace (rt.toLower r.resourceType)
  let modelName := rt.trimSpace r.modelName
  { r with
    resourceKey := if resourceKey = "" then rt.toLower modelName else resourceKey
    resourceType := if resourceType = "" then "quota" else resourceType
    modelName
    displayName := rt.trimSpace r.displayName }

def BonusResource.isValid (r : BonusResource) : Bool :=
  !(r.resourceKey = "" || r.modelName = "" || r.amount ≤ 0) &&
    (r.resourceType = "quota" || r.resourceType = "image_count") &&
    !(128 < r.resourceKey.utf8ByteSize || 128 < r.modelName.utf8ByteSize ||
      128 < r.displayName.utf8ByteSize)

def normalizeSubscriptionBonusResources (rs : List BonusResource) : List BonusResource :=
  (firstOfEach (fun r ↦ (r.resourceKey, r.resourceType))
    ((rs.map (normalizeBonusResource rt)).filter BonusResource.isValid)).take
      subscriptionMaxBonusResources

def BonusResource.grant (r : BonusResource) : ResourceGrant where
  resourceKey := r.resourceKey
  resourceType := if r.resourceType = "image_count" then .imageCount else .quota
  modelName := r.modelName
  amount := r.amount
  used := 0

def resourceGrants (plan : Plan) : List ResourceGrant :=
  (normalizeSubscriptionBonusResources rt plan.bonusResources).map BonusResource.grant

def ratedFamilies : List String :=
  ["ccmax", "cc max", "kiro-claude", "kiro claude", "kiro", "gpt", "openai", "gemini", "google",
    "chinese", "国产", "cn", "gpt-image", "gpt image", "banana", "nano banana", "香蕉生图"]

def Plan.effectiveBillingRatio (plan : Plan) : Float64 :=
  if plan.billingRatio.gt 0 && plan.billingRatio.le maxBillingRatio && !plan.billingRatio.isNaN &&
      !plan.billingRatio.isInf then plan.billingRatio
  else if ratedFamilies.contains (rt.trimSpace (rt.toLower plan.modelFamily)) then .finite 1
  else .finite 0

/-- The group that a purchase finds and its subscription leads back to; empty when the purchase
does not change the group. -/
def prevGroup (upgradeGroup currentGroup : String) : String :=
  if upgradeGroup ≠ "" ∧ currentGroup ≠ upgradeGroup then currentGroup else ""

def newSubscription (id now userId : ℤ) (plan : Plan) (currentGroup : String) :
    Except PurchaseError SubscriptionRow := do
  let endTime ← calcPlanEndTime rt now plan
  let nextResetTime := calcNextResetTime rt now now plan.toSubscriptionPlan endTime
  let limit (amount : ℤ) (p : Period) : PeriodQuota :=
    { amount
      resetTime := if 0 < amount then calcNextAnchoredPeriodReset rt now now p endTime else 0 }
  let upgradeGroup := rt.trimSpace plan.upgradeGroup
  let billingRatio := plan.effectiveBillingRatio rt
  if !validBillingRatio billingRatio then .error .noBillingRatio
  else
    pure
      { id, userId
        planId := plan.id
        amountTotal := plan.totalAmount
        amountUsed := 0
        daily := limit plan.dailyAmount .daily
        weekly := limit plan.weeklyAmount .weekly
        monthly := limit plan.monthlyAmount .monthly
        periodResetAnchorVersion := periodResetAnchorVersion
        startTime := now
        endTime
        status := .active
        lastResetTime := if 0 < nextResetTime then now else 0
        nextResetTime
        upgradeGroup
        prevUserGroup := prevGroup upgradeGroup currentGroup
        downgradeGroup := rt.trimSpace plan.downgradeGroup
        applicableGroups := normalizeSubscriptionGroups rt plan.applicableGroups
        allowWalletOverflow := plan.allowWalletOverflow.getD true
        modelFamily := normalizeSubscriptionModelFamily rt plan.modelFamily
        includedModels := normalizeSubscriptionModels rt plan.includedModels
        billingRatio
        resourceGrants := resourceGrants rt plan }

end

theorem newSubscription_spec {rt : Runtime} {id now userId : ℤ} {plan : Plan} {group : String}
    {row : SubscriptionRow} (h : newSubscription rt id now userId plan group = .ok row) :
    calcPlanEndTime rt now plan = .ok row.endTime ∧ row.id = id ∧ row.startTime = now ∧
      row.planId = plan.id ∧ row.userId = userId ∧ row.status = .active ∧
      row.upgradeGroup = rt.trimSpace plan.upgradeGroup ∧
      row.prevUserGroup = prevGroup row.upgradeGroup group ∧
      row.downgradeGroup = rt.trimSpace plan.downgradeGroup ∧
      row.resourceGrants = resourceGrants rt plan := by
  obtain ⟨endTime, hend, h⟩ := except_bind_eq_ok.1 h
  dsimp only at h
  split at h
  · cases h
  · cases h
    exact ⟨hend, rfl, rfl, rfl, rfl, rfl, rfl, rfl, rfl, rfl⟩

end Moligate.Subscription
