import Moligate.Common.QuotaMath
import Moligate.Foundation.Table
import Moligate.Foundation.Window

namespace Moligate.Subscription

open Foundation Common

/-- What the code takes from its platform: the local time zone (a fixed offset in seconds), the
rounding of float64 products and the string functions of the standard library. -/
structure Runtime where
  zoneOffset : ℤ
  roundFloat : ℚ → Float64
  trimSpace : String → String
  toLower : String → String

inductive Period where
  | daily | weekly | monthly
  deriving DecidableEq, Repr

structure PeriodQuota where
  amount : ℤ := 0
  used : ℤ := 0
  resetTime : ℤ := 0
  deriving DecidableEq, Repr

inductive ResourceType where
  | quota | imageCount
  deriving DecidableEq, Repr

structure ResourceGrant where
  resourceKey : String
  resourceType : ResourceType
  modelName : String
  (amount used : ℤ)
  deriving DecidableEq, Repr

inductive Status where
  | active | expired | cancelled
  deriving DecidableEq, Repr

structure UserSubscription where
  (id userId planId amountTotal amountUsed : ℤ)
  (daily weekly monthly : PeriodQuota)
  (periodResetAnchorVersion startTime endTime : ℤ)
  status : Status
  (lastResetTime nextResetTime : ℤ)
  applicableGroups : List String
  modelFamily : String
  includedModels : List String
  billingRatio : Float64
  resourceGrants : List ResourceGrant
  deriving DecidableEq

namespace UserSubscription

def period (s : UserSubscription) : Period → PeriodQuota
  | .daily => s.daily
  | .weekly => s.weekly
  | .monthly => s.monthly

def mapPeriods (s : UserSubscription) (f : Period → PeriodQuota → PeriodQuota) : UserSubscription :=
  { s with
    daily := f .daily s.daily
    weekly := f .weekly s.weekly
    monthly := f .monthly s.monthly }

@[simp] theorem period_mapPeriods (s : UserSubscription) (f : Period → PeriodQuota → PeriodQuota)
    (p : Period) : (s.mapPeriods f).period p = f p (s.period p) := by
  cases p <;> rfl

end UserSubscription

structure SubscriptionPlan where
  id : ℤ
  quotaResetPeriod : String
  quotaResetCustomSeconds : ℤ

inductive RecordStatus where
  | consumed | refunded
  deriving DecidableEq, Repr

structure PreConsumeRecord where
  requestId : String
  (userId userSubscriptionId preConsumed : ℤ)
  resourceKey : String
  resourceType : Option ResourceType
  resourceAmount : ℤ
  status : RecordStatus
  deriving DecidableEq

structure ResourceRequest where
  (resourceKey resourceType : String)
  amount : ℤ

structure QuotaPricing where
  baseQuotaBeforeGroup : Float64
  liveQuota : ℤ

def maxBillingRatio : ℚ := 100
def periodResetAnchorVersion : ℤ := 1

variable (rt : Runtime)

def hasPrefix (s p : String) : Bool := p.toList.isPrefixOf s.toList

def contains (s p : String) : Bool := s.toList.tails.any p.toList.isPrefixOf

def groupMatches (groups : List String) (effective : String) : Bool :=
  groups.isEmpty || groups.contains (rt.trimSpace effective)

def normalizeResourceType (resourceType : String) : ResourceType :=
  if rt.trimSpace (rt.toLower resourceType) = "image_count" then .imageCount else .quota

def modelNameMatchesValue (modelName value : String) : Bool :=
  let modelName := rt.trimSpace (rt.toLower modelName)
  let value := rt.trimSpace (rt.toLower value)
  modelName ≠ "" && value ≠ "" &&
    (modelName = value || hasPrefix modelName (value ++ "-") || hasPrefix modelName (value ++ "/"))

def resourceMatches (grant : ResourceGrant) (resourceKey modelName : String) : Bool :=
  modelNameMatchesValue rt modelName grant.resourceKey ||
    modelNameMatchesValue rt modelName grant.modelName ||
    modelNameMatchesValue rt resourceKey grant.resourceKey ||
    modelNameMatchesValue rt resourceKey grant.modelName

def isImageModelName (model : String) : Bool :=
  hasPrefix model "gpt-image-2" || hasPrefix model "gemini-3-pro-image" ||
    hasPrefix model "gemini-3.1-flash-image" || model = "gemini-2.5-flash-image" ||
    model = "gemini-2.0-flash-exp-image-generation" || model = "gemini-2.0-flash-exp" ||
    model = "nano-banana-pro-preview"

def familyMatches (family model : String) : Bool :=
  if ["ccmax", "cc max", "kiro-claude", "kiro claude", "kiro", "claude", "anthropic"].contains
      family then
    contains model "claude" || contains model "anthropic"
  else if ["gpt", "openai"].contains family then
    (hasPrefix model "gpt" || hasPrefix model "openai/") && !contains model "gpt-image"
  else if ["gpt-image", "gpt image"].contains family then hasPrefix model "gpt-image-"
  else if ["gemini", "google"].contains family then
    (hasPrefix model "gemini" || hasPrefix model "google/") && !isImageModelName model
  else if ["banana", "nano banana", "香蕉生图"].contains family then isImageModelName model
  else if ["chinese", "国产", "cn"].contains family then
    ["deepseek", "glm", "kimi", "minimax"].any (hasPrefix model)
  else false

def modelMatches (sub : UserSubscription) (modelName : String) : Bool :=
  if sub.includedModels.isEmpty && rt.trimSpace sub.modelFamily = "" then true
  else if !sub.includedModels.isEmpty then
    sub.includedModels.any (modelNameMatchesValue rt modelName)
  else
    let family := rt.trimSpace (rt.toLower sub.modelFamily)
    if family = "" || family = "all" then family = "all"
    else familyMatches family (rt.toLower (rt.trimSpace modelName))

end Moligate.Subscription
