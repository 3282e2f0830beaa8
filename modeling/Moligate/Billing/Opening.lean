import Moligate.Billing.Session

namespace Moligate.Billing

open Foundation Common Subscription

inductive BillingPreference where
  | subscriptionFirst | walletFirst | subscriptionOnly | walletOnly
  deriving DecidableEq, Repr

structure RelayRequest where
  info : RelayInfo
  requestId : String
  userId : ℤ
  (originModelName usingGroup billingPreference : String)
  (baseQuotaBeforeGroup groupRatio : Float64)
  imageCount : Option ℤ

structure Query where
  now : ℤ
  fails : Bool := false

/-- What the opening of a session meets: its reads in their order, the two attempts to reserve, the
balance of the user as the cache or the database has it, and the ratio of the group settings. -/
structure Opening where
  (firstQuote existence secondQuote : Query)
  subscription : Env
  overflow : Query
  userQuota : Option ℤ
  wallet : Env
  liveGroupRatio : Float64

inductive ErrorCode where
  | queryDataError | insufficientUserQuota | preConsumeTokenQuotaFailed | updateDataError
  deriving DecidableEq, Repr

inductive ApiError where
  | queryFailed
  | userQuotaInsufficient (userQuota : ℤ)
  | userQuotaBelow (userQuota walletQuota : ℤ)
  | billing (e : BillingError)
  deriving DecidableEq

/-- A failed reservation is told by the text of its error. -/
def BillingError.code (formatG : Float64 → String) : BillingError → ErrorCode
  | negativeQuota | tokenQuotaNotEnough _ => .preConsumeTokenQuotaFailed
  | insufficientWalletQuota => .insufficientUserQuota
  | subscription e =>
    if contains (e.message formatG) "no active subscription" ||
        contains (e.message formatG) "subscription quota insufficient" then .insufficientUserQuota
    else .updateDataError
  | invalidReservation | invalidSettledImageCount => .updateDataError

def ApiError.code (formatG : Float64 → String) : ApiError → ErrorCode
  | queryFailed => .queryDataError
  | userQuotaInsufficient _ | userQuotaBelow _ _ => .insufficientUserQuota
  | billing e => e.code formatG

variable (rt : Runtime)

def normalizeBillingPreference (pref : String) : BillingPreference :=
  if rt.trimSpace pref = "wallet_first" then .walletFirst
  else if rt.trimSpace pref = "subscription_only" then .subscriptionOnly
  else if rt.trimSpace pref = "wallet_only" then .walletOnly
  else .subscriptionFirst

def canServeModel (sub : UserSubscription) (modelName : String) : Bool :=
  modelMatches rt sub modelName || sub.resourceGrants.any fun g ↦
    resourceMatches rt g modelName modelName && usageHasCapacity g.amount g.used 1

def isOffered (modelName effectiveGroup : String) (sub : UserSubscription) : Bool :=
  groupMatches rt sub.applicableGroups effectiveGroup &&
    (rt.trimSpace modelName = "" || canServeModel rt sub modelName)

def hasActiveUserSubscriptionForModel (q : Query) (db : Db) (userId : ℤ)
    (modelName effectiveGroup : String) : Option Bool :=
  if userId ≤ 0 ∨ q.fails = true then none
  else some ((db.subs.rows.filter (isCandidate q.now userId)).any
    (isOffered rt modelName effectiveGroup))

/-- `overflow` is the column `allow_wallet_overflow` of the rows. -/
def userActiveSubscriptionsAllowWalletOverflowForModel (q : Query) (db : Db) (overflow : ℤ → Bool)
    (userId : ℤ) (modelName effectiveGroup : String) : Option Bool :=
  if userId ≤ 0 ∨ q.fails = true then none
  else some (!(db.subs.rows.filter fun sub ↦
    isCandidate q.now userId sub && !overflow sub.id).any (isOffered rt modelName effectiveGroup))

def getActiveSubscriptionBillingRatio (q : Query) (db : Db) (userId : ℤ)
    (modelName effectiveGroup : String) : Option Float64 :=
  if userId ≤ 0 ∨ rt.trimSpace modelName = "" ∨ q.fails = true then none
  else
    ((candidates q.now db userId).find? fun sub ↦
      groupMatches rt sub.applicableGroups effectiveGroup && canServeModel rt sub modelName &&
        validBillingRatio sub.billingRatio).map UserSubscription.billingRatio

/-- `none` for an error. -/
def subscriptionQuotaForRatio (req : RelayRequest) (liveQuota : ℤ) (ratio : Float64) : Option ℤ :=
  if ratio.le 0 then some liveQuota
  else if ratio.gt maxBillingRatio || ratio.isNaN || ratio.isInf then none
  else if req.baseQuotaBeforeGroup.gt 0 then
    (quotaFromFloatStrict (.mul rt.roundFloat req.baseQuotaBeforeGroup ratio)).toOption
  else
    (quotaFromFloatStrict
      (if req.groupRatio.gt 0 then
        .div rt.roundFloat (.mul rt.roundFloat (rt.roundFloat liveQuota) ratio) req.groupRatio
      else .mul rt.roundFloat req.baseQuotaBeforeGroup ratio)).toOption

def subscriptionPreConsumeQuota (q : Query) (db : Db) (req : RelayRequest) (liveQuota : ℤ) :
    ℤ × Option Float64 :=
  match getActiveSubscriptionBillingRatio rt q db req.userId req.originModelName req.usingGroup with
  | none => (liveQuota, none)
  | some ratio =>
    match subscriptionQuotaForRatio rt req liveQuota ratio with
    | none => (liveQuota, none)
    | some quota => if quota < 0 then (liveQuota, none) else (quota, some ratio)

def restoreWalletPriceSnapshot (req : RelayRequest) (liveRatio : Float64) (preConsumed : ℤ)
    (fixedRatio : Float64) : ℤ :=
  if fixedRatio.le 0 then preConsumed
  else if req.baseQuotaBeforeGroup.gt 0 then
    (quotaFromFloatStrict (.mul rt.roundFloat req.baseQuotaBeforeGroup liveRatio)).toOption.getD
      preConsumed
  else if liveRatio.le 0 then 0
  else
    (quotaFromFloatStrict (.div rt.roundFloat
      (.mul rt.roundFloat (rt.roundFloat preConsumed) liveRatio) fixedRatio)).toOption.getD
        preConsumed

def subscriptionImageResourceKey (modelName : String) : String :=
  if hasPrefix modelName "gpt-image-2" then "gpt-image-2" else "nano-banana"

def subscriptionResourceRequest (req : RelayRequest) (quotaAmount : ℤ) : Option ResourceRequest :=
  let modelName := rt.trimSpace (rt.toLower req.originModelName)
  if quotaAmount ≤ 0 ∨ modelName = "" then none
  else if isImageModelName modelName then
    some
      { resourceKey := subscriptionImageResourceKey modelName
        resourceType := "image_count"
        amount := min ((req.imageCount.filter (0 < ·)).getD 1) maxImageN }
  else some ⟨modelName, "quota", quotaAmount⟩

variable (o : Opening) (req : RelayRequest) (preConsumedQuota : ℤ)

/-- `fixedRatio` is the ratio of the first quote, if there was one. -/
def tryWallet (fixedRatio : Option Float64) (acc : Accounts) :
    Option (Accounts × Except ApiError Session) :=
  let walletQuota := match fixedRatio with
    | some ratio => restoreWalletPriceSnapshot rt req o.liveGroupRatio preConsumedQuota ratio
    | none => preConsumedQuota
  match o.userQuota with
  | none => some (acc, .error .queryFailed)
  | some userQuota =>
    if 0 < walletQuota ∧ userQuota ≤ 0 then
      some (acc, .error (.userQuotaInsufficient userQuota))
    else if userQuota - walletQuota < 0 then
      some (acc, .error (.userQuotaBelow userQuota walletQuota))
    else
      let session : Session := { info := { req.info with userQuota }, funding := .wallet 0 }
      (session.preConsume rt o.wallet acc walletQuota).map fun out ↦
        (out.1, out.2.mapError .billing)

def trySubscription (quote : ℤ × Option Float64) (acc : Accounts) :
    Option (Accounts × Except ApiError Session) :=
  let second := subscriptionPreConsumeQuota rt o.secondQuote acc.db req preConsumedQuota
  let subQuota := if second.2.isSome then second.1 else quote.1
  let subConsume := if subQuota ≤ 0 then 1 else subQuota
  let funding : SubscriptionFunding :=
    { requestId := req.requestId
      userId := req.userId
      modelName := req.originModelName
      effectiveGroup := req.usingGroup
      amount := subConsume
      request := subscriptionResourceRequest rt req subConsume
      pricing := some ⟨req.baseQuotaBeforeGroup, preConsumedQuota⟩ }
  let session : Session := { info := req.info, funding := .subscription funding }
  (session.preConsume rt o.subscription acc subConsume).map fun out ↦
    (out.1, out.2.mapError .billing)

def orElse (formatG : Float64 → String) (attempt : Option (Accounts × Except ApiError Session))
    (next : Accounts → ApiError → Option (Accounts × Except ApiError Session)) :
    Option (Accounts × Except ApiError Session) :=
  attempt.bind fun out ↦
    match out.2 with
    | .error e =>
      if e.code formatG = .insufficientUserQuota then next out.1 e else some (out.1, .error e)
    | .ok session => some (out.1, .ok session)

def newBillingSession (formatG : Float64 → String) (overflow : ℤ → Bool) (acc : Accounts) :
    Option (Accounts × Except ApiError Session) :=
  let pref := normalizeBillingPreference rt req.billingPreference
  let quote :=
    if pref = .walletFirst ∨ pref = .walletOnly then (preConsumedQuota, none)
    else subscriptionPreConsumeQuota rt o.firstQuote acc.db req preConsumedQuota
  let wallet := tryWallet rt o req preConsumedQuota quote.2
  let subscription := trySubscription rt o req preConsumedQuota quote
  match pref with
  | .subscriptionOnly => subscription acc
  | .walletOnly => wallet acc
  | .walletFirst => orElse formatG (wallet acc) fun acc _ ↦ subscription acc
  | .subscriptionFirst =>
    match hasActiveUserSubscriptionForModel rt o.existence acc.db req.userId req.originModelName
      req.usingGroup with
    | none => some (acc, .error .queryFailed)
    | some false => wallet acc
    | some true => orElse formatG (subscription acc) fun acc e ↦
        match userActiveSubscriptionsAllowWalletOverflowForModel rt o.overflow acc.db overflow
          req.userId req.originModelName req.usingGroup with
        | none => some (acc, .error .queryFailed)
        | some true => wallet acc
        | some false => some (acc, .error e)

end Moligate.Billing
