import Mathlib.Data.List.AList
import Moligate.Billing.Opening

namespace Moligate.Tasks.Pricing

open Foundation Common Subscription Billing

-- Prices are exact rationals here. The functions of the billing session take them as finite
-- `Float64` values, and `rt.roundFloat` is how their products are rounded.

abbrev Ratios := AList fun _ : String ↦ ℚ

def isValidOtherRatio (ratio : ℚ) : Bool := 0 < ratio

structure GroupRatioInfo where
  groupRatio : ℚ := 1
  groupSpecialRatio : ℚ := -1
  hasSpecialRatio : Bool := false
  deriving DecidableEq

structure PriceData where
  freeModel : Bool := false
  modelPrice : ℚ := 0
  modelRatio : ℚ := 0
  otherRatios : Ratios := ∅
  usePrice : Bool := false
  quota : ℤ := 0
  baseQuotaBeforeGroup : ℚ := 0
  groupRatioInfo : GroupRatioInfo := {}

namespace PriceData

variable (p : PriceData)

def addOtherRatio (key : String) (ratio : ℚ) : PriceData :=
  if isValidOtherRatio ratio then { p with otherRatios := p.otherRatios.insert key ratio } else p

def addOtherRatios (ratios : Ratios) : PriceData :=
  ratios.entries.foldl (fun p e ↦ p.addOtherRatio e.1 e.2) p

/-- It reports success if a ratio is left, see `hasOtherRatios`. -/
def replaceOtherRatios (ratios : Ratios) : PriceData :=
  { p with otherRatios := ∅ }.addOtherRatios ratios

def hasOtherRatios : Bool := !p.otherRatios.entries.isEmpty

def copyOtherRatios : Ratios where
  entries := p.otherRatios.entries.filter fun e ↦ isValidOtherRatio e.2
  nodupKeys := p.otherRatios.nodupKeys.sublist List.filter_sublist

def otherRatioMultiplier : ℚ :=
  p.otherRatios.entries.foldl (fun m e ↦ if isValidOtherRatio e.2 && e.2 ≠ 1 then m * e.2 else m) 1

def applyOtherRatiosToFloat (value : ℚ) : ℚ := value * p.otherRatioMultiplier

def removeOtherRatiosFromFloat (value : ℚ) : ℚ :=
  p.otherRatios.entries.foldl
    (fun v e ↦ if isValidOtherRatio e.2 && e.2 ≠ 1 then v / e.2 else v) value

end PriceData

structure Settings where
  modelPrice : String → Option ℚ
  defaultModelPrice : String → Option ℚ
  modelRatio : String → ℚ
  modelRatioSet : String → Bool
  -- the name under which the ratio was looked up, for the message
  matchName : String → String
  groupGroupRatio : String → String → Option ℚ
  groupRatio : String → ℚ
  quotaPerUnit : ℚ := 500000
  enableFreeModelPreConsume : Bool
  taskPricePatches : List String

inductive BillingSource where
  | wallet | subscription
  deriving DecidableEq

/-- The state of a task request. `billing` is the pre-consumed quota of the session, once there is
one, and `estimatedRatios` what `EstimateBilling` of its adaptor answers. -/
structure TaskInfo where
  request : RelayRequest
  userGroup : String
  acceptUnsetRatioModel : Bool := false
  estimatedRatios : Ratios := ∅
  priceData : PriceData := {}
  billingSource : Option BillingSource := none
  subscriptionBillingRatio : Float64 := .finite 0
  quotaClamp : Option QuotaClamp := none
  billing : Option ℤ := none

structure TaskInfo.Fresh (info : TaskInfo) : Prop where
  billing : info.billing = none
  billingSource : info.billingSource = none
  quotaClamp : info.quotaClamp = none

def TaskInfo.relayRequest (info : TaskInfo) : RelayRequest :=
  { info.request with
    baseQuotaBeforeGroup := .finite info.priceData.baseQuotaBeforeGroup
    groupRatio := .finite info.priceData.groupRatioInfo.groupRatio }

inductive PriceError where
  | notConfigured (modelName : String)
  | clamp (c : QuotaClamp)
  deriving DecidableEq

inductive SubmitStage where
  | buildRequest | doRequest | badStatus | doResponse
  deriving DecidableEq

inductive SubmitError where
  | modelPrice (e : PriceError)
  | negativeQuota (quota : ℤ)
  | clamp (c : QuotaClamp)
  | noFunding
  | subscription (e : SubscriptionError)
  | upstream (stage : SubmitStage)
  deriving DecidableEq

inductive Selected where
  | wallet
  | subscription (sub : UserSubscription)

inductive Upstream where
  | failed (stage : SubmitStage)
  -- with the answer of `AdjustBillingOnSubmit`
  | accepted (adjustedRatios : Ratios)

/-- What one attempt meets: the ratio of an active subscription as the price helper and the two
quotes of the session read it, the funding that the session selects, and the upstream side. A user
who pays from the wallet first has no first quote. -/
structure Attempt where
  (activeRatio firstQuote secondQuote : Option Float64)
  selected : Option Selected
  upstream : Upstream

variable (rt : Subscription.Runtime) (s : Settings) (a : Attempt) (info : TaskInfo)

def liveGroupRatio : ℚ :=
  (s.groupGroupRatio info.userGroup info.request.usingGroup).getD
    (s.groupRatio info.request.usingGroup)

def liveGroupRatioInfo : GroupRatioInfo :=
  match s.groupGroupRatio info.userGroup info.request.usingGroup with
  | some ratio => ⟨ratio, ratio, true⟩
  | none => { groupRatio := s.groupRatio info.request.usingGroup }

def fixedRatio? : Float64 → Option ℚ
  | .finite q => if 0 < q ∧ q ≤ maxBillingRatio then some q else none
  | _ => none

def applySubscriptionBillingRatio (g : GroupRatioInfo) : GroupRatioInfo :=
  match fixedRatio? info.subscriptionBillingRatio with
  | some ratio => ⟨ratio, ratio, true⟩
  | none => g

def handleGroupRatio : GroupRatioInfo :=
  if info.billingSource = some .subscription then
    applySubscriptionBillingRatio info (liveGroupRatioInfo s info)
  else liveGroupRatioInfo s info

structure UnitPrice where
  usePrice : Bool
  (modelPrice modelRatio : ℚ)

def unitPrice : Except PriceError UnitPrice :=
  let name := info.request.originModelName
  match s.modelPrice name <|> s.defaultModelPrice name with
  | some price => .ok ⟨true, price, 0⟩
  | none =>
    if !s.modelRatioSet name && !info.acceptUnsetRatioModel then
      .error (.notConfigured (s.matchName name))
    else .ok ⟨false, -1, s.modelRatio name⟩

def UnitPrice.base (u : UnitPrice) : ℚ :=
  if u.usePrice then u.modelPrice * s.quotaPerUnit else u.modelRatio / 2 * s.quotaPerUnit

def UnitPrice.isZero (u : UnitPrice) : Bool :=
  if u.usePrice then u.modelPrice = 0 else u.modelRatio = 0

def modelPriceHelperPerCall : Except PriceError PriceData := do
  let groupRatioInfo := handleGroupRatio s info
  let u ← unitPrice s info
  let quota ← (quotaFromFloatStrict (.finite (u.base s * groupRatioInfo.groupRatio))).mapError .clamp
  let free := !s.enableFreeModelPreConsume && (groupRatioInfo.groupRatio = 0 || u.isZero)
  pure
    { freeModel := free && !(0 < u.base s && a.activeRatio.isSome)
      modelPrice := u.modelPrice
      modelRatio := u.modelRatio
      usePrice := u.usePrice
      quota := if free then 0 else quota
      baseQuotaBeforeGroup := u.base s
      groupRatioInfo }

def addEstimate (p : PriceData) : PriceData :=
  if info.estimatedRatios.entries.isEmpty then p
  else
    let p := p.addOtherRatios info.estimatedRatios
    { p with baseQuotaBeforeGroup := p.applyOtherRatiosToFloat p.baseQuotaBeforeGroup }

def isPatched : Bool := s.taskPricePatches.contains info.request.originModelName

def noteTaskQuotaClamp (clamp : Option QuotaClamp) : TaskInfo :=
  { info with quotaClamp := info.quotaClamp <|> clamp }

/-- The quota with the ratios; a patched model has a price that no ratio applies to. -/
def applyRatios : TaskInfo :=
  if isPatched s info then info
  else
    let p := info.priceData
    let out := quotaFromFloatChecked (.finite (p.applyOtherRatiosToFloat p.quota))
    noteTaskQuotaClamp { info with priceData := { p with quota := out.1 } } out.2

def price : Except PriceError TaskInfo := do
  let p ← modelPriceHelperPerCall s a info
  pure (applyRatios s { info with priceData := addEstimate info p })

def subscriptionQuote (req : RelayRequest) (liveQuota : ℤ) (read : Option Float64) :
    ℤ × Option Float64 :=
  match read with
  | none => (liveQuota, none)
  | some ratio =>
    match subscriptionQuotaForRatio rt req liveQuota ratio with
    | none => (liveQuota, none)
    | some quota => if quota < 0 then (liveQuota, none) else (quota, some ratio)

theorem subscriptionPreConsumeQuota_eq (q : Query) (db : Subscription.Db) (req : RelayRequest)
    (liveQuota : ℤ) :
    subscriptionPreConsumeQuota rt q db req liveQuota =
      subscriptionQuote rt req liveQuota (getActiveSubscriptionBillingRatio rt q db
        req.userId req.originModelName req.usingGroup) := rfl

/-- The wallet pays the price of the group, also when the request was quoted for a subscription. -/
def fundFromWallet : TaskInfo :=
  let p := info.priceData
  let p := match (subscriptionQuote rt info.relayRequest p.quota a.firstQuote).2 with
    | none => p
    | some ratio =>
      let live := liveGroupRatio s info
      if ratio.le 0 then p
      else
        { p with
          groupRatioInfo := liveGroupRatioInfo s info
          quota :=
            restoreWalletPriceSnapshot rt info.relayRequest (.finite live) p.quota ratio
          freeModel := p.freeModel || live ≤ 0 }
  { info with
    priceData := p
    billingSource := some .wallet
    subscriptionBillingRatio := .finite 0
    billing := some p.quota }

def subscriptionRequest : PreConsumeRequest :=
  let quota := info.priceData.quota
  let first := subscriptionQuote rt info.relayRequest quota a.firstQuote
  let second := subscriptionQuote rt info.relayRequest quota a.secondQuote
  let subQuota := if second.2.isSome then second.1 else first.1
  { requestId := info.request.requestId
    userId := info.request.userId
    modelName := info.request.originModelName
    amount := if subQuota ≤ 0 then 1 else subQuota
    pricing := some ⟨.finite info.priceData.baseQuotaBeforeGroup, quota⟩
    effectiveGroups := [info.request.usingGroup] }

def fundFromSubscription (sub : UserSubscription) (fixedQuota : ℤ) : TaskInfo :=
  let p := info.priceData
  let p := match fixedRatio? sub.billingRatio with
    | none => p
    | some ratio =>
      { p with
        groupRatioInfo :=
          if p.groupRatioInfo.groupRatio ≠ ratio then ⟨ratio, ratio, true⟩ else p.groupRatioInfo
        quota := fixedQuota }
  { info with
    priceData := p
    billingSource := some .subscription
    subscriptionBillingRatio := sub.billingRatio
    billing := some fixedQuota }

def preConsumeBilling : TaskInfo × Option SubmitError :=
  match info.quotaClamp with
  | some c => (info, some (.clamp c))
  | none =>
    if info.priceData.quota < 0 then (info, some (.negativeQuota info.priceData.quota))
    else
      match a.selected with
      | none => (info, some .noFunding)
      | some .wallet => (fundFromWallet rt s a info, none)
      | some (.subscription sub) =>
        match candidateAmount rt (subscriptionRequest rt a info) sub with
        | .error e => (info, some (.subscription e))
        | .ok fixedQuota => (fundFromSubscription info sub fixedQuota, none)

/-- The session is opened once; a retry finds it. -/
def openBilling : TaskInfo × Option SubmitError :=
  if info.billing.isNone && !info.priceData.freeModel then preConsumeBilling rt s a info
  else (info, none)

/-- `recalcQuotaFromRatios`: the quota without the ratios it has, times the adjusted ones. -/
def recalcQuotaFromRatios (ratios : Ratios) : Option (PriceData × Option QuotaClamp) :=
  let p := info.priceData
  let baseQuota := p.removeOtherRatiosFromFloat p.quota
  let p := p.replaceOtherRatios ratios
  if p.hasOtherRatios then
    let out := quotaFromFloatChecked (.finite (p.applyOtherRatiosToFloat baseQuota))
    some ({ p with quota := out.1 }, out.2)
  else none

def adjustBilling (ratios : Ratios) : TaskInfo :=
  match recalcQuotaFromRatios info ratios with
  | some (priceData, clamp) => noteTaskQuotaClamp { info with priceData } clamp
  | none => info

def relayTaskSubmit : TaskInfo × Except SubmitError ℤ :=
  match price s a info with
  | .error e => (info, .error (.modelPrice e))
  | .ok priced =>
    match openBilling rt s a priced with
    | (info, some e) => (info, .error e)
    | (info, none) =>
      match a.upstream with
      | .failed stage => (info, .error (.upstream stage))
      | .accepted ratios =>
        let info := adjustBilling info ratios
        (info, .ok info.priceData.quota)

end Moligate.Tasks.Pricing
