import Moligate.Subscription.Settle

namespace Moligate.Billing

open Foundation Common Subscription

structure Moment where
  now : ℤ
  plans : Plans

/-- What a call of the session meets: the moments of its first and second transaction, and the
answers of the balance checks, which may come from the cache or from the database. -/
structure Env where
  (first second : Moment)
  walletReserved : Bool := true
  tokenReserved : Bool := true
  tokenReservedAgain : Bool := true

structure Accounts where
  (wallet token : ℤ)
  db : Db

inductive BillingError where
  | negativeQuota
  | tokenQuotaNotEnough (need : ℤ)
  | insufficientWalletQuota
  | subscription (e : SubscriptionError)
  | invalidReservation | invalidSettledImageCount
  deriving DecidableEq

structure RelayInfo where
  (isPlayground tokenUnlimited forcePreConsume : Bool)
  (tokenQuota userQuota trustQuota : ℤ)
  actualImageCount : Option ℤ
  otherRatioN : Option Float64

structure FundingResource where
  resourceKey : String
  resourceType : ResourceType
  amount : ℤ

structure SubscriptionFunding where
  requestId : String
  userId : ℤ
  (modelName effectiveGroup : String)
  amount : ℤ
  request : Option ResourceRequest
  pricing : Option QuotaPricing
  subscriptionId : ℤ := 0
  preConsumed : ℤ := 0
  resource : Option FundingResource := none
  resourcePreConsumed : ℤ := 0
  imageCountSettled : Bool := false
  imageQuotaSettled : ℤ := 0

inductive Funding where
  | wallet (consumed : ℤ)
  | subscription (f : SubscriptionFunding)

structure Session where
  info : RelayInfo
  funding : Funding
  preConsumedQuota : ℤ := 0
  tokenConsumed : ℤ := 0
  extraReserved : ℤ := 0
  trusted : Bool := false
  fundingSettled : Bool := false
  settled : Bool := false
  refunded : Bool := false

structure Reply where
  session : Session
  acc : Accounts
  error : Option BillingError := none

def maxImageN : ℤ := 128

def preConsumeTokenQuota (info : RelayInfo) (reserved : Bool) (acc : Accounts) (quota : ℤ) :
    Except BillingError Accounts :=
  if quota < 0 then .error .negativeQuota
  else if info.isPlayground then .ok acc
  else if quota = 0 ∨ info.tokenUnlimited = true ∨ reserved = true then
    .ok { acc with token := acc.token - quota }
  else .error (.tokenQuotaNotEnough quota)

def increaseTokenQuota (info : RelayInfo) (acc : Accounts) (quota : ℤ) : Accounts :=
  if info.isPlayground then acc else { acc with token := acc.token + quota }

variable (rt : Runtime) (env : Env)

def SubscriptionFunding.run (f : SubscriptionFunding) (m : Moment) (db : Db) :
    Call SubscriptionError (Db × SubscriptionFunding) := do
  let out ← preConsumeUserSubscription rt m.plans m.now db
    { requestId := f.requestId
      userId := f.userId
      modelName := f.modelName
      amount := f.amount
      resource := f.request
      pricing := f.pricing
      effectiveGroups := [f.effectiveGroup] }
  pure (out.1,
    { f with
      subscriptionId := out.2.userSubscriptionId
      preConsumed := out.2.preConsumed
      resourcePreConsumed := out.2.resourcePreConsumed
      resource :=
        if out.2.resourceKey ≠ "" then
          some ⟨out.2.resourceKey, out.2.resourceType.getD .quota, out.2.resourcePreConsumed⟩
        else none })

/-- `adjust`: images are settled by their count, so a price difference leaves their grant alone. -/
def SubscriptionFunding.adjust (f : SubscriptionFunding) (m : Moment) (db : Db) (delta : ℤ) :
    Call SubscriptionError Db :=
  if delta = 0 then .ok db
  else
    match f.resource with
    | some r =>
      if r.resourceType = .imageCount then .ok db
      else if r.resourceKey ≠ "" then
        postConsumeGrantDelta rt db f.subscriptionId r.resourceKey r.resourceType delta
      else postConsumeUserSubscriptionDelta rt m.plans m.now db f.subscriptionId delta
    | none => postConsumeUserSubscriptionDelta rt m.plans m.now db f.subscriptionId delta

def SubscriptionFunding.refund (f : SubscriptionFunding) (m : Moment) (db : Db) :
    Call SubscriptionError Db :=
  if f.preConsumed ≤ 0 ∧ f.resourcePreConsumed ≤ 0 then .ok db
  else refundSubscriptionPreConsume rt m.plans m.now db f.requestId

/-- The price of one image: the reservation divided by its images, to 16 decimal places and then
to an integer, both half away from zero. -/
def imageUnit (f : SubscriptionFunding) : Except SubscriptionError ℤ :=
  let places : ℚ := 10 ^ 16
  let quotient : ℚ := f.preConsumed / f.resourcePreConsumed
  let rounded : ℚ := (round (quotient * places) : ℚ) / places
  match strictQuota (saturateQuota (Float64.roundHalfAway (.finite rounded)) "QuotaFromDecimal") with
  | .error c => .error (.clamp c)
  | .ok unit => .ok unit

def SubscriptionFunding.settleImageCount (f : SubscriptionFunding) (m : Moment) (db : Db)
    (actual : ℤ) : Call SubscriptionError (Db × SubscriptionFunding × ℤ) := do
  match f.resource.filter fun r ↦ r.resourceType = .imageCount with
  | none => pure (db, f, 0)
  | some r =>
    .check .invalidImageCount (0 ≤ actual && actual ≤ maxImageN)
    if f.imageCountSettled then pure (db, f, f.imageQuotaSettled)
    else
      let delta := actual - f.resourcePreConsumed
      if delta = 0 then pure (db, { f with imageCountSettled := true }, 0)
      else
        .check .imageUnitMissing (delta ≤ 0 || 0 < f.resourcePreConsumed && 0 < f.preConsumed)
        let unit ← .ofExcept (if 0 < delta then imageUnit f else .ok 0)
        let out ← settleUserSubscriptionImageResourceDeltaWithQuota rt m.plans m.now db
          f.subscriptionId r.resourceKey delta unit
        pure (out.1,
          { f with
            imageCountSettled := true, resourcePreConsumed := actual, imageQuotaSettled := out.2 },
          out.2)

/-- The number of images to settle: the counted one, the one of the price, or the reserved one. -/
def settledImageCount (info : RelayInfo) (f : SubscriptionFunding) : Except BillingError ℤ :=
  match info.actualImageCount, info.otherRatioN with
  | some n, _ => .ok n
  | none, some (.finite q) =>
    if q < 0 ∨ maxImageN < q ∨ q.den ≠ 1 then .error .invalidSettledImageCount else .ok q.num
  | none, some _ => .error .invalidSettledImageCount
  | none, none => .ok f.resourcePreConsumed

def SubscriptionFunding.isImage (f : SubscriptionFunding) : Bool :=
  f.resource.any fun r ↦ r.resourceType = .imageCount

namespace Session

variable (s : Session) (acc : Accounts)

def needsRefund : Bool :=
  if s.settled || s.refunded || s.fundingSettled then false
  else if 0 < s.tokenConsumed then true
  else
    match s.funding with
    | .wallet _ => false
    | .subscription f => 0 < f.preConsumed

def shouldTrust : Bool :=
  !s.info.forcePreConsume && 0 < s.info.trustQuota &&
    (s.info.tokenUnlimited || s.info.trustQuota < s.info.tokenQuota) &&
    match s.funding with
    | .wallet _ => s.info.trustQuota < s.info.userQuota
    | .subscription _ => false

/-- The first step of `Settle`; it also gives the difference that the token has to follow. -/
def settleFunding (delta : ℤ) : Call BillingError (Funding × Accounts × ℤ) :=
  if s.fundingSettled then .ok (s.funding, acc, delta)
  else
    match s.funding with
    | .wallet consumed => .ok (.wallet consumed, { acc with wallet := acc.wallet - delta }, delta)
    | .subscription f =>
      if f.isImage then do
        let count ← .ofExcept (settledImageCount s.info f)
        let out ← (f.settleImageCount rt env.first acc.db count).mapFail .subscription
        pure (.subscription out.2.1, { acc with db := out.1 }, max delta out.2.2)
      else do
        let db ← (f.adjust rt env.first acc.db delta).mapFail .subscription
        pure (.subscription f, { acc with db }, delta)

def settle (actualQuota : ℤ) : Option Reply :=
  if s.settled then some { session := s, acc }
  else
    match s.settleFunding rt env acc (actualQuota - s.preConsumedQuota) with
    | .diverges => none
    | .fail e => some { session := s, acc, error := some e }
    | .ok (funding, acc, delta) =>
      some
        { session := { s with funding, fundingSettled := true, settled := true }
          acc := increaseTokenQuota s.info acc (-delta) }

def refundFunding : Option Accounts :=
  match s.funding with
  | .wallet consumed =>
    some (if consumed ≤ 0 then acc else { acc with wallet := acc.wallet + consumed })
  | .subscription f =>
    ((f.refund rt env.first acc.db).orKeep acc.db).bind fun db ↦
      if 0 < s.extraReserved ∧ 0 < f.subscriptionId then
        ((f.adjust rt env.second db (-s.extraReserved)).orKeep db).map fun db ↦ { acc with db }
      else some { acc with db }

def refund : Option Reply :=
  if s.settled || s.refunded || !s.needsRefund then some { session := s, acc }
  else
    (s.refundFunding rt env acc).map fun acc ↦
      { session := { s with refunded := true }
        acc :=
          if 0 < s.tokenConsumed then increaseTokenQuota s.info acc s.tokenConsumed else acc }

def reserveFunding (delta : ℤ) : Call BillingError (Funding × Accounts) :=
  match s.funding with
  | .wallet consumed =>
    .ok (.wallet (consumed + delta), { acc with wallet := acc.wallet - delta })
  | .subscription f => do
      let db ← (f.adjust rt env.first acc.db delta).mapFail .subscription
      pure (.subscription f, { acc with db })

def rollbackFundingReserve (funding : Funding) (delta : ℤ) : Option (Funding × Accounts) :=
  match funding with
  | .wallet consumed =>
    some (.wallet (consumed - delta), { acc with wallet := acc.wallet + delta })
  | .subscription f =>
    ((f.adjust rt env.second acc.db (-delta)).orKeep acc.db).map fun db ↦
      (.subscription f, { acc with db })

def reserve (targetQuota : ℤ) : Option Reply :=
  if s.settled || s.refunded || s.trusted || targetQuota ≤ s.preConsumedQuota then
    some { session := s, acc }
  else
    let delta := targetQuota - s.preConsumedQuota
    match s.reserveFunding rt env acc delta with
    | .diverges => none
    | .fail e => some { session := s, acc, error := some e }
    | .ok (funding, acc) =>
      match preConsumeTokenQuota s.info env.tokenReserved acc delta with
      | .error e =>
        (rollbackFundingReserve rt env acc funding delta).map fun out ↦
          { session := { s with funding := out.1 }, acc := out.2, error := some e }
      | .ok acc =>
        some
          { session :=
              { s with
                funding
                preConsumedQuota := s.preConsumedQuota + delta
                tokenConsumed := s.tokenConsumed + delta
                extraReserved := s.extraReserved + delta }
            acc }

def abandon (f : SubscriptionFunding) (e : BillingError) :
    Option (Accounts × Except BillingError Session) :=
  ((f.refund rt env.second acc.db).orKeep acc.db).map fun db ↦
    (if 0 < s.tokenConsumed then increaseTokenQuota s.info { acc with db } s.tokenConsumed
      else { acc with db }, .error e)

/-- The token reservation follows the price of the package that the subscription has selected. -/
def reconcile (f : SubscriptionFunding) (effectiveQuota : ℤ) :
    Option (Accounts × Except BillingError Session) :=
  let s := { s with funding := .subscription f }
  if f.preConsumed ≤ 0 then s.abandon rt env acc f .invalidReservation
  else
    let delta := f.preConsumed - effectiveQuota
    if s.info.isPlayground then some (acc, .ok { s with preConsumedQuota := f.preConsumed })
    else if 0 < delta then
      match preConsumeTokenQuota s.info env.tokenReservedAgain acc delta with
      | .error e => s.abandon rt env acc f e
      | .ok acc =>
        some (acc, .ok { s with
          tokenConsumed := s.tokenConsumed + delta, preConsumedQuota := f.preConsumed })
    else
      some (increaseTokenQuota s.info acc (-delta), .ok { s with
        tokenConsumed := s.tokenConsumed + delta, preConsumedQuota := f.preConsumed })

def preConsumeFunding (effectiveQuota : ℤ) : Option (Accounts × Except BillingError Session) :=
  let giveBack := increaseTokenQuota s.info acc s.tokenConsumed
  match s.funding with
  | .wallet _ =>
    if effectiveQuota ≤ 0 then some (acc, .ok { s with preConsumedQuota := effectiveQuota })
    else if env.walletReserved then
      some ({ acc with wallet := acc.wallet - effectiveQuota }, .ok { s with
        funding := .wallet effectiveQuota, preConsumedQuota := effectiveQuota })
    else some (giveBack, .error .insufficientWalletQuota)
  | .subscription f =>
    match f.run rt env.first acc.db with
    | .diverges => none
    | .fail e => some (giveBack, .error (.subscription e))
    | .ok (db, f) => s.reconcile rt env { acc with db } f effectiveQuota

def preConsume (quota : ℤ) : Option (Accounts × Except BillingError Session) :=
  let s := { s with trusted := s.shouldTrust }
  let effectiveQuota := if s.trusted then 0 else quota
  if 0 < effectiveQuota then
    match preConsumeTokenQuota s.info env.tokenReserved acc effectiveQuota with
    | .error e => some (acc, .error e)
    | .ok acc => { s with tokenConsumed := effectiveQuota }.preConsumeFunding rt env acc effectiveQuota
  else s.preConsumeFunding rt env acc effectiveQuota

end Session

end Moligate.Billing
