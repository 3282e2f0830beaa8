import Moligate.Common.QuotaMath
import Moligate.Foundation.Table
import Moligate.Foundation.Tx

namespace Moligate.TopUps

open Foundation Common

inductive PaymentProvider where
  | epay | stripe | creem | waffo | waffoPancake
  | other (name : String)
  deriving DecidableEq

inductive TopUpStatus where
  | pending | success | failed | expired
  | other (name : String)
  deriving DecidableEq

structure TopUp where
  (id userId amount : ℤ)
  money : ℚ
  (tradeNo paymentMethod : String)
  paymentProvider : PaymentProvider
  completeTime : ℤ
  status : TopUpStatus
  deriving DecidableEq

structure User where
  (quota inviterId : ℤ)
  enabled : Bool
  (email stripeCustomer : String)
  deriving DecidableEq

structure AffiliateCommission where
  tradeNo : String
  (topUpId buyerId promoterId level baseAmountMicros commissionRateBps commissionAmountMicros : ℤ)
  (baseQuota rewardPoints : ℤ)
  currency : String
  paymentProvider : PaymentProvider
  paymentMethod : String
  settled : Bool
  deriving DecidableEq

def AffiliateCommission.key (c : AffiliateCommission) : String × ℤ := (c.tradeNo, c.level)

structure Db where
  orders : Table TopUp.tradeNo
  users : ℤ → Option User
  commissions : Table AffiliateCommission.key

inductive TopUpError where
  | tradeNoMissing | orderNoMissing | topUpNotFound | orderNotFound | paymentMethodMismatch
  | topUpStatusInvalid | orderStatusWrong | orderNotPending | invalidTopUpQuota | quotaLimitExceeded
  | recordNotFound | rechargeFailed
  | clamp (c : QuotaClamp)
  | database
  deriving DecidableEq

def TopUpError.message (clampText : QuotaClamp → String) : TopUpError → String
  | tradeNoMissing => "未提供支付单号"
  | orderNoMissing => "未提供订单号"
  | topUpNotFound => "topup not found"
  | orderNotFound => "充值订单不存在"
  | paymentMethodMismatch => "payment method mismatch"
  | topUpStatusInvalid => "topup status invalid"
  | orderStatusWrong => "充值订单状态错误"
  | orderNotPending => "订单状态不是待支付，无法补单"
  | invalidTopUpQuota => "invalid top-up quota"
  | quotaLimitExceeded => "top-up quota limit exceeded"
  | recordNotFound => "record not found"
  | rechargeFailed => "充值失败，请稍后重试"
  | clamp c => clampText c
  | database => "database error"

structure RechargeBonus where
  enabled : Bool
  (startTime endTime minAmount : ℤ)
  bonusRate : ℚ

structure DistributionSetting where
  enabled : Bool
  (level1RateBps level2RateBps : ℤ)
  currency : String

/-- What a transaction finds around it: the time, the settings, and whether the database fails in
one of its statements or at its commit. -/
structure Env where
  now : ℤ
  quotaPerUnit : ℚ
  bonus : RechargeBonus
  displaysTokens : Bool
  distribution : DistributionSetting
  trimSpace : String → String
  toUpper : String → String
  databaseFails : Bool

section

variable (env : Env)

def RechargeBonus.isActive (bonus : RechargeBonus) (now : ℤ) : Bool :=
  !(!bonus.enabled || bonus.bonusRate ≤ 0) && !(0 < bonus.startTime && now < bonus.startTime) &&
    !(0 < bonus.endTime && bonus.endTime < now)

def RechargeBonus.appliesToAmount (bonus : RechargeBonus) (amount now : ℤ) : Bool :=
  bonus.isActive now && (bonus.minAmount ≤ 0 || bonus.minAmount ≤ amount)

def calculateRechargeBonusQuota (qualifyingAmount baseQuota : ℤ) : Except QuotaClamp ℤ :=
  if baseQuota ≤ 0 then .ok 0
  else if env.bonus.appliesToAmount qualifyingAmount env.now then
    quotaFromDecimalStrict (baseQuota * env.bonus.bonusRate)
  else .ok 0

def rechargeBonusQualifyingAmount (topUp : TopUp) (baseQuota : ℤ) : ℤ :=
  if env.displaysTokens then baseQuota else topUp.amount

def baseQuota (topUp : TopUp) : Except QuotaClamp ℤ :=
  match topUp.paymentProvider with
  | .stripe => quotaFromDecimalStrict (topUp.money * env.quotaPerUnit)
  | .creem => quotaFromDecimalStrict topUp.amount
  | _ => quotaFromDecimalStrict (topUp.amount * env.quotaPerUnit)

def creditedQuotaFromTopUp (topUp : TopUp) : Except TopUpError ℤ :=
  match baseQuota env topUp with
  | .error _ => .error .invalidTopUpQuota
  | .ok base =>
    if base ≤ 0 then .error .invalidTopUpQuota
    else
      match calculateRechargeBonusQuota env (rechargeBonusQualifyingAmount env topUp base) base with
      | .error _ => .error .invalidTopUpQuota
      | .ok bonus => (quotaFromDecimalStrict (base + bonus)).mapError .clamp

def topUpQuotaMaxCurrent (creditedQuota : ℤ) : Except TopUpError ℤ :=
  if creditedQuota ≤ 0 ∨ maxQuota ≤ creditedQuota then .error .invalidTopUpQuota
  else .ok (maxQuota - 1 - creditedQuota)

def quotaToWalletAmountMicros (quota : ℤ) : ℤ :=
  if quota ≤ 0 then 0 else roundDecimal (divDecimal (quota * 1000000) env.quotaPerUnit)

def commissionMicros (baseAmountMicros rateBps : ℤ) : ℤ :=
  if baseAmountMicros ≤ 0 ∨ rateBps ≤ 0 then 0
  else roundDecimal (divDecimal (baseAmountMicros * rateBps) 10000)

def affiliateRewardPointsFromQuota (baseQuota rateBps : ℤ) : ℤ :=
  if baseQuota ≤ 0 ∨ rateBps ≤ 0 then 0
  else max 0 (roundDecimal (divDecimal (divDecimal (baseQuota * rateBps) 10000) env.quotaPerUnit))

def normalizeDistributionCurrency (currency : String) : String :=
  let currency := env.trimSpace currency
  if currency = "" then "CNY" else env.toUpper currency

def insertCommission (c : AffiliateCommission) (db : Db) : Db :=
  { db with commissions := (db.commissions.create c).getD db.commissions }

def createTopUpCommissionForPromoter (topUp : TopUp) (promoterId : ℤ) (promoter : User)
    (level rateBps baseAmountMicros baseQuota : ℤ) (currency : String) (excludedPromoterId : ℤ) :
    Tx Db TopUpError Unit :=
  let amountMicros := commissionMicros baseAmountMicros rateBps
  let rewardPoints := affiliateRewardPointsFromQuota env baseQuota rateBps
  if rateBps ≤ 0 ∨ promoterId = 0 ∨ promoterId = topUp.userId ∨ promoterId = excludedPromoterId ∨
      promoter.enabled = false ∨ amountMicros ≤ 0 ∨ rewardPoints ≤ 0 then pure ()
  else
    .modify (insertCommission
      { tradeNo := topUp.tradeNo
        topUpId := topUp.id
        buyerId := topUp.userId
        promoterId
        level
        baseAmountMicros
        commissionRateBps := rateBps
        commissionAmountMicros := amountMicros
        baseQuota
        rewardPoints
        currency
        paymentProvider := topUp.paymentProvider
        paymentMethod := topUp.paymentMethod
        settled := false })

def createTopUpCommissions (topUp : TopUp) (baseQuota : ℤ) : Tx Db TopUpError Unit :=
  let setting := env.distribution
  let baseAmountMicros := quotaToWalletAmountMicros env baseQuota
  if !setting.enabled || baseQuota ≤ 0 || baseAmountMicros ≤ 0 then pure ()
  else do
    let db ← .get
    let buyer ← .required .recordNotFound (db.users topUp.userId)
    match if buyer.inviterId = 0 then none else db.users buyer.inviterId with
    | none => pure ()
    | some level1 => do
        let currency := normalizeDistributionCurrency env setting.currency
        createTopUpCommissionForPromoter env topUp buyer.inviterId level1 1 setting.level1RateBps
          baseAmountMicros baseQuota currency 0
        match if level1.inviterId = 0 then none else db.users level1.inviterId with
        | none => pure ()
        | some level2 =>
          createTopUpCommissionForPromoter env topUp level1.inviterId level2 2
            setting.level2RateBps baseAmountMicros baseQuota currency buyer.inviterId

def creditTopUpQuota (userId creditedQuota : ℤ) (updates : User → User) :
    Tx Db TopUpError Unit := do
  let maxCurrentQuota ← .ofExcept (topUpQuotaMaxCurrent creditedQuota)
  let db ← .get
  match db.users userId with
  | none => .fail .recordNotFound
  | some user =>
    if user.quota ≤ maxCurrentQuota then
      .modify fun db ↦
        { db with
          users := Function.update db.users userId
            (some { updates user with quota := user.quota + creditedQuota }) }
    else .fail .quotaLimitExceeded

def completeTopUpSuccess (topUp : TopUp) (quotaToAdd : ℤ) (updates : User → User) :
    Tx Db TopUpError Unit := do
  let _ ← .ofExcept (topUpQuotaMaxCurrent quotaToAdd)
  let topUp := { topUp with completeTime := env.now, status := .success }
  .modify fun db ↦ { db with orders := db.orders.save topUp }
  creditTopUpQuota topUp.userId quotaToAdd updates
  createTopUpCommissions env topUp quotaToAdd

/-- How an entry point completes an order: the provider it asks for, whether it returns without an
error when the order has succeeded before, its errors, and what it changes of the user. -/
structure Entry where
  provider : Option PaymentProvider
  acceptsSuccess : Bool
  (notFound wrongStatus : TopUpError)
  actualPaymentMethod : String := ""
  updates : Db → TopUp → Except TopUpError (User → User) := fun _ _ ↦ .ok id

def completeOrder (entry : Entry) (tradeNo : String) : Tx Db TopUpError Bool := do
  let db ← .get
  let topUp ← .required entry.notFound (db.orders.find tradeNo)
  .check .paymentMethodMismatch (entry.provider.all (· = topUp.paymentProvider))
  if topUp.status = .success ∧ entry.acceptsSuccess = true then pure false
  else do
    .check entry.wrongStatus (topUp.status = .pending)
    let topUp :=
      if entry.actualPaymentMethod ≠ "" then
        { topUp with paymentMethod := entry.actualPaymentMethod }
      else topUp
    let quotaToAdd ← .ofExcept (creditedQuotaFromTopUp env topUp)
    let updates ← .ofExcept (entry.updates db topUp)
    completeTopUpSuccess env topUp quotaToAdd updates
    .check .database (!env.databaseFails)
    pure true

def withTradeNo {α : Type} (tradeNo : String) (e : TopUpError) (body : Tx Db TopUpError α) :
    Tx Db TopUpError α := do
  .check e (tradeNo ≠ "")
  body

def hidingError {α : Type} (body : Tx Db TopUpError α) : Tx Db TopUpError α := fun db ↦
  ((body db).1.mapError fun _ ↦ .rechargeFailed, (body db).2)

def rechargeEpay (tradeNo actualPaymentMethod : String) : Tx Db TopUpError Bool :=
  withTradeNo tradeNo .tradeNoMissing do
    let completed ← completeOrder env
      { provider := some .epay
        acceptsSuccess := true
        notFound := .topUpNotFound
        wrongStatus := .topUpStatusInvalid
        actualPaymentMethod } tradeNo
    pure (!completed)

def completeEpayTopUp (tradeNo actualPaymentMethod : String) : Tx Db TopUpError Bool :=
  withTradeNo tradeNo .tradeNoMissing (completeOrder env
    { provider := some .epay
      acceptsSuccess := true
      notFound := .orderNotFound
      wrongStatus := .orderStatusWrong
      actualPaymentMethod } tradeNo)

def recharge (referenceId customerId : String) : Tx Db TopUpError Bool :=
  withTradeNo referenceId .tradeNoMissing (hidingError (completeOrder env
    { provider := some .stripe
      acceptsSuccess := false
      notFound := .orderNotFound
      wrongStatus := .orderStatusWrong
      updates := fun _ _ ↦ .ok fun user ↦ { user with stripeCustomer := customerId } } referenceId))

def creemUpdates (customerEmail : String) (db : Db) (topUp : TopUp) :
    Except TopUpError (User → User) :=
  if customerEmail = "" then .ok id
  else
    match db.users topUp.userId with
    | none => .error .recordNotFound
    | some user =>
      .ok (if user.email = "" then fun user ↦ { user with email := customerEmail } else id)

def rechargeCreem (referenceId customerEmail : String) : Tx Db TopUpError Bool :=
  withTradeNo referenceId .tradeNoMissing (hidingError (completeOrder env
    { provider := some .creem
      acceptsSuccess := false
      notFound := .orderNotFound
      wrongStatus := .orderStatusWrong
      updates := creemUpdates customerEmail } referenceId))

def rechargeWaffo (tradeNo : String) : Tx Db TopUpError Bool :=
  withTradeNo tradeNo .tradeNoMissing (hidingError (completeOrder env
    { provider := some .waffo
      acceptsSuccess := true
      notFound := .orderNotFound
      wrongStatus := .orderStatusWrong } tradeNo))

def rechargeWaffoPancake (tradeNo : String) : Tx Db TopUpError Bool :=
  withTradeNo tradeNo .tradeNoMissing (hidingError (completeOrder env
    { provider := some .waffoPancake
      acceptsSuccess := true
      notFound := .orderNotFound
      wrongStatus := .orderStatusWrong } tradeNo))

def manualCompleteTopUp (tradeNo : String) : Tx Db TopUpError Bool :=
  withTradeNo tradeNo .orderNoMissing (completeOrder env
    { provider := none
      acceptsSuccess := true
      notFound := .orderNotFound
      wrongStatus := .orderNotPending } tradeNo)

def updatePendingTopUpStatus (tradeNo : String) (expectedPaymentProvider : Option PaymentProvider)
    (targetStatus : TopUpStatus) : Tx Db TopUpError Bool := do
  .check .tradeNoMissing (tradeNo ≠ "")
  let db ← .get
  let topUp ← .required .topUpNotFound (db.orders.find tradeNo)
  .check .paymentMethodMismatch (expectedPaymentProvider.all (· = topUp.paymentProvider))
  .check .topUpStatusInvalid (topUp.status = .pending)
  .modify fun db ↦ { db with orders := db.orders.save { topUp with status := targetStatus } }
  .check .database (!env.databaseFails)
  pure false

end

inductive TopUpCall where
  | rechargeEpay (actualPaymentMethod : String)
  | completeEpayTopUp (actualPaymentMethod : String)
  | recharge (customerId : String)
  | rechargeCreem (customerEmail : String)
  | rechargeWaffo | rechargeWaffoPancake | manualCompleteTopUp
  | updatePendingTopUpStatus (expectedPaymentProvider : Option PaymentProvider)
      (targetStatus : TopUpStatus)

def TopUpCall.body (env : Env) (tradeNo : String) : TopUpCall → Tx Db TopUpError Bool
  | .rechargeEpay method => TopUps.rechargeEpay env tradeNo method
  | .completeEpayTopUp method => TopUps.completeEpayTopUp env tradeNo method
  | .recharge customerId => TopUps.recharge env tradeNo customerId
  | .rechargeCreem email => TopUps.rechargeCreem env tradeNo email
  | .rechargeWaffo => TopUps.rechargeWaffo env tradeNo
  | .rechargeWaffoPancake => TopUps.rechargeWaffoPancake env tradeNo
  | .manualCompleteTopUp => TopUps.manualCompleteTopUp env tradeNo
  | .updatePendingTopUpStatus provider target =>
    TopUps.updatePendingTopUpStatus env tradeNo provider target

def TopUpCall.perform (c : TopUpCall) (env : Env) (tradeNo : String) (db : Db) :
    Except TopUpError Bool × Db :=
  (c.body env tradeNo).run db

end Moligate.TopUps
