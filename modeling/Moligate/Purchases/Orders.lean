import Moligate.Foundation.Locks
import Moligate.Foundation.Threads
import Moligate.Subscription.Purchase
import Moligate.TopUps.Orders

namespace Moligate.Purchases

open Foundation Subscription
open TopUps (PaymentProvider TopUpStatus)

structure SalePlan extends Plan where
  (enabled saleEnabled : Bool)
  priceAmount : ℚ
  allowBalancePay : Option Bool

def SalePlan.isPurchasable (plan : SalePlan) : Bool := plan.enabled && plan.saleEnabled

structure SubscriptionOrder where
  (userId planId : ℤ)
  money : ℚ
  (tradeNo paymentMethod : String)
  paymentProvider : PaymentProvider
  status : TopUpStatus
  (createTime completeTime : ℤ)
  (providerPayload planSnapshot : String)
  deriving DecidableEq

structure SubscriptionTopUp where
  userId : ℤ
  money : ℚ
  (tradeNo paymentMethod : String)
  (createTime completeTime : ℤ)
  status : TopUpStatus
  deriving DecidableEq

structure Member where
  quota : ℤ
  group : String
  deriving DecidableEq

structure Shop where
  rt : Runtime
  plans : ℤ → Option SalePlan
  decodePlan : String → Except String Plan
  encodePlan : Plan → String
  quotaPerUnit : ℚ

inductive OrderError where
  | tradeNoEmpty | orderNotFound | paymentMethodMismatch | statusInvalid
  | snapshotInvalid (cause : String)
  | snapshotMismatch | invalidSnapshot | invalidPlanId | invalidIds | recordNotFound
  | notPurchasable | negativePrice | balancePayForbidden | quotaUnit | insufficientBalance
  | futureStart | alreadyExpired | importedUsageOverLimit
  | create (e : PurchaseError)
  | database
  deriving DecidableEq

def OrderError.message : OrderError → String
  | tradeNoEmpty => "tradeNo is empty"
  | orderNotFound => "subscription order not found"
  | paymentMethodMismatch => "payment method mismatch"
  | statusInvalid => "subscription order status invalid"
  | snapshotInvalid cause => "invalid subscription plan snapshot: " ++ cause
  | snapshotMismatch => "subscription plan snapshot does not match order"
  | invalidSnapshot => "invalid subscription plan snapshot"
  | invalidPlanId => "invalid plan id"
  | invalidIds => "invalid userId or planId"
  | recordNotFound => "record not found"
  | notPurchasable => "套餐暂未开放售卖"
  | negativePrice => "套餐价格不能为负数"
  | balancePayForbidden => "该套餐不允许使用余额兑换"
  | quotaUnit => "额度单位配置错误"
  | insufficientBalance => "余额不足"
  | futureStart => "effective start time cannot be in the future"
  | alreadyExpired => "subscription would already be expired at the selected start time"
  | importedUsageOverLimit => "imported subscription usage exceeds plan limits"
  | create e => e.message
  | database => "database error"

structure CompleteArgs where
  (tradeNo providerPayload : String)
  expectedPaymentProvider : Option PaymentProvider
  actualPaymentMethod : String

structure BindOptions where
  effectiveStartTime : ℤ
  (importUsage clearWallet confirmOverLimit : Bool)

structure LoggedUsage where
  (amount daily weekly monthly : ℤ)

structure UsagePreview where
  (effectiveStartTime endTime : ℤ)
  usage : LoggedUsage

section

variable (shop : Shop)

def getSubscriptionPlanById (id : ℤ) : Except OrderError SalePlan :=
  if id ≤ 0 then .error .invalidPlanId
  else
    match shop.plans id with
    | none => .error .recordNotFound
    | some plan => .ok plan

def capturedPlan (order : SubscriptionOrder) : Except OrderError (Option Plan) :=
  if shop.rt.trimSpace order.planSnapshot = "" then .ok none
  else
    match shop.decodePlan order.planSnapshot with
    | .error cause => .error (.snapshotInvalid cause)
    | .ok plan =>
      if plan.id ≤ 0 ∨ 0 < order.planId ∧ plan.id ≠ order.planId then .error .snapshotMismatch
      else .ok (some plan)

def planOfOrder (order : SubscriptionOrder) : Except OrderError Plan :=
  match capturedPlan shop order with
  | .error e => .error e
  | .ok (some plan) => .ok plan
  | .ok none => (getSubscriptionPlanById shop order.planId).map (·.toPlan)

def calcSubscriptionBalanceQuota (priceAmount : ℚ) : Except OrderError ℤ :=
  if priceAmount ≤ 0 then .ok 0
  else if shop.quotaPerUnit ≤ 0 then .error .quotaUnit
  else .ok ⌈priceAmount * shop.quotaPerUnit⌉

def offer (planId : ℤ) : Except OrderError (SalePlan × ℤ) := do
  let plan ← getSubscriptionPlanById shop planId
  if !plan.isPurchasable then .error .notPurchasable
  else if plan.priceAmount < 0 then .error .negativePrice
  else if plan.allowBalancePay = some false then .error .balancePayForbidden
  else
    let requiredQuota ← calcSubscriptionBalanceQuota shop plan.priceAmount
    pure (plan, requiredQuota)

def usageExceeds (plan : Plan) (usage : LoggedUsage) : Bool :=
  (0 < plan.totalAmount && plan.totalAmount < usage.amount) ||
    (0 < plan.dailyAmount && plan.dailyAmount < usage.daily) ||
    (0 < plan.weeklyAmount && plan.weeklyAmount < usage.weekly) ||
    (0 < plan.monthlyAmount && plan.monthlyAmount < usage.monthly)

/-- The preview reads the plan, the logs and the time before the transaction begins. -/
def previewAdminSubscriptionUsage (plan : Plan) (options : BindOptions) (now : ℤ)
    (logged : LoggedUsage) : Except OrderError UsagePreview :=
  let start := if options.effectiveStartTime = 0 then now else options.effectiveStartTime
  if now < start then .error .futureStart
  else
    match calcPlanEndTime shop.rt start plan with
    | .error e => .error (.create e)
    | .ok endTime =>
      if endTime ≤ now then .error .alreadyExpired
      else .ok ⟨start, endTime, if options.importUsage then logged else ⟨0, 0, 0, 0⟩⟩

def bindPreview (planId : ℤ) (options : BindOptions) (now : ℤ) (logged : LoggedUsage) :
    Except OrderError (Plan × UsagePreview) := do
  let plan ← getSubscriptionPlanById shop planId
  let preview ← previewAdminSubscriptionUsage shop plan.toPlan options now logged
  if options.importUsage && usageExceeds plan.toPlan preview.usage && !options.confirmOverLimit then
    .error .importedUsageOverLimit
  else pure (plan.toPlan, preview)

def bindRow (plan : Plan) (options : BindOptions) (preview : UsagePreview) (bindNow : ℤ)
    (row : SubscriptionRow) : SubscriptionRow :=
  let start := preview.effectiveStartTime
  let limit (quota : PeriodQuota) (p : Period) (used : ℤ) : PeriodQuota :=
    { quota with
      resetTime :=
        if 0 < quota.amount then
          calcNextAnchoredPeriodReset shop.rt start bindNow p preview.endTime
        else 0
      used := if options.importUsage then used else quota.used }
  { row with
    startTime := start
    endTime := preview.endTime
    daily := limit row.daily .daily preview.usage.daily
    weekly := limit row.weekly .weekly preview.usage.weekly
    monthly := limit row.monthly .monthly preview.usage.monthly
    nextResetTime := calcNextResetTime shop.rt start bindNow plan.toSubscriptionPlan preview.endTime
    amountUsed := if options.importUsage then preview.usage.amount else row.amountUsed }

end

inductive Origin where
  | order (args : CompleteArgs) (order : SubscriptionOrder)
  | balance (priceAmount : ℚ) (requiredQuota : ℤ)
  | admin (options : BindOptions) (preview : UsagePreview) (bindNow : ℤ)

structure Job where
  userId : ℤ
  plan : Plan
  origin : Origin

/-- Completing an order locks the order; the other two lock the user. -/
def Job.locksUser (job : Job) : Bool :=
  match job.origin with
  | .order _ _ => false
  | .balance _ _ | .admin _ _ _ => true

/-- The next statement of a transaction; its inserts stay with it until its commit. -/
inductive Stage where
  | idle
  | lockOrder (args : CompleteArgs)
  | lockUser (job : Job)
  | count (job : Job)
  | readGroup (job : Job)
  | setGroup (job : Job) (currentGroup : String)
  | create (job : Job) (currentGroup : String)
  | record (job : Job) (row : SubscriptionRow)
  | commit (row : SubscriptionRow) (tradeNo : Option String) (topUp : Option SubscriptionTopUp)
  | done (result : Except OrderError Unit)

structure Created where
  tradeNo : Option String
  row : SubscriptionRow

structure Counted (π : Type) where
  thread : π
  (userId planId : ℤ)
  locksUser : Bool
  deriving DecidableEq

structure World (π : Type) where
  orders : Rows String π (Option SubscriptionOrder)
  users : Rows ℤ π (Option Member)
  subs : List SubscriptionRow
  topUps : String → Option SubscriptionTopUp
  nextId : ℤ
  created : List Created
  counting : List (Counted π)

inductive Action where
  | completeSubscriptionOrder (args : CompleteArgs)
  | purchaseSubscriptionWithBalance (userId planId : ℤ)
  | adminBindSubscriptionWithOptions (userId planId : ℤ) (options : BindOptions) (now : ℤ)
      (logged : LoggedUsage)
  | next (now : ℤ) (tradeNo : String) (fails : Bool)

variable {π : Type} [DecidableEq π] (shop : Shop) (w : World π) (p : π)

def isOf (userId planId : ℤ) (row : SubscriptionRow) : Bool :=
  row.userId = userId && row.planId = planId

def World.abort (e : OrderError) : World π × Stage :=
  ({ w with
     orders := w.orders.rollback p
     users := w.users.rollback p
     counting := w.counting.filter (·.thread ≠ p) },
    .done (.error e))

/-- The lock is kept only when the order is to be completed. -/
def lockOrder (args : CompleteArgs) : Option (World π × Stage) :=
  if !w.orders.free p args.tradeNo then none
  else
    match w.orders.committed args.tradeNo with
    | none => some (w, .done (.error .orderNotFound))
    | some order =>
      if !args.expectedPaymentProvider.all (· = order.paymentProvider) then
        some (w, .done (.error .paymentMethodMismatch))
      else if order.status = .success then some (w, .done (.ok ()))
      else if order.status ≠ .pending then some (w, .done (.error .statusInvalid))
      else
        match planOfOrder shop order with
        | .error e => some (w, .done (.error e))
        | .ok plan =>
          some ({ w with orders := w.orders.write p args.tradeNo (some order) },
            .count ⟨order.userId, plan, .order args order⟩)

def lockUser (job : Job) : Option (World π × Stage) :=
  if !w.users.free p job.userId then none
  else
    match w.users.committed job.userId with
    | none => some (w, .done (.error .recordNotFound))
    | some user =>
      match job.origin with
      | .balance _ requiredQuota =>
        if 0 < requiredQuota ∧ user.quota < requiredQuota then
          some (w, .done (.error .insufficientBalance))
        else
          let user :=
            if 0 < requiredQuota then { user with quota := user.quota - requiredQuota }
            else user
          some ({ w with users := w.users.write p job.userId (some user) }, .count job)
      | _ => some ({ w with users := w.users.write p job.userId (some user) }, .count job)

/-- The first part of `CreateUserSubscriptionFromPlanTx`: a plain count of what is committed. -/
def count (job : Job) : World π × Stage :=
  if job.plan.id = 0 then w.abort p (.create .invalidPlan)
  else if job.userId ≤ 0 then w.abort p (.create .invalidUserId)
  else if 0 < job.plan.maxPurchasePerUser then
    if job.plan.maxPurchasePerUser ≤ w.subs.countP (isOf job.userId job.plan.id) then
      w.abort p (.create .purchaseLimit)
    else
      ({ w with counting := ⟨p, job.userId, job.plan.id, job.locksUser⟩ :: w.counting },
        .readGroup job)
  else (w, .readGroup job)

def readGroup (job : Job) : Stage :=
  let upgradeGroup := shop.rt.trimSpace job.plan.upgradeGroup
  let currentGroup := (w.users.read p job.userId).elim "" Member.group
  if upgradeGroup ≠ "" ∧ currentGroup ≠ upgradeGroup then .setGroup job currentGroup
  else .create job currentGroup

def setGroup (job : Job) (currentGroup : String) : Option (World π × Stage) :=
  if !w.users.free p job.userId then none
  else
    let user := (w.users.read p job.userId).map fun user ↦
      { user with group := shop.rt.trimSpace job.plan.upgradeGroup }
    some ({ w with users := w.users.write p job.userId user }, .create job currentGroup)

def create (job : Job) (currentGroup : String) (now : ℤ) : World π × Stage :=
  match newSubscription shop.rt w.nextId now job.userId job.plan currentGroup with
  | .error e => w.abort p (.create e)
  | .ok row => ({ w with nextId := w.nextId + 1 }, .record job row)

def upsertSubscriptionTopUp (order : SubscriptionOrder) (now : ℤ) :
    Except OrderError SubscriptionTopUp :=
  match w.topUps order.tradeNo with
  | none =>
    .ok
      { userId := order.userId
        money := order.money
        tradeNo := order.tradeNo
        paymentMethod := order.paymentMethod
        createTime := order.createTime
        completeTime := now
        status := .success }
  | some topUp =>
    if topUp.paymentMethod ≠ "" ∧ topUp.paymentMethod ≠ order.paymentMethod then
      .error .paymentMethodMismatch
    else
      .ok
        { topUp with
          money := order.money
          paymentMethod := order.paymentMethod
          createTime := if topUp.createTime = 0 then order.createTime else topUp.createTime
          completeTime := now
          status := .success }

def completed (args : CompleteArgs) (order : SubscriptionOrder) (now : ℤ) : SubscriptionOrder :=
  { order with
    status := .success
    completeTime := now
    providerPayload :=
      if args.providerPayload ≠ "" then args.providerPayload else order.providerPayload
    paymentMethod :=
      if args.actualPaymentMethod ≠ "" then args.actualPaymentMethod else order.paymentMethod }

def balanceOrder (job : Job) (priceAmount : ℚ) (requiredQuota now : ℤ) (tradeNo : String) :
    SubscriptionOrder where
  userId := job.userId
  planId := job.plan.id
  money := priceAmount
  tradeNo := tradeNo
  paymentMethod := "balance"
  paymentProvider := .other "balance"
  status := .success
  createTime := now
  completeTime := now
  providerPayload := "charged_quota=" ++ toString requiredQuota
  planSnapshot := shop.encodePlan job.plan

def record (job : Job) (row : SubscriptionRow) (now : ℤ) (tradeNo : String) :
    Option (World π × Stage) :=
  match job.origin with
  | .order args order =>
    match upsertSubscriptionTopUp w order now with
    | .error e => some (w.abort p e)
    | .ok topUp =>
      some ({ w with orders := w.orders.write p args.tradeNo (some (completed args order now)) },
        .commit row (some args.tradeNo) (some topUp))
  | .balance priceAmount requiredQuota =>
    if job.plan.id ≤ 0 then some (w.abort p .invalidSnapshot)
    else if !w.orders.free p tradeNo then none
    else if (w.orders.committed tradeNo).isSome then some (w.abort p .database)
    else
      let order := balanceOrder shop job priceAmount requiredQuota now tradeNo
      some ({ w with orders := w.orders.write p tradeNo (some order) },
        .commit row (some tradeNo) none)
  | .admin options preview bindNow =>
    let row := bindRow shop job.plan options preview bindNow row
    let user := (w.users.read p job.userId).map fun user ↦
      if options.clearWallet then { user with quota := 0 } else user
    some ({ w with users := w.users.write p job.userId user }, .commit row none none)

def commit (row : SubscriptionRow) (tradeNo : Option String) (topUp : Option SubscriptionTopUp) :
    World π × Stage :=
  ({ orders := w.orders.commit p
     users := w.users.commit p
     subs := w.subs ++ [row]
     topUps := topUp.elim w.topUps fun topUp ↦ Function.update w.topUps topUp.tradeNo (some topUp)
     nextId := w.nextId
     created := w.created ++ [⟨tradeNo, row⟩]
     counting := w.counting.filter (·.thread ≠ p) },
    .done (.ok ()))

def next (now : ℤ) (tradeNo : String) : Stage → Option (World π × Stage)
  | .lockOrder args => lockOrder shop w p args
  | .lockUser job => lockUser w p job
  | .count job => some (count w p job)
  | .readGroup job => some (w, readGroup shop w p job)
  | .setGroup job currentGroup => setGroup shop w p job currentGroup
  | .create job currentGroup => some (create shop w p job currentGroup now)
  | .record job row => record shop w p job row now tradeNo
  | .commit row tradeNo topUp => some (commit w p row tradeNo topUp)
  | .idle | .done _ => none

def Stage.isFree : Stage → Bool
  | .idle | .done _ => true
  | _ => false

def begin : Action → Option Stage
  | .completeSubscriptionOrder args =>
    some (if args.tradeNo = "" then .done (.error .tradeNoEmpty) else .lockOrder args)
  | .purchaseSubscriptionWithBalance userId planId =>
    some (if userId ≤ 0 ∨ planId ≤ 0 then .done (.error .invalidIds)
      else
        match offer shop planId with
        | .error e => .done (.error e)
        | .ok (plan, requiredQuota) =>
          .lockUser ⟨userId, plan.toPlan, .balance plan.priceAmount requiredQuota⟩)
  | .adminBindSubscriptionWithOptions userId planId options now logged =>
    some (if userId ≤ 0 ∨ planId ≤ 0 then .done (.error .invalidIds)
      else
        match bindPreview shop planId options now logged with
        | .error e => .done (.error e)
        | .ok (plan, preview) => .lockUser ⟨userId, plan, .admin options preview now⟩)
  | .next _ _ _ => none

def perform (p : π) (a : Action) (w : World π) (stage : Stage) : Option (World π × Stage) :=
  match a with
  | .next now tradeNo fails =>
    if stage.isFree then none
    else if fails then some (w.abort p .database)
    else next shop w p now tradeNo stage
  | a => if stage.isFree then (begin shop a).map fun stage ↦ (w, stage) else none

def System.step : Config (World π) π Stage → π × Action → Option (Config (World π) π Stage) :=
  Config.step (perform shop)

end Moligate.Purchases
