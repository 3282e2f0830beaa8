import Moligate.Purchases.Orders

namespace Moligate.Purchases.Checkout

open Foundation Subscription
open TopUps (PaymentProvider)

structure CatalogPlan extends SalePlan where
  badgeText : String
  benefits : List String

section

variable (rt : Runtime)

def normalizeSubscriptionBadgeText (text : String) : String :=
  let text := rt.trimSpace text
  if 64 < text.utf8ByteSize then truncateBytes 64 text else text

def normalizeSubscriptionBenefits (benefits : List String) : List String :=
  (firstOfEach id ((benefits.map rt.trimSpace).filter fun b ↦
    b ≠ "" && b.utf8ByteSize ≤ 240)).take 12

def normalizeDefaults (p : CatalogPlan) : CatalogPlan :=
  { p with
    allowBalancePay := some (p.allowBalancePay.getD true)
    allowWalletOverflow := some (p.allowWalletOverflow.getD true)
    applicableGroups := normalizeSubscriptionGroups rt p.applicableGroups
    modelFamily := normalizeSubscriptionModelFamily rt p.modelFamily
    includedModels := normalizeSubscriptionModels rt p.includedModels
    badgeText := normalizeSubscriptionBadgeText rt p.badgeText
    benefits := normalizeSubscriptionBenefits rt p.benefits
    bonusResources := normalizeSubscriptionBonusResources rt p.bonusResources }

end

structure Codec where
  marshal : CatalogPlan → Option String
  unmarshal : String → Except String CatalogPlan

section

variable (rt : Runtime) (codec : Codec)

def capturePlanSnapshot (order : SubscriptionOrder) (plan : CatalogPlan) :
    Except OrderError SubscriptionOrder :=
  if plan.id ≤ 0 then .error .invalidSnapshot
  else if 0 < order.planId ∧ order.planId ≠ plan.id then .error .snapshotMismatch
  else
    match codec.marshal (normalizeDefaults rt plan) with
    | none => .error .database
    | some data => .ok { order with planId := plan.id, planSnapshot := data }

def capturedPlan (order : SubscriptionOrder) : Except OrderError (Option CatalogPlan) :=
  if rt.trimSpace order.planSnapshot = "" then .ok none
  else
    match codec.unmarshal order.planSnapshot with
    | .error cause => .error (.snapshotInvalid cause)
    | .ok plan =>
      if plan.id ≤ 0 ∨ 0 < order.planId ∧ plan.id ≠ order.planId then .error .snapshotMismatch
      else .ok (some (normalizeDefaults rt plan))

end

inductive Statement where
  | lockOrder | readPlan | count | readGroup | updateGroup | createSubscription | findTopUp
  | saveTopUp | createOrder | saveOrder | commit
  deriving DecidableEq

/-- What a call finds around it: the clocks of the database and of the process, the plans as they
are stored by then, and the statements that fail. -/
structure Env where
  (dbNow now : ℤ)
  plans : ℤ → Option CatalogPlan
  fails : Statement → Bool

structure Db where
  orders : Table SubscriptionOrder.tradeNo
  subs : Table fun row : SubscriptionRow ↦ row.id
  topUps : Table SubscriptionTopUp.tradeNo
  groups : ℤ → Option String
  nextId : ℤ
  created : List Created

section

variable (rt : Runtime) (codec : Codec) (env : Env)

def execute (s : Statement) : Tx Db OrderError Unit := .check .database (!env.fails s)

def getSubscriptionPlanByIdTx (id : ℤ) : Tx Db OrderError CatalogPlan := do
  .check .invalidPlanId (0 < id)
  execute env .readPlan
  let plan ← .required .recordNotFound (env.plans id)
  pure (normalizeDefaults rt plan)

/-- Orders from before the snapshots take the plan as it is now. -/
def planOfOrder (order : SubscriptionOrder) : Tx Db OrderError CatalogPlan := do
  let captured ← .ofExcept (capturedPlan rt codec order)
  match captured with
  | some plan => pure plan
  | none => getSubscriptionPlanByIdTx rt env order.planId

def countPurchases (userId : ℤ) (plan : Plan) : Tx Db OrderError Unit :=
  if 0 < plan.maxPurchasePerUser then do
    execute env .count
    let db ← .get
    .check (.create .purchaseLimit)
      (db.subs.rows.countP (isOf userId plan.id) < plan.maxPurchasePerUser)
  else pure ()

/-- Gives the user the group of the plan, and returns the group that the user had. A missing user
has the empty group, and the update finds no row. -/
def changeGroup (userId : ℤ) (plan : Plan) : Tx Db OrderError String :=
  let upgradeGroup := rt.trimSpace plan.upgradeGroup
  if upgradeGroup = "" then pure ""
  else do
    execute env .readGroup
    let db ← .get
    let currentGroup := (db.groups userId).getD ""
    if currentGroup = upgradeGroup then pure currentGroup
    else do
      execute env .updateGroup
      .modify fun db ↦
        { db with
          groups := Function.update db.groups userId ((db.groups userId).map fun _ ↦ upgradeGroup) }
      pure currentGroup

/-- The trade number is only for the record of what the orders have created. -/
def createUserSubscriptionFromPlanTx (userId : ℤ) (plan : Plan) (tradeNo : String) :
    Tx Db OrderError SubscriptionRow := do
  .check (.create .invalidPlan) (plan.id ≠ 0)
  .check (.create .invalidUserId) (0 < userId)
  countPurchases env userId plan
  let _ ← .ofExcept ((calcPlanEndTime rt env.dbNow plan).mapError .create)
  let currentGroup ← changeGroup rt env userId plan
  let db ← .get
  let row ← .ofExcept
    ((newSubscription rt db.nextId env.dbNow userId plan currentGroup).mapError .create)
  execute env .createSubscription
  let subs ← .required (.create .duplicateKey) (db.subs.create row)
  .modify fun db ↦
    { db with subs, nextId := db.nextId + 1, created := ⟨some tradeNo, row⟩ :: db.created }
  pure row

def mirror (order : SubscriptionOrder) : SubscriptionTopUp where
  userId := order.userId
  money := order.money
  tradeNo := order.tradeNo
  paymentMethod := order.paymentMethod
  createTime := order.createTime
  completeTime := env.now
  status := .success

def upsertSubscriptionTopUpTx (order : SubscriptionOrder) : Tx Db OrderError Unit := do
  execute env .findTopUp
  let db ← .get
  match db.topUps.find order.tradeNo with
  | none => do
      execute env .saveTopUp
      let topUps ← .required (.create .duplicateKey) (db.topUps.create (mirror env order))
      .modify fun db ↦ { db with topUps }
  | some topUp => do
      .check .paymentMethodMismatch
        (topUp.paymentMethod = "" || topUp.paymentMethod = order.paymentMethod)
      execute env .saveTopUp
      let topUp :=
        { topUp with
          money := order.money
          paymentMethod := order.paymentMethod
          createTime := if topUp.createTime = 0 then order.createTime else topUp.createTime
          completeTime := env.now
          status := .success }
      .modify fun db ↦ { db with topUps := db.topUps.save topUp }

/-- The order under its lock. Every error of the query is reported as a missing order, and an order
of another provider is refused. -/
def lockOrder (tradeNo : String) (expectedPaymentProvider : Option PaymentProvider) :
    Tx Db OrderError SubscriptionOrder := do
  .check .orderNotFound (!env.fails .lockOrder)
  let db ← .get
  let order ← .required .orderNotFound (db.orders.find tradeNo)
  .check .paymentMethodMismatch (expectedPaymentProvider.all (· = order.paymentProvider))
  pure order

def saveOrder (order : SubscriptionOrder) : Tx Db OrderError Unit := do
  execute env .saveOrder
  .modify fun db ↦ { db with orders := db.orders.save order }
  execute env .commit

def completeSubscriptionOrderTx (args : CompleteArgs) : Tx Db OrderError Unit := do
  let order ← lockOrder env args.tradeNo args.expectedPaymentProvider
  if order.status = .success then execute env .commit
  else do
    .check .statusInvalid (order.status = .pending)
    let plan ← planOfOrder rt codec env order
    let _ ← createUserSubscriptionFromPlanTx rt env order.userId plan.toPlan order.tradeNo
    upsertSubscriptionTopUpTx env order
    saveOrder env (completed args order env.now)

def expireSubscriptionOrderTx (tradeNo : String)
    (expectedPaymentProvider : Option PaymentProvider) : Tx Db OrderError Unit := do
  let order ← lockOrder env tradeNo expectedPaymentProvider
  if order.status = .pending then
    saveOrder env { order with status := .expired, completeTime := env.now }
  else execute env .commit

end

structure CheckoutArgs where
  (userId planId : ℤ)
  (tradeNo paymentMethod : String)
  paymentProvider : PaymentProvider

inductive Callback where
  | complete (args : CompleteArgs)
  | expire (tradeNo : String) (expectedPaymentProvider : Option PaymentProvider)

def Callback.tradeNo : Callback → String
  | complete args => args.tradeNo
  | expire tradeNo _ => tradeNo

def Callback.expectedPaymentProvider : Callback → Option PaymentProvider
  | complete args => args.expectedPaymentProvider
  | expire _ provider => provider

variable (rt : Runtime) (codec : Codec)

def checkoutTx (env : Env) (args : CheckoutArgs) : Tx Db OrderError Unit := do
  let plan ← getSubscriptionPlanByIdTx rt env args.planId
  let order ← .ofExcept (capturePlanSnapshot rt codec
    { userId := args.userId
      planId := plan.id
      money := plan.priceAmount
      tradeNo := args.tradeNo
      paymentMethod := args.paymentMethod
      paymentProvider := args.paymentProvider
      status := .pending
      createTime := env.now
      completeTime := 0
      providerPayload := ""
      planSnapshot := "" } plan)
  execute env .createOrder
  let db ← .get
  let orders ← .required (.create .duplicateKey) (db.orders.create order)
  .modify fun db ↦ { db with orders }

def checkout (db : Db) (env : Env) (args : CheckoutArgs) : Except OrderError Unit × Db :=
  (checkoutTx rt codec env args).run db

def handle (db : Db) (env : Env) (callback : Callback) : Except OrderError Unit × Db :=
  if callback.tradeNo = "" then (.error .tradeNoEmpty, db)
  else
    match callback with
    | .complete args => (completeSubscriptionOrderTx rt codec env args).run db
    | .expire tradeNo provider => (expireSubscriptionOrderTx env tradeNo provider).run db

/-- The lock of the order puts the callbacks one after the other; each finds the plans as they have
been edited by then. -/
def step (db : Db) (call : Env × Callback) : Option Db := some (handle rt codec db call.1 call.2).2

end Moligate.Purchases.Checkout
