import Moligate.Foundation.Locks
import Moligate.Foundation.Threads
import Moligate.TopUps.Orders

namespace Moligate.Cdk

open Foundation
open TopUps (PaymentProvider TopUpStatus)

def affiliateCdkSourceType : String := "affiliate_cdk"

def affiliateCdkOrderMaxQuantity : ℤ := 100

structure AffiliateCdkOrder where
  (id userId : ℤ)
  tradeNo : String
  (quantity codeQuota : ℤ)
  paymentMethod : String
  paymentProvider : PaymentProvider
  status : TopUpStatus
  completeTime : ℤ
  providerPayload : String
  deriving DecidableEq

structure Redemption where
  userId : ℤ
  (name key : String)
  quota : ℤ
  sourceType : String
  (sourceOrderId createdTime : ℤ)
  deriving DecidableEq

inductive CdkOrderError where
  | tradeNoEmpty | notFound | paymentMethodMismatch | statusInvalid | dataInvalid | codesExist
  | database
  deriving DecidableEq

def CdkOrderError.message : CdkOrderError → String
  | tradeNoEmpty => "tradeNo is empty"
  | notFound => "affiliate cdk order not found"
  | paymentMethodMismatch => "payment method mismatch"
  | statusInvalid => "affiliate cdk order status invalid"
  | dataInvalid => "CDK 订单数据无效"
  | codesExist => "CDK 订单已存在生成的兑换码，请联系管理员处理"
  | database => "database error"

structure CompleteArgs where
  (tradeNo providerPayload : String)
  expectedPaymentProvider : Option PaymentProvider
  actualPaymentMethod : String
  deriving DecidableEq

/-- The next statement of a transaction. What it has inserted stays with it until its commit. -/
inductive Stage where
  | idle
  | findOrder (args : CompleteArgs)
  | countCodes (args : CompleteArgs) (order : AffiliateCdkOrder)
  | createCodes (args : CompleteArgs) (order : AffiliateCdkOrder)
  | findExpiring (tradeNo : String) (expectedPaymentProvider : Option PaymentProvider)
  | save (row : AffiliateCdkOrder) (codes : List Redemption)
  | commit (row : AffiliateCdkOrder) (codes : List Redemption)
  | done (result : Except CdkOrderError Unit)

structure World (π : Type) where
  orders : Rows String π (Option AffiliateCdkOrder)
  redemptions : List Redemption
  completed : List String

inductive Action where
  | completeAffiliateCdkOrder (args : CompleteArgs)
  | expireAffiliateCdkOrder (tradeNo : String) (expectedPaymentProvider : Option PaymentProvider)
  | next (now : ℤ) (uuid : ℕ → String) (fails : Bool)

variable {π : Type} [DecidableEq π] (trimSpace : String → String)

def isCodeOf (orderId : ℤ) (r : Redemption) : Bool :=
  r.sourceType = affiliateCdkSourceType && r.sourceOrderId = orderId

def newCode (order : AffiliateCdkOrder) (now : ℤ) (key : String) : Redemption where
  userId := order.userId
  name := "affiliate-cdk-" ++ toString order.id
  key := key
  quota := order.codeQuota
  sourceType := affiliateCdkSourceType
  sourceOrderId := order.id
  createdTime := now

def newCodes (order : AffiliateCdkOrder) (now : ℤ) (uuid : ℕ → String) : List Redemption :=
  (List.range order.quantity.toNat).map fun i ↦ newCode order now (uuid i)

def completed (args : CompleteArgs) (order : AffiliateCdkOrder) (now : ℤ) : AffiliateCdkOrder :=
  { order with
    status := .success
    completeTime := now
    providerPayload := if args.providerPayload ≠ "" then args.providerPayload
      else order.providerPayload
    paymentMethod := if trimSpace args.actualPaymentMethod ≠ "" then args.actualPaymentMethod
      else order.paymentMethod }

def findOrder (w : World π) (p : π) (args : CompleteArgs) (fails : Bool) : World π × Stage :=
  match w.orders.read p args.tradeNo with
  | none => (w, .done (.error .notFound))
  | some order =>
    if fails then (w, .done (.error .notFound))
    else if !args.expectedPaymentProvider.all (· = order.paymentProvider) then
      (w, .done (.error .paymentMethodMismatch))
    else if order.status = .success then
      ({ w with completed := args.tradeNo :: w.completed }, .done (.ok ()))
    else if order.status ≠ .pending then (w, .done (.error .statusInvalid))
    else if order.quantity ≤ 0 ∨ affiliateCdkOrderMaxQuantity < order.quantity ∨
        order.codeQuota ≤ 0 then (w, .done (.error .dataInvalid))
    else (w, .countCodes args order)

def findExpiring (w : World π) (p : π) (tradeNo : String)
    (expectedPaymentProvider : Option PaymentProvider) (now : ℤ) (fails : Bool) : Stage :=
  match w.orders.read p tradeNo with
  | none => .done (.error .notFound)
  | some order =>
    if fails then .done (.error .notFound)
    else if !expectedPaymentProvider.all (· = order.paymentProvider) then
      .done (.error .paymentMethodMismatch)
    else if order.status ≠ .pending then .done (.ok ())
    else .save { order with status := .expired, completeTime := now } []

def saveRow (w : World π) (p : π) (row : AffiliateCdkOrder) (codes : List Redemption)
    (fails : Bool) : Option (World π × Stage) :=
  if !w.orders.free p row.tradeNo then none
  else if fails then some ({ w with orders := w.orders.rollback p }, .done (.error .database))
  else some ({ w with orders := w.orders.write p row.tradeNo (some row) }, .commit row codes)

def commitRow (w : World π) (p : π) (row : AffiliateCdkOrder) (codes : List Redemption)
    (fails : Bool) : World π × Stage :=
  if fails then ({ w with orders := w.orders.rollback p }, .done (.error .database))
  else
    ({ orders := w.orders.commit p
       redemptions := w.redemptions ++ codes
       completed := if row.status = .success then row.tradeNo :: w.completed else w.completed },
      .done (.ok ()))

def next (w : World π) (p : π) (now : ℤ) (uuid : ℕ → String) (fails : Bool) :
    Stage → Option (World π × Stage)
  | .findOrder args => some (findOrder w p args fails)
  | .countCodes args order =>
    if fails then some (w, .done (.error .database))
    else if 0 < w.redemptions.countP (isCodeOf order.id) then
      some (w, .done (.error .codesExist))
    else some (w, .createCodes args order)
  | .createCodes args order =>
    if fails then some (w, .done (.error .database))
    else some (w, .save (completed trimSpace args order now) (newCodes order now uuid))
  | .findExpiring tradeNo provider => some (w, findExpiring w p tradeNo provider now fails)
  | .save row codes => saveRow w p row codes fails
  | .commit row codes => some (commitRow w p row codes fails)
  | .idle | .done _ => none

def Stage.isFree : Stage → Bool
  | .idle | .done _ => true
  | _ => false

def perform (p : π) (a : Action) (w : World π) (stage : Stage) : Option (World π × Stage) :=
  match a with
  | .completeAffiliateCdkOrder args =>
    if !stage.isFree then none
    else if trimSpace args.tradeNo = "" then some (w, .done (.error .tradeNoEmpty))
    else some (w, .findOrder args)
  | .expireAffiliateCdkOrder tradeNo provider =>
    if !stage.isFree then none
    else if trimSpace tradeNo = "" then some (w, .done (.error .tradeNoEmpty))
    else some (w, .findExpiring tradeNo provider)
  | .next now uuid fails => next trimSpace w p now uuid fails stage

def System.step : Config (World π) π Stage → π × Action → Option (Config (World π) π Stage) :=
  Config.step (perform trimSpace)

end Moligate.Cdk
