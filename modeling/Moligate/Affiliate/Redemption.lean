import Mathlib.Data.List.Sort
import Moligate.Common.QuotaMath
import Moligate.Foundation.Balances
import Moligate.Foundation.Threads

namespace Moligate.Affiliate

open Foundation Common

inductive CommissionStatus where
  | pending | settled
  deriving DecidableEq

inductive SettlementType where
  | wallet | offlineCashback
  deriving DecidableEq

structure AffiliateCommission where
  (id promoterId rewardPoints : ℤ)
  settledPoints : ℤ := 0
  walletRedeemedPoints : ℤ := 0
  offlineSettledPoints : ℤ := 0
  settledWalletQuota : ℤ := 0
  status : CommissionStatus := .pending
  createdAt : ℤ
  deriving DecidableEq

structure AffiliateCommissionSettlement where
  (commissionId promoterId : ℤ)
  settlementType : SettlementType
  (settledPoints walletQuota : ℤ)
  deriving DecidableEq

inductive AffiliateError where
  | invalidUserId | pointsNotPositive | offlinePointsNotPositive | recordsUnavailable
  | nothingRedeemable | tooManyPoints | quotaTooLow | userNotFound | alreadyProcessed | unfinished
  | invalidRecordId | noRecords | recordsMissing | notPending | nothingPending | database
  deriving DecidableEq

def AffiliateError.message : AffiliateError → String
  | invalidUserId => "用户 ID 参数无效"
  | pointsNotPositive => "兑换积分必须大于 0"
  | offlinePointsNotPositive => "线下返现积分必须大于 0"
  | recordsUnavailable => "部分奖励积分记录不存在或不可兑换"
  | nothingRedeemable => "暂无可兑换的奖励积分"
  | tooManyPoints => "兑换积分不能超过当前待兑换积分"
  | quotaTooLow => "奖励积分兑换额度过低"
  | userNotFound => "用户不存在"
  | alreadyProcessed => "部分奖励积分记录已被处理，请刷新后重试"
  | unfinished => "奖励积分兑换处理异常，请刷新后重试"
  | invalidRecordId => "奖励积分记录 ID 参数无效"
  | noRecords => "请选择要结算的奖励积分记录"
  | recordsMissing => "部分奖励积分记录不存在"
  | notPending => "只能结算待处理状态的奖励积分记录"
  | nothingPending => "只能结算有剩余积分的奖励积分记录"
  | database => ""

/-- The wallet quota of `points`. The product is rounded half away from zero and kept in 64 bits,
so that the later test against the largest integer never fails. -/
def quoteAffiliateRewardPoints (quotaPerUnit : ℚ) (points : ℤ) : Except AffiliateError ℤ :=
  if points ≤ 0 then .error .nothingRedeemable
  else
    let quota := (Float64.finite (points * quotaPerUnit)).roundHalfAway.toInt.bmod (2 ^ 64)
    if quota ≤ 0 then .error .quotaTooLow else .ok quota

def pendingAffiliateRewardPoints (c : AffiliateCommission) : ℤ :=
  max 0 (c.rewardPoints - c.settledPoints)

def normalizeAffiliateCommissionIds (ids : List ℤ) : Except AffiliateError (List ℤ) :=
  if ids.all (0 < ·) then .ok (ids.foldl (fun seen id ↦ if id ∈ seen then seen else seen ++ [id]) [])
  else .error .invalidRecordId

/-- One call of `consumeAffiliateRewardPointsWithTx`; no ids means all records of the user. -/
structure Consume where
  userId : ℤ
  ids : List ℤ
  requested : Option ℤ
  settlementType : SettlementType
  deriving DecidableEq

inductive Txn where
  | redeem (userId : ℤ) (ids : List ℤ) (points : Option ℤ)
  | offlineCashback (promoterId points : ℤ)
  | settle (ids : List ℤ)

structure Redemption where
  (userId points quota : ℤ)
  deriving DecidableEq

/-- The tables. The commissions have the ids `ids`; a user without a row has no quota. -/
structure Db (τ : Type*) where
  ids : List ℤ
  commissions : Rows ℤ τ AffiliateCommission
  users : Rows ℤ τ (Option ℤ)
  settlements : List AffiliateCommissionSettlement
  redemptions : List Redemption

inductive Stage where
  | idle
  | select (ids : List ℤ)
  | calls (todo : List Consume)
  | credit (call : Consume) (rows : List AffiliateCommission) (points quota : ℤ)
      (todo : List Consume)
  | update (call : Consume) (rows : List AffiliateCommission) (points quota remaining : ℤ)
      (todo : List Consume)
  | insert (call : Consume) (row : AffiliateCommissionSettlement) (rows : List AffiliateCommission)
      (points quota remaining : ℤ) (todo : List Consume)
  | failed (e : AffiliateError)
  deriving DecidableEq

structure Process where
  stage : Stage := .idle
  inserted : List AffiliateCommissionSettlement := []
  redeemed : List Redemption := []
  deriving DecidableEq

/-- What decides the next step of a transaction: the request that starts it, the order in which
the promoters of a settlement come out of the map, or a failure of the database. -/
inductive Action where
  | start (t : Txn)
  | next
  | group (calls : List Consume)
  | fail

def inOrder (c d : AffiliateCommission) : Prop :=
  c.createdAt < d.createdAt ∨ c.createdAt = d.createdAt ∧ c.id ≤ d.id

instance : DecidableRel inOrder := fun c d ↦
  inferInstanceAs (Decidable (c.createdAt < d.createdAt ∨ c.createdAt = d.createdAt ∧ c.id ≤ d.id))

section

variable {τ : Type*} [DecidableEq τ] (db : Db τ) (t : τ)

def Db.selectCommissions (p : AffiliateCommission → Bool) : List AffiliateCommission :=
  ((db.ids.map (db.commissions.read t)).filter p).insertionSort inOrder

def Consume.selects (call : Consume) (c : AffiliateCommission) : Bool :=
  c.promoterId = call.userId && c.status = .pending && (call.ids.isEmpty || call.ids.contains c.id)

def Consume.check (call : Consume) : Except AffiliateError Unit :=
  if call.userId ≤ 0 then .error .invalidUserId
  else if call.requested.any (· ≤ 0) then .error .pointsNotPositive
  else .ok ()

def Consume.plan (quotaPerUnit : ℚ) (call : Consume) (rows : List AffiliateCommission) :
    Except AffiliateError (ℤ × ℤ) :=
  if call.ids ≠ [] ∧ rows.length ≠ call.ids.length then .error .recordsUnavailable
  else
    let available := (rows.map pendingAffiliateRewardPoints).sum
    let points := call.requested.getD available
    if available ≤ 0 then .error .nothingRedeemable
    else if available < points then .error .tooManyPoints
    else (quoteAffiliateRewardPoints quotaPerUnit points).map fun quota ↦ (points, quota)

/-- The next record of the loop that has something to settle, how much of it, and the rest. -/
def nextRecord : List AffiliateCommission → ℤ →
    Option (AffiliateCommission × ℤ × List AffiliateCommission)
  | [], _ => none
  | c :: rows, remaining =>
    if remaining ≤ 0 then none
    else if pendingAffiliateRewardPoints c ≤ 0 then nextRecord rows remaining
    else some (c, min (pendingAffiliateRewardPoints c) remaining, rows)

/-- The update of a record: the counters move relative to the stored row, the status is the one
computed from the row that was read, `c`. -/
def settleRecord (settlementType : SettlementType) (c row : AffiliateCommission)
    (points walletQuota : ℤ) : AffiliateCommission :=
  let status := if c.rewardPoints ≤ c.settledPoints + points then .settled else .pending
  match settlementType with
  | .wallet =>
    { row with
      status
      settledPoints := row.settledPoints + points
      walletRedeemedPoints := row.walletRedeemedPoints + points
      settledWalletQuota := row.settledWalletQuota + walletQuota }
  | .offlineCashback =>
    { row with
      status
      settledPoints := row.settledPoints + points
      offlineSettledPoints := row.offlineSettledPoints + points }

def settlementsByPromoter (rows : List AffiliateCommission) : List Consume :=
  ((rows.map AffiliateCommission.promoterId).dedup).map fun promoterId ↦
    let group := rows.filter fun c ↦ c.promoterId = promoterId
    { userId := promoterId
      ids := group.map AffiliateCommission.id
      requested := some (group.map pendingAffiliateRewardPoints).sum
      settlementType := .offlineCashback }

def checkSettlement (ids : List ℤ) (rows : List AffiliateCommission) : Except AffiliateError Unit :=
  if rows.length ≠ ids.length then .error .recordsMissing
  else
    match rows.find? fun c ↦ c.status ≠ .pending || pendingAffiliateRewardPoints c ≤ 0 with
    | none => .ok ()
    | some c => .error (if c.status ≠ .pending then .notPending else .nothingPending)

def Txn.begin : Txn → Except AffiliateError Stage
  | .redeem userId ids points =>
    (normalizeAffiliateCommissionIds ids).map fun ids ↦ .calls [⟨userId, ids, points, .wallet⟩]
  | .offlineCashback promoterId points =>
    if promoterId ≤ 0 then .error .invalidUserId
    else if points ≤ 0 then .error .offlinePointsNotPositive
    else .ok (.calls [⟨promoterId, [], some points, .offlineCashback⟩])
  | .settle ids =>
    match normalizeAffiliateCommissionIds ids with
    | .error e => .error e
    | .ok [] => .error .noRecords
    | .ok ids => .ok (.select ids)

variable (quotaPerUnit : ℚ) (p : Process)

def Process.goto (stage : Stage) : Process := { p with stage }

def selectStep (ids : List ℤ) (calls : List Consume) : Option Process :=
  let rows := db.selectCommissions t fun c ↦ ids.contains c.id
  match checkSettlement ids rows with
  | .error e => some (p.goto (.failed e))
  | .ok () => if calls.isPerm (settlementsByPromoter rows) then some (p.goto (.calls calls)) else none

def consumeStep (call : Consume) (todo : List Consume) : Process :=
  let rows := db.selectCommissions t call.selects
  match call.check, call.plan quotaPerUnit rows with
  | .error e, _ => p.goto (.failed e)
  | .ok (), .error e => p.goto (.failed e)
  | .ok (), .ok (points, quota) => p.goto (.credit call rows points quota todo)

/-- A redemption adds its quota to the wallet, if the user is there; a cashback only looks for the
user. -/
def creditStep (call : Consume) (quota : ℤ) (next : Stage) : Option (Db τ × Process) :=
  match call.settlementType with
  | .wallet => (db.users.credit t call.userId quota).map fun users ↦ ({ db with users }, p.goto next)
  | .offlineCashback =>
    if (db.users.read t call.userId).isSome then some (db, p.goto next)
    else some (db, p.goto (.failed .userNotFound))

/-- The update of one record waits for its lock; a record that is not pending any more ends the
transaction. -/
def updateStep (call : Consume) (c : AffiliateCommission) (points : ℤ)
    (next : AffiliateCommissionSettlement → Stage) : Option (Db τ × Process) :=
  match quoteAffiliateRewardPoints quotaPerUnit points with
  | .error e => some (db, p.goto (.failed e))
  | .ok quota =>
    let row := db.commissions.read t c.id
    if !db.commissions.free t c.id then none
    else if row.status = .pending then
      let row := settleRecord call.settlementType c row points quota
      some ({ db with commissions := db.commissions.write t c.id row },
        p.goto (next ⟨c.id, call.userId, call.settlementType, points,
          if call.settlementType = .wallet then quota else 0⟩))
    else some (db, p.goto (.failed .alreadyProcessed))

def finishCall (call : Consume) (points quota remaining : ℤ) (todo : List Consume) : Process :=
  if remaining ≠ 0 then p.goto (.failed .unfinished)
  else
    { p with
      stage := .calls todo
      redeemed :=
        if call.settlementType = .wallet then p.redeemed ++ [⟨call.userId, points, quota⟩]
        else p.redeemed }

def commitStep : Db τ :=
  { db with
    commissions := db.commissions.commit t
    users := db.users.commit t
    settlements := db.settlements ++ p.inserted
    redemptions := db.redemptions ++ p.redeemed }

def rollbackStep : Db τ :=
  { db with commissions := db.commissions.rollback t, users := db.users.rollback t }

end

/-- One statement of the transaction of `t`; `none` while it waits for a lock. -/
def perform {τ : Type*} [DecidableEq τ] (quotaPerUnit : ℚ) (t : τ) (a : Action) (db : Db τ)
    (p : Process) : Option (Db τ × Process) :=
  match p.stage, a with
  | .idle, .start txn =>
    match txn.begin with
    | .error _ => some (db, p)
    | .ok stage => some (db, p.goto stage)
  | .failed _, .next => some (rollbackStep db t, {})
  | .select ids, .group calls => (selectStep db t p ids calls).map fun p ↦ (db, p)
  | .calls [], .next => some (commitStep db t p, {})
  | .calls (call :: todo), .next => some (db, consumeStep db t quotaPerUnit p call todo)
  | .credit call rows points quota todo, .next =>
    creditStep db t p call quota (.update call rows points quota points todo)
  | .update call rows points quota remaining todo, .next =>
    match nextRecord rows remaining with
    | none => some (db, finishCall p call points quota remaining todo)
    | some (c, n, rows) =>
      updateStep db t quotaPerUnit p call c n fun row ↦
        .insert call row rows points quota remaining todo
  | .insert call row rows points quota remaining todo, .next =>
    some (db, { p with
      stage := .update call rows points quota (remaining - row.settledPoints) todo
      inserted := p.inserted ++ [row] })
  | .idle, _ => none
  | .failed _, _ => none
  | _, .fail => some (db, p.goto (.failed .database))
  | _, _ => none

end Moligate.Affiliate
