import Moligate.Foundation.Threads
import Mathlib.Algebra.Order.Ring.Int

namespace Moligate.Tasks

open Foundation

inductive TaskStatus where
  | notStart | submitted | queued | inProgress | failure | success | unknown
  -- the text of an upstream answer is stored as it comes
  | other (text : String)
  deriving DecidableEq

def TaskStatus.isTerminal (s : TaskStatus) : Bool := s = .failure || s = .success

inductive TaskPlatform where
  | midjourney | suno
  | video (name : String)
  deriving DecidableEq

inductive TaskFunding where
  | quota
  | imageCount (amount : ℤ)
  deriving DecidableEq

structure Task where
  id : ℤ
  taskId : String
  -- `GetUpstreamTaskID`
  upstreamId : String
  platform : TaskPlatform
  status : TaskStatus
  progress : String
  (quota submitTime : ℤ)
  startTime : ℤ := 0
  finishTime : ℤ := 0
  failReason : String := ""
  resultURL : String := ""
  data : String := ""
  funding : TaskFunding := .quota
  hasToken : Bool := true
  perCallBilling : Bool := false
  deriving DecidableEq

def taskRefundLegacyCutoff : ℤ := 1771718400

def isLegacyTime (submitTime : ℤ) : Bool := 0 < submitTime && submitTime < taskRefundLegacyCutoff

def Task.isLegacy (t : Task) : Bool := isLegacyTime t.submitTime

def Task.isUnfinished (t : Task) : Bool := t.progress ≠ "100%" && !t.status.isTerminal

def Task.fail (reason : Option String) (t : Task) : Task :=
  { t with status := .failure, progress := "100%", failReason := reason.getD t.failReason }

abbrev UnfinishedTask := { t : Task // t.isUnfinished = true }

structure Runtime where
  -- an update reports the rows that it matched, not only those that it changed
  reportsMatched : Bool
  -- the comparison of two bodies as sorted bytes
  sameData : String → String → Bool
  serverAddress : String

inductive EntryKind where
  | refund | settlement
  deriving DecidableEq

inductive Account where
  | funding | token
  deriving DecidableEq

structure Entry where
  taskId : ℤ
  kind : EntryKind
  account : Account
  amount : ℤ
  deriving DecidableEq

structure Db where
  rows : ℤ → Option Task
  keyed : ∀ id row, rows id = some row → row.id = id
  ledger : List Entry

namespace Db

def save (db : Db) (task : Task) : Db where
  rows := Function.update db.rows task.id (some task)
  keyed id row h := by
    by_cases hid : id = task.id
    · subst hid
      rw [Function.update_self, Option.some.injEq] at h
      rw [h]
    · rw [Function.update_of_ne hid] at h
      exact db.keyed id row h
  ledger := db.ledger

def updateWithStatus (rt : Runtime) (db : Db) (task : Task) (fromStatus : TaskStatus) : Db × Bool :=
  match db.rows task.id with
  | none => (db, false)
  | some row =>
    if row.status = fromStatus then (db.save task, rt.reportsMatched || row ≠ task)
    else (db, false)

def updateQuota (db : Db) (id quota : ℤ) : Db :=
  match db.rows id with
  | none => db
  | some row => db.save { row with quota }

def taskBulkUpdateByID (db : Db) (ids : List ℤ) (reason : Option String) : Db where
  rows id := if id ∈ ids then (db.rows id).map (Task.fail reason) else db.rows id
  keyed id row h := by
    split at h
    · obtain ⟨row', hrow', rfl⟩ := Option.map_eq_some_iff.1 h
      exact db.keyed id row' hrow'
    · exact db.keyed id row h
  ledger := db.ledger

def selectUnfinished (db : Db) (cond : Task → Bool) (ids : List ℤ) : List UnfinishedTask :=
  ids.filterMap fun id ↦ (db.rows id).bind fun row ↦
    if h : row.isUnfinished then if cond row then some ⟨row, h⟩ else none else none

end Db

inductive BillStep where
  | funding | token | clear
  deriving DecidableEq

/-- A `RefundTaskQuota` (without `actual`) or a `RecalculateTaskQuota` to `actual` under way. -/
structure Bill where
  task : Task
  actual : Option ℤ
  step : BillStep
  deriving DecidableEq

def refundTaskQuota (task : Task) : Option Bill :=
  if task.quota = 0 then none else some ⟨task, none, .funding⟩

def recalculateTaskQuota (task : Task) (actual : ℤ) : Option Bill :=
  if actual ≤ 0 ∨ actual - task.quota = 0 then none else some ⟨task, some actual, .funding⟩

def settleTaskBillingOnComplete (task : Task) (actual : ℤ) : Option Bill :=
  if task.perCallBilling then none else recalculateTaskQuota task actual

def taskAdjustFunding (task : Task) (delta : ℤ) : ℤ :=
  match task.funding with
  | .quota => delta
  | .imageCount _ => 0

def taskRefundFunding (task : Task) : Option ℤ :=
  match task.funding with
  | .imageCount amount => if amount ≤ 0 then none else some amount
  | .quota => some task.quota

def Bill.kind (b : Bill) : EntryKind := if b.actual.isSome then .settlement else .refund

/-- What the bill moves on the funding source. A settlement may be rejected by a limit of the
subscription. -/
def Bill.fundingAmount (b : Bill) (accepted : Bool) : Option ℤ :=
  match b.actual with
  | none => taskRefundFunding b.task
  | some actual =>
    if accepted then some (taskAdjustFunding b.task (actual - b.task.quota)) else none

def Bill.tokenAmount (b : Bill) : ℤ :=
  match b.actual with
  | none => b.task.quota
  | some actual => actual - b.task.quota

def Bill.entry (b : Bill) (account : Account) (amount : ℤ) : Entry :=
  ⟨b.task.id, b.kind, account, amount⟩

def Db.record (db : Db) (e : Entry) : Db := { db with ledger := db.ledger ++ [e] }

/-- The next step of a bill: the database, and the bill with its following step. -/
def Bill.advance (b : Bill) (accepted : Bool) (db : Db) : Db × Option Bill :=
  match b.step with
  | .funding =>
    match b.fundingAmount accepted with
    | none => (db, none)
    | some amount => (db.record (b.entry .funding amount), some { b with step := .token })
  | .token =>
    (if b.task.hasToken then db.record (b.entry .token b.tokenAmount) else db,
      some { b with step := .clear })
  | .clear => (db.updateQuota b.task.id (b.actual.getD 0), none)

def Bill.cleared (b : Bill) : Task := { b.task with quota := b.actual.getD 0 }

end Moligate.Tasks
