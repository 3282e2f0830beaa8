import Moligate.Foundation.Journal
import Moligate.Foundation.Threads
import Moligate.Subscription.Counters
import Moligate.Subscription.Purchase

namespace Moligate.Subscription.Writers

open Foundation Common

/-- What a call does to the subscriptions in one transaction, with the times and the plans that it
sees. `ExpireDueSubscriptions` has one transaction for each user and
`ExtendActiveSubscriptionsWithPlanModels` one for each subscription. -/
inductive Writer
  | preConsume (plans : Plans) (now : ℤ) (req : PreConsumeRequest)
  | postConsume (plans : Plans) (now userSubscriptionId delta : ℤ)
  | refund (plans : Plans) (now : ℤ) (requestId : String)
  | adminReset (plans : Plans) (now userId planId : ℤ) (advanceResetTime : Bool)
  | adminInvalidate (now userSubscriptionId : ℤ)
  | expireUser (now userId : ℤ)
  | extend (now planId : ℤ) (added : List String) (userSubscriptionId : ℤ)
  | updateGroups (userSubscriptionId : ℤ) (groups : List String)

section

def cancelled (now : ℤ) (row : UserSubscription) : UserSubscription :=
  { row with status := .cancelled, endTime := now }

def expired (row : UserSubscription) : UserSubscription := { row with status := .expired }

def isExpiring (now userId : ℤ) (row : UserSubscription) : Bool :=
  row.userId = userId && row.status = .active && 0 < row.endTime && row.endTime ≤ now

def saveAll (db : Db) (rows : List UserSubscription) : Db :=
  { db with subs := rows.foldl (fun subs row ↦ subs.save row) db.subs }

variable (rt : Runtime)

def extension (now planId : ℤ) (added : List String) (row : UserSubscription) :
    Option (List String) :=
  let merged := normalizeSubscriptionModels rt (row.includedModels ++ added)
  if row.planId = planId ∧ row.status = .active ∧ now < row.endTime ∧ row.includedModels ≠ [] ∧
    merged.length ≠ row.includedModels.length then some merged else none

def regrouped (groups : List String) (row : UserSubscription) : UserSubscription :=
  { row with applicableGroups := normalizeSubscriptionGroups rt groups }

end

def committed {ε : Type} (db : Db) : Call ε Db → Db
  | .ok db' => db'
  | _ => db

def run (rt : Runtime) (db : Db) : Writer → Db
  | .preConsume plans now req => committed db (performOp rt db ⟨now, plans, .preConsume req⟩)
  | .postConsume plans now id delta =>
    committed db (performOp rt db ⟨now, plans, .postConsume id delta⟩)
  | .refund plans now requestId =>
    committed db (performOp rt db ⟨now, plans, .refund requestId⟩)
  | .adminReset plans now userId planId advanceResetTime =>
    committed db (adminResetUserSubscriptionsByPlan rt plans now db userId planId advanceResetTime)
  | .adminInvalidate now id =>
    if id ≤ 0 then db
    else
      match db.subs.find id with
      | none => db
      | some row => { db with subs := db.subs.save (cancelled now row) }
  | .expireUser now userId =>
    saveAll db ((db.subs.rows.filter (isExpiring now userId)).map expired)
  | .extend now planId added id =>
    match db.subs.find id with
    | none => db
    | some row =>
      match extension rt now planId added row with
      | none => db
      | some merged => { db with subs := db.subs.save { row with includedModels := merged } }
  | .updateGroups id groups =>
    if id ≤ 0 then db
    else
      match db.subs.find id with
      | none => db
      | some row => { db with subs := db.subs.save (regrouped rt groups row) }

inductive Stage
  | idle
  | findRecord (plans : Plans) (now : ℤ) (req : PreConsumeRequest)
  | lock (x : Writer)
  | work (x : Writer) (rows : List UserSubscription)
  | inserted (plans : Plans) (now : ℤ) (req : PreConsumeRequest) (rows : List UserSubscription)
  | lockRecord (plans : Plans) (now : ℤ) (requestId : String)
  | lockRow (plans : Plans) (now : ℤ) (record : PreConsumeRecord)
  | giveBack (plans : Plans) (now : ℤ) (record : PreConsumeRecord) (rows : List UserSubscription)
  | load (x : Writer)
  | store (x : Writer) (seen : UserSubscription)

def Stage.isIdle : Stage → Bool
  | idle => true
  | _ => false

/-- The committed tables, the transaction that has locked a row or a record, and the calls that
have come to an end. -/
structure World (τ : Type) where
  db : Db
  rowLocks : ℤ → Option τ
  recordLocks : String → Option τ
  log : List (Change Writer Db)

variable {τ : Type} [DecidableEq τ]

namespace World

def free (w : World τ) (t : τ) (i : ℤ) : Bool := (w.rowLocks i).all (· = t)

def freeRecord (w : World τ) (t : τ) (k : String) : Bool := (w.recordLocks k).all (· = t)

def lockRows (w : World τ) (t : τ) (rows : List UserSubscription) : World τ :=
  { w with
    rowLocks := fun i ↦ if i ∈ rows.map UserSubscription.id then some t else w.rowLocks i }

def lockRecord (w : World τ) (t : τ) (k : String) : World τ :=
  { w with recordLocks := Function.update w.recordLocks k (some t) }

def release (w : World τ) (t : τ) : World τ :=
  { w with
    rowLocks := fun i ↦ if w.rowLocks i = some t then none else w.rowLocks i
    recordLocks := fun k ↦ if w.recordLocks k = some t then none else w.recordLocks k }

def conclude (w : World τ) (t : τ) (x : Writer) (db : Db) : World τ × Stage :=
  ({ w.release t with db, log := ⟨x, w.db, db⟩ :: w.log }, .idle)

def finish {ε : Type} (w : World τ) (t : τ) (x : Writer) (result : Call ε Db) :
    Option (World τ × Stage) :=
  match result with
  | .ok db => some (w.conclude t x db)
  | .fail _ => some (w.conclude t x w.db)
  | .diverges => none

end World

variable (rt : Runtime)

def selects (db : Db) : Writer → List UserSubscription
  | .preConsume _ now req => candidates now db req.userId
  | .postConsume _ _ id _ => (db.subs.find id).toList
  | .adminReset plans now userId planId _ =>
    match getSubscriptionPlanById plans planId with
    | .ok plan => (candidates now db userId).filter fun s ↦ s.planId = plan.id
    | _ => []
  | .adminInvalidate _ id => (db.subs.find id).toList
  | .expireUser now userId => db.subs.rows.filter (isExpiring now userId)
  | .refund .. | .extend .. | .updateGroups .. => []

def refundSelects (db : Db) (record : PreConsumeRecord) : List UserSubscription :=
  if record.preConsumed ≤ 0 ∧ record.resourceAmount ≤ 0 then []
  else (db.subs.find record.userSubscriptionId).toList

def work (db : Db) (rows : List UserSubscription) : Writer → Call Unit Db
  | .preConsume plans now req => do
      .check () (!rows.isEmpty)
      let out ← (preConsumeLoop rt plans now req (req.resource.map (normalizeResource rt)) db
        rows).mapFail fun _ ↦ ()
      pure out.1
  | .postConsume plans now id delta =>
    (postConsumeDeltaTx rt plans now (saveAll db rows) id delta).mapFail fun _ ↦ ()
  | .adminReset plans now _ planId advanceResetTime => do
      let plan ← (getSubscriptionPlanById plans planId).mapFail fun _ ↦ ()
      .check () (!rows.isEmpty)
      pure (resetAll rt plan now advanceResetTime db rows)
  | .adminInvalidate now _ => do
      .check () (!rows.isEmpty)
      pure (saveAll db (rows.map (cancelled now)))
  | .expireUser _ _ => pure (saveAll db (rows.map expired))
  | .refund .. | .extend .. | .updateGroups .. => .fail ()

def target : Writer → ℤ
  | .extend _ _ _ id => id
  | .updateGroups id _ => id
  | _ => 0

def stores (seen : UserSubscription) : Writer → Option (UserSubscription → UserSubscription)
  | .extend now planId added _ =>
    (extension rt now planId added seen).map fun merged row ↦ { row with includedModels := merged }
  | .updateGroups _ groups => some fun _ ↦ regrouped rt groups seen
  | _ => none

def begin : Writer → Option Stage
  | .preConsume plans now req =>
    match checkRequest rt req (req.resource.map (normalizeResource rt)) with
    | .ok _ => some (.findRecord plans now req)
    | _ => none
  | .postConsume plans now id delta =>
    if id ≤ 0 ∨ delta = 0 then none else some (.lock (.postConsume plans now id delta))
  | .refund plans now requestId =>
    if rt.trimSpace requestId = "" then none else some (.lockRecord plans now requestId)
  | .adminReset plans now userId planId advanceResetTime =>
    if 0 < userId ∧ 0 < planId then
      some (.lock (.adminReset plans now userId planId advanceResetTime))
    else none
  | .adminInvalidate now id => if id ≤ 0 then none else some (.lock (.adminInvalidate now id))
  | .expireUser now userId => some (.lock (.expireUser now userId))
  | .extend now planId added id => some (.load (.extend now planId added id))
  | .updateGroups id groups => if id ≤ 0 then none else some (.load (.updateGroups id groups))

def lockAll (w : World τ) (t : τ) (rows : List UserSubscription) (stage : Stage) :
    Option (World τ × Stage) :=
  if rows.all fun row ↦ w.free t row.id then some (w.lockRows t rows, stage) else none

/-- The insert into the unique index: a committed record is found as a duplicate, and an insert
that another transaction has not committed yet is waited for. -/
def insertRecord (w : World τ) (t : τ) (plans : Plans) (now : ℤ) (req : PreConsumeRequest)
    (rows : List UserSubscription) : Option (World τ × Stage) :=
  let x := Writer.preConsume plans now req
  if (w.db.records.find req.requestId).isSome then w.finish t x (work rt w.db rows x)
  else if w.freeRecord t req.requestId then
    match work rt w.db rows x with
    | .ok _ => some (w.lockRecord t req.requestId, .inserted plans now req rows)
    | .fail _ => some (w.conclude t x w.db)
    | .diverges => none
  else none

def lockRefund (w : World τ) (t : τ) (plans : Plans) (now : ℤ) (requestId : String) :
    Option (World τ × Stage) :=
  match w.db.records.find requestId with
  | none => some (w.conclude t (.refund plans now requestId) w.db)
  | some record =>
    if w.freeRecord t requestId then
      if record.status = .refunded then
        some (w.conclude t (.refund plans now requestId) w.db)
      else some (w.lockRecord t requestId, .lockRow plans now record)
    else none

def giveBack (db : Db) (plans : Plans) (now : ℤ) (record : PreConsumeRecord)
    (rows : List UserSubscription) : Call SubscriptionError Db := do
  let db ← refundRecord rt plans now (saveAll db rows) record
  pure { db with records := db.records.save { record with status := .refunded } }

def next (t : τ) (w : World τ) : Stage → Option (World τ × Stage)
  | .idle => none
  | .findRecord plans now req =>
    match w.db.records.find req.requestId with
    | some _ => some (w.conclude t (.preConsume plans now req) w.db)
    | none => some (w, .lock (.preConsume plans now req))
  | .lock x => lockAll w t (selects w.db x) (.work x (selects w.db x))
  | .work (.preConsume plans now req) rows => insertRecord rt w t plans now req rows
  | .work x rows => w.finish t x (work rt w.db rows x)
  | .inserted plans now req rows =>
    w.finish t (.preConsume plans now req) (work rt w.db rows (.preConsume plans now req))
  | .lockRecord plans now requestId => lockRefund w t plans now requestId
  | .lockRow plans now record =>
    lockAll w t (refundSelects w.db record) (.giveBack plans now record (refundSelects w.db record))
  | .giveBack plans now record rows =>
    w.finish t (.refund plans now record.requestId) (giveBack rt w.db plans now record rows)
  | .load x =>
    match w.db.subs.find (target x) with
    | none => some (w.conclude t x w.db)
    | some row =>
      match stores rt row x with
      | none => some (w.conclude t x w.db)
      | some _ => some (w, .store x row)
  | .store x seen =>
    match w.db.subs.find (target x), stores rt seen x with
    | some row, some f =>
      if w.free t (target x) then
        some (w.conclude t x { w.db with subs := w.db.subs.save (f row) })
      else none
    | _, _ => some (w.conclude t x w.db)

inductive Action
  | call (x : Writer)
  | next | fail

def perform (t : τ) (a : Action) (w : World τ) (stage : Stage) : Option (World τ × Stage) :=
  match a with
  | .call x =>
    if stage.isIdle then
      match begin rt x with
      | none => some (w.conclude t x w.db)
      | some stage => some (w, stage)
    else none
  | .next => next rt t w stage
  | .fail => if stage.isIdle then none else some (w.release t, .idle)

def step : Config (World τ) τ Stage → τ × Action → Option (Config (World τ) τ Stage) :=
  Config.step (perform rt)

def start (db : Db) : Config (World τ) τ Stage :=
  ⟨⟨db, fun _ ↦ none, fun _ ↦ none, []⟩, fun _ ↦ .idle⟩

end Moligate.Subscription.Writers
