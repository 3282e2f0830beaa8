import Moligate.Foundation.Threads
import Moligate.Subscription.Requests.Shifts

namespace Moligate.Subscription.Requests

open Foundation Common

/-- A pre-consumption with the time and the plans that it sees; `late` says whether the reservation
had been refunded when the call began. -/
structure PreConsume where
  request : PreConsumeRequest
  plans : Plans
  now : ℤ
  late : Bool

structure Refund where
  plans : Plans
  now : ℤ

inductive Stage where
  | idle
  | findRecord (call : PreConsume)
  | findSubscription (call : PreConsume) (existing : PreConsumeRecord)
  | lockSubscriptions (call : PreConsume)
  | createRecord (call : PreConsume) (subs : List UserSubscription)
  | commit (call : PreConsume) (subs : List UserSubscription)
  | lockRecord (call : Refund)
  | giveBack (call : Refund) (record : PreConsumeRecord)

def Stage.isIdle : Stage → Bool
  | idle => true
  | _ => false

structure Commit where
  (before after : Db)
  plans : Plans
  now : ℤ

structure Served extends Commit where
  result : PreConsumeResult
  late : Bool

/-- The committed tables, the rows that transactions have locked, and the transaction that has
locked the record of the request or inserted it without having committed yet. `lastId` is the last
subscription id that was given out, `served` and `refunds` are the transactions that committed for
the request. -/
structure World (π : Type) where
  db : Db
  lastId : ℤ
  rowLocks : ℤ → Option π
  recordLock : Option π
  served : List Served
  refunds : List Commit

section

variable {π : Type} [DecidableEq π] (rt : Runtime) (requestId : String)

def World.free (w : World π) (p : π) (i : ℤ) : Bool := (w.rowLocks i).all (· = p)

def World.release (w : World π) (p : π) : World π :=
  { w with
    rowLocks := fun i ↦ if w.rowLocks i = some p then none else w.rowLocks i
    recordLock := if w.recordLock = some p then none else w.recordLock }

def abort (w : World π) (p : π) : World π × Stage := (w.release p, .idle)

def serve (w : World π) (p : π) (call : PreConsume) (out : Db × PreConsumeResult) :
    World π × Stage :=
  ({ w.release p with
      db := out.1
      served := ⟨⟨w.db, out.1, call.plans, call.now⟩, out.2, call.late⟩ :: w.served }, .idle)

def finishRefund (w : World π) (p : π) (call : Refund) (db : Db) : World π × Stage :=
  ({ w.release p with
      db, refunds := ⟨w.db, db, call.plans, call.now⟩ :: w.refunds }, .idle)

def reserve (w : World π) (call : PreConsume) (subs : List UserSubscription) :
    Call SubscriptionError (Db × PreConsumeResult) :=
  preConsumeLoop rt call.plans call.now call.request
    (call.request.resource.map (normalizeResource rt)) w.db subs

def findRecord (w : World π) (p : π) (call : PreConsume) : World π × Stage :=
  match w.db.records.find requestId with
  | none => (w, .lockSubscriptions call)
  | some existing =>
    if existing.status = .refunded then abort w p else (w, .findSubscription call existing)

def findSubscription (w : World π) (p : π) (call : PreConsume) (existing : PreConsumeRecord) :
    World π × Stage :=
  match replayRecord w.db existing with
  | .ok result => serve w p call (w.db, result)
  | _ => abort w p

def lockSubscriptions (w : World π) (p : π) (call : PreConsume) : Option (World π × Stage) :=
  let subs := candidates call.now w.db call.request.userId
  if subs.isEmpty then some (abort w p)
  else if subs.all fun s ↦ w.free p s.id then
    some ({ w with
      rowLocks := fun i ↦ if i ∈ subs.map UserSubscription.id then some p else w.rowLocks i },
      .createRecord call subs)
  else none

def finishReserve (w : World π) (p : π) (call : PreConsume) (subs : List UserSubscription) :
    Option (World π × Stage) :=
  match reserve rt w call subs with
  | .ok out => some (serve w p call out)
  | .fail _ => some (abort w p)
  | .diverges => none

/-- The insert into the unique index: a committed record is found as a duplicate, and an insert that
another transaction has not committed yet is waited for. -/
def createRecord (w : World π) (p : π) (call : PreConsume) (subs : List UserSubscription) :
    Option (World π × Stage) :=
  if (w.db.records.find requestId).isSome then finishReserve rt w p call subs
  else if w.recordLock.all (· = p) then
    match reserve rt w call subs with
    | .ok _ => some ({ w with recordLock := some p }, .commit call subs)
    | .fail _ => some (abort w p)
    | .diverges => none
  else none

def lockRecord (w : World π) (p : π) (call : Refund) : Option (World π × Stage) :=
  match w.db.records.find requestId with
  | none => some (abort w p)
  | some record =>
    if w.recordLock.all (· = p) then
      if record.status = .refunded then some (finishRefund w p call w.db)
      else some ({ w with recordLock := some p }, .giveBack call record)
    else none

def giveBack (w : World π) (p : π) (call : Refund) (record : PreConsumeRecord) :
    Option (World π × Stage) :=
  if w.free p record.userSubscriptionId then
    match refundRecord rt call.plans call.now w.db record with
    | .ok db => some (finishRefund w p call
        { db with records := db.records.save { record with status := .refunded } })
    | .fail _ => some (abort w p)
    | .diverges => none
  else none

def next (w : World π) (p : π) : Stage → Option (World π × Stage)
  | .idle => none
  | .findRecord call => some (findRecord requestId w p call)
  | .findSubscription call existing => some (findSubscription w p call existing)
  | .lockSubscriptions call => lockSubscriptions w p call
  | .createRecord call subs => createRecord rt requestId w p call subs
  | .commit call subs => finishReserve rt w p call subs
  | .lockRecord call => lockRecord requestId w p call
  | .giveBack call record => giveBack rt w p call record

instance (s : UserSubscription) : Decidable (GrantsWellFormed rt s) :=
  decidable_of_iff ((∀ id ∈ s.resourceGrants.map ResourceGrant.identity,
      rt.trimSpace (rt.toLower id.2) = id.2 ∧ rt.trimSpace id.2 ≠ "" ∧ id.2 ≠ "") ∧
      (s.resourceGrants.map ResourceGrant.identity).Nodup)
    ⟨fun h ↦ ⟨h.1, h.2⟩, fun h ↦ ⟨h.normalized, h.nodup⟩⟩

/-- What the transactions of other requests can make of the tables: they leave the record of this
request and the locked rows alone, a subscription keeps its grants, and a new one has a new id and
grants as a purchase leaves them. -/
def othersMay (w : World π) (db : Db) (lastId : ℤ) : Bool :=
  decide (db.records.find requestId = w.db.records.find requestId) && decide (w.lastId ≤ lastId) &&
    (db.subs.rows.all fun row ↦ decide (row.id ≤ lastId) && decide (GrantsWellFormed rt row) &&
      match w.db.subs.find row.id with
      | some old => decide (names row = names old)
      | none => decide (w.lastId < row.id)) &&
    w.db.subs.rows.all fun row ↦
      (w.rowLocks row.id).isNone || decide (db.subs.find row.id = some row)

inductive Action where
  | preConsume (request : PreConsumeRequest) (plans : Plans) (now : ℤ)
  | refund (plans : Plans) (now : ℤ)
  | next (fails : Bool)
  | others (db : Db) (lastId : ℤ)

def World.isRefunded (w : World π) : Bool :=
  (w.db.records.find requestId).any (·.status = .refunded)

def perform (p : π) (a : Action) (w : World π) (stage : Stage) : Option (World π × Stage) :=
  match a with
  | .preConsume request plans now =>
    if stage.isIdle && decide (request.requestId = requestId) then
      match checkRequest rt request (request.resource.map (normalizeResource rt)) with
      | .ok _ => some (w, .findRecord ⟨request, plans, now, w.isRefunded requestId⟩)
      | _ => some (w, .idle)
    else none
  | .refund plans now =>
    if stage.isIdle then
      some (w, if rt.trimSpace requestId = "" then .idle else .lockRecord ⟨plans, now⟩)
    else none
  | .next fails =>
    if fails && !stage.isIdle then some (abort w p) else next rt requestId w p stage
  | .others db lastId =>
    if othersMay rt requestId w db lastId then some ({ w with db, lastId }, stage) else none

def System.step : Config (World π) π Stage → π × Action → Option (Config (World π) π Stage) :=
  Config.step (perform rt requestId)

end

def start {π : Type} (db : Db) (lastId : ℤ) : Config (World π) π Stage :=
  ⟨⟨db, lastId, fun _ ↦ none, none, [], []⟩, fun _ ↦ .idle⟩

end Moligate.Subscription.Requests
