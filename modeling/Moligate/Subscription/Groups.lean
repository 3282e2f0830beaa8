import Moligate.Subscription.Purchase

namespace Moligate.Subscription

open Foundation

structure GroupDb where
  subs : Table fun r : SubscriptionRow ↦ r.id
  groups : ℤ → String
  nextId : ℤ

def GroupDb.setGroup (db : GroupDb) (userId : ℤ) (group : String) : GroupDb :=
  { db with groups := Function.update db.groups userId group }

def upgrades (now userId : ℤ) (r : SubscriptionRow) : Bool :=
  r.userId = userId && r.status = .active && now < r.endTime && r.upgradeGroup ≠ ""

def later (a b : SubscriptionRow) : Prop :=
  b.endTime < a.endTime ∨ a.endTime = b.endTime ∧ b.id ≤ a.id

instance : DecidableRel later := fun a b ↦
  inferInstanceAs (Decidable (b.endTime < a.endTime ∨ a.endTime = b.endTime ∧ b.id ≤ a.id))

def latest (rows : List SubscriptionRow) : Option SubscriptionRow := (rows.insertionSort later).head?

section

variable (rt : Runtime) (now : ℤ)

def createUserSubscriptionFromPlan (db : GroupDb) (userId : ℤ) (plan : Plan) :
    Except PurchaseError GroupDb :=
  let count : ℤ := (db.subs.rows.filter fun r ↦ r.userId = userId && r.planId = plan.id).length
  if plan.id = 0 then .error .invalidPlan
  else if userId ≤ 0 then .error .invalidUserId
  else if 0 < plan.maxPurchasePerUser ∧ plan.maxPurchasePerUser ≤ count then .error .purchaseLimit
  else
    match newSubscription rt db.nextId now userId plan (db.groups userId) with
    | .error e => .error e
    | .ok row =>
      match db.subs.create row with
      | none => .error .duplicateKey
      | some subs =>
        let db := { db with subs, nextId := db.nextId + 1 }
        .ok (if row.upgradeGroup ≠ "" ∧ db.groups userId ≠ row.upgradeGroup then
          db.setGroup userId row.upgradeGroup else db)

def GroupDb.revert (db : GroupDb) (userId : ℤ) (target : String) : GroupDb :=
  if target = "" ∨ target = db.groups userId then db else db.setGroup userId target

def downgradeUserGroupForSubscription (db : GroupDb) (sub : SubscriptionRow) : GroupDb :=
  let downgradeGroup := rt.trimSpace sub.downgradeGroup
  let upgradeGroup := rt.trimSpace sub.upgradeGroup
  if downgradeGroup = "" ∧ upgradeGroup = "" then db
  else if db.subs.rows.any fun r ↦ upgrades now sub.userId r && r.id ≠ sub.id then db
  else if downgradeGroup ≠ "" then db.revert sub.userId downgradeGroup
  else if db.groups sub.userId ≠ upgradeGroup then db
  else db.revert sub.userId (rt.trimSpace sub.prevUserGroup)

inductive AdminError where
  | invalidUserSubscriptionId | recordNotFound
  deriving DecidableEq

def AdminError.message : AdminError → String
  | invalidUserSubscriptionId => "invalid userSubscriptionId"
  | recordNotFound => "record not found"

def cancelRow (id : ℤ) (r : SubscriptionRow) : SubscriptionRow :=
  if r.id = id then { r with status := .cancelled, endTime := now } else r

theorem cancelRow_id (now id : ℤ) (r : SubscriptionRow) : (cancelRow now id r).id = r.id := by
  rw [cancelRow]
  split <;> rfl

def GroupDb.cancel (db : GroupDb) (now id : ℤ) : GroupDb :=
  { db with subs := db.subs.update (cancelRow now id) (cancelRow_id now id) }

def adminInvalidateUserSubscription (db : GroupDb) (id : ℤ) : Except AdminError GroupDb :=
  if id ≤ 0 then .error .invalidUserSubscriptionId
  else
    match db.subs.find id with
    | none => .error .recordNotFound
    | some sub => .ok (downgradeUserGroupForSubscription rt now (db.cancel now id) sub)

def adminDeleteUserSubscription (db : GroupDb) (id : ℤ) : Except AdminError GroupDb :=
  if id ≤ 0 then .error .invalidUserSubscriptionId
  else
    match db.subs.find id with
    | none => .error .recordNotFound
    | some sub =>
      let db := downgradeUserGroupForSubscription rt now db sub
      .ok { db with subs := db.subs.remove id }

def isExpiring (r : SubscriptionRow) : Bool :=
  r.status = .active && 0 < r.endTime && r.endTime ≤ now

def expireRow (userId : ℤ) (r : SubscriptionRow) : SubscriptionRow :=
  if r.userId = userId ∧ isExpiring now r = true then { r with status := .expired } else r

theorem expireRow_id (now userId : ℤ) (r : SubscriptionRow) :
    (expireRow now userId r).id = r.id := by
  rw [expireRow]
  split <;> rfl

def GroupDb.expire (db : GroupDb) (now userId : ℤ) : GroupDb :=
  { db with subs := db.subs.update (expireRow now userId) (expireRow_id now userId) }

def revertExpired (db : GroupDb) (userId : ℤ) (last : SubscriptionRow) : GroupDb :=
  let downgradeGroup := rt.trimSpace last.downgradeGroup
  let upgradeGroup := rt.trimSpace last.upgradeGroup
  let prevGroup := rt.trimSpace last.prevUserGroup
  if downgradeGroup ≠ "" then db.revert userId downgradeGroup
  else if upgradeGroup = "" ∨ prevGroup = "" then db
  else if db.groups userId ≠ upgradeGroup then db
  else db.revert userId prevGroup

def expireUser (db : GroupDb) (userId : ℤ) : GroupDb :=
  let db := db.expire now userId
  if db.subs.rows.any (upgrades now userId) then db
  else
    match latest (db.subs.rows.filter fun r ↦ r.userId = userId && r.status = .expired &&
      (r.downgradeGroup ≠ "" || r.upgradeGroup ≠ "")) with
    | none => db
    | some last => revertExpired rt db userId last

/-- The transactions of the users of the due subscriptions, at most `limit` of them in the order
`end_time asc, id asc`; the users come in any order, and here in the order of their rows. -/
def expireDueSubscriptions (db : GroupDb) (limit : ℤ) : GroupDb :=
  let limit := if limit ≤ 0 then 200 else limit
  let subs := ((db.subs.rows.filter (isExpiring now)).insertionSort fun a b ↦
    a.endTime < b.endTime ∨ a.endTime = b.endTime ∧ a.id ≤ b.id).take limit.toNat
  (firstOfEach id ((subs.map fun r ↦ r.userId).filter (0 < ·))).foldl (expireUser rt now) db

end

inductive GroupOp where
  | purchase (userId : ℤ) (plan : Plan)
  | invalidate (userSubscriptionId : ℤ)
  | delete (userSubscriptionId : ℤ)
  | expire (limit : ℤ)

structure GroupWorld where
  clock : ℤ
  db : GroupDb

def performGroupOp (rt : Runtime) (now : ℤ) (db : GroupDb) : GroupOp → GroupDb
  | .purchase userId plan => (createUserSubscriptionFromPlan rt now db userId plan).toOption.getD db
  | .invalidate id => (adminInvalidateUserSubscription rt now db id).toOption.getD db
  | .delete id => (adminDeleteUserSubscription rt now db id).toOption.getD db
  | .expire limit => expireDueSubscriptions rt now db limit

def groupStep (rt : Runtime) (w : GroupWorld) (call : ℤ × GroupOp) : Option GroupWorld :=
  if w.clock ≤ call.1 then some ⟨call.1, performGroupOp rt call.1 w.db call.2⟩ else none

end Moligate.Subscription
