import Moligate.Subscription.Consume

namespace Moligate.Subscription

open Foundation Common

section

variable (rt : Runtime) (plans : Plans) (now : ℤ)

/-- The reset that comes before a settlement; it is skipped without a plan. -/
def resetBeforeSettle (sub : UserSubscription) : Call SubscriptionError ResetResult :=
  match if 0 < sub.planId then plans sub.planId else none with
  | some plan => .ofOption (maybeResetUserSubscriptionWithPlan rt sub plan now)
  | none => .ok ⟨sub, sub, fun _ ↦ false⟩

def postConsumeDeltaTx (db : Db) (userSubscriptionId delta : ℤ) : Call SubscriptionError Db := do
  let row ← .required .recordNotFound (db.subs.find userSubscriptionId)
  let r ← resetBeforeSettle rt plans now row
  let sub ← applySubscriptionQuotaDelta r.sub delta
  pure (db.use sub now r.cleared delta (sub.amountUsed - r.sub.amountUsed))

def postConsumeUserSubscriptionDelta (db : Db) (userSubscriptionId delta : ℤ) :
    Call SubscriptionError Db :=
  if userSubscriptionId ≤ 0 then .fail .invalidUserSubscriptionId
  else if delta = 0 then .ok db
  else postConsumeDeltaTx rt plans now db userSubscriptionId delta

def postConsumeResourceDeltaTx (db : Db) (userSubscriptionId : ℤ) (resourceKey : String)
    (resourceType : ResourceType) (delta : ℤ) : Call SubscriptionError Db := do
  let sub ← .required .recordNotFound (db.subs.find userSubscriptionId)
  let key := rt.trimSpace (rt.toLower resourceKey)
  let index ← .required .grantNotFound (sub.resourceGrants.findIdx? fun g ↦
    g.resourceType = resourceType && g.resourceKey = key)
  let grant ← .required .grantNotFound sub.resourceGrants[index]?
  let used ← .ofExcept ((applyUsageDelta grant.used delta).mapError .resourceUpdateFailed)
  .check (.resourceExceedsGrant used grant.amount)
    (!(0 < delta && 0 < grant.amount && grant.amount < used))
  pure
    { db with
      subs := db.subs.save (setGrantUsed sub index used)
      taken := db.taken + (used - grant.used) }

def postConsumeGrantDelta (db : Db) (userSubscriptionId : ℤ) (resourceKey : String)
    (type : ResourceType) (delta : ℤ) : Call SubscriptionError Db :=
  if userSubscriptionId ≤ 0 then .fail .invalidUserSubscriptionId
  else if rt.trimSpace resourceKey = "" then .fail .resourceKeyEmpty
  else if delta = 0 then .ok db
  else if type = .imageCount ∧ 0 < delta then .fail .imageCountAtPreConsume
  else postConsumeResourceDeltaTx rt db userSubscriptionId resourceKey type delta

def postConsumeUserSubscriptionResourceDelta (db : Db) (userSubscriptionId : ℤ)
    (resourceKey resourceType : String) (delta : ℤ) : Call SubscriptionError Db :=
  postConsumeGrantDelta rt db userSubscriptionId resourceKey
    (normalizeResourceType rt resourceType) delta

def grantShare (grant : ResourceGrant) (resourceDelta : ℤ) : ℤ :=
  if 0 < resourceDelta ∧ 0 < grant.amount then
    min resourceDelta (if grant.used < grant.amount then grant.amount - grant.used else 0)
  else resourceDelta

def chargeOverage (sub : UserSubscription) (overage quotaPerImage : ℤ) :
    Call SubscriptionError (UserSubscription × ℤ) :=
  if overage ≤ 0 then .ok (sub, 0)
  else if quotaPerImage ≤ 0 ∨ maxQuota / quotaPerImage < overage then
    .fail (.imageOverageUnsettled overage)
  else
    match applySubscriptionQuotaDelta sub (quotaPerImage * overage) with
    | .diverges => .diverges
    | .fail e => .fail (.imageOverageRejected e)
    | .ok sub => .ok (sub, quotaPerImage * overage)

def settleImageResourceDeltaTx (db : Db) (userSubscriptionId : ℤ) (resourceKey : String)
    (resourceDelta quotaPerImage : ℤ) : Call SubscriptionError (Db × ℤ) := do
  let row ← .required .recordNotFound (db.subs.find userSubscriptionId)
  let r ← resetBeforeSettle rt plans now row
  let key := rt.trimSpace (rt.toLower resourceKey)
  let index ← .required .imageGrantNotFound (r.sub.resourceGrants.findIdx? fun g ↦
    g.resourceType = .imageCount && g.resourceKey = key)
  let grant ← .required .imageGrantNotFound r.sub.resourceGrants[index]?
  let share := grantShare grant resourceDelta
  let used ← .ofExcept ((applyUsageDelta grant.used share).mapError .imageUpdateFailed)
  let out ← chargeOverage (setGrantUsed r.sub index used) (resourceDelta - share) quotaPerImage
  let taken := used - grant.used + (out.1.amountUsed - r.sub.amountUsed)
  pure (db.use out.1 now r.cleared out.2 taken, out.2)

def settleUserSubscriptionImageResourceDeltaWithQuota (db : Db) (userSubscriptionId : ℤ)
    (resourceKey : String) (resourceDelta quotaPerImage : ℤ) : Call SubscriptionError (Db × ℤ) :=
  if userSubscriptionId ≤ 0 then .fail .invalidUserSubscriptionId
  else if rt.trimSpace resourceKey = "" then .fail .resourceKeyEmpty
  else if resourceDelta = minInt64 ∨ maxQuota < resourceDelta ∨ resourceDelta < -maxQuota then
    .fail .imageDeltaExceedsLimit
  else if quotaPerImage < 0 ∨ maxQuota < quotaPerImage then .fail .imageUnitExceedsLimit
  else if resourceDelta = 0 then .ok (db, 0)
  else settleImageResourceDeltaTx rt plans now db userSubscriptionId resourceKey resourceDelta
    quotaPerImage

def PreConsumeRecord.grantType (record : PreConsumeRecord) : ResourceType :=
  record.resourceType.getD .quota

/-- Gives back what a record holds: its grant charge if it has one, otherwise its primary charge. -/
def refundRecord (db : Db) (record : PreConsumeRecord) : Call SubscriptionError Db :=
  if record.preConsumed ≤ 0 then
    if record.resourceAmount ≤ 0 then .ok db
    else postConsumeResourceDeltaTx rt db record.userSubscriptionId record.resourceKey
      record.grantType (-record.resourceAmount)
  else if record.resourceKey ≠ "" ∧ 0 < record.resourceAmount then
    postConsumeResourceDeltaTx rt db record.userSubscriptionId record.resourceKey
      record.grantType (-record.resourceAmount)
  else postConsumeDeltaTx rt plans now db record.userSubscriptionId (-record.preConsumed)

def refundSubscriptionPreConsume (db : Db) (requestId : String) : Call SubscriptionError Db := do
  .check .requestIdEmpty (rt.trimSpace requestId ≠ "")
  let record ← .required .recordNotFound (db.records.find requestId)
  if record.status = .refunded then pure db
  else do
    let db ← refundRecord rt plans now db record
    pure { db with records := db.records.save { record with status := .refunded } }

def isDue (s : UserSubscription) : Bool :=
  let due (resetTime : ℤ) : Bool := 0 < resetTime && resetTime ≤ now
  s.status = .active && (due s.nextResetTime || due s.daily.resetTime || due s.weekly.resetTime ||
    due s.monthly.resetTime)

/-- The transactions of a sweep, one for each subscription that was found due; each reads its row
again and leaves it alone when it is not due any more. -/
def resetDueLoop : Db → List UserSubscription → Call SubscriptionError (Db × ℕ)
  | db, [] => .ok (db, 0)
  | db, s :: rest =>
    match if 0 < s.planId then plans s.planId else none with
    | none => resetDueLoop db rest
    | some plan =>
      match (db.subs.find s.id).filter (isDue now) with
      | none => resetDueLoop db rest
      | some row => do
          let r ← .ofOption (maybeResetUserSubscriptionWithPlan rt row plan now)
          let out ← resetDueLoop (db.use r.stored now r.cleared 0 0) rest
          pure (out.1, out.2 + 1)

def resetDueSubscriptions (db : Db) (limit : ℤ) : Call SubscriptionError (Db × ℕ) :=
  let limit := if limit ≤ 0 then 200 else limit
  resetDueLoop rt plans now db
    (((db.subs.rows.filter (isDue now)).insertionSort fun a b ↦ a.id ≤ b.id).take limit.toNat)

end

inductive Op where
  | preConsume (req : PreConsumeRequest)
  | postConsume (userSubscriptionId delta : ℤ)
  | postConsumeResource (userSubscriptionId : ℤ) (resourceKey resourceType : String) (delta : ℤ)
  | refund (requestId : String)
  | resetDue (limit : ℤ)

structure Request where
  now : ℤ
  plans : Plans
  op : Op

def performOp (rt : Runtime) (db : Db) (r : Request) : Call SubscriptionError Db :=
  match r.op with
  | .preConsume req => do
      let out ← preConsumeUserSubscription rt r.plans r.now db req
      pure out.1
  | .postConsume id delta => postConsumeUserSubscriptionDelta rt r.plans r.now db id delta
  | .postConsumeResource id key type delta =>
    postConsumeUserSubscriptionResourceDelta rt db id key type delta
  | .refund requestId => refundSubscriptionPreConsume rt r.plans r.now db requestId
  | .resetDue limit => do
      let out ← resetDueSubscriptions rt r.plans r.now db limit
      pure out.1

/-- The rows whose reset time a call looks at: the selections of the code that come before its
reset. -/
def resetsRow (rt : Runtime) (db : Db) (r : Request) (row : UserSubscription) : Bool :=
  match r.op with
  | .preConsume req => isCandidate r.now req.userId row && eligible rt req row
  | .postConsume id _ => id = row.id
  | .postConsumeResource .. => false
  | .refund requestId => (db.records.find requestId).any (·.userSubscriptionId = row.id)
  | .resetDue _ => isDue r.now row

structure World where
  clock : ℤ
  db : Db

def step (rt : Runtime) (w : World) (r : Request) : Option World :=
  if w.clock ≤ r.now then
    match performOp rt w.db r with
    | .diverges => none
    | .fail _ => some { w with clock := r.now }
    | .ok db => some ⟨r.now, db⟩
  else none

end Moligate.Subscription
