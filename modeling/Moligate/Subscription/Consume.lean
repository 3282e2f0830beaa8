import Moligate.Subscription.Usage

namespace Moligate.Subscription

open Foundation Common

/-- A use of a subscription: which period counters the call has set to 0, and what it has then
charged to the primary quota. -/
structure Use where
  (subscriptionId time : ℤ)
  cleared : Period → Bool
  amount : ℤ

/-- The tables, the uses of the committed calls, latest first, and `taken`, by how much their
charges have moved the primary and grant counters. A call that fails is rolled back as a whole. -/
structure Db where
  subs : Table UserSubscription.id
  records : Table PreConsumeRecord.requestId
  history : List Use
  taken : ℤ

def Db.use (db : Db) (row : UserSubscription) (time : ℤ) (cleared : Period → Bool)
    (amount taken : ℤ) : Db where
  subs := db.subs.save row
  records := db.records
  history := ⟨row.id, time, cleared, amount⟩ :: db.history
  taken := db.taken + taken

abbrev Plans := ℤ → Option SubscriptionPlan

def getSubscriptionPlanById (plans : Plans) (id : ℤ) : Call SubscriptionError SubscriptionPlan :=
  if id ≤ 0 then .fail .invalidPlanId else .required .recordNotFound (plans id)

structure PreConsumeRequest where
  requestId : String
  userId : ℤ
  modelName : String
  amount : ℤ
  resource : Option ResourceRequest := none
  pricing : Option QuotaPricing := none
  effectiveGroups : List String := []

structure PreConsumeResult where
  userSubscriptionId : ℤ
  billingRatio : Float64
  (preConsumed amountTotal amountUsedBefore amountUsedAfter : ℤ)
  resourceKey : String := ""
  resourceType : Option ResourceType := none
  resourcePreConsumed : ℤ := 0
  resourceUsedAfter : ℤ := 0
  deriving DecidableEq

structure Entitlement where
  resourceKey : String
  resourceType : ResourceType
  amount : ℤ

variable (rt : Runtime) (plans : Plans) (now : ℤ)

def normalizeResource (r : ResourceRequest) : Entitlement where
  resourceKey := rt.trimSpace r.resourceKey
  resourceType := normalizeResourceType rt r.resourceType
  amount := r.amount

def checkRequest (req : PreConsumeRequest) (resource : Option Entitlement) :
    Call SubscriptionError Unit := do
  .check .invalidUserId (0 < req.userId)
  .check .requestIdEmpty (rt.trimSpace req.requestId ≠ "")
  .check .amountNotPositive (0 < req.amount)
  .check .amountExceedsLimit (req.amount ≤ maxQuota)
  .check .invalidResourceRequest (resource.all fun r ↦
    r.resourceKey ≠ "" && 0 < r.amount && r.amount ≤ maxQuota)

def replayRecord (db : Db) (record : PreConsumeRecord) :
    Call SubscriptionError PreConsumeResult := do
  .check .alreadyRefunded (record.status ≠ .refunded)
  let sub ← .required .recordNotFound (db.subs.find record.userSubscriptionId)
  let grant := sub.resourceGrants.find? fun g ↦
    g.resourceKey = record.resourceKey && some g.resourceType = record.resourceType
  pure
    { userSubscriptionId := sub.id
      billingRatio := sub.billingRatio
      preConsumed := record.preConsumed
      amountTotal := sub.amountTotal
      amountUsedBefore := sub.amountUsed
      amountUsedAfter := sub.amountUsed
      resourceKey := record.resourceKey
      resourceType := record.resourceType
      resourcePreConsumed := record.resourceAmount
      resourceUsedAfter :=
        if record.resourceKey ≠ "" then (grant.map ResourceGrant.used).getD 0 else 0 }

def validBillingRatio (ratio : Float64) : Bool :=
  !(ratio.le 0 || ratio.gt maxBillingRatio || ratio.isNaN || ratio.isInf)

def candidateAmount (req : PreConsumeRequest) (sub : UserSubscription) :
    Except SubscriptionError ℤ :=
  match req.pricing with
  | none => .ok req.amount
  | some pricing =>
    if pricing.baseQuotaBeforeGroup.gt 0 && sub.billingRatio.gt 0 && !sub.billingRatio.isNaN &&
        !sub.billingRatio.isInf then
      match quotaFromFloatStrict
        (.mul rt.roundFloat pricing.baseQuotaBeforeGroup sub.billingRatio) with
      | .error c => .error (.clamp c)
      | .ok quota => .ok (if quota ≤ 0 then 1 else quota)
    else if 0 < pricing.liveQuota then .ok pricing.liveQuota
    else .ok req.amount

def Entitlement.charge (r : Entitlement) (candidateAmount : ℤ) : ℤ :=
  if r.resourceType = .quota then candidateAmount else r.amount

inductive GrantChoice where
  | primary | exhausted
  | grant (index : ℕ) (charge : ℤ)
  deriving DecidableEq

/-- The first matching grant with capacity; a matching grant that is exhausted does not fall back
to the primary quota. -/
def chooseGrant (grants : List ResourceGrant) (modelName : String)
    (resource : Option Entitlement) (candidateAmount : ℤ) : GrantChoice :=
  match resource with
  | none => .primary
  | some r =>
    let isMatch (g : ResourceGrant) : Bool :=
      g.resourceType = r.resourceType && resourceMatches rt g r.resourceKey modelName
    match grants.findIdx? fun g ↦
      isMatch g && usageHasCapacity g.amount g.used (r.charge candidateAmount) with
    | some i => .grant i (r.charge candidateAmount)
    | none => if grants.any isMatch then .exhausted else .primary

def hasPrimaryCapacity (sub : UserSubscription) (amount : ℤ) : Bool :=
  let fits (q : PeriodQuota) : Bool := !(0 < q.amount) || usageHasCapacity q.amount q.used amount
  usageHasCapacity sub.amountTotal sub.amountUsed amount && fits sub.daily && fits sub.weekly &&
    fits sub.monthly

def chargePeriod (amount : ℤ) (q : PeriodQuota) : Except SubscriptionError PeriodQuota :=
  if 0 < q.amount then (applyUsageDelta q.used amount).map fun used ↦ { q with used } else .ok q

def chargePrimary (sub : UserSubscription) (amount : ℤ) :
    Call SubscriptionError UserSubscription := do
  let amountUsed ← .ofExcept (applyUsageDelta sub.amountUsed amount)
  let daily ← .ofExcept (chargePeriod amount sub.daily)
  let weekly ← .ofExcept (chargePeriod amount sub.weekly)
  let monthly ← .ofExcept (chargePeriod amount sub.monthly)
  pure { sub with amountUsed, daily, weekly, monthly }

def setGrantUsed (sub : UserSubscription) (index : ℕ) (used : ℤ) : UserSubscription :=
  { sub with resourceGrants := sub.resourceGrants.modify index fun g ↦ { g with used } }

/-- Creates the record, then charges and saves the row. A request id that is already taken
answers from the record that has it. -/
def commitReservation (db : Db) (r : ResetResult) (record : PreConsumeRecord)
    (charge : Call SubscriptionError UserSubscription) (primary : ℤ)
    (taken : UserSubscription → ℤ) (result : UserSubscription → PreConsumeResult) :
    Call SubscriptionError (Db × Option PreConsumeResult) :=
  match db.records.create record with
  | some records => do
      let sub ← charge
      pure ({ db with records }.use sub now r.cleared primary (taken sub), some (result sub))
  | none => do
      let db := db.use r.stored now r.cleared 0 0
      let taken ← .required .recordNotFound (db.records.find record.requestId)
      let answer ← replayRecord db taken
      pure (db, some answer)

/-- What happens to a candidate after its reset: it is passed over, or the request is charged to
one of its grants or to its primary quota. -/
def reserveCandidate (db : Db) (req : PreConsumeRequest) (resource : Option Entitlement)
    (r : ResetResult) (amount : ℤ) : Call SubscriptionError (Db × Option PreConsumeResult) :=
  let record : PreConsumeRecord :=
    { requestId := req.requestId
      userId := req.userId
      userSubscriptionId := r.sub.id
      preConsumed := amount
      resourceKey := ""
      resourceType := none
      resourceAmount := 0
      status := .consumed }
  let result : PreConsumeResult :=
    { userSubscriptionId := r.sub.id
      billingRatio := r.sub.billingRatio
      preConsumed := amount
      amountTotal := r.sub.amountTotal
      amountUsedBefore := r.sub.amountUsed
      amountUsedAfter := r.sub.amountUsed }
  match chooseGrant rt r.sub.resourceGrants req.modelName resource amount with
  | .exhausted => pure (db.use r.stored now r.cleared 0 0, none)
  | .grant index charge => do
      let grant ← .required .grantNotFound r.sub.resourceGrants[index]?
      let used ← .ofExcept (applyUsageDelta grant.used charge)
      let type := some grant.resourceType
      commitReservation now db r
        { record with
          resourceKey := grant.resourceKey, resourceType := type, resourceAmount := charge }
        (.ok (setGrantUsed r.sub index used)) 0 (fun _ ↦ used - grant.used) fun _ ↦
          { result with
            resourceKey := grant.resourceKey
            resourceType := type
            resourcePreConsumed := charge
            resourceUsedAfter := used }
  | .primary =>
    if modelMatches rt r.sub req.modelName && hasPrimaryCapacity r.sub amount then
      commitReservation now db r record (chargePrimary r.sub amount) amount
        (fun sub ↦ sub.amountUsed - r.sub.amountUsed) fun sub ↦
          { result with amountUsedAfter := sub.amountUsed }
    else pure (db.use r.stored now r.cleared 0 0, none)

def eligible (req : PreConsumeRequest) (c : UserSubscription) : Bool :=
  groupMatches rt c.applicableGroups (req.effectiveGroups.headD "") &&
    validBillingRatio c.billingRatio

def tryCandidate (db : Db) (req : PreConsumeRequest) (resource : Option Entitlement)
    (c : UserSubscription) : Call SubscriptionError (Db × Option PreConsumeResult) :=
  if eligible rt req c then do
    let plan ← getSubscriptionPlanById plans c.planId
    let r ← .ofOption (maybeResetUserSubscriptionWithPlan rt c plan now)
    let amount ← .ofExcept (candidateAmount rt req r.sub)
    reserveCandidate rt now db req resource r amount
  else pure (db, none)

def preConsumeLoop (req : PreConsumeRequest) (resource : Option Entitlement) :
    Db → List UserSubscription → Call SubscriptionError (Db × PreConsumeResult)
  | _, [] => .fail (.quotaInsufficient req.amount)
  | db, c :: cs => do
      let out ← tryCandidate rt plans now db req resource c
      match out.2 with
      | some result => pure (out.1, result)
      | none => preConsumeLoop req resource out.1 cs

def isCandidate (userId : ℤ) (s : UserSubscription) : Bool :=
  s.userId = userId && s.status = .active && now < s.endTime

def candidates (db : Db) (userId : ℤ) : List UserSubscription :=
  (db.subs.rows.filter (isCandidate now userId)).insertionSort fun a b ↦
    a.endTime < b.endTime ∨ a.endTime = b.endTime ∧ a.id ≤ b.id

def preConsumeUserSubscription (db : Db) (req : PreConsumeRequest) :
    Call SubscriptionError (Db × PreConsumeResult) := do
  let resource := req.resource.map (normalizeResource rt)
  checkRequest rt req resource
  match db.records.find req.requestId with
  | some existing => do
      let result ← replayRecord db existing
      pure (db, result)
  | none => do
      let subs := candidates now db req.userId
      .check .noActiveSubscription (!subs.isEmpty)
      preConsumeLoop rt plans now req resource db subs

end Moligate.Subscription
