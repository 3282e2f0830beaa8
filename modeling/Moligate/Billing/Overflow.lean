import Moligate.Billing.Opening

namespace Moligate.Billing

open Foundation Common Subscription Session

section

variable {rt : Runtime} {env : Env} {acc acc' : Accounts} {s s' : Session} {f : SubscriptionFunding}
  {e : BillingError} {formatG : Float64 → String} {quota : ℤ}

variable {out : Accounts × Except BillingError Session}

/-- What the opening of a session that is to be charged to a subscription gives: such a session, or
an error, and one that reports too little quota leaves the subscriptions alone. -/
def Attempted (formatG : Float64 → String) (db : Db) (out : Accounts × Except BillingError Session) :
    Prop :=
  match out.2 with
  | .ok s => ∃ f, s.funding = .subscription f
  | .error e => e.code formatG = .insufficientUserQuota → out.1.db = db

theorem reconcile_attempted {db : Db}
    (h : s.reconcile rt env acc f quota = some out) : Attempted formatG db out := by
  have herror {s : Session} {e : BillingError} (he : e.code formatG ≠ .insufficientUserQuota)
      (h : s.abandon rt env acc f e = some out) : Attempted formatG db out := by
    obtain ⟨db, -, rfl⟩ := Option.map_eq_some_iff.1 h
    exact fun hcode ↦ absurd hcode he
  simp only [reconcile] at h
  split_ifs at h
  · exact herror (by simp [BillingError.code]) h
  · cases h
    exact ⟨f, rfl⟩
  · split at h
    next e he =>
      refine herror ?_ h
      rw [preConsumeTokenQuota] at he
      split_ifs at he <;> obtain rfl := Except.error.inj he <;> simp [BillingError.code]
    · cases h
      exact ⟨f, rfl⟩
  · cases h
    exact ⟨f, rfl⟩

theorem preConsumeFunding_attempted (hf : s.funding = .subscription f)
    (h : s.preConsumeFunding rt env acc quota = some out) : Attempted formatG acc.db out := by
  simp only [preConsumeFunding, hf] at h
  split at h
  · cases h
  · cases h
    intro _
    rw [increaseTokenQuota]
    split_ifs <;> rfl
  · exact reconcile_attempted h

theorem preConsume_attempted (hf : s.funding = .subscription f)
    (h : s.preConsume rt env acc quota = some out) : Attempted formatG acc.db out := by
  simp only [preConsume] at h
  generalize (if s.shouldTrust = true then 0 else quota) = effectiveQuota at h
  split at h
  · split at h
    · cases h
      exact fun _ ↦ rfl
    next acc₁ hacc =>
      have hdb : acc₁.db = acc.db := by
        rw [preConsumeTokenQuota] at hacc
        split_ifs at hacc <;> obtain rfl := Except.ok.inj hacc <;> rfl
      rw [← hdb]
      exact preConsumeFunding_attempted (by exact hf) h
  · exact preConsumeFunding_attempted (by exact hf) h

variable {o : Opening} {req : RelayRequest} {overflow : ℤ → Bool} {db : Db} {sub : UserSubscription}

/-- The subscription includes the model: by its models or its family, or by a grant that the model
or the resource of the request names, whether something is left of it or not. -/
def includesModel (rt : Runtime) (req : RelayRequest) (sub : UserSubscription) : Bool :=
  modelMatches rt sub req.originModelName || sub.resourceGrants.any fun g ↦
    resourceMatches rt g req.originModelName req.originModelName ||
      ((subscriptionResourceRequest rt req 1).map (normalizeResource rt)).any fun r ↦
        g.resourceType = r.resourceType && resourceMatches rt g r.resourceKey req.originModelName

structure Blocks (rt : Runtime) (o : Opening) (req : RelayRequest) (overflow : ℤ → Bool) (db : Db)
    (sub : UserSubscription) : Prop where
  mem : sub ∈ db.subs.rows
  user : sub.userId = req.userId
  active : sub.status = .active
  unexpired : o.existence.now < sub.endTime ∧ o.overflow.now < sub.endTime
  group : groupMatches rt sub.applicableGroups req.usingGroup = true
  includes : includesModel rt req sub = true
  overflow : overflow sub.id = false

def serves (rt : Runtime) (req : RelayRequest) (sub : UserSubscription) : Bool :=
  rt.trimSpace req.originModelName = "" || canServeModel rt sub req.originModelName

section

variable (h : Blocks rt o req overflow db sub) (hserves : serves rt req sub = true)
include h hserves

theorem Blocks.isOffered : isOffered rt req.originModelName req.usingGroup sub = true := by
  rw [Billing.isOffered, h.group, Bool.true_and]
  exact hserves

theorem Blocks.exists :
    hasActiveUserSubscriptionForModel rt o.existence db req.userId req.originModelName
      req.usingGroup ≠ some false := by
  rw [hasActiveUserSubscriptionForModel]
  split_ifs
  · simp
  · have hany : (db.subs.rows.filter (isCandidate o.existence.now req.userId)).any
        (Billing.isOffered rt req.originModelName req.usingGroup) = true := by
      refine List.any_eq_true.2 ⟨sub, List.mem_filter.2 ⟨h.mem, ?_⟩, h.isOffered hserves⟩
      simp [isCandidate, h.user, h.active, h.unexpired.1]
    rw [hany]
    simp

theorem Blocks.overflow_ne :
    userActiveSubscriptionsAllowWalletOverflowForModel rt o.overflow db overflow req.userId
      req.originModelName req.usingGroup ≠ some true := by
  rw [userActiveSubscriptionsAllowWalletOverflowForModel]
  split_ifs
  · simp
  · have hany : (db.subs.rows.filter fun sub ↦ isCandidate o.overflow.now req.userId sub &&
        !overflow sub.id).any (Billing.isOffered rt req.originModelName req.usingGroup) = true := by
      refine List.any_eq_true.2 ⟨sub, List.mem_filter.2 ⟨h.mem, ?_⟩, h.isOffered hserves⟩
      simp [isCandidate, h.user, h.active, h.unexpired.2, h.overflow]
    rw [hany]
    simp

end

instance : Decidable (Blocks rt o req overflow db sub) :=
  decidable_of_iff (sub ∈ db.subs.rows ∧ sub.userId = req.userId ∧ sub.status = .active ∧
      (o.existence.now < sub.endTime ∧ o.overflow.now < sub.endTime) ∧
      groupMatches rt sub.applicableGroups req.usingGroup = true ∧
      includesModel rt req sub = true ∧ overflow sub.id = false)
    ⟨fun ⟨h₁, h₂, h₃, h₄, h₅, h₆, h₇⟩ ↦ ⟨h₁, h₂, h₃, h₄, h₅, h₆, h₇⟩,
      fun h ↦ ⟨h.mem, h.user, h.active, h.unexpired, h.group, h.includes, h.overflow⟩⟩

end

inductive Payer where
  | wallet | subscription
  deriving DecidableEq

def Session.payer (s : Session) : Payer :=
  match s.funding with
  | .wallet _ => .wallet
  | .subscription _ => .subscription

def opened (out : Option (Accounts × Except ApiError Session)) : Option Session :=
  out.bind fun out ↦ out.2.toOption

theorem opened_eq_some {out : Option (Accounts × Except ApiError Session)} {s : Session}
    (h : opened out = some s) : ∃ acc', out = some (acc', .ok s) := by
  obtain ⟨⟨acc', r⟩, rfl, hr⟩ := Option.bind_eq_some_iff.1 h
  cases r with
  | error e => cases hr
  | ok s' => exact ⟨acc', by rw [← Option.some.inj hr]⟩

namespace OverflowExample

def runtime : Runtime := ⟨0, .finite, id, id⟩

def package (key : String) (used : ℤ) : UserSubscription where
  id := 1
  userId := 7
  planId := 3
  amountTotal := 1000
  amountUsed := 0
  daily := {}
  weekly := {}
  monthly := {}
  periodResetAnchorVersion := 1
  startTime := 0
  endTime := 100000
  status := .active
  lastResetTime := 0
  nextResetTime := 0
  applicableGroups := []
  modelFamily := "claude"
  includedModels := []
  billingRatio := .finite 1
  resourceGrants := [⟨key, .imageCount, key, 10, used⟩]

def accounts (sub : UserSubscription) : Accounts :=
  ⟨5000, 5000, ⟨⟨[sub], List.nodup_singleton _⟩, ∅, [], 0⟩⟩

def env : Env := { first := ⟨1000, fun id ↦ some ⟨id, "never", 0⟩⟩, second := ⟨1000, fun _ ↦ none⟩ }

def opening : Opening where
  firstQuote := ⟨1000, false⟩
  existence := ⟨1000, false⟩
  secondQuote := ⟨1000, false⟩
  subscription := env
  overflow := ⟨1000, false⟩
  userQuota := some 5000
  wallet := env
  liveGroupRatio := .finite 1

def request (model : String) : RelayRequest where
  info := ⟨false, true, true, 5000, 5000, 0, none, none⟩
  requestId := "r"
  userId := 7
  originModelName := model
  usingGroup := "default"
  billingPreference := "subscription_first"
  baseQuotaBeforeGroup := .finite 40
  groupRatio := .finite 1
  imageCount := none

end OverflowExample

open OverflowExample

end Moligate.Billing
