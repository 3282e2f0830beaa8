import Moligate.Subscription.Buckets

namespace Moligate.Subscription

open Foundation Common Call UserSubscription

inductive Counter where
  | total
  | period (p : Period)
  deriving DecidableEq, Repr

def UserSubscription.counter (s : UserSubscription) : Counter → ℤ
  | .total => s.amountUsed
  | .period p => (s.period p).used

def UserSubscription.counts (s : UserSubscription) : Counter → Bool
  | .total => true
  | .period p => 0 < (s.period p).amount

section

variable (rt : Runtime)

def counterDue (plans : Plans) (now : ℤ) (row : UserSubscription) (x : Counter) : Bool :=
  match if 0 < row.planId then plans row.planId else none with
  | none => false
  | some plan =>
    let sub := migrateUserSubscriptionResetAnchor rt row (some plan) now
    match x with
    | .total => primaryDue rt sub plan now
    | .period p =>
      let resetTime := startingReset rt sub.startTime sub.endTime p (sub.period p)
      0 < resetTime && resetTime ≤ now

def UserSubscription.limit (s : UserSubscription) : Counter → ℤ
  | .total => s.amountTotal
  | .period p => (s.period p).amount

def resetUserSubscription (sub : UserSubscription) (plan : SubscriptionPlan) (now : ℤ)
    (advanceResetTime : Bool) : UserSubscription :=
  let cleared :=
    { sub.mapPeriods fun _ q ↦ { q with used := 0 } with
      amountUsed := 0
      resourceGrants := sub.resourceGrants.map fun g ↦ { g with used := 0 } }
  if advanceResetTime then
    let nextReset := calcNextResetTime rt now now plan sub.endTime
    { cleared.mapPeriods fun p q ↦
        { q with
          resetTime :=
            if 0 < q.amount then calcNextAnchoredPeriodReset rt now now p sub.endTime else 0 } with
      nextResetTime := nextReset
      lastResetTime := if 0 < nextReset then now else 0
      periodResetAnchorVersion := periodResetAnchorVersion }
  else cleared

inductive AdminResetError where
  | invalidUserIdOrPlanId | invalidPlanId | noActiveSubscription
  | plan (e : SubscriptionError)
  deriving DecidableEq

def AdminResetError.message (formatG : Float64 → String) : AdminResetError → String
  | invalidUserIdOrPlanId => "invalid userId or planId"
  | invalidPlanId => "invalid planId"
  | noActiveSubscription => "该用户没有有效的此套餐订阅"
  | plan e => e.message formatG

def resetAll (plan : SubscriptionPlan) (now : ℤ) (advanceResetTime : Bool) (db : Db)
    (subs : List UserSubscription) : Db :=
  subs.foldl (fun db sub ↦
    db.use (resetUserSubscription rt sub plan now advanceResetTime) now (fun _ ↦ true) 0 0) db

def adminResetUserSubscriptionsByPlan (plans : Plans) (now : ℤ) (db : Db) (userId planId : ℤ)
    (advanceResetTime : Bool) : Call AdminResetError Db := do
  .check .invalidUserIdOrPlanId (0 < userId && 0 < planId)
  let plan ← (getSubscriptionPlanById plans planId).mapFail .plan
  let subs := (candidates now db userId).filter fun s ↦ s.planId = plan.id
  .check .noActiveSubscription (!subs.isEmpty)
  pure (resetAll rt plan now advanceResetTime db subs)

def adminResetPlanSubscriptions (plans : Plans) (now : ℤ) (db : Db) (planId : ℤ)
    (advanceResetTime : Bool) : Call AdminResetError Db := do
  .check .invalidPlanId (0 < planId)
  let plan ← (getSubscriptionPlanById plans planId).mapFail .plan
  let subs := (db.subs.rows.filter fun s ↦
    s.planId = plan.id && s.status = .active && now < s.endTime).insertionSort fun a b ↦
      a.userId < b.userId ∨ a.userId = b.userId ∧
        (a.endTime < b.endTime ∨ a.endTime = b.endTime ∧ a.id ≤ b.id)
  pure (resetAll rt plan now advanceResetTime db subs)

end

def Tally (used amount used' : ℤ) : Prop :=
  used ≤ maxInt64 → 0 ≤ used + amount → used' = used + amount ∧ used' ≤ maxInt64

variable {rt : Runtime} {plans : Plans} {now used amount used' delta : ℤ}
  {row row' s s' : UserSubscription} {plan : SubscriptionPlan} {r : ResetResult}
  {x : Counter} {p : Period} {q q' : PeriodQuota} {c : Bool}

theorem Tally.of_eq (h : used' = used) : Tally used 0 used' := fun hmax _ ↦ by omega

theorem Tally.of_delta (h : applyUsageDelta used amount = .ok used') : Tally used amount used' :=
  fun hmax hsum ↦ applyUsageDelta_exact hmax hsum h

theorem resetBeforeSettle_grants (hdue : counterDue rt plans now row .total = false)
    (h : resetBeforeSettle rt plans now row = .ok r) :
    r.sub.resourceGrants = row.resourceGrants := by
  rw [resetBeforeSettle] at h
  split at h
  next plan hplan =>
    simp only [counterDue, hplan] at hdue
    obtain ⟨s₁, changed, st, hprimary, -, hsub, -, -⟩ := maybeReset_inv (ofOption_eq_ok.1 h)
    calc r.sub.resourceGrants = s₁.resourceGrants := by rw [hsub]; rfl
      _ = _ := (resetPrimary_spec hprimary).2.2.2.2.2 hdue
      _ = row.resourceGrants := by
        unfold migrateUserSubscriptionResetAnchor
        split <;> rfl
  · cases h
    rfl

def counterBase (rt : Runtime) (plans : Plans) (now : ℤ) (row : UserSubscription) (x : Counter) :
    ℤ :=
  if counterDue rt plans now row x then 0 else row.counter x

theorem maybeReset_total (h : maybeResetUserSubscriptionWithPlan rt s plan now = some r) :
    let m := migrateUserSubscriptionResetAnchor rt s (some plan) now
    r.sub.amountUsed = (if primaryDue rt m plan now then 0 else s.amountUsed) ∧
      r.stored.amountUsed = if primaryDue rt m plan now then 0 else s.amountUsed := by
  intro m
  obtain ⟨s₁, changed, st, hprimary, -, hsub, -, hstored⟩ := maybeReset_inv h
  obtain ⟨-, -, -, hkept, hused, -⟩ := resetPrimary_spec hprimary
  have hmigrate : m.amountUsed = s.amountUsed := by
    unfold m migrateUserSubscriptionResetAnchor
    split <;> rfl
  rw [hmigrate] at hused
  have hmem : r.sub.amountUsed = if primaryDue rt m plan now then 0 else s.amountUsed := by
    rw [← hused, hsub]
    rfl
  refine ⟨hmem, ?_⟩
  rcases hstored with hstored | ⟨hstored, hsame, -⟩
  · rw [hstored, hmem]
  · rw [← hused, hkept hsame, hstored]

theorem maybeReset_cleared (hp : 0 < (s.period p).amount)
    (h : maybeResetUserSubscriptionWithPlan rt s plan now = some r) :
    let m := migrateUserSubscriptionResetAnchor rt s (some plan) now
    let resetTime := startingReset rt m.startTime m.endTime p (m.period p)
    r.cleared p = (decide (0 < resetTime) && decide (resetTime ≤ now)) := by
  intro m resetTime
  obtain ⟨s₁, changed, st, hprimary, hst, -, hcleared, -⟩ := maybeReset_inv h
  obtain ⟨hterms, hperiod, -⟩ := resetPrimary_spec hprimary
  have hamount : 0 < (s₁.period p).amount := by
    rwa [terms_period (hterms.trans (@migrate_spec rt s (some plan) now).1) p]
  have hiff := (advancePeriod_spec hamount (hst p)).cleared
  rw [terms_startTime hterms, terms_endTime hterms, hperiod] at hiff
  rw [hcleared, Bool.eq_iff_iff, hiff, Bool.and_eq_true, decide_eq_true_eq, decide_eq_true_eq]

theorem resetBeforeSettle_counter (hx : row.counts x = true)
    (h : resetBeforeSettle rt plans now row = .ok r) :
    r.sub.counter x = counterBase rt plans now row x ∧
      r.stored.counter x = counterBase rt plans now row x := by
  rw [resetBeforeSettle] at h
  split at h
  next plan hplan =>
    have hreset := ofOption_eq_ok.1 h
    cases x with
    | total =>
      simp only [counterBase, counterDue, hplan]
      exact maybeReset_total hreset
    | period p =>
      have hp : 0 < (row.period p).amount := of_decide_eq_true hx
      have hspec := maybeReset_spec hreset
      simp only [counterBase, counterDue, hplan, ← maybeReset_cleared hp hreset]
      exact ⟨(hspec.period p hp).used, (hspec.period_stored p hp).used⟩
  next hplan =>
    cases h
    simp only [counterBase, counterDue, hplan]
    exact ⟨rfl, rfl⟩

theorem counts_of_terms (h : s'.terms = s.terms) (x : Counter) : s'.counts x = s.counts x := by
  cases x with
  | total => rfl
  | period p => simp [counts, terms_period h p]

/-- What a use can make of a row: after its reset the row is stored, one of its grants or its
primary quota is charged, or its primary quota is settled. -/
inductive RowMove (rt : Runtime) (plans : Plans) (now : ℤ) (row : UserSubscription) :
    ℤ → UserSubscription → Prop
  | reset {r : ResetResult} (h : resetBeforeSettle rt plans now row = .ok r) :
      RowMove rt plans now row 0 r.stored
  | grant {r : ResetResult} (h : resetBeforeSettle rt plans now row = .ok r) (index : ℕ)
      (used : ℤ) : RowMove rt plans now row 0 (setGrantUsed r.sub index used)
  | charge {r : ResetResult} {amount : ℤ} {row' : UserSubscription}
      (h : resetBeforeSettle rt plans now row = .ok r)
      (hcap : hasPrimaryCapacity r.sub amount = true)
      (hcharge : chargePrimary r.sub amount = .ok row') : RowMove rt plans now row amount row'
  | settle {r : ResetResult} {delta : ℤ} {row' : UserSubscription}
      (h : resetBeforeSettle rt plans now row = .ok r)
      (hdelta : applySubscriptionQuotaDelta r.sub delta = .ok row') :
      RowMove rt plans now row delta row'

theorem Drawn.counter (h : Drawn amount s s') (hx : s.counts x = true) :
    applyUsageDelta (s.counter x) amount = .ok (s'.counter x) := by
  cases x with
  | total => exact h.total
  | period p => exact (chargePeriod_spec (h.period p)).1 (of_decide_eq_true hx)

theorem setGrantUsed_counter (s : UserSubscription) (index : ℕ) (used : ℤ) (x : Counter) :
    (setGrantUsed s index used).counter x = s.counter x := by
  match x with
  | .total => rfl
  | .period .daily | .period .weekly | .period .monthly => rfl

theorem RowMove.terms (h : RowMove rt plans now row amount row') : row'.terms = row.terms := by
  cases h with
  | reset h => exact (resetBeforeSettle_terms h).2
  | grant h index used => exact (setGrantUsed_spec _ index used).1.trans (resetBeforeSettle_terms h).1
  | charge h hcap hcharge =>
    exact (chargePrimary_eq_ok.1 hcharge).terms.trans (resetBeforeSettle_terms h).1
  | settle h hdelta =>
    exact (applySubscriptionQuotaDelta_spec hdelta).1.trans (resetBeforeSettle_terms h).1

theorem RowMove.tally (hx : row.counts x = true) (h : RowMove rt plans now row amount row') :
    Tally (counterBase rt plans now row x) amount (row'.counter x) := by
  cases h with
  | reset h => exact .of_eq (resetBeforeSettle_counter hx h).2
  | grant h index used =>
    exact .of_eq ((setGrantUsed_counter _ index used x).trans (resetBeforeSettle_counter hx h).1)
  | charge h hcap hcharge =>
    rw [← (resetBeforeSettle_counter hx h).1]
    exact .of_delta ((chargePrimary_eq_ok.1 hcharge).counter
      (counts_of_terms (resetBeforeSettle_terms h).1 x ▸ hx))
  | settle h hdelta =>
    rw [← (resetBeforeSettle_counter hx h).1]
    exact .of_delta ((applySubscriptionQuotaDelta_drawn hdelta).1.counter
      (counts_of_terms (resetBeforeSettle_terms h).1 x ▸ hx))

theorem resetUserSubscription_counter (s : UserSubscription) (plan : SubscriptionPlan) (now : ℤ)
    (advance : Bool) (x : Counter) :
    (resetUserSubscription rt s plan now advance).counter x = 0 := by
  match x with
  | .total => cases advance <;> rfl
  | .period .daily | .period .weekly | .period .monthly => cases advance <;> rfl

theorem resetUserSubscription_terms (s : UserSubscription) (plan : SubscriptionPlan) (now : ℤ)
    (advance : Bool) : (resetUserSubscription rt s plan now advance).terms = s.terms := by
  unfold resetUserSubscription
  cases advance <;> simp [terms, mapPeriods]

end Moligate.Subscription
