import Moligate.Subscription.Period

namespace Moligate.Subscription

open Foundation Common UserSubscription

variable (rt : Runtime)

def migrateUserSubscriptionResetAnchor (sub : UserSubscription) (plan : Option SubscriptionPlan)
    (now : ℤ) : UserSubscription :=
  if periodResetAnchorVersion ≤ sub.periodResetAnchorVersion then sub
  else
    let nextResetTime := match plan with
      | some plan =>
        if normalizeResetPeriod rt plan.quotaResetPeriod ≠ .never then
          calcNextResetTime rt sub.startTime now plan sub.endTime
        else sub.nextResetTime
      | none => sub.nextResetTime
    { sub.mapPeriods fun p q ↦
        if 0 < q.amount then
          { q with resetTime := calcNextAnchoredPeriodReset rt sub.startTime now p sub.endTime }
        else q with
      nextResetTime
      periodResetAnchorVersion := periodResetAnchorVersion }

def finishPrimaryReset (sub : UserSubscription) (advanced : Bool) (base next : ℤ) :
    UserSubscription × Bool :=
  if advanced then
    ({ sub with
      amountUsed := 0
      resourceGrants := sub.resourceGrants.map fun g ↦ { g with used := 0 }
      lastResetTime := base
      nextResetTime := next }, true)
  else if sub.nextResetTime = 0 ∧ 0 < next then
    ({ sub with nextResetTime := next, lastResetTime := base }, true)
  else (sub, false)

def resetPrimary (sub : UserSubscription) (plan : SubscriptionPlan) (now : ℤ) :
    Option (UserSubscription × Bool) :=
  if normalizeResetPeriod rt plan.quotaResetPeriod ≠ .never ∧
      (sub.nextResetTime = 0 ∨ sub.nextResetTime ≤ now) then
    let baseUnix := if sub.lastResetTime ≤ 0 then sub.startTime else sub.lastResetTime
    let next := calcNextResetTime rt sub.startTime baseUnix plan sub.endTime
    (whileLoop (fun x : ℤ × ℤ ↦ decide (0 < x.2 ∧ x.2 ≤ now))
      (fun x ↦ (x.2, calcNextResetTime rt sub.startTime x.2 plan sub.endTime))
      now.toNat (baseUnix, next)).map fun x ↦
        finishPrimaryReset sub (decide (0 < next ∧ next ≤ now)) x.1 x.2
  else some (sub, false)

def primaryDue (sub : UserSubscription) (plan : SubscriptionPlan) (now : ℤ) : Bool :=
  let baseUnix := if sub.lastResetTime ≤ 0 then sub.startTime else sub.lastResetTime
  let next := calcNextResetTime rt sub.startTime baseUnix plan sub.endTime
  decide (normalizeResetPeriod rt plan.quotaResetPeriod ≠ .never ∧
    (sub.nextResetTime = 0 ∨ sub.nextResetTime ≤ now)) && decide (0 < next ∧ next ≤ now)

/-- The reset time a call starts from: an unset one is the first boundary. -/
def startingReset (anchor endTime : ℤ) (p : Period) (q : PeriodQuota) : ℤ :=
  if q.resetTime = 0 then calcNextAnchoredPeriodReset rt anchor anchor p endTime else q.resetTime

structure PeriodStep where
  quota : PeriodQuota
  (changed cleared : Bool)

/-- One round of the loop over the period limits: every boundary that is due clears the
counter. -/
def advancePeriod (anchor endTime now : ℤ) (p : Period) (q : PeriodQuota) : Option PeriodStep :=
  if q.amount ≤ 0 then some ⟨q, false, false⟩
  else
    let resetTime := startingReset rt anchor endTime p q
    let due := decide (0 < resetTime ∧ resetTime ≤ now)
    (whileLoop (fun q : PeriodQuota ↦ decide (0 < q.resetTime ∧ q.resetTime ≤ now))
      (fun q ↦
        { q with
          used := 0
          resetTime := calcNextAnchoredPeriodReset rt anchor q.resetTime p endTime })
      now.toNat { q with resetTime }).map fun q' ↦
        ⟨q', (q.resetTime = 0 && 0 < resetTime) || due, due⟩

/-- `sub` is the struct in memory after the call, `stored` the row as the call has saved it, and
`cleared` says which period counters the call has set to 0. -/
structure ResetResult where
  (sub stored : UserSubscription)
  cleared : Period → Bool

/-- `none` when one of the loops is never left. -/
def maybeResetUserSubscriptionWithPlan (sub : UserSubscription) (plan : SubscriptionPlan)
    (now : ℤ) : Option ResetResult :=
  let migrated := migrateUserSubscriptionResetAnchor rt sub (some plan) now
  (resetPrimary rt migrated plan now).bind fun (s, changed) ↦
  (advancePeriod rt s.startTime s.endTime now .daily s.daily).bind fun d ↦
  (advancePeriod rt s.startTime s.endTime now .weekly s.weekly).bind fun w ↦
  (advancePeriod rt s.startTime s.endTime now .monthly s.monthly).bind fun m ↦
    let sub := { s with daily := d.quota, weekly := w.quota, monthly := m.quota }
    some
      { sub
        stored := if changed || d.changed || w.changed || m.changed then sub else migrated
        cleared := fun
          | .daily => d.cleared
          | .weekly => w.cleared
          | .monthly => m.cleared }

/-- What a subscription was bought with: the row without its counters and reset times. -/
def UserSubscription.terms (s : UserSubscription) : UserSubscription :=
  { s.mapPeriods fun _ q ↦ { q with used := 0, resetTime := 0 } with
    amountUsed := 0
    periodResetAnchorVersion := 0
    lastResetTime := 0
    nextResetTime := 0
    resourceGrants := s.resourceGrants.map fun g ↦ { g with used := 0 } }

variable {rt} {anchor endTime now : ℤ} {p : Period} {q : PeriodQuota} {st : PeriodStep}

structure Advanced (rt : Runtime) (anchor endTime now : ℤ) (p : Period) (q : PeriodQuota)
    (st : PeriodStep) : Prop where
  amount : st.quota.amount = q.amount
  cleared : st.cleared = true ↔
    0 < startingReset rt anchor endTime p q ∧ startingReset rt anchor endTime p q ≤ now
  used : st.quota.used = if st.cleared then 0 else q.used
  settled : st.quota.resetTime ≤ 0 ∨ now < st.quota.resetTime
  kept : st.cleared = false → st.quota.resetTime = startingReset rt anchor endTime p q
  moved : st.cleared = true → st.quota.resetTime = 0 ∨
    ∃ k, st.quota.resetTime = boundary rt anchor p (k + 1)
  changed : st.changed = false → st.cleared = false ∧
    (q.resetTime ≠ 0 ∨ startingReset rt anchor endTime p q ≤ 0)

theorem advancePeriod_spec (hq : 0 < q.amount)
    (h : advancePeriod rt anchor endTime now p q = some st) :
    Advanced rt anchor endTime now p q st := by
  rw [advancePeriod, if_neg (not_le.2 hq)] at h
  set r := startingReset rt anchor endTime p q with hr
  obtain ⟨q', hloop, rfl⟩ := Option.map_eq_some_iff.1 h
  have hexit := whileLoop_exit hloop
  by_cases hdue : 0 < r ∧ r ≤ now
  · have hinv : q'.amount = q.amount ∧ (q'.resetTime = r ∧ q'.used = q.used ∨ q'.used = 0 ∧
        (q'.resetTime = 0 ∨ ∃ k, q'.resetTime = boundary rt anchor p (k + 1))) := by
      refine whileLoop_invariant (I := fun q' : PeriodQuota ↦ q'.amount = q.amount ∧
        (q'.resetTime = r ∧ q'.used = q.used ∨ q'.used = 0 ∧
        (q'.resetTime = 0 ∨ ∃ k, q'.resetTime = boundary rt anchor p (k + 1)))) ?_ ?_ hloop
      · intro x hx _
        exact ⟨hx.1, .inr ⟨rfl, calcNextAnchoredPeriodReset_boundary rt anchor _ p endTime⟩⟩
      · exact ⟨rfl, .inl ⟨rfl, rfl⟩⟩
    have hleft : ¬(0 < q'.resetTime ∧ q'.resetTime ≤ now) := by simpa using hexit
    obtain ⟨hamount, ⟨hsame, -⟩ | ⟨hused, hmoved⟩⟩ := hinv
    · exact absurd (hsame ▸ hdue) hleft
    exact
      { amount := hamount
        cleared := by simp [← hr]
        used := by simp [hdue, hused]
        settled := by dsimp only; omega
        kept := by simp [hdue]
        moved := fun _ ↦ hmoved
        changed := by simp [hdue] }
  · have hstay := whileLoop_of_not (n := now.toNat) (x := { q with resetTime := r })
      (f := fun q ↦ { q with
        used := 0, resetTime := calcNextAnchoredPeriodReset rt anchor q.resetTime p endTime })
      (c := fun q : PeriodQuota ↦ decide (0 < q.resetTime ∧ q.resetTime ≤ now))
      (decide_eq_false hdue)
    obtain rfl : { q with resetTime := r } = q' := Option.some.inj (hstay.symm.trans hloop)
    exact
      { amount := rfl
        cleared := by simp [← hr]
        used := by simp [hdue]
        settled := by dsimp only; omega
        kept := fun _ ↦ hr
        moved := by simp [hdue]
        changed := by
          intro hc
          have : ¬(q.resetTime = 0 ∧ 0 < r) := by simpa [hdue] using hc
          refine ⟨by simp [hdue], ?_⟩
          omega }

theorem advancePeriod_amount (h : advancePeriod rt anchor endTime now p q = some st) :
    st.quota.amount = q.amount := by
  rcases lt_or_ge 0 q.amount with hq | hq
  · exact (advancePeriod_spec hq h).amount
  · rw [advancePeriod, if_pos hq] at h
    exact Option.some.inj h ▸ rfl

def OnBoundary (rt : Runtime) (anchor : ℤ) (p : Period) (resetTime : ℤ) : Prop :=
  resetTime ≤ 0 ∨ ∃ k, resetTime = boundary rt anchor p (k + 1)

theorem onBoundary_calcNext (anchor after : ℤ) (p : Period) (endUnix : ℤ) :
    OnBoundary rt anchor p (calcNextAnchoredPeriodReset rt anchor after p endUnix) :=
  (calcNextAnchoredPeriodReset_boundary rt anchor after p endUnix).imp_left le_of_eq

theorem Advanced.onBoundary (ha : Advanced rt anchor endTime now p q st)
    (h : OnBoundary rt anchor p q.resetTime) : OnBoundary rt anchor p st.quota.resetTime := by
  cases hc : st.cleared with
  | true => exact (ha.moved hc).imp_left le_of_eq
  | false =>
    rw [ha.kept hc, startingReset]
    split
    · exact onBoundary_calcNext anchor anchor p endTime
    · exact h

variable {s s' : UserSubscription} {plan : SubscriptionPlan} {c : Bool}

theorem terms_period (h : s'.terms = s.terms) (p : Period) :
    (s'.period p).amount = (s.period p).amount := by
  have := congrArg (fun t ↦ (t.period p).amount) h
  cases p <;> exact this

theorem terms_startTime (h : s'.terms = s.terms) : s'.startTime = s.startTime :=
  (congrArg startTime h :)

theorem terms_endTime (h : s'.terms = s.terms) : s'.endTime = s.endTime :=
  (congrArg endTime h :)

theorem terms_id (h : s'.terms = s.terms) : s'.id = s.id := (congrArg UserSubscription.id h :)

theorem terms_mapPeriods {f : Period → PeriodQuota → PeriodQuota}
    (hf : ∀ p, (f p (s.period p)).amount = (s.period p).amount) :
    (s.mapPeriods f).terms = s.terms := by
  have hd := hf .daily
  have hw := hf .weekly
  have hm := hf .monthly
  simp only [period] at hd hw hm
  simp [terms, mapPeriods, hd, hw, hm]

theorem finishPrimaryReset_spec {advanced : Bool} {base next : ℤ}
    (h : finishPrimaryReset s advanced base next = (s', c)) :
    s'.terms = s.terms ∧ (∀ p, s'.period p = s.period p) ∧
      s'.periodResetAnchorVersion = s.periodResetAnchorVersion ∧ (c = false → s' = s) ∧
      s'.amountUsed = (if advanced then 0 else s.amountUsed) ∧
      (advanced = false → s'.resourceGrants = s.resourceGrants) := by
  rw [finishPrimaryReset] at h
  cases advanced with
  | true =>
    cases h
    refine ⟨?_, fun p ↦ by cases p <;> rfl, rfl, nofun, rfl, nofun⟩
    simp [terms, mapPeriods]
  | false =>
    rw [if_neg (by decide)] at h
    split at h <;> cases h
    · exact ⟨rfl, fun p ↦ by cases p <;> rfl, rfl, nofun, rfl, fun _ ↦ rfl⟩
    · exact ⟨rfl, fun _ ↦ rfl, rfl, fun _ ↦ rfl, rfl, fun _ ↦ rfl⟩

theorem resetPrimary_spec (h : resetPrimary rt s plan now = some (s', c)) :
    s'.terms = s.terms ∧ (∀ p, s'.period p = s.period p) ∧
      s'.periodResetAnchorVersion = s.periodResetAnchorVersion ∧ (c = false → s' = s) ∧
      s'.amountUsed = (if primaryDue rt s plan now then 0 else s.amountUsed) ∧
      (primaryDue rt s plan now = false → s'.resourceGrants = s.resourceGrants) := by
  rw [resetPrimary] at h
  split at h
  next hopen =>
    obtain ⟨x, -, hx⟩ := Option.map_eq_some_iff.1 h
    rw [primaryDue, decide_eq_true hopen, Bool.true_and]
    exact finishPrimaryReset_spec hx
  next hclosed =>
    cases h
    rw [primaryDue, decide_eq_false hclosed, Bool.false_and]
    exact ⟨rfl, fun _ ↦ rfl, rfl, fun _ ↦ rfl, rfl, fun _ ↦ rfl⟩

theorem migrate_of_version {plan : Option SubscriptionPlan}
    (h : periodResetAnchorVersion ≤ s.periodResetAnchorVersion) :
    migrateUserSubscriptionResetAnchor rt s plan now = s := if_pos h

theorem migrate_spec (s : UserSubscription) (plan : Option SubscriptionPlan) (now : ℤ) :
    let m := migrateUserSubscriptionResetAnchor rt s plan now
    m.terms = s.terms ∧ periodResetAnchorVersion ≤ m.periodResetAnchorVersion ∧
      ∀ p, (m.period p).used = (s.period p).used ∧ (0 < (s.period p).amount →
        ¬periodResetAnchorVersion ≤ s.periodResetAnchorVersion →
        OnBoundary rt s.startTime p (m.period p).resetTime) := by
  intro m
  by_cases hv : periodResetAnchorVersion ≤ s.periodResetAnchorVersion
  · have hm : m = s := migrate_of_version hv
    exact ⟨by rw [hm], by rwa [hm], fun p ↦ ⟨by rw [hm], fun _ h ↦ absurd hv h⟩⟩
  set f : Period → PeriodQuota → PeriodQuota := fun p q ↦
    if 0 < q.amount then
      { q with resetTime := calcNextAnchoredPeriodReset rt s.startTime now p s.endTime }
    else q with hf
  have hperiod : ∀ p, m.period p = f p (s.period p) := by
    intro p
    simp only [m, migrateUserSubscriptionResetAnchor, if_neg hv]
    cases p <;> rfl
  refine ⟨?_, ?_, fun p ↦ ⟨?_, fun hp _ ↦ ?_⟩⟩
  · have : m.terms = (s.mapPeriods f).terms := by
      simp only [m, migrateUserSubscriptionResetAnchor, if_neg hv]
      rfl
    rw [this, terms_mapPeriods]
    intro p
    simp only [hf]
    split <;> rfl
  · simp only [m, migrateUserSubscriptionResetAnchor, if_neg hv]
    exact le_rfl
  · rw [hperiod]
    simp only [hf]
    split <;> rfl
  · rw [hperiod]
    simp only [hf, if_pos hp]
    exact onBoundary_calcNext _ _ _ _

structure PeriodReset (rt : Runtime) (s : UserSubscription) (now : ℤ) (p : Period)
    (cleared : Bool) (q : PeriodQuota) : Prop where
  used : q.used = if cleared then 0 else (s.period p).used
  settled : q.resetTime ≤ 0 ∨ now < q.resetTime
  onBoundary : (periodResetAnchorVersion ≤ s.periodResetAnchorVersion →
    OnBoundary rt s.startTime p (s.period p).resetTime) → OnBoundary rt s.startTime p q.resetTime
  due : periodResetAnchorVersion ≤ s.periodResetAnchorVersion → cleared = true →
    0 < startingReset rt s.startTime s.endTime p (s.period p) ∧
      startingReset rt s.startTime s.endTime p (s.period p) ≤ now

/-- The struct in memory and the stored row after a call agree on everything that matters for the
limits: a reset time that is set in memory only lies before the epoch. -/
structure ResetSpec (rt : Runtime) (s : UserSubscription) (now : ℤ) (r : ResetResult) : Prop where
  terms : r.sub.terms = s.terms
  terms_stored : r.stored.terms = s.terms
  version : periodResetAnchorVersion ≤ r.sub.periodResetAnchorVersion
  version_stored : periodResetAnchorVersion ≤ r.stored.periodResetAnchorVersion
  period : ∀ p, 0 < (s.period p).amount → PeriodReset rt s now p (r.cleared p) (r.sub.period p)
  period_stored : ∀ p, 0 < (s.period p).amount →
    PeriodReset rt s now p (r.cleared p) (r.stored.period p)

theorem maybeReset_inv {r : ResetResult}
    (h : maybeResetUserSubscriptionWithPlan rt s plan now = some r) :
    ∃ (s₁ : UserSubscription) (changed : Bool) (st : Period → PeriodStep),
      resetPrimary rt (migrateUserSubscriptionResetAnchor rt s (some plan) now) plan now =
        some (s₁, changed) ∧
      (∀ p, advancePeriod rt s₁.startTime s₁.endTime now p (s₁.period p) = some (st p)) ∧
      r.sub = s₁.mapPeriods (fun p _ ↦ (st p).quota) ∧ (∀ p, r.cleared p = (st p).cleared) ∧
      (r.stored = r.sub ∨ r.stored = migrateUserSubscriptionResetAnchor rt s (some plan) now ∧
        changed = false ∧ ∀ p, (st p).changed = false) := by
  simp only [maybeResetUserSubscriptionWithPlan, Option.bind_eq_some_iff] at h
  obtain ⟨⟨s₁, changed⟩, hs, d, hd, w, hw, m, hm, hr⟩ := h
  cases hr
  refine ⟨s₁, changed, fun | .daily => d | .weekly => w | .monthly => m, hs, ?_, rfl, ?_, ?_⟩
  · intro p
    cases p <;> assumption
  · intro p
    cases p <;> rfl
  · split
    · exact .inl rfl
    next hc =>
      simp only [Bool.or_eq_true, not_or, Bool.not_eq_true] at hc
      exact .inr ⟨rfl, hc.1.1.1, fun p ↦ by cases p <;> simp [hc]⟩

theorem maybeReset_spec {r : ResetResult}
    (h : maybeResetUserSubscriptionWithPlan rt s plan now = some r) : ResetSpec rt s now r := by
  obtain ⟨s₁, changed, st, hprimary, hst, hsub, hcleared, hstored⟩ := maybeReset_inv h
  obtain ⟨hmterms, hmversion, hmperiod⟩ := @migrate_spec rt s (some plan) now
  obtain ⟨hterms₁, hperiod₁, hversion₁, -⟩ := resetPrimary_spec hprimary
  set m := migrateUserSubscriptionResetAnchor rt s (some plan) now with hm
  have hstart : s₁.startTime = s.startTime := terms_startTime (hterms₁.trans hmterms)
  have hend : s₁.endTime = s.endTime := terms_endTime (hterms₁.trans hmterms)
  have hamount : ∀ p, (s₁.period p).amount = (s.period p).amount :=
    terms_period (hterms₁.trans hmterms)
  have hboundary : ∀ p, 0 < (s.period p).amount →
      (periodResetAnchorVersion ≤ s.periodResetAnchorVersion →
        OnBoundary rt s.startTime p (s.period p).resetTime) →
      OnBoundary rt s.startTime p (m.period p).resetTime := by
    intro p hp hbefore
    by_cases hv : periodResetAnchorVersion ≤ s.periodResetAnchorVersion
    · rw [hm, migrate_of_version hv]
      exact hbefore hv
    · exact (hmperiod p).2 hp hv
  have hadv : ∀ p, 0 < (s.period p).amount →
      Advanced rt s.startTime s.endTime now p (m.period p) (st p) := by
    intro p hp
    rw [← hstart, ← hend, ← hperiod₁]
    exact advancePeriod_spec (by rwa [hamount]) (hst p)
  have hmem : ∀ p, 0 < (s.period p).amount →
      PeriodReset rt s now p (r.cleared p) (st p).quota := by
    intro p hp
    refine ⟨?_, (hadv p hp).settled, fun h ↦ (hadv p hp).onBoundary (hboundary p hp h), ?_⟩
    · rw [hcleared, (hadv p hp).used, (hmperiod p).1]
    · intro hv hc
      have := (hadv p hp).cleared.1 (hcleared p ▸ hc)
      rwa [hm, migrate_of_version hv] at this
  have hsubterms : r.sub.terms = s.terms := by
    rw [hsub, terms_mapPeriods fun p ↦ advancePeriod_amount (hst p), hterms₁, hmterms]
  have hsubversion : periodResetAnchorVersion ≤ r.sub.periodResetAnchorVersion := by
    rw [hsub]
    exact hversion₁ ▸ hmversion
  have hsubperiod : ∀ p, r.sub.period p = (st p).quota := by
    intro p
    rw [hsub, period_mapPeriods]
  rcases hstored with hstored | ⟨hstored, -, hkept⟩
  · refine ⟨hsubterms, hstored ▸ hsubterms, hsubversion, hstored ▸ hsubversion, ?_, ?_⟩
    · exact fun p hp ↦ hsubperiod p ▸ hmem p hp
    · exact fun p hp ↦ hstored ▸ hsubperiod p ▸ hmem p hp
  · refine ⟨hsubterms, hstored ▸ hmterms, hsubversion, hstored ▸ hmversion, ?_, ?_⟩
    · exact fun p hp ↦ hsubperiod p ▸ hmem p hp
    · intro p hp
      obtain ⟨hnot, hset⟩ := (hadv p hp).changed (hkept p)
      have hstarting := (hadv p hp).kept hnot
      have hsettled := (hadv p hp).settled
      rw [hstored, hcleared, hnot]
      refine ⟨by simpa using (hmperiod p).1, ?_, hboundary p hp, by simp⟩
      by_cases hz : (m.period p).resetTime = 0
      · exact .inl hz.le
      · rwa [hstarting, startingReset, if_neg hz] at hsettled

end Moligate.Subscription
