import Moligate.Subscription.Settle

namespace Moligate.Subscription

open Foundation Common List Call UserSubscription

variable {rt : Runtime} {plans : Plans} {now i : ℤ} {db db₁ db' : Db}
  {s s' row sub : UserSubscription} {r : ResetResult} {amount taken : ℤ} {req : PreConsumeRequest}
  {resource : Option Entitlement}

def Db.uses (db : Db) (i : ℤ) : List Use := db.history.filter fun u ↦ u.subscriptionId = i

structure Untouched (i : ℤ) (db db' : Db) : Prop where
  find : db'.subs.find i = db.subs.find i
  uses : db'.uses i = db.uses i

theorem Untouched.refl (i : ℤ) (db : Db) : Untouched i db db := ⟨rfl, rfl⟩

theorem Untouched.trans (h : Untouched i db db₁) (h' : Untouched i db₁ db') :
    Untouched i db db' := ⟨h'.find.trans h.find, h'.uses.trans h.uses⟩

def PeriodUsed (rt : Runtime) (s : UserSubscription) (now : ℤ) (p : Period) (cleared : Bool)
    (amount : ℤ) (q' : PeriodQuota) : Prop :=
  ∃ q, PeriodReset rt s now p cleared q ∧ q.amount = (s.period p).amount ∧
    (q' = q ∧ amount = 0 ∨ Charged amount q q')

structure Used (rt : Runtime) (now : ℤ) (row : UserSubscription) (db db' : Db) : Prop where
  find : db.subs.find row.id = some row
  result : ∃ (row' : UserSubscription) (cleared : Period → Bool) (amount : ℤ),
    db'.subs.find row.id = some row' ∧ row'.terms = row.terms ∧
    periodResetAnchorVersion ≤ row'.periodResetAnchorVersion ∧
    db'.uses row.id = ⟨row.id, now, cleared, amount⟩ :: db.uses row.id ∧
    ∀ p, 0 < (row.period p).amount → PeriodUsed rt row now p (cleared p) amount (row'.period p)

structure GrantsOnly (i : ℤ) (db db' : Db) : Prop where
  result : ∃ row row' : UserSubscription, db.subs.find i = some row ∧
    db'.subs.find i = some row' ∧ row'.terms = row.terms ∧ (∀ p, row'.period p = row.period p) ∧
    row'.periodResetAnchorVersion = row.periodResetAnchorVersion
  uses : db'.uses i = db.uses i

variable {cleared : Period → Bool} {record : PreConsumeRecord} {primary : ℤ} {c : UserSubscription}
  {out : Option PreConsumeResult} {motive : Db → List UserSubscription → Prop}
  {result : PreConsumeResult} {q q' : PeriodQuota}

theorem use_other (h : i ≠ row.id) : Untouched i db (db.use row now cleared amount taken) where
  find := Table.find_save_of_ne h
  uses := by simp [Db.uses, Db.use, Ne.symm h]

theorem find_use (hid : row.id = i) (h : db.subs.find i = some s) :
    (db.use row now cleared amount taken).subs.find i = some row := Table.find_save_of_key hid h

theorem uses_use (hid : row.id = i) :
    (db.use row now cleared amount taken).uses i = ⟨i, now, cleared, amount⟩ :: db.uses i := by
  simp [Db.uses, Db.use, hid]

theorem use_used {row' : UserSubscription} (hfind : db.subs.find row.id = some row)
    (hterms : row'.terms = row.terms)
    (hversion : periodResetAnchorVersion ≤ row'.periodResetAnchorVersion)
    (hperiod : ∀ p, 0 < (row.period p).amount →
      PeriodUsed rt row now p (cleared p) amount (row'.period p)) :
    Used rt now row db (db.use row' now cleared amount taken) :=
  ⟨hfind, row', cleared, amount, find_use (terms_id hterms) hfind, hterms, hversion,
    uses_use (terms_id hterms), hperiod⟩

/-- What a charge to the primary quota leaves of a row. -/
structure ChargedRow (amount : ℤ) (s s' : UserSubscription) : Prop where
  terms : s'.terms = s.terms
  version : s'.periodResetAnchorVersion = s.periodResetAnchorVersion
  period : ∀ p, 0 < (s.period p).amount → Charged amount (s.period p) (s'.period p)

theorem used_of_charge (hfind : db.subs.find row.id = some row) (hr : ResetSpec rt row now r)
    (h : ChargedRow amount r.sub sub) :
    Used rt now row db (db.use sub now r.cleared amount taken) := by
  refine use_used hfind (h.terms.trans hr.terms) (h.version ▸ hr.version) fun p hp ↦ ?_
  have hamount := terms_period hr.terms p
  exact ⟨_, hr.period p hp, hamount, .inr (h.period p (hamount ▸ hp))⟩

theorem Untouched.of_records (records : Table PreConsumeRecord.requestId) :
    Untouched i db { db with records } := ⟨rfl, rfl⟩

theorem Used.of_untouched (h : Untouched row.id db db₁) (h' : Used rt now row db₁ db') :
    Used rt now row db db' where
  find := h.find ▸ h'.find
  result := by
    obtain ⟨row', cleared, amount, hf, ht, hv, hu, hp⟩ := h'.result
    exact ⟨row', cleared, amount, hf, ht, hv, h.uses ▸ hu, hp⟩

theorem Used.then_untouched (h : Used rt now row db db₁) (h' : Untouched row.id db₁ db') :
    Used rt now row db db' where
  find := h.find
  result := by
    obtain ⟨row', cleared, amount, hf, ht, hv, hu, hp⟩ := h.result
    exact ⟨row', cleared, amount, h'.find.trans hf, ht, hv, h'.uses.trans hu, hp⟩

theorem chargePeriod_spec (h : chargePeriod amount q = .ok q') :
    (0 < q.amount → applyUsageDelta q.used amount = .ok q'.used) ∧
      q'.amount = q.amount ∧ q'.resetTime = q.resetTime := by
  rw [chargePeriod] at h
  split at h
  · obtain ⟨used, hused, rfl⟩ := except_map_eq_ok.1 h
    exact ⟨fun _ ↦ hused, rfl, rfl⟩
  next hq =>
    cases h
    exact ⟨fun hpos ↦ absurd hpos hq, rfl, rfl⟩

/-- What is drawn from the primary quota, before an answer or at its settlement. -/
structure Drawn (amount : ℤ) (s s' : UserSubscription) : Prop where
  total : applyUsageDelta s.amountUsed amount = .ok s'.amountUsed
  period : ∀ p, chargePeriod amount (s.period p) = .ok (s'.period p)
  rest : s' = { s with
    amountUsed := s'.amountUsed, daily := s'.daily, weekly := s'.weekly, monthly := s'.monthly }

theorem chargePrimary_eq_ok : chargePrimary s amount = .ok s' ↔ Drawn amount s s' := by
  simp only [chargePrimary, bind_eq_ok, ofExcept_eq_ok]
  constructor
  · rintro ⟨used, hused, daily, hd, weekly, hw, monthly, hm, hs⟩
    cases hs
    exact ⟨hused, fun p ↦ by cases p <;> assumption, rfl⟩
  · intro h
    exact ⟨_, h.total, _, h.period .daily, _, h.period .weekly, _, h.period .monthly,
      congrArg Call.ok h.rest.symm⟩

theorem Drawn.terms (h : Drawn amount s s') : s'.terms = s.terms := by
  have hmap : s'.terms = (s.mapPeriods fun p _ ↦ s'.period p).terms := by
    rw [h.rest]
    rfl
  exact hmap.trans (terms_mapPeriods fun p ↦ (chargePeriod_spec (h.period p)).2.1)

theorem Drawn.spec (h : Drawn amount s s')
    (hwithin : ∀ p, 0 < (s.period p).amount → (s.period p).used ≤ (s.period p).amount →
      (s'.period p).used ≤ (s.period p).amount) : ChargedRow amount s s' := by
  refine ⟨h.terms, by rw [h.rest], fun p hp ↦ ?_⟩
  obtain ⟨hused, hamount, hreset⟩ := chargePeriod_spec (h.period p)
  obtain ⟨h₀, h₁, h₂, -, -⟩ := applyUsageDelta_spec (hused hp)
  exact ⟨hamount, hreset, h₀, h₁, h₂, hwithin p hp⟩

theorem chargePrimary_spec (hcap : hasPrimaryCapacity s amount = true)
    (h : chargePrimary s amount = .ok s') : ChargedRow amount s s' := by
  have hdrawn := chargePrimary_eq_ok.1 h
  refine hdrawn.spec fun p hp _ ↦ ?_
  have hfits : usageHasCapacity (s.period p).amount (s.period p).used amount = true := by
    simp only [hasPrimaryCapacity, Bool.and_eq_true, Bool.or_eq_true, Bool.not_eq_true',
      decide_eq_false_iff_not] at hcap
    obtain ⟨⟨⟨-, hcd⟩, hcw⟩, hcm⟩ := hcap
    cases p with
    | daily => exact hcd.resolve_left (not_not.2 hp)
    | weekly => exact hcw.resolve_left (not_not.2 hp)
    | monthly => exact hcm.resolve_left (not_not.2 hp)
  obtain ⟨hpos, hused, hle⟩ := usageHasCapacity_spec hp hfits
  obtain ⟨-, -, -, -, hexact⟩ := applyUsageDelta_spec ((chargePeriod_spec (hdrawn.period p)).1 hp)
  rwa [hexact (by omega) (by simp only [minInt64]; omega)]

theorem chargePeriod_of_applyPeriodDelta {p : Period} (h : applyPeriodDelta amount p q = .ok q') :
    chargePeriod amount q = .ok q' := by
  rw [applyPeriodDelta] at h
  rw [chargePeriod]
  split at h
  next hpos =>
    rw [if_pos hpos]
    split at h
    · cases h
    next used hused =>
      rw [hused]
      exact h
  next hpos => rwa [if_neg hpos]

theorem le_of_checkPeriodLimit {p : Period} (hq : 0 < q.amount) (hamount : q'.amount = q.amount)
    (h : checkPeriodLimit p q' = .ok ()) : q'.used ≤ q.amount := by
  rw [checkPeriodLimit] at h
  split at h
  · exact nomatch h
  · omega

theorem applySubscriptionQuotaDelta_drawn (h : applySubscriptionQuotaDelta s amount = .ok s') :
    Drawn amount s s' ∧ (0 < amount → (0 < s.amountTotal → s'.amountUsed ≤ s.amountTotal) ∧
      ∀ p, 0 < (s.period p).amount → (s'.period p).used ≤ (s.period p).amount) := by
  simp only [applySubscriptionQuotaDelta, bind_eq_ok, ofExcept_eq_ok, mapError_eq_ok] at h
  obtain ⟨used, hused, daily, hd, weekly, hw, monthly, hm, _, hcheck, hs⟩ := h
  cases hs
  have hdrawn : Drawn amount s { s with amountUsed := used, daily, weekly, monthly } := by
    refine ⟨hused, fun p ↦ ?_, rfl⟩
    cases p with
    | daily => exact chargePeriod_of_applyPeriodDelta hd
    | weekly => exact chargePeriod_of_applyPeriodDelta hw
    | monthly => exact chargePeriod_of_applyPeriodDelta hm
  refine ⟨hdrawn, fun hamount ↦ ?_⟩
  rw [checkQuotaLimits, if_pos hamount] at hcheck
  simp only [bind_eq_ok, ofExcept_eq_ok, check_eq_ok] at hcheck
  obtain ⟨_, htotal, _, hdaily, _, hweekly, hmonthly⟩ := hcheck
  refine ⟨fun hpos ↦ ?_, fun p hp ↦ ?_⟩
  · have hle : ¬s.amountTotal < used := by simpa [hpos] using htotal
    exact not_lt.1 hle
  · refine le_of_checkPeriodLimit (p := p) hp (chargePeriod_spec (hdrawn.period p)).2.1 ?_
    cases p <;> assumption

theorem applySubscriptionQuotaDelta_spec (h : applySubscriptionQuotaDelta s amount = .ok s') :
    ChargedRow amount s s' := by
  obtain ⟨hdrawn, hlimit⟩ := applySubscriptionQuotaDelta_drawn h
  refine hdrawn.spec fun p hp hused ↦ ?_
  rcases le_or_gt amount 0 with hle | hgt
  · have hdelta := applyUsageDelta_spec ((chargePeriod_spec (hdrawn.period p)).1 hp)
    exact (hdelta.2.2.2.1 hle).trans hused
  · exact (hlimit hgt).2 p hp

theorem setGrantUsed_spec (s : UserSubscription) (index : ℕ) (used : ℤ) :
    (setGrantUsed s index used).terms = s.terms ∧
      (∀ p, (setGrantUsed s index used).period p = s.period p) ∧
      (setGrantUsed s index used).periodResetAnchorVersion = s.periodResetAnchorVersion := by
  refine ⟨?_, fun p ↦ by cases p <;> rfl, rfl⟩
  have hgrants : (s.resourceGrants.modify index fun g ↦ { g with used }).map
      (fun g ↦ { g with used := 0 }) = s.resourceGrants.map fun g ↦ { g with used := 0 } := by
    apply ext_getElem (by simp)
    intro n h₁ h₂
    simp only [getElem_map, getElem_modify]
    split <;> rfl
  simp [setGrantUsed, terms, mapPeriods, hgrants]

structure UsesOnly (rt : Runtime) (now : ℤ) (c : UserSubscription) (db db' : Db) : Prop where
  used : Used rt now c db db'
  frame : ∀ i, i ≠ c.id → Untouched i db db'

theorem usesOnly_of_reset (hfind : db.subs.find row.id = some row) (hr : ResetSpec rt row now r) :
    UsesOnly rt now row db (db.use r.stored now r.cleared 0 0) :=
  ⟨use_used hfind hr.terms_stored hr.version_stored fun p hp ↦
    ⟨_, hr.period_stored p hp, terms_period hr.terms_stored p, .inl ⟨rfl, rfl⟩⟩,
    fun _ hi ↦ use_other (terms_id hr.terms_stored ▸ hi)⟩

def Resets (rt : Runtime) (plans : Plans) (now : ℤ) (c : UserSubscription) (r : ResetResult) :
    Prop :=
  ∃ plan, getSubscriptionPlanById plans c.planId = .ok plan ∧
    maybeResetUserSubscriptionWithPlan rt c plan now = some r

theorem Resets.spec (h : Resets rt plans now row r) : ResetSpec rt row now r := by
  obtain ⟨plan, -, hr⟩ := h
  exact maybeReset_spec hr

theorem Resets.settle (h : Resets rt plans now row r) :
    resetBeforeSettle rt plans now row = .ok r := by
  obtain ⟨plan, hplan, hr⟩ := h
  rw [getSubscriptionPlanById] at hplan
  split at hplan
  · simp at hplan
  next hpos =>
    rw [resetBeforeSettle, if_pos (not_le.1 hpos), required_eq_ok.1 hplan]
    exact ofOption_eq_ok.2 hr

/-- A reservation is charged to a grant or to the primary quota: its record, the row, what the
primary quota and the counter of the bucket take, and the result. -/
inductive ChargedTo (rt : Runtime) (req : PreConsumeRequest) (resource : Option Entitlement)
    (r : ResetResult) :
    PreConsumeRecord → UserSubscription → ℤ → ℤ → PreConsumeResult → Prop
  | grant {amount charge used : ℤ} {index : ℕ} {grant : ResourceGrant}
      (hchoose : chooseGrant rt r.sub.resourceGrants req.modelName resource amount =
        .grant index charge)
      (hgrant : r.sub.resourceGrants[index]? = some grant)
      (hused : applyUsageDelta grant.used charge = .ok used) :
      ChargedTo rt req resource r
        ⟨req.requestId, req.userId, r.sub.id, amount, grant.resourceKey, some grant.resourceType,
          charge, .consumed⟩
        (setGrantUsed r.sub index used) 0 (used - grant.used)
        ⟨r.sub.id, r.sub.billingRatio, amount, r.sub.amountTotal, r.sub.amountUsed,
          r.sub.amountUsed, grant.resourceKey, some grant.resourceType, charge, used⟩
  | primary {amount : ℤ} {sub : UserSubscription} (hcap : hasPrimaryCapacity r.sub amount = true)
      (hsub : chargePrimary r.sub amount = .ok sub) :
      ChargedTo rt req resource r
        ⟨req.requestId, req.userId, r.sub.id, amount, "", none, 0, .consumed⟩
        sub amount (sub.amountUsed - r.sub.amountUsed)
        { userSubscriptionId := r.sub.id
          billingRatio := r.sub.billingRatio
          preConsumed := amount
          amountTotal := r.sub.amountTotal
          amountUsedBefore := r.sub.amountUsed
          amountUsedAfter := sub.amountUsed }

/-- What trying a candidate comes to: it is passed over, perhaps after its reset, or its request
is answered from a record that is there by then, or charged. -/
inductive Tried (rt : Runtime) (plans : Plans) (now : ℤ) (db : Db) (req : PreConsumeRequest)
    (resource : Option Entitlement) (c : UserSubscription) : Db → Option PreConsumeResult → Prop
  | skipped : Tried rt plans now db req resource c db none
  | passed {r : ResetResult} (heligible : eligible rt req c = true) (hr : Resets rt plans now c r) :
      Tried rt plans now db req resource c (db.use r.stored now r.cleared 0 0) none
  | replayed {r : ResetResult} {record : PreConsumeRecord} {answer : PreConsumeResult}
      (heligible : eligible rt req c = true)
      (hr : Resets rt plans now c r) (hrecord : db.records.find req.requestId = some record)
      (hanswer : replayRecord (db.use r.stored now r.cleared 0 0) record = .ok answer) :
      Tried rt plans now db req resource c (db.use r.stored now r.cleared 0 0) (some answer)
  | charged {r : ResetResult} {record : PreConsumeRecord} {sub : UserSubscription}
      {primary taken : ℤ} {result : PreConsumeResult} {records : Table PreConsumeRecord.requestId}
      (heligible : eligible rt req c = true)
      (hr : Resets rt plans now c r) (hcreate : db.records.create record = some records)
      (hcharge : ChargedTo rt req resource r record sub primary taken result) :
      Tried rt plans now db req resource c
        ({ db with records }.use sub now r.cleared primary taken) (some result)

theorem ChargedTo.requestId (h : ChargedTo rt req resource r record sub primary taken result) :
    record.requestId = req.requestId := by
  cases h <;> rfl

theorem tried_of_commit {charge : Call SubscriptionError UserSubscription}
    {taken : UserSubscription → ℤ} {result : UserSubscription → PreConsumeResult}
    (heligible : eligible rt req c = true) (hr : Resets rt plans now c r)
    (hkey : record.requestId = req.requestId)
    (hcharge : ∀ sub, charge = .ok sub →
      ChargedTo rt req resource r record sub primary (taken sub) (result sub))
    (h : commitReservation now db r record charge primary taken result = .ok (db', out)) :
    Tried rt plans now db req resource c db' out := by
  rw [commitReservation] at h
  split at h
  next records hcreate =>
    obtain ⟨sub, hsub, hout⟩ := bind_eq_ok.1 h
    cases hout
    exact .charged heligible hr hcreate (hcharge sub hsub)
  · simp only [bind_eq_ok, required_eq_ok] at h
    obtain ⟨record, hrecord, answer, hanswer, hout⟩ := h
    cases hout
    exact .replayed heligible hr (hkey ▸ hrecord) hanswer

theorem tryCandidate_tried (h : tryCandidate rt plans now db req resource c = .ok (db', out)) :
    Tried rt plans now db req resource c db' out := by
  rw [tryCandidate] at h
  split at h
  next heligible =>
    simp only [bind_eq_ok, ofOption_eq_ok] at h
    obtain ⟨plan, hplan, r, hmaybe, amount, -, h⟩ := h
    have hr : Resets rt plans now c r := ⟨plan, hplan, hmaybe⟩
    simp only [reserveCandidate] at h
    split at h
    · cases h
      exact .passed heligible hr
    next index charge hchoose =>
      simp only [bind_eq_ok, required_eq_ok, ofExcept_eq_ok] at h
      obtain ⟨grant, hgrant, used, hused, hout⟩ := h
      refine tried_of_commit heligible hr rfl (fun sub hsub ↦ ?_) hout
      cases hsub
      exact .grant hchoose hgrant hused
    · split at h
      next hcap =>
        exact tried_of_commit heligible hr rfl
          (fun _ hsub ↦ .primary (Bool.and_eq_true_iff.1 hcap).2 hsub) h
      · cases h
        exact .passed heligible hr
  · cases h
    exact .skipped

theorem ChargedTo.usesOnly (hfind : db.subs.find row.id = some row) (hr : ResetSpec rt row now r)
    (h : ChargedTo rt req resource r record sub primary taken result) :
    UsesOnly rt now row db (db.use sub now r.cleared primary taken) := by
  have hid : r.sub.id = row.id := terms_id hr.terms
  cases h with
  | @grant _ _ used index =>
    obtain ⟨hterms, hperiod, hversion⟩ := setGrantUsed_spec r.sub index used
    refine ⟨use_used hfind (hterms.trans hr.terms) (hversion ▸ hr.version) fun p hp ↦ ?_,
      fun i hi ↦ use_other (hid ▸ hi)⟩
    exact ⟨_, hr.period p hp, terms_period hr.terms p, .inl ⟨hperiod p, rfl⟩⟩
  | primary hcap hsub =>
    have hcharged := chargePrimary_spec hcap hsub
    exact ⟨used_of_charge hfind hr hcharged,
      fun i hi ↦ use_other (by rw [terms_id hcharged.terms, hid]; exact hi)⟩

theorem tryCandidate_row (hfind : db.subs.find c.id = some c)
    (h : tryCandidate rt plans now db req resource c = .ok (db', out)) :
    db' = db ∨ eligible rt req c = true ∧ UsesOnly rt now c db db' := by
  cases tryCandidate_tried h with
  | skipped => exact .inl rfl
  | passed heligible hr | replayed heligible hr =>
    exact .inr ⟨heligible, usesOnly_of_reset hfind hr.spec⟩
  | @charged _ _ _ _ _ _ records heligible hr hcreate hcharge =>
    have honly : UsesOnly rt now c { db with records } _ := hcharge.usesOnly hfind hr.spec
    exact .inr ⟨heligible, honly.used.of_untouched (.of_records records),
      fun i hi ↦ (Untouched.of_records records).trans (honly.frame i hi)⟩

theorem tryCandidate_frame (hfind : db.subs.find c.id = some c)
    (h : tryCandidate rt plans now db req resource c = .ok (db', out)) (i : ℤ) (hi : i ≠ c.id) :
    Untouched i db db' := by
  rcases tryCandidate_row hfind h with rfl | ⟨-, honly⟩
  · exact .refl i _
  · exact honly.frame i hi

/-- The rule for the loop over candidates with different ids: a candidate is tried on the row that
was selected, since the candidates before it have left the row alone. -/
theorem preConsumeLoop_rule {cs : List UserSubscription}
    (hchosen : ∀ db c cs, db.subs.find c.id = some c →
      tryCandidate rt plans now db req resource c = .ok (db', some result) → motive db (c :: cs))
    (hpassed : ∀ db db₁ c cs, db.subs.find c.id = some c → c.id ∉ cs.map UserSubscription.id →
      tryCandidate rt plans now db req resource c = .ok (db₁, none) → motive db₁ cs →
      motive db (c :: cs))
    (hnodup : (cs.map UserSubscription.id).Nodup) (hfind : ∀ c ∈ cs, db.subs.find c.id = some c)
    (h : preConsumeLoop rt plans now req resource db cs = .ok (db', result)) : motive db cs := by
  induction cs generalizing db with
  | nil => simp [preConsumeLoop] at h
  | cons c cs ih =>
    rw [map_cons, nodup_cons] at hnodup
    obtain ⟨⟨db₁, out⟩, htry, hrest⟩ := bind_eq_ok.1 h
    have hc := hfind c mem_cons_self
    cases out with
    | some result' =>
      cases hrest
      exact hchosen db c cs hc htry
    | none =>
      refine hpassed db db₁ c cs hc hnodup.1 htry (ih hnodup.2 ?_ hrest)
      intro d hd
      have hne : d.id ≠ c.id := fun he ↦ hnodup.1 (he ▸ mem_map_of_mem hd)
      rw [(tryCandidate_frame hc htry d.id hne).find]
      exact hfind d (mem_cons_of_mem c hd)

theorem resetDueLoop_rule {ss : List UserSubscription} {n : ℕ} (hdone : motive db' [])
    (hskipped : ∀ db s rest, motive db rest → motive db (s :: rest))
    (hreset : ∀ db s rest row plan r, s.id ∉ rest.map UserSubscription.id →
      (if 0 < s.planId then plans s.planId else none) = some plan → db.subs.find s.id = some row →
      isDue now row = true → maybeResetUserSubscriptionWithPlan rt row plan now = some r →
      motive (db.use r.stored now r.cleared 0 0) rest → motive db (s :: rest))
    (hnodup : (ss.map UserSubscription.id).Nodup)
    (h : resetDueLoop rt plans now db ss = .ok (db', n)) : motive db ss := by
  induction ss generalizing db n with
  | nil =>
    cases h
    exact hdone
  | cons s rest ih =>
    rw [map_cons, nodup_cons] at hnodup
    rw [resetDueLoop] at h
    split at h
    · exact hskipped db s rest (ih hnodup.2 h)
    rename_i plan hplan
    split at h
    · exact hskipped db s rest (ih hnodup.2 h)
    rename_i row hrow
    obtain ⟨hfind, hdue⟩ := Option.filter_eq_some_iff.1 hrow
    simp only [bind_eq_ok, ofOption_eq_ok] at h
    obtain ⟨r, hr, ⟨db₁, m⟩, hrest, hout⟩ := h
    cases hout
    exact hreset db s rest row plan r hnodup.1 hplan hfind hdue hr (ih hnodup.2 hrest)

end Moligate.Subscription
