import Moligate.Tasks.Pricing

namespace Moligate.Tasks.Pricing

open Foundation Common Option List Except Subscription Billing Float64 TaskInfo PriceData

def addValid (m ratios : Ratios) : Ratios :=
  ratios.entries.foldl (fun m e ↦ if isValidOtherRatio e.2 then m.insert e.1 e.2 else m) m

def ratioProduct (m : Ratios) : ℚ :=
  m.entries.foldl (fun v e ↦ if isValidOtherRatio e.2 && e.2 ≠ 1 then v * e.2 else v) 1

theorem PriceData.addOtherRatios_eq (p : PriceData) (ratios : Ratios) :
    p.addOtherRatios ratios = { p with otherRatios := addValid p.otherRatios ratios } := by
  rw [addOtherRatios, addValid]
  generalize ratios.entries = es
  induction es generalizing p with
  | nil => rfl
  | cons e es ih =>
    rw [foldl_cons, foldl_cons, ih, addOtherRatio]
    cases isValidOtherRatio e.2 <;> rfl

def TaskInfo.ratios (info : TaskInfo) : Ratios := addValid ∅ info.estimatedRatios

def TaskInfo.multiplier (info : TaskInfo) : ℚ := ratioProduct info.ratios

theorem ratios_of_isEmpty {info : TaskInfo} (h : info.estimatedRatios.entries.isEmpty = true) :
    info.ratios = ∅ := by
  rw [ratios, addValid, isEmpty_iff.1 h]
  rfl

theorem multiplier_of_isEmpty {info : TaskInfo}
    (h : info.estimatedRatios.entries.isEmpty = true) : info.multiplier = 1 := by
  rw [multiplier, ratios_of_isEmpty h]
  rfl

variable {rt : Subscription.Runtime} {s : Settings} {a : Attempt} {info info₀ priced : TaskInfo}
  {u : UnitPrice} {ρ : ℚ}

def callQuota (s : Settings) (info : TaskInfo) (u : UnitPrice) (ρ : ℚ) :
    Except QuotaClamp (ℤ × Option QuotaClamp) := do
  let quota ← quotaFromFloatStrict (.finite (u.base s * ρ))
  if isPatched s info then pure (quota, none)
  else pure (quotaFromFloatChecked (.finite (quota * info.multiplier)))

theorem UnitPrice.base_of_isZero (h : u.isZero = true) : u.base s = 0 := by
  rw [isZero] at h
  rw [base]
  split at h
  next hp => rw [if_pos hp, of_decide_eq_true h, zero_mul]
  next hp => rw [if_neg hp, of_decide_eq_true h, zero_div, zero_mul]

theorem quotaFromFloatStrict_zero : quotaFromFloatStrict (.finite 0) = .ok 0 := by
  decide +kernel

theorem addEstimate_eq {p : PriceData} (hp : p.otherRatios = ∅) :
    addEstimate info p =
      { p with
        otherRatios := info.ratios
        baseQuotaBeforeGroup := p.baseQuotaBeforeGroup * info.multiplier } := by
  rw [addEstimate]
  split
  next h =>
    rw [ratios_of_isEmpty h, multiplier_of_isEmpty h, mul_one, ← hp]
  · simp only [addOtherRatios_eq, hp]
    rfl

structure Priced (s : Settings) (a : Attempt) (info priced : TaskInfo) (u : UnitPrice) : Prop where
  unit : unitPrice s info = .ok u
  quota : ∃ clamp, priced.quotaClamp = (info.quotaClamp <|> clamp) ∧
    callQuota s info u (handleGroupRatio s info).groupRatio = .ok (priced.priceData.quota, clamp)
  base : priced.priceData.baseQuotaBeforeGroup = u.base s * info.multiplier
  ratios : priced.priceData.otherRatios = info.ratios
  group : priced.priceData.groupRatioInfo = handleGroupRatio s info
  free : priced.priceData.freeModel = true → u.base s * (handleGroupRatio s info).groupRatio = 0
  rest : priced =
    { info with priceData := priced.priceData, quotaClamp := priced.quotaClamp }

theorem price_ok (h : price s a info = .ok priced) : ∃ u, Priced s a info priced u := by
  obtain ⟨p, hprice, h⟩ := except_bind_eq_ok.1 h
  obtain ⟨u, hu, hprice⟩ := except_bind_eq_ok.1 hprice
  obtain ⟨quota, hq, hprice⟩ := except_bind_eq_ok.1 hprice
  rw [Call.mapError_eq_ok] at hq
  refine ⟨u, ?_⟩
  obtain rfl := ok.inj hprice
  obtain rfl := ok.inj h
  -- a free call costs nothing anyway
  have hzero (hf : (!s.enableFreeModelPreConsume && ((handleGroupRatio s info).groupRatio = 0 ||
      u.isZero)) = true) : u.base s * (handleGroupRatio s info).groupRatio = 0 := by
    rcases Bool.or_eq_true_iff.1 (Bool.and_eq_true_iff.1 hf).2 with h | h
    · rw [of_decide_eq_true h, mul_zero]
    · rw [UnitPrice.base_of_isZero h, zero_mul]
  rw [addEstimate_eq rfl, ite_eq_right_iff.2 fun hf ↦ by
    rw [hzero hf, quotaFromFloatStrict_zero] at hq
    exact ok.inj hq]
  cases hp : isPatched s info with
  | true =>
    have hp' (p : PriceData) : isPatched s { info with priceData := p } = true := hp
    simp only [applyRatios, hp', if_true]
    exact ⟨hu, ⟨none, by simp, by simp [callQuota, hq, hp, bind, Except.bind, pure, Except.pure]⟩,
      rfl, rfl, rfl, fun h ↦ hzero (Bool.and_eq_true_iff.1 h).1, rfl⟩
  | false =>
    have hp' (p : PriceData) : isPatched s { info with priceData := p } = false := hp
    simp only [applyRatios, hp', Bool.false_eq_true, if_false]
    exact ⟨hu, ⟨_, rfl, by simp only [callQuota, hq, hp]; rfl⟩, rfl, rfl, rfl,
      fun h ↦ hzero (Bool.and_eq_true_iff.1 h).1, rfl⟩

theorem ratioProduct_pos (m : Ratios) : 0 < ratioProduct m := by
  have hfold (es : List (Σ _ : String, ℚ)) (v : ℚ) (hv : 0 < v) : 0 < es.foldl
      (fun v e ↦ if isValidOtherRatio e.2 && e.2 ≠ 1 then v * e.2 else v) v := by
    induction es generalizing v with
    | nil => exact hv
    | cons e es ih =>
      rw [foldl_cons]
      apply ih
      split
      next h => exact mul_pos hv (of_decide_eq_true (Bool.and_eq_true_iff.1 h).1)
      · exact hv
  exact hfold m.entries 1 one_pos

/-- The rounding that comes before the ratios of the request loses nothing: there are none, or the
price at this group ratio is integral and takes the ratios. -/
def RoundsOnce (s : Settings) (info : TaskInfo) (u : UnitPrice) (ρ : ℚ) : Prop :=
  info.estimatedRatios.entries.isEmpty = true ∨ isPatched s info = false ∧ (u.base s * ρ).den = 1

variable {c : Option QuotaClamp} {quota q : ℤ} {r : Float64}

theorem callQuota_ok (hcall : callQuota s info u ρ = .ok (q, c)) :
    ∃ q₀, quotaFromFloatStrict (.finite (u.base s * ρ)) = .ok q₀ ∧
      (if isPatched s info then (q₀, none)
        else quotaFromFloatChecked (.finite (q₀ * info.multiplier))) = (q, c) := by
  obtain ⟨q₀, hq₀, hcall⟩ := except_bind_eq_ok.1 hcall
  refine ⟨q₀, hq₀, ?_⟩
  split_ifs at hcall ⊢ <;> exact ok.inj hcall

theorem callQuota_eq {q' : ℤ} (hround : RoundsOnce s info u ρ)
    (hcall : callQuota s info u ρ = .ok (q, c))
    (hq : quotaFromFloatStrict (.finite (u.base s * info.multiplier * ρ)) = .ok q') : q = q' := by
  obtain ⟨q₀, hq₀, hcall⟩ := callQuota_ok hcall
  rcases hround with hempty | ⟨hpatched, hden⟩
  · rw [multiplier_of_isEmpty hempty, mul_one, hq₀] at hq
    cases hq
    have hagain := quotaFromFloatChecked_toInt (quotaFromFloatStrict_eq_ok.1 hq₀)
    simp only [multiplier_of_isEmpty hempty, mul_one, hagain, ite_self] at hcall
    exact (Prod.mk.inj hcall).1.symm
  · have hint : (((u.base s * ρ).num : ℤ) : ℚ) = u.base s * ρ := Rat.coe_int_num_of_den_eq_one hden
    have hq₀' : (q₀ : ℚ) = u.base s * ρ := by
      rw [← hint, quotaFromFloatStrict_eq_ok, quotaFromFloatChecked_finite] at hq₀
      rw [hq₀.2.2, toInt_intCast, hint]
    have hprod : (q₀ : ℚ) * info.multiplier = u.base s * info.multiplier * ρ := by
      rw [hq₀', mul_right_comm]
    simp only [hpatched, Bool.false_eq_true, if_false, hprod, quotaFromFloatStrict_eq_ok.1 hq] at hcall
    exact (Prod.mk.inj hcall).1.symm

theorem callQuota_nonpos (hbase : u.base s * ρ ≤ 0)
    (hcall : callQuota s info u ρ = .ok (q, c)) (hq : 0 ≤ q) : q = 0 := by
  have hle {x : ℚ} (hx : x ≤ 0) : toInt (.finite x) ≤ 0 :=
    Int.lt_add_one_iff.1 (toInt_lt one_pos (lt_of_le_of_lt hx one_pos))
  obtain ⟨q₀, hq₀, hcall⟩ := callQuota_ok hcall
  have hq₀le : q₀ ≤ 0 := by
    rw [quotaFromFloatStrict_eq_ok, quotaFromFloatChecked_finite] at hq₀
    exact hq₀.2.2 ▸ hle hbase
  split at hcall
  · obtain rfl := (Prod.mk.inj hcall).1
    omega
  have hprod : (q₀ : ℚ) * info.multiplier ≤ 0 :=
    mul_nonpos_of_nonpos_of_nonneg (Int.cast_nonpos.2 hq₀le) (le_of_lt (ratioProduct_pos _))
  simp only [quotaFromFloatChecked, saturateQuota, isNaN, Float64.ge, Float64.le,
    decide_eq_true_eq, Bool.false_eq_true, if_false] at hcall
  have hmax : ¬ (maxQuota : ℚ) ≤ q₀ * info.multiplier := by
    apply not_le_of_gt
    exact lt_of_le_of_lt hprod (by norm_num [maxQuota])
  rw [if_neg hmax] at hcall
  split at hcall
  · obtain rfl := (Prod.mk.inj hcall).1
    exact absurd hq (by decide)
  · obtain rfl := (Prod.mk.inj hcall).1
    exact le_antisymm (hle hprod) hq

theorem fixedRatio?_of_valid (h : validBillingRatio r = true) :
    ∃ q, r = .finite q ∧ 0 < q ∧ fixedRatio? r = some q := by
  cases r with
  | nan => simp [validBillingRatio, isNaN] at h
  | inf n => simp [validBillingRatio, isInf] at h
  | finite q =>
    simp only [validBillingRatio, Float64.le, Float64.gt, isNaN,
      isInf, Bool.or_false, Bool.not_eq_true', Bool.or_eq_false_iff,
      decide_eq_false_iff_not, not_le, not_lt] at h
    exact ⟨q, rfl, h.1, by rw [fixedRatio?, if_pos h]⟩

theorem subscriptionQuote_ratio {req : RelayRequest} {live : ℤ} {read : Option Float64}
    (h : (subscriptionQuote rt req live read).2 = some r) :
    r.le 0 = true ∨ ∃ q, r = .finite q ∧ 0 < q := by
  cases read with
  | none => cases h
  | some ratio =>
  cases hq : subscriptionQuotaForRatio rt req live ratio with
  | none => simp only [subscriptionQuote, hq] at h; cases h
  | some quota =>
  simp only [subscriptionQuote, hq] at h
  split at h
  · cases h
  obtain rfl := some.inj h
  cases ratio with
  | nan => simp [subscriptionQuotaForRatio, Float64.le, Float64.gt, isNaN] at hq
  | inf n =>
    cases n with
    | true => exact .inl rfl
    | false =>
      simp [subscriptionQuotaForRatio, Float64.le, Float64.gt, isInf] at hq
  | finite q =>
    by_cases hpos : 0 < q
    · exact .inr ⟨q, rfl, hpos⟩
    · exact .inl (decide_eq_true (not_lt.1 hpos))

/-- The price of the request with its ratios, before the group, is the same under both roundings
for the source that is selected. The minimum charge of a subscription is 1. -/
def SteadyPrice (s : Settings) (info : TaskInfo) (a : Attempt) : Prop :=
  ∀ u, unitPrice s info = .ok u →
    match a.selected with
    | none => True
    | some .wallet =>
      a.firstQuote = none ∨ 0 ≤ liveGroupRatio s info ∧ RoundsOnce s info u (liveGroupRatio s info)
    | some (.subscription sub) => ∀ ρ, sub.billingRatio = .finite ρ →
        RoundsOnce s info u ρ ∧ 1 ≤ u.base s * info.multiplier * ρ

theorem liveGroupRatioInfo_groupRatio :
    (liveGroupRatioInfo s info).groupRatio = liveGroupRatio s info := by
  rw [liveGroupRatioInfo, liveGroupRatio]
  cases s.groupGroupRatio info.userGroup info.request.usingGroup <;> rfl

theorem handleGroupRatio_of_wallet (h : info.billingSource ≠ some .subscription) :
    handleGroupRatio s info = liveGroupRatioInfo s info := if_neg h

section

variable (hfinite : ∀ q, rt.roundFloat q = .finite q) (hp : Priced s a info priced u)
include hfinite hp

theorem restoreWalletPriceSnapshot_eq {fixed : ℚ} (hfixed : 0 < fixed)
    (hsource : info.billingSource = none) (hlive : 0 ≤ liveGroupRatio s info)
    (hround : RoundsOnce s info u (liveGroupRatio s info)) (hq : 0 ≤ priced.priceData.quota) :
    restoreWalletPriceSnapshot rt priced.relayRequest (.finite (liveGroupRatio s info))
      priced.priceData.quota (.finite fixed) = priced.priceData.quota := by
  obtain ⟨clamp, -, hcall⟩ := hp.quota
  rw [handleGroupRatio_of_wallet (by rw [hsource]; decide), liveGroupRatioInfo_groupRatio] at hcall
  have hle : ¬ (finite fixed).le 0 = true := by simp [Float64.le, hfixed]
  rw [restoreWalletPriceSnapshot, if_neg hle]
  simp only [relayRequest, hp.base, Float64.gt, Float64.le, mul, div, hfinite, decide_eq_true_eq]
  split
  · cases hstrict : quotaFromFloatStrict
        (.finite (u.base s * info.multiplier * liveGroupRatio s info)) with
    | error e => rfl
    | ok quota => exact (callQuota_eq hround hcall hstrict).symm
  next hbase =>
    -- a price that is not positive is 0, since it was not refused
    have hbase' : u.base s ≤ 0 :=
      not_lt.1 fun h ↦ hbase (mul_pos h (ratioProduct_pos _))
    have hzero : priced.priceData.quota = 0 := callQuota_nonpos
      (mul_nonpos_of_nonpos_of_nonneg hbase' hlive) hcall hq
    rw [hzero]
    split
    · rfl
    · rw [if_neg (ne_of_gt hfixed), Int.cast_zero, zero_mul, zero_div, quotaFromFloatStrict_zero]
      rfl

theorem fundFromWallet_quota (hsource : info.billingSource = none)
    (hsteady : a.firstQuote = none ∨
      0 ≤ liveGroupRatio s info ∧ RoundsOnce s info u (liveGroupRatio s info))
    (hq : 0 ≤ priced.priceData.quota) :
    (fundFromWallet rt s a priced).priceData.quota = priced.priceData.quota ∧
      (fundFromWallet rt s a priced).priceData.otherRatios = priced.priceData.otherRatios := by
  have hlive : liveGroupRatio s priced = liveGroupRatio s info := by rw [hp.rest]; rfl
  simp only [fundFromWallet, hlive]
  cases hquote : (subscriptionQuote rt priced.relayRequest priced.priceData.quota a.firstQuote).2 with
  | none => exact ⟨rfl, rfl⟩
  | some r =>
    rcases hsteady with hnone | ⟨hnonneg, hround⟩
    · rw [hnone] at hquote
      cases hquote
    · rcases subscriptionQuote_ratio hquote with hle | ⟨fixed, rfl, hfixed⟩
      · simp [hle]
      · have hle : (finite fixed).le 0 = false := by simp [Float64.le, hfixed]
        simp only [hle, Bool.false_eq_true, if_false, and_true]
        exact restoreWalletPriceSnapshot_eq hfinite hp hfixed hsource hnonneg hround hq

/-- The amount that a subscription reserves comes from the price before any rounding. -/
theorem candidateAmount_eq {sub : UserSubscription} {amount : ℤ}
    (hratio : sub.billingRatio = .finite ρ) (hρ : 0 < ρ) (hone : 1 ≤ u.base s * info.multiplier * ρ)
    (h : candidateAmount rt (subscriptionRequest rt a priced) sub = .ok amount) :
    quotaFromFloatStrict (.finite (u.base s * info.multiplier * ρ)) = .ok amount := by
  have hbase : 0 < u.base s * info.multiplier :=
    (mul_pos_iff_of_pos_right hρ).1 (lt_of_lt_of_le one_pos hone)
  simp only [candidateAmount, subscriptionRequest, hp.base, hratio, Float64.gt,
    isNaN, isInf, mul, hfinite, hbase, hρ, decide_true,
    Bool.not_false, Bool.and_true, if_true] at h
  cases hq : quotaFromFloatStrict (.finite (u.base s * info.multiplier * ρ)) with
  | error e => rw [hq] at h; cases h
  | ok quota =>
    rw [hq] at h
    have hpos : ¬ quota ≤ 0 := by
      rw [quotaFromFloatStrict_eq_ok, quotaFromFloatChecked_finite] at hq
      have := le_toInt (m := 1) one_pos.le (by exact_mod_cast hone)
      omega
    simp only [if_neg hpos] at h
    exact congrArg ok (ok.inj h)

end

structure SameTask (info₀ info : TaskInfo) : Prop where
  request : info.request = info₀.request
  userGroup : info.userGroup = info₀.userGroup
  accept : info.acceptUnsetRatioModel = info₀.acceptUnsetRatioModel
  estimated : info.estimatedRatios = info₀.estimatedRatios

theorem SameTask.trans (h : SameTask info₀ info) (h' : SameTask info priced) :
    SameTask info₀ priced :=
  ⟨h'.request.trans h.request, h'.userGroup.trans h.userGroup, h'.accept.trans h.accept,
    h'.estimated.trans h.estimated⟩

theorem Priced.same (h : Priced s a info priced u) : SameTask info priced := by
  rw [h.rest]
  exact ⟨rfl, rfl, rfl, rfl⟩

theorem SameTask.liveGroupRatioInfo_eq (h : SameTask info₀ info) :
    liveGroupRatioInfo s info = liveGroupRatioInfo s info₀ := by
  rw [liveGroupRatioInfo, liveGroupRatioInfo, h.request, h.userGroup]

theorem SameTask.ratios_eq (h : SameTask info₀ info) : info.ratios = info₀.ratios := by
  rw [ratios, ratios, h.estimated]

theorem SameTask.callQuota_eq (h : SameTask info₀ info) :
    callQuota s info u ρ = callQuota s info₀ u ρ := by
  have hpatched : isPatched s info = isPatched s info₀ := by rw [isPatched, isPatched, h.request]
  have hmultiplier : info.multiplier = info₀.multiplier := congrArg ratioProduct h.ratios_eq
  rw [callQuota, callQuota, hpatched, hmultiplier]

structure Opened (s : Settings) (info₀ info : TaskInfo) (u : UnitPrice) (quota : ℤ) : Prop where
  same : SameTask info₀ info
  billing : info.billing.isSome = true
  again : ∀ q c, callQuota s info₀ u (handleGroupRatio s info).groupRatio = .ok (q, c) → q = quota

theorem Opened.price_eq (h : Opened s info₀ info u quota)
    (hu : unitPrice s info₀ = .ok u) (hprice : price s a info = .ok priced) :
    Opened s info₀ priced u quota ∧ priced.priceData.quota = quota ∧
      priced.priceData.otherRatios = info₀.ratios := by
  obtain ⟨u', hp⟩ := price_ok hprice
  obtain rfl : u' = u := by
    have := hp.unit
    rw [unitPrice, h.same.request, h.same.accept, ← unitPrice, hu] at this
    exact (ok.inj this).symm
  obtain ⟨clamp, -, hcall⟩ := hp.quota
  have hgroup : handleGroupRatio s priced = handleGroupRatio s info := by rw [hp.rest]; rfl
  refine ⟨⟨h.same.trans hp.same, ?_, ?_⟩, ?_, hp.ratios.trans h.same.ratios_eq⟩
  · rw [hp.rest]
    exact h.billing
  · rw [hgroup]
    exact h.again
  · exact h.again _ _ (h.same.callQuota_eq ▸ hcall)

theorem Opened.openBilling_eq (h : Opened s info₀ info u quota) :
    openBilling rt s a info = (info, none) := by
  rw [openBilling, isNone_eq_false_iff.2 h.billing]
  rfl

section

variable {opened : TaskInfo}

theorem openBilling_cases (hnone : priced.billing = none)
    (h : openBilling rt s a priced = (opened, none)) :
    (priced.priceData.freeModel = true ∧ opened = priced) ∨
      priced.quotaClamp = none ∧ 0 ≤ priced.priceData.quota ∧
        ((a.selected = some .wallet ∧ opened = fundFromWallet rt s a priced) ∨
          ∃ sub amount, a.selected = some (.subscription sub) ∧
            candidateAmount rt (subscriptionRequest rt a priced) sub = .ok amount ∧
            opened = fundFromSubscription priced sub amount) := by
  rw [openBilling] at h
  split at h
  · right
    rw [preConsumeBilling] at h
    split at h
    · cases h
    rename_i hclamp
    split at h
    · cases h
    rename_i hq
    refine ⟨hclamp, not_lt.1 hq, ?_⟩
    split at h
    · cases h
    next hsel => exact .inl ⟨hsel, (Prod.mk.inj h).1.symm⟩
    next sub hsel =>
      split at h
      · cases h
      next amount hamount =>
        exact .inr ⟨sub, amount, hsel, hamount, (Prod.mk.inj h).1.symm⟩
  next hskip =>
    left
    rw [hnone, isNone_none, Bool.true_and, Bool.not_eq_true', Bool.not_eq_false] at hskip
    exact ⟨hskip, (Prod.mk.inj h).1.symm⟩

variable (hfinite : ∀ q, rt.roundFloat q = .finite q)
include hfinite

theorem opened_fundFromWallet (hp : Priced s a info priced u) (hsource : info.billingSource = none)
    (hsteady : a.firstQuote = none ∨
      0 ≤ liveGroupRatio s info ∧ RoundsOnce s info u (liveGroupRatio s info))
    (hq : 0 ≤ priced.priceData.quota) :
    Opened s info (fundFromWallet rt s a priced) u
      (fundFromWallet rt s a priced).priceData.quota := by
  obtain ⟨clamp, -, hcall⟩ := hp.quota
  have hsame : SameTask info (fundFromWallet rt s a priced) := hp.same.trans ⟨rfl, rfl, rfl, rfl⟩
  refine ⟨hsame, rfl, fun q c hq' ↦ ?_⟩
  have hlive : handleGroupRatio s (fundFromWallet rt s a priced) = handleGroupRatio s info := by
    rw [handleGroupRatio_of_wallet (by simp [fundFromWallet]), hsame.liveGroupRatioInfo_eq,
      handleGroupRatio_of_wallet (by rw [hsource]; decide)]
  rw [hlive, hcall] at hq'
  rw [(fundFromWallet_quota hfinite hp hsource hsteady hq).1]
  exact (Prod.mk.inj (ok.inj hq')).1.symm

theorem opened_fundFromSubscription (hp : Priced s a info priced u)
    {sub : UserSubscription} {amount : ℤ} (hvalid : validBillingRatio sub.billingRatio = true)
    (hsteady : ∀ ρ, sub.billingRatio = .finite ρ →
      RoundsOnce s info u ρ ∧ 1 ≤ u.base s * info.multiplier * ρ)
    (h : candidateAmount rt (subscriptionRequest rt a priced) sub = .ok amount) :
    Opened s info (fundFromSubscription priced sub amount) u
      (fundFromSubscription priced sub amount).priceData.quota := by
  obtain ⟨ρ, hratio, hρ, hfixed⟩ := fixedRatio?_of_valid hvalid
  obtain ⟨hround, hone⟩ := hsteady ρ hratio
  have hamount := candidateAmount_eq hfinite hp hratio hρ hone h
  refine ⟨hp.same.trans ⟨rfl, rfl, rfl, rfl⟩, rfl, fun q c hq ↦ ?_⟩
  have hgroup : (handleGroupRatio s (fundFromSubscription priced sub amount)).groupRatio = ρ := by
    have hsource : (fundFromSubscription priced sub amount).billingSource = some .subscription := rfl
    rw [handleGroupRatio, if_pos hsource, applySubscriptionBillingRatio]
    simp [fundFromSubscription, hfixed]
  rw [hgroup] at hq
  have hquota : (fundFromSubscription priced sub amount).priceData.quota = amount := by
    simp [fundFromSubscription, hfixed]
  rw [hquota]
  exact callQuota_eq hround hq hamount

theorem openBilling_first (hp : Priced s a info priced u) (hfresh : info.Fresh)
    (hvalid : ∀ sub, a.selected = some (.subscription sub) →
      validBillingRatio sub.billingRatio = true) (hsteady : SteadyPrice s info a)
    (h : openBilling rt s a priced = (opened, none)) :
    (priced.priceData.freeModel = true ∧ opened = priced) ∨
      Opened s info opened u opened.priceData.quota ∧
        opened.priceData.otherRatios = info.ratios := by
  have hsteady := hsteady u hp.unit
  have hnone : priced.billing = none := by rw [hp.rest]; exact hfresh.billing
  rcases openBilling_cases hnone h with
    hfree | ⟨-, hq, ⟨hsel, rfl⟩ | ⟨sub, amount, hsel, hamount, rfl⟩⟩
  · exact .inl hfree
  · rw [hsel] at hsteady
    exact .inr ⟨opened_fundFromWallet hfinite hp hfresh.billingSource hsteady hq,
      (fundFromWallet_quota hfinite hp hfresh.billingSource hsteady hq).2.trans hp.ratios⟩
  · rw [hsel] at hsteady
    exact .inr ⟨opened_fundFromSubscription hfinite hp (hvalid sub hsel) hsteady hamount,
      .trans (by rw [fundFromSubscription]; cases fixedRatio? sub.billingRatio <;> rfl) hp.ratios⟩

end

theorem adjustBilling_quota (ratios : Ratios) :
    (adjustBilling info ratios).priceData.quota =
      if (addValid ∅ ratios).entries.isEmpty then info.priceData.quota
      else
        (quotaFromFloatChecked (.finite
          (info.priceData.removeOtherRatiosFromFloat info.priceData.quota *
            ratioProduct (addValid ∅ ratios)))).1 := by
  simp only [adjustBilling, recalcQuotaFromRatios, replaceOtherRatios,
    addOtherRatios_eq, hasOtherRatios]
  cases (addValid ∅ ratios).entries.isEmpty <;> rfl

theorem applyRatios_priceData :
    (applyRatios s info).priceData = if isPatched s info then info.priceData
      else
        { info.priceData with
          quota := (quotaFromFloatChecked (.finite
            (info.priceData.applyOtherRatiosToFloat info.priceData.quota))).1 } := by
  rw [applyRatios]
  split <;> rfl

theorem price_priceData (p : PriceData) (c : Option QuotaClamp) :
    (price s a { info with priceData := p, quotaClamp := c }).map priceData =
      (price s a info).map priceData := by
  have hsame : modelPriceHelperPerCall s a { info with priceData := p, quotaClamp := c } =
      modelPriceHelperPerCall s a info := rfl
  simp only [price, hsame]
  cases modelPriceHelperPerCall s a info with
  | error e => rfl
  | ok p =>
    simp only [bind, Except.bind, pure, Except.pure, Except.map, applyRatios_priceData]
    rfl

section

variable {opened : TaskInfo} (hprice : price s a info = .ok priced)
  (hopen : openBilling rt s a priced = (opened, none))
include hprice hopen

theorem relayTaskSubmit_accepted {ratios : Ratios} (hup : a.upstream = .accepted ratios) :
    relayTaskSubmit rt s a info =
      (adjustBilling opened ratios, .ok (adjustBilling opened ratios).priceData.quota) := by
  simp [relayTaskSubmit, hprice, hopen, hup]

theorem relayTaskSubmit_error {stage : SubmitStage}
    (h : (relayTaskSubmit rt s a info).2 = .error (.upstream stage)) :
    (relayTaskSubmit rt s a info).1 = opened := by
  cases hup : a.upstream with
  | failed stage => simp [relayTaskSubmit, hprice, hopen, hup]
  | accepted ratios =>
    rw [relayTaskSubmit_accepted hprice hopen hup] at h
    cases h

theorem relayTaskSubmit_ok (h : (relayTaskSubmit rt s a info).2 = .ok quota) :
    ∃ ratios, a.upstream = .accepted ratios ∧
      quota = (adjustBilling opened ratios).priceData.quota := by
  cases hup : a.upstream with
  | failed stage =>
    simp [relayTaskSubmit, hprice, hopen, hup] at h
  | accepted ratios =>
    rw [relayTaskSubmit_accepted hprice hopen hup] at h
    exact ⟨ratios, rfl, (ok.inj h).symm⟩

end

theorem relayTaskSubmit_passed
    (h : (∃ stage, (relayTaskSubmit rt s a info).2 = .error (.upstream stage)) ∨
      ∃ quota, (relayTaskSubmit rt s a info).2 = .ok quota) :
    ∃ priced opened, price s a info = .ok priced ∧ openBilling rt s a priced = (opened, none) := by
  rw [relayTaskSubmit] at h
  cases hprice : price s a info with
  | error e =>
    rw [hprice] at h
    simp at h
  | ok priced =>
    rw [hprice] at h
    cases hopen : openBilling rt s a priced with
    | mk opened error =>
    cases error with
    | none => exact ⟨priced, opened, rfl, hopen⟩
    | some e =>
      simp only [hopen, error.injEq, reduceCtorEq, exists_false, or_false] at h
      -- only an upstream refuses with an upstream error
      obtain ⟨stage, rfl⟩ := h
      rw [openBilling, preConsumeBilling] at hopen
      repeat' split at hopen
      all_goals cases hopen

def afterAttempts (rt : Subscription.Runtime) (s : Settings) (info : TaskInfo)
    (attempts : List Attempt) : TaskInfo :=
  attempts.foldl (fun info a ↦ (relayTaskSubmit rt s a info).1) info

def FailAfterPreConsume (rt : Subscription.Runtime) (s : Settings) : TaskInfo → List Attempt → Prop
  | _, [] => True
  | info, a :: rest =>
    (∃ stage, (relayTaskSubmit rt s a info).2 = .error (.upstream stage)) ∧
      FailAfterPreConsume rt s (relayTaskSubmit rt s a info).1 rest

theorem Opened.afterAttempts (hu : unitPrice s info₀ = .ok u) (attempts : List Attempt)
    (h : Opened s info₀ info u quota) (hfail : FailAfterPreConsume rt s info attempts) :
    Opened s info₀ (afterAttempts rt s info attempts) u quota := by
  induction attempts generalizing info with
  | nil => exact h
  | cons a rest ih =>
    obtain ⟨⟨stage, herr⟩, hrest⟩ := hfail
    obtain ⟨priced, opened, hprice, hopen⟩ := relayTaskSubmit_passed (.inl ⟨stage, herr⟩)
    obtain ⟨hpriced, -, -⟩ := h.price_eq hu hprice
    obtain rfl := (Prod.mk.inj (hpriced.openBilling_eq.symm.trans hopen)).1
    rw [relayTaskSubmit_error hprice hopen herr] at hrest
    have hnext := ih hpriced hrest
    rwa [Pricing.afterAttempts, foldl_cons, relayTaskSubmit_error hprice hopen herr]

section

variable {b : Attempt} {c : Option QuotaClamp} {p : PriceData}
  (hfree : priced.priceData.freeModel = true) (hprice : price s a info = .ok priced)

include hprice in
theorem price_again {priced' : TaskInfo} (hactive : b.activeRatio = a.activeRatio)
    (h : price s b { info with priceData := p, quotaClamp := c } = .ok priced') :
    ∃ c, priced' = { info with priceData := priced.priceData, quotaClamp := c } := by
  have hattempt : price s b { info with priceData := p, quotaClamp := c } =
      price s a { info with priceData := p, quotaClamp := c } := by
    simp only [price, modelPriceHelperPerCall, hactive]
  have hdata : priced'.priceData = priced.priceData := by
    have hsame : (price s a { info with priceData := p, quotaClamp := c }).map priceData =
        (price s a info).map priceData := price_priceData p c
    rw [← hattempt, h, hprice] at hsame
    exact ok.inj hsame
  obtain ⟨u, hp⟩ := price_ok h
  refine ⟨priced'.quotaClamp, ?_⟩
  rw [← hdata]
  exact hp.rest

include hfree in
theorem openBilling_free : openBilling rt s b { info with priceData := priced.priceData, quotaClamp := c } =
    ({ info with priceData := priced.priceData, quotaClamp := c }, none) := by
  simp [openBilling, hfree]

include hfree hprice in
theorem free_afterAttempts (attempts : List Attempt)
    (hactive : ∀ b ∈ attempts, b.activeRatio = a.activeRatio)
    (hfail : FailAfterPreConsume rt s { info with priceData := p, quotaClamp := c } attempts) :
    ∃ p' c', afterAttempts rt s { info with priceData := p, quotaClamp := c } attempts =
      { info with priceData := p', quotaClamp := c' } := by
  induction attempts generalizing p c with
  | nil => exact ⟨p, c, rfl⟩
  | cons b rest ih =>
    obtain ⟨⟨stage, herr⟩, hrest⟩ := hfail
    obtain ⟨priced', opened, hprice', hopen⟩ := relayTaskSubmit_passed (.inl ⟨stage, herr⟩)
    obtain ⟨c', rfl⟩ := price_again hprice (hactive b mem_cons_self) hprice'
    obtain rfl := (Prod.mk.inj ((openBilling_free hfree).symm.trans hopen)).1
    rw [relayTaskSubmit_error hprice' hopen herr] at hrest
    have hnext := ih (fun b hb ↦ hactive b (mem_cons_of_mem _ hb)) hrest
    rwa [afterAttempts, foldl_cons, relayTaskSubmit_error hprice' hopen herr]

end

def exactFloats : Subscription.Runtime := ⟨0, .finite, id, id⟩

def fixedPrice : Settings where
  modelPrice _ := some (3 / 10)
  defaultModelPrice _ := none
  modelRatio _ := 0
  modelRatioSet _ := false
  matchName := id
  groupGroupRatio _ _ := none
  groupRatio _ := 1
  enableFreeModelPreConsume := false
  taskPricePatches := []

def videoRequest : RelayRequest where
  info := ⟨false, true, true, 0, 0, 0, none, none⟩
  requestId := "request"
  userId := 1
  originModelName := "sora-2"
  usingGroup := "default"
  billingPreference := "subscription_only"
  baseQuotaBeforeGroup := .finite 0
  groupRatio := .finite 1
  imageCount := none

private def tenSeconds : TaskInfo where
  request := videoRequest
  userGroup := "default"
  estimatedRatios := AList.singleton "seconds" 10

private def packageOf (ratio : ℚ) : UserSubscription where
  id := 1
  userId := 1
  planId := 1
  amountTotal := 0
  amountUsed := 0
  daily := {}
  weekly := {}
  monthly := {}
  periodResetAnchorVersion := 1
  startTime := 0
  endTime := 100
  status := .active
  lastResetTime := 0
  nextResetTime := 0
  applicableGroups := []
  modelFamily := ""
  includedModels := []
  billingRatio := .finite ratio
  resourceGrants := []

private def attemptOf (ratio : ℚ) (answer : Upstream) : Attempt where
  activeRatio := some (.finite ratio)
  firstQuote := some (.finite ratio)
  secondQuote := some (.finite ratio)
  selected := some (.subscription (packageOf ratio))
  upstream := answer

private def failedOnce (ratio : ℚ) : Attempt := attemptOf ratio (.failed .badStatus)

private def acceptedThen (ratio : ℚ) : Attempt := attemptOf ratio (.accepted ∅)

end Moligate.Tasks.Pricing
