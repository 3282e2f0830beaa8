import Moligate.Tasks.Pricing

namespace Moligate.Tiered

open Foundation Common Option
open Tasks.Pricing (GroupRatioInfo fixedRatio?)

-- Amounts are exact rationals here; a ratio that is checked for `NaN` comes as a `Float64`.

def billingModeTieredExpr : String := "tiered_expr"
def defaultTieredPreConsumeMaxTokens : ℤ := 8192

structure BillingSnapshot where
  (billingMode exprString : String)
  groupRatio : ℚ
  (estimatedPromptTokens estimatedCompletionTokens : ℤ)
  estimatedQuotaBeforeGroup : ℚ
  estimatedQuotaAfterGroup : ℤ
  estimatedTier : String
  quotaPerUnit : ℚ
  deriving DecidableEq

structure PriceData where
  freeModel : Bool := false
  quota : ℤ := 0
  quotaToPreConsume : ℤ := 0
  baseQuotaBeforeGroup : ℚ := 0
  groupRatioInfo : GroupRatioInfo := {}
  deriving DecidableEq

structure RelayInfo where
  originModelName : String
  tieredBillingSnapshot : Option BillingSnapshot := none
  priceData : PriceData := {}
  quotaClamp : Option QuotaClamp := none
  billing : Option ℤ := none
  finalPreConsumedQuota : ℤ := 0

inductive PriceError where
  | noExpression (modelName : String)
  | requestInput (message : String)
  | runFailed (modelName message : String)
  | clamp (c : QuotaClamp)

/-- The settings, and what the expression language answers for the request: the cost and the tier
for an expression with its prompt tokens, completion tokens and length. -/
structure Settings where
  billingExpr : String → Option String
  requestInput : Except String Unit := .ok ()
  runExpr : String → ℚ → ℚ → ℚ → Except String (ℚ × String)
  quotaPerUnit : ℚ := 500000
  enableFreeModelPreConsume : Bool := false

structure Estimate where
  (promptTokens maxTokens : ℤ)
  groupRatioInfo : GroupRatioInfo
  hasActiveSubscription : Bool := false

def modelPriceHelperTiered (s : Settings) (e : Estimate) (info : RelayInfo) :
    Except PriceError RelayInfo := do
  let exprStr ← (s.billingExpr info.originModelName).elim
    (.error (.noExpression info.originModelName)) .ok
  let groupRatio := e.groupRatioInfo.groupRatio
  let estimatedCompletionTokens :=
    if e.maxTokens = 0 ∧ groupRatio ≠ 0 then defaultTieredPreConsumeMaxTokens else e.maxTokens
  s.requestInput.mapError .requestInput
  let (rawCost, tier) ← (s.runExpr exprStr e.promptTokens estimatedCompletionTokens
    e.promptTokens).mapError (.runFailed info.originModelName)
  let quotaBeforeGroup := rawCost / 1000000 * s.quotaPerUnit
  let preConsumedQuota ←
    (quotaRoundStrict (.finite (quotaBeforeGroup * groupRatio))).mapError .clamp
  let freeModel : Bool := !s.enableFreeModelPreConsume && groupRatio = 0
  let preConsumedQuota := if freeModel then 0 else preConsumedQuota
  pure
    { info with
      tieredBillingSnapshot := some
        { billingMode := billingModeTieredExpr
          exprString := exprStr
          groupRatio := groupRatio
          estimatedPromptTokens := e.promptTokens
          estimatedCompletionTokens := estimatedCompletionTokens
          estimatedQuotaBeforeGroup := quotaBeforeGroup
          estimatedQuotaAfterGroup := preConsumedQuota
          estimatedTier := tier
          quotaPerUnit := s.quotaPerUnit }
      priceData :=
        { freeModel := freeModel && !(0 < quotaBeforeGroup && e.hasActiveSubscription)
          groupRatioInfo := e.groupRatioInfo
          quotaToPreConsume := preConsumedQuota
          baseQuotaBeforeGroup := quotaBeforeGroup } }

def refreshTieredBillingGroup (info : RelayInfo) :
    Except QuotaClamp (RelayInfo × Option BillingSnapshot) :=
  match info.tieredBillingSnapshot with
  | none => .ok (info, none)
  | some snap =>
    let groupRatio := info.priceData.groupRatioInfo.groupRatio
    if snap.billingMode ≠ billingModeTieredExpr then .ok (info, none)
    else if snap.groupRatio = groupRatio then .ok (info, some snap)
    else do
      let quota ← quotaRoundStrict (.finite (snap.estimatedQuotaBeforeGroup * groupRatio))
      let snap := { snap with groupRatio := groupRatio, estimatedQuotaAfterGroup := quota }
      pure ({ info with tieredBillingSnapshot := some snap }, some snap)

/-- The conversion truncates, and its error is dropped after the ratio was written. -/
def BillingSnapshot.fix (snap : BillingSnapshot) (ratio : ℚ) : BillingSnapshot :=
  { snap with
    groupRatio := ratio
    estimatedQuotaAfterGroup :=
      match quotaFromFloatStrict (.finite (snap.estimatedQuotaBeforeGroup * ratio)) with
      | .ok quota => quota
      | .error _ => snap.estimatedQuotaAfterGroup }

def applySubscriptionPriceSnapshot (info : RelayInfo) (liveQuota fixedQuota : ℤ) (ratio : Float64) :
    RelayInfo :=
  match fixedRatio? ratio with
  | none => info
  | some ratio =>
    let p := info.priceData
    { info with
      priceData :=
        { p with
          groupRatioInfo :=
            if p.groupRatioInfo.groupRatio ≠ ratio then ⟨ratio, ratio, true⟩ else p.groupRatioInfo
          quotaToPreConsume :=
            if p.quotaToPreConsume = liveQuota then fixedQuota else p.quotaToPreConsume
          quota := if p.quota = liveQuota then fixedQuota else p.quota }
      tieredBillingSnapshot := info.tieredBillingSnapshot.map (·.fix ratio) }

inductive Funding where
  | wallet (preConsumed : ℤ)
  | subscription (preConsumed : ℤ) (billingRatio : Float64)

/-- What the billing side answers: the price that `restoreWalletPriceSnapshot` goes back to, if it
does; the funding of a new session; and the quota that an existing one holds after its reservation. -/
structure Opening where
  restored : Option PriceData := none
  funding : Option Funding := none
  reserved : Option ℤ := none

def preConsumeBilling (info : RelayInfo) (preConsumedQuota : ℤ) (o : Opening) : RelayInfo :=
  if info.quotaClamp.isSome ∨ preConsumedQuota < 0 then info
  else
    let info := { info with priceData := o.restored.getD info.priceData }
    match o.funding with
    | none => info
    | some (.wallet preConsumed) => { info with billing := some preConsumed }
    | some (.subscription preConsumed ratio) =>
      { applySubscriptionPriceSnapshot info preConsumedQuota preConsumed ratio with
        billing := some preConsumed }

def prepareTieredBillingForSelectedGroup (info : RelayInfo) (o : Opening) : RelayInfo :=
  match refreshTieredBillingGroup info with
  | .error _ => info
  | .ok (info, none) => info
  | .ok (info, some snap) =>
    if snap.groupRatio = 0 then info
    else
      let info := { info with priceData := { info.priceData with freeModel := false } }
      match info.billing with
      | none => preConsumeBilling info snap.estimatedQuotaAfterGroup o
      | some _ =>
        match o.reserved with
        | none => info
        | some held => { info with billing := some held, finalPreConsumedQuota := held }

def computeTieredQuotaWithRequest (snap : BillingSnapshot) (cost : ℚ) : ℚ × ℤ × Option QuotaClamp :=
  let quotaBeforeGroup := cost / 1000000 * snap.quotaPerUnit
  (quotaBeforeGroup, quotaRoundChecked (.finite (quotaBeforeGroup * snap.groupRatio)))

inductive Action where
  | modelPriceHelperTiered (s : Settings) (e : Estimate)
  -- `HandleGroupRatio` after a channel was selected
  | selectGroup (groupRatioInfo : GroupRatioInfo)
  | refreshTieredBillingGroup
  | prepareTieredBillingForSelectedGroup (o : Opening)
  | applySubscriptionPriceSnapshot (liveQuota fixedQuota : ℤ) (ratio : Float64)

/-- One call on the request; a call that reports an error leaves it as it was. -/
def step (info : RelayInfo) : Action → Option RelayInfo
  | .modelPriceHelperTiered s e =>
    some (match modelPriceHelperTiered s e info with
      | .ok info => info
      | .error _ => info)
  | .selectGroup g => some { info with priceData := { info.priceData with groupRatioInfo := g } }
  | .refreshTieredBillingGroup =>
    some (match refreshTieredBillingGroup info with
      | .ok out => out.1
      | .error _ => info)
  | .prepareTieredBillingForSelectedGroup o => some (prepareTieredBillingForSelectedGroup info o)
  | .applySubscriptionPriceSnapshot liveQuota fixedQuota ratio =>
    some (applySubscriptionPriceSnapshot info liveQuota fixedQuota ratio)

/-- A price inside the range of a quota, of which the conversion to an integer drops less than a
half. -/
def truncatesExactly (x : ℚ) : Bool :=
  minQuota < x && x < maxQuota && |x - Float64.toInt (.finite x)| < 1 / 2

theorem roundDecimal_eq {x : ℚ} {n : ℤ} (h : |x - n| < 1 / 2) : roundDecimal x = n := by
  obtain ⟨hlow, hhigh⟩ := abs_lt.1 h
  rw [roundDecimal, Float64.roundHalfAway, Float64.toInt_intCast]
  split
  · exact Int.floor_eq_iff.2 ⟨by linarith, by linarith⟩
  have hfloor : ⌊-x + 1 / 2⌋ = -n := by
    refine Int.floor_eq_iff.2 ⟨?_, ?_⟩
    · push_cast
      linarith
    · push_cast
      linarith
  rw [hfloor, neg_neg]

def BillingSnapshot.Rounded (snap : BillingSnapshot) : Prop :=
  snap.estimatedQuotaAfterGroup = roundDecimal (snap.estimatedQuotaBeforeGroup * snap.groupRatio)

section

variable {info info' : RelayInfo} {snap : BillingSnapshot}

def Rounded (info : RelayInfo) : Prop := ∀ snap ∈ info.tieredBillingSnapshot, snap.Rounded

/-- Under the ratio of a subscription that pays, the price of the snapshot is truncated exactly. -/
def Repriceable (info : RelayInfo) (ratio : Option Float64) : Bool :=
  (ratio.bind fixedRatio?).all fun r ↦ info.tieredBillingSnapshot.all fun snap ↦
    truncatesExactly (snap.estimatedQuotaBeforeGroup * r)

theorem rounded_modelPriceHelperTiered {s : Settings} {e : Estimate}
    (h : modelPriceHelperTiered s e info = .ok info') : Rounded info' := by
  obtain ⟨exprStr, -, h⟩ := except_bind_eq_ok.1 h
  obtain ⟨-, -, h⟩ := except_bind_eq_ok.1 h
  obtain ⟨⟨rawCost, tier⟩, -, h⟩ := except_bind_eq_ok.1 h
  obtain ⟨quota, hquota, h⟩ := except_bind_eq_ok.1 h
  obtain rfl := Except.ok.inj h
  intro snap hsnap
  obtain rfl := some.inj hsnap
  have hround := toInt_of_strictQuota (Call.mapError_eq_ok.1 hquota)
  rw [BillingSnapshot.Rounded]
  dsimp only
  split
  · next hfree =>
      have hzero : e.groupRatioInfo.groupRatio = 0 := by
        rw [Bool.and_eq_true, decide_eq_true_eq] at hfree
        exact hfree.2
      rw [hzero, mul_zero]
      exact (roundDecimal_eq (by norm_num)).symm
  · exact hround

def Opening.ratio (o : Opening) : Option Float64 :=
  match o.funding with
  | some (.subscription _ ratio) => some ratio
  | _ => none

def Action.ratio : Action → Option Float64
  | .applySubscriptionPriceSnapshot _ _ ratio => some ratio
  | .prepareTieredBillingForSelectedGroup o => o.ratio
  | _ => none

variable (hinfo : Rounded info)
include hinfo

theorem rounded_refresh {out : RelayInfo × Option BillingSnapshot}
    (h : refreshTieredBillingGroup info = .ok out) :
    Rounded out.1 ∧ ∀ ratio, Repriceable out.1 ratio = Repriceable info ratio := by
  unfold refreshTieredBillingGroup at h
  split at h
  · obtain rfl := Except.ok.inj h
    exact ⟨hinfo, fun _ ↦ rfl⟩
  next snap hsnap =>
    dsimp only at h
    split at h
    · obtain rfl := Except.ok.inj h
      exact ⟨hinfo, fun _ ↦ rfl⟩
    split at h
    · obtain rfl := Except.ok.inj h
      exact ⟨hinfo, fun _ ↦ rfl⟩
    obtain ⟨quota, hquota, h⟩ := except_bind_eq_ok.1 h
    obtain rfl := Except.ok.inj h
    refine ⟨fun snap' hsnap' ↦ ?_, fun ratio ↦ ?_⟩
    · obtain rfl := some.inj hsnap'
      exact toInt_of_strictQuota hquota
    · rw [Repriceable, Repriceable, hsnap]
      rfl

theorem rounded_apply {ratio : Float64} (hratio : Repriceable info (some ratio) = true)
    (liveQuota fixedQuota : ℤ) :
    Rounded (applySubscriptionPriceSnapshot info liveQuota fixedQuota ratio) := by
  rw [applySubscriptionPriceSnapshot]
  split
  · exact hinfo
  next r hr =>
    intro snap' hsnap'
    obtain ⟨snap, hsnap, rfl⟩ := map_eq_some_iff.1 hsnap'
    rw [Repriceable, bind_some, hr, all_some] at hratio
    have h := (all_eq_true _ _).1 hratio snap hsnap
    simp only [truncatesExactly, Bool.and_eq_true, decide_eq_true_eq] at h
    obtain ⟨hfits, hhalf⟩ := h
    rw [BillingSnapshot.Rounded, BillingSnapshot.fix, quotaFromFloatStrict_eq_ok.2
      (quotaFromFloatChecked_finite.2 ⟨hfits.1, hfits.2, rfl⟩)]
    exact (roundDecimal_eq hhalf).symm

theorem rounded_preConsumeBilling {o : Opening} (ho : Repriceable info o.ratio = true)
    (preConsumedQuota : ℤ) : Rounded (preConsumeBilling info preConsumedQuota o) := by
  rw [preConsumeBilling]
  split
  · exact hinfo
  have hrestored : Rounded { info with priceData := o.restored.getD info.priceData } := hinfo
  rw [Opening.ratio] at ho
  cases hfunding : o.funding with
  | none => exact hrestored
  | some funding =>
    rw [hfunding] at ho
    cases funding with
    | wallet preConsumed => exact hrestored
    | subscription preConsumed ratio => exact rounded_apply hrestored ho _ _

theorem rounded_prepare {o : Opening} (ho : Repriceable info o.ratio = true) :
    Rounded (prepareTieredBillingForSelectedGroup info o) := by
  rw [prepareTieredBillingForSelectedGroup]
  cases hrefresh : refreshTieredBillingGroup info with
  | error clamp => exact hinfo
  | ok out =>
    obtain ⟨hrounded, hreprice⟩ := rounded_refresh hinfo hrefresh
    obtain ⟨info', snap⟩ := out
    cases snap with
    | none => exact hrounded
    | some snap =>
      dsimp only
      split
      · exact hrounded
      cases info'.billing with
      | none =>
        apply rounded_preConsumeBilling
        · exact hrounded
        · exact (hreprice o.ratio).trans ho
      | some held =>
        cases o.reserved with
        | none | some => exact hrounded

theorem Rounded.step {a : Action} (ha : Repriceable info a.ratio = true)
    (hstep : Tiered.step info a = some info') : Rounded info' := by
  cases a with
  | modelPriceHelperTiered s e =>
    obtain rfl := some.inj hstep
    split
    · next hok => exact rounded_modelPriceHelperTiered hok
    · exact hinfo
  | selectGroup g =>
    obtain rfl := some.inj hstep
    exact hinfo
  | refreshTieredBillingGroup =>
    obtain rfl := some.inj hstep
    split
    · next hok => exact (rounded_refresh hinfo hok).1
    · exact hinfo
  | prepareTieredBillingForSelectedGroup o =>
    obtain rfl := some.inj hstep
    exact rounded_prepare hinfo ha
  | applySubscriptionPriceSnapshot liveQuota fixedQuota ratio =>
    obtain rfl := some.inj hstep
    exact rounded_apply hinfo ha _ _

end

/-- In every state of a request, the estimate of the snapshot is its price under its ratio, rounded
half away from zero, and the settlement rounds with the same ratio; as long as the subscriptions
that pay reprice it exactly. -/
theorem snapshot_rounds_half_away {info info' : RelayInfo}
    (hfresh : info.tieredBillingSnapshot = none) {run : List Action}
    (hguard : Guarded step (fun info a ↦ Repriceable info a.ratio = true) info run)
    (hrun : exec step info run = some info') {snap : BillingSnapshot}
    (hsnap : info'.tieredBillingSnapshot = some snap) :
    snap.estimatedQuotaAfterGroup =
        roundDecimal (snap.estimatedQuotaBeforeGroup * snap.groupRatio) ∧
      ∀ cost, (computeTieredQuotaWithRequest snap cost).2 =
        quotaRoundChecked (.finite ((computeTieredQuotaWithRequest snap cost).1 *
          snap.groupRatio)) := by
  have hstart : Rounded info := by
    intro snap hsnap
    rw [hfresh] at hsnap
    cases hsnap
  have hend := exec_invariant (fun _ _ _ hs ha hstep ↦ Rounded.step hs ha hstep) hstart hguard hrun
  exact ⟨hend snap hsnap, fun _ ↦ rfl⟩

namespace Example

def settings : Settings where
  billingExpr _ := some "tier(\"base\", p * 0.5)"
  runExpr _ p _ _ := .ok (p / 2, "base")

def request : RelayInfo := { originModelName := "gpt-4o" }

/-- Six prompt tokens, which cost one and a half, in a group of ratio one; a subscription then pays
for them with its own ratio. -/
def paidBySubscription (fixedQuota : ℤ) (ratio : Float64) : List Action :=
  [.modelPriceHelperTiered settings ⟨6, 10, { groupRatio := 1 }, false⟩,
    .applySubscriptionPriceSnapshot 2 fixedQuota ratio]

def estimates (run : List Action) : Option (ℚ × ℚ × ℤ) :=
  (exec step request run).bind fun info ↦ info.tieredBillingSnapshot.map fun snap ↦
    (snap.groupRatio, snap.estimatedQuotaBeforeGroup, snap.estimatedQuotaAfterGroup)

end Example

open Example

/-- Twice the price of one and a half is three. -/
theorem snapshot_rounds_half_away_double :
    ∃ info snap, exec step request (paidBySubscription 3 (.finite 2)) = some info ∧
      info.tieredBillingSnapshot = some snap ∧
      snap.estimatedQuotaAfterGroup =
        roundDecimal (snap.estimatedQuotaBeforeGroup * snap.groupRatio) := by
  obtain ⟨info, hrun, h⟩ := bind_eq_some_iff.1
    (show estimates (paidBySubscription 3 (.finite 2)) = some (2, 3 / 2, 3) by decide +kernel)
  obtain ⟨snap, hsnap, -⟩ := map_eq_some_iff.1 h
  exact ⟨info, snap, hrun, hsnap, (snapshot_rounds_half_away rfl (by decide +kernel) hrun hsnap).1⟩

/-- The group of ratio one is charged two, and the subscription of the same ratio only one. -/
theorem snapshot_truncated :
    estimates ((paidBySubscription 1 (.finite 1)).take 1) = some (1, 3 / 2, 2) ∧
      estimates (paidBySubscription 1 (.finite 1)) = some (1, 3 / 2, 1) ∧
      roundDecimal (3 / 2 * 1) = 2 := by
  decide +kernel

end Moligate.Tiered
