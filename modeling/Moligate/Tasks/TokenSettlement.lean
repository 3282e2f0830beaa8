import Moligate.Tasks.Retries

namespace Moligate.Tasks.Pricing

open Foundation Common Option

structure TaskBillingContext where
  (groupRatio modelRatio : ℚ)
  otherRatios : Ratios
  originModelName : String
  fixedGroupRatio : Bool

structure TaskRow where
  userId : ℤ
  (group originModelName : String)
  billingSource : Option BillingSource
  subscriptionId : ℤ
  billingContext : TaskBillingContext

/-- The row that `InitTask` and `RelayTask` make of an accepted submission. -/
def initTask (info : TaskInfo) (subscriptionId : ℤ) : TaskRow where
  userId := info.request.userId
  group := info.request.usingGroup
  originModelName := info.request.originModelName
  billingSource := info.billingSource
  subscriptionId
  billingContext :=
    { groupRatio := info.priceData.groupRatioInfo.groupRatio
      modelRatio := info.priceData.modelRatio
      otherRatios := info.priceData.copyOtherRatios
      originModelName := info.request.originModelName
      fixedGroupRatio :=
        info.billingSource = some .subscription && info.subscriptionBillingRatio.gt 0 }

def taskModelName (t : TaskRow) : String :=
  if t.billingContext.originModelName ≠ "" then t.billingContext.originModelName
  else t.originModelName

def taskIsSubscription (t : TaskRow) : Bool :=
  t.billingSource = some .subscription && 0 < t.subscriptionId

def taskBillingSnapshotRatios (t : TaskRow) : Option ℚ × Option ℚ :=
  let c := t.billingContext
  if taskIsSubscription t && c.fixedGroupRatio then
    (if 0 < c.modelRatio then some c.modelRatio else none, fixedRatio? (.finite c.groupRatio))
  else (none, none)

def taskBillingContextPriceData (c : TaskBillingContext) : Option PriceData :=
  let p := ({} : PriceData).replaceOtherRatios c.otherRatios
  if c.otherRatios.entries.isEmpty || !p.hasOtherRatios then none else some p

structure TokenQuota where
  groupRatio : ℚ
  actualQuota : ℤ
  clamp : Option QuotaClamp

/-- What `RecalculateTaskQuotaByTokens` hands on to `RecalculateTaskQuota`; `userGroup` is the
group of a stored user. -/
def recalculateTaskQuotaByTokens (s : Settings) (userGroup : ℤ → Option String) (t : TaskRow)
    (totalTokens : ℤ) : Option TokenQuota := do
  if totalTokens ≤ 0 then none
  else
    let name := taskModelName t
    let snapshot := taskBillingSnapshotRatios t
    let modelRatio ←
      snapshot.1 <|> if s.modelRatioSet name then some (s.modelRatio name) else none
    if modelRatio ≤ 0 then none
    else
      let group := if t.group = "" then (userGroup t.userId).getD "" else t.group
      let groupRatio ← snapshot.2 <|> if group = "" then none
        else some ((s.groupGroupRatio group group).getD (s.groupRatio group))
      let otherMultiplier :=
        ((taskBillingContextPriceData t.billingContext).map PriceData.otherRatioMultiplier).getD 1
      let out := quotaFromFloatChecked
        (.finite (totalTokens * modelRatio * groupRatio * otherMultiplier))
      some ⟨groupRatio, out.1, out.2⟩

variable {s : Settings} {info : TaskInfo} {subscriptionId tokens : ℤ}
  {users : ℤ → Option String} {out : TokenQuota}

theorem fixedRatio?_eq_some {r : Float64} {q : ℚ} (h : fixedRatio? r = some q) :
    r.gt 0 = true ∧ fixedRatio? (.finite q) = some q := by
  cases r with
  | finite x =>
    obtain ⟨hx, heq⟩ := ite_none_right_eq_some.1 h
    cases heq
    exact ⟨decide_eq_true hx.1, if_pos hx⟩
  | nan | inf => cases h

private def halfForVip : Settings :=
  { fixedPrice with
    modelPrice := fun _ ↦ none
    modelRatio := fun _ ↦ 2
    modelRatioSet := fun _ ↦ true
    groupGroupRatio := fun user _ ↦ if user = "vip" then some (1 / 2) else none }

private def videoTask (userGroup : String) : TaskInfo :=
  { request := videoRequest, userGroup }

private def paidFromWallet : Attempt := ⟨none, none, none, some .wallet, .accepted ∅⟩

private def videoRow (userGroup : String) : TaskRow :=
  initTask (relayTaskSubmit exactFloats halfForVip paidFromWallet (videoTask userGroup)).1 0

end Moligate.Tasks.Pricing
