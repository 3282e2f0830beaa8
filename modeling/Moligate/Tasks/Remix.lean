import Moligate.Tasks.Retries

namespace Moligate.Tasks.Pricing

open Foundation Common Option List AList Subscription PriceData

/-- The task that a remix starts from. `billingContext` has the other ratios of its context, and
`seconds` is the number that the text of this name in its data is read as. -/
structure OriginTask where
  (originModelName upstreamModelName dataModel : String)
  billingContext : Option Ratios
  seconds : ℤ
  size : String

structure Origin where
  remix : Bool
  videoId : String
  lookupFails : Bool := false
  task : Option OriginTask
  channelEnabled : Option Bool := some true
  sameChannel : Bool := true
  hasEnabledKey : Bool := true

inductive ResolveError where
  | videoIdRequired | getOriginTaskFailed | taskNotExist | channelNotFound | taskChannelDisable
  | channelNoAvailableKey
  deriving DecidableEq

def maxTaskDurationSeconds : ℤ := 3600

/-- The ratios of the origin: those of its billing context, or what its data say. -/
def addOriginRatios (p : PriceData) (t : OriginTask) : PriceData :=
  match t.billingContext with
  | some ratios => p.addOtherRatios ratios
  | none =>
    let seconds := if t.seconds ≤ 0 then 4 else t.seconds
    let seconds := if maxTaskDurationSeconds < seconds then maxTaskDurationSeconds else seconds
    let p := (p.addOtherRatio "seconds" seconds).addOtherRatio "size" 1
    if t.size = "1792x1024" ∨ t.size = "1024x1792" then p.addOtherRatio "size" (1666667 / 1000000)
    else p

def originModel (t : OriginTask) (name : String) : String :=
  if name ≠ "" then name
  else if t.originModelName ≠ "" then t.originModelName
  else if t.upstreamModelName ≠ "" then t.upstreamModelName
  else t.dataModel

def resolveOriginTask (trimSpace : String → String) (o : Origin) (info : TaskInfo) :
    Except ResolveError TaskInfo :=
  if o.remix ∧ trimSpace o.videoId = "" then .error .videoIdRequired
  else if o.videoId = "" then .ok info
  else if o.lookupFails then .error .getOriginTaskFailed
  else
    match o.task, o.channelEnabled with
    | none, _ => .error .taskNotExist
    | some _, none => .error .channelNotFound
    | some _, some false => .error .taskChannelDisable
    | some t, some true =>
      if !o.sameChannel && !o.hasEnabledKey then .error .channelNoAvailableKey
      else
        .ok { info with
          request :=
            { info.request with originModelName := originModel t info.request.originModelName }
          priceData := if o.remix then addOriginRatios info.priceData t else info.priceData }

def OriginTask.ratios (t : OriginTask) : Ratios := (addOriginRatios {} t).otherRatios

theorem lookup_addValid (m ratios : Ratios) (k : String) :
    (addValid m ratios).lookup k =
      ((ratios.lookup k).filter isValidOtherRatio).or (m.lookup k) := by
  obtain ⟨es, hes⟩ := ratios
  change lookup k (es.foldl _ m) = ((es.dlookup k).filter isValidOtherRatio).or (m.lookup k)
  induction es generalizing m with
  | nil => rfl
  | cons e es ih =>
    obtain ⟨k', r⟩ := e
    obtain ⟨hnot, hes⟩ := nodupKeys_cons.1 hes
    rw [foldl_cons, ih _ hes]
    by_cases hk : k = k'
    · subst hk
      have hcons : dlookup k ((⟨k, r⟩ : Σ _ : String, ℚ) :: es) = some r :=
        dlookup_cons_eq es k r
      rw [hcons, dlookup_eq_none.2 hnot]
      cases hr : isValidOtherRatio r with
      | false =>
        have hfilter : (some r).filter isValidOtherRatio = none := by simp [hr]
        exact (congrArg (or · (m.lookup k)) hfilter).symm
      | true =>
        have hfilter : (some r).filter isValidOtherRatio = some r := by simp [hr]
        exact (lookup_insert m).trans (congrArg (or · (m.lookup k)) hfilter).symm
    · have hcons : dlookup k ((⟨k', r⟩ : Σ _ : String, ℚ) :: es) = es.dlookup k :=
        dlookup_cons_ne es _ hk
      rw [hcons]
      cases isValidOtherRatio r with
      | false => rfl
      | true => exact congrArg (Option.or _) (lookup_insert_ne hk)

theorem ratioProduct_congr {m m' : Ratios} (h : ∀ k, m.lookup k = m'.lookup k) :
    ratioProduct m = ratioProduct m' := by
  have hperm : m.entries.Perm m'.entries := lookup_ext m.nodupKeys m'.nodupKeys fun k v ↦ by
    have hk : m.entries.dlookup k = m'.entries.dlookup k := h k
    rw [hk]
  have hcomm : RightCommutative fun (v : ℚ) (e : Σ _ : String, ℚ) ↦
      if isValidOtherRatio e.2 && e.2 ≠ 1 then v * e.2 else v := by
    constructor
    intro v e e'
    split <;> split <;> first | rfl | exact mul_right_comm v e.2 e'.2
  exact hperm.foldl_eq 1

/-- Only valid ratios are in the price of a task, so that the copy of them is complete. -/
theorem lookup_copyOtherRatios {p : PriceData} {ratios : Ratios}
    (hp : p.otherRatios = addValid ∅ ratios) (k : String) :
    p.copyOtherRatios.lookup k = (addValid ∅ ratios).lookup k := by
  have hvalid : ∀ e ∈ p.otherRatios.entries, isValidOtherRatio e.2 = true := by
    intro e he
    have hlookup : (addValid ∅ ratios).lookup e.1 = some e.2 := by
      rw [← hp]
      exact mem_lookup_iff.2 he
    rw [lookup_addValid, lookup_empty, or_none, filter_eq_some_iff] at hlookup
    exact hlookup.2
  have hcopy : p.copyOtherRatios = p.otherRatios :=
    ext (filter_eq_self.2 hvalid)
  rw [hcopy, hp]

variable {rt : Subscription.Runtime} {s : Settings} {a : Attempt}
  {info priced opened resolved : TaskInfo} {u : UnitPrice} {ρ : ℚ}

def truncate (x : ℚ) : ℤ := Float64.toInt (.finite x)

theorem truncate_zero : truncate 0 = 0 := rfl

theorem callQuota_truncate {q : ℤ} (hpatched : isPatched s info = false)
    (hcall : callQuota s info u ρ = .ok (q, none)) :
    q = truncate (truncate (u.base s * ρ) * info.multiplier) := by
  obtain ⟨q₀, hq₀, hcall⟩ := callQuota_ok hcall
  rw [hpatched, if_neg Bool.false_ne_true] at hcall
  rw [quotaFromFloatStrict_eq_ok, quotaFromFloatChecked_finite] at hq₀
  rw [(quotaFromFloatChecked_finite.1 hcall).2.2, hq₀.2.2]
  rfl

/-- Where truncation loses nothing, it may come before the ratios. -/
theorem truncate_roundsOnce (hround : RoundsOnce s info u ρ) :
    truncate (truncate (u.base s * ρ) * info.multiplier) =
      truncate (u.base s * info.multiplier * ρ) := by
  rcases hround with hempty | ⟨-, hden⟩
  · rw [multiplier_of_isEmpty hempty, mul_one, mul_one]
    exact Float64.toInt_intCast _
  · have hint : (((u.base s * ρ).num : ℤ) : ℚ) = u.base s * ρ := Rat.coe_int_num_of_den_eq_one hden
    have htrunc : (truncate (u.base s * ρ) : ℚ) = u.base s * ρ := by
      rw [← hint, truncate, Float64.toInt_intCast]
    rw [htrunc, mul_right_comm]

theorem openBilling_quota (hfinite : ∀ q, rt.roundFloat q = .finite q)
    (hp : Priced s a info priced u) (hfresh : info.Fresh)
    (hvalid : ∀ sub, a.selected = some (.subscription sub) →
      validBillingRatio sub.billingRatio = true)
    (hsteady : SteadyPrice s info a) (hpatched : isPatched s info = false)
    (h : openBilling rt s a priced = (opened, none)) :
    opened.priceData.quota = truncate
        (truncate (u.base s * opened.priceData.groupRatioInfo.groupRatio) * info.multiplier) ∧
      ∀ p ∈ opened.billing, p = opened.priceData.quota := by
  have hsteady := hsteady u hp.unit
  have hnone : priced.billing = none := by rw [hp.rest]; exact hfresh.billing
  obtain ⟨clamp, hclamp, hcall⟩ := hp.quota
  rcases openBilling_cases hnone h with
    ⟨hfree, rfl⟩ | ⟨hclear, hq, ⟨hsel, rfl⟩ | ⟨sub, amount, hsel, hamount, rfl⟩⟩
  · have hzero := hp.free hfree
    obtain ⟨q₀, hq₀, hcall⟩ := callQuota_ok hcall
    rw [hzero, quotaFromFloatStrict_zero] at hq₀
    cases hq₀
    rw [hpatched, if_neg Bool.false_ne_true, Int.cast_zero, zero_mul] at hcall
    have hquota : opened.priceData.quota = 0 := (Prod.mk.inj hcall).1.symm
    rw [hp.group, hzero, hquota, truncate_zero, Int.cast_zero, zero_mul, truncate_zero, hnone]
    exact ⟨rfl, fun p hp ↦ nomatch hp⟩
  · rw [hsel] at hsteady
    have hkeep := (fundFromWallet_quota hfinite hp hfresh.billingSource hsteady hq).1
    have hwallet : handleGroupRatio s info = liveGroupRatioInfo s info :=
      handleGroupRatio_of_wallet (by rw [hfresh.billingSource]; decide)
    have hgroup : (fundFromWallet rt s a priced).priceData.groupRatioInfo =
        handleGroupRatio s info := by
      simp only [fundFromWallet]
      repeat' split
      · exact hp.group
      · exact hp.group
      · exact hp.same.liveGroupRatioInfo_eq.trans hwallet.symm
    obtain rfl : clamp = none := by
      rw [hfresh.quotaClamp, hclear] at hclamp
      exact hclamp.symm
    rw [hkeep, hgroup]
    exact ⟨callQuota_truncate hpatched hcall, fun p hp ↦ (some.inj hp).symm.trans hkeep⟩
  · rw [hsel] at hsteady
    obtain ⟨ρ, hratio, hρ, hfixed⟩ := fixedRatio?_of_valid (hvalid sub hsel)
    obtain ⟨hround, hone⟩ := hsteady ρ hratio
    have hstrict := candidateAmount_eq hfinite hp hratio hρ hone hamount
    rw [quotaFromFloatStrict_eq_ok, quotaFromFloatChecked_finite] at hstrict
    have hquota : (fundFromSubscription priced sub amount).priceData.quota = amount := by
      simp [fundFromSubscription, hfixed]
    have hgroup :
        (fundFromSubscription priced sub amount).priceData.groupRatioInfo.groupRatio = ρ := by
      simp only [fundFromSubscription, hfixed]
      split
      · rfl
      next heq => exact not_not.1 heq
    refine ⟨?_, ?_⟩
    · rw [hquota, hgroup, truncate_roundsOnce hround]
      exact hstrict.2.2
    · intro p hp
      rw [hquota]
      exact (some.inj hp).symm

def OriginTask.HasRatio (t : OriginTask) (k : String) : Prop :=
  match t.billingContext with
  | some ratios => ∃ r, ratios.lookup k = some r ∧ isValidOtherRatio r = true
  | none => k = "seconds" ∨ k = "size"

theorem OriginTask.hasRatio_of_lookup {t : OriginTask} {k : String} {r : ℚ}
    (h : t.ratios.lookup k = some r) : t.HasRatio k := by
  rw [ratios, addOriginRatios] at h
  rw [HasRatio]
  cases hc : t.billingContext with
  | some ratios =>
    rw [hc] at h
    simp only [addOtherRatios_eq, lookup_addValid, lookup_empty, or_none, filter_eq_some_iff] at h
    exact ⟨r, h⟩
  | none =>
    by_contra hk
    rw [hc] at h
    obtain ⟨hseconds, hsize⟩ := not_or.1 hk
    have hadd (p : PriceData) (k' : String) (r' : ℚ) (hne : k ≠ k') :
        (p.addOtherRatio k' r').otherRatios.lookup k = p.otherRatios.lookup k := by
      rw [addOtherRatio]
      split
      · exact lookup_insert_ne hne
      · rfl
    dsimp only at h
    split at h
    all_goals
      simp only [hadd _ _ _ hseconds, hadd _ _ _ hsize, lookup_empty] at h
      cases h

def EstimateCovers (t : OriginTask) (info : TaskInfo) : Prop :=
  ∀ k, t.HasRatio k → ∃ r, info.estimatedRatios.lookup k = some r ∧ isValidOtherRatio r = true

def remixRatios (t : OriginTask) (info : TaskInfo) : Ratios :=
  addValid t.ratios info.estimatedRatios

theorem lookup_remixRatios {t : OriginTask} (h : EstimateCovers t info) (k : String) :
    (remixRatios t info).lookup k = info.ratios.lookup k := by
  rw [remixRatios, TaskInfo.ratios, lookup_addValid, lookup_addValid, lookup_empty]
  cases hk : t.ratios.lookup k with
  | none => rfl
  | some r =>
    obtain ⟨r', hr', hvalid⟩ := h k (t.hasRatio_of_lookup hk)
    have hfilter : (some r').filter isValidOtherRatio = some r' := by simp [hvalid]
    rw [hr']
    exact (congrArg (or · (some r)) hfilter).trans (congrArg (or · none) hfilter).symm

section

variable {trimSpace : String → String} {o : Origin} {t : OriginTask}

theorem resolveOriginTask_ok (htrim : trimSpace "" = "") (hremix : o.remix = true)
    (htask : o.task = some t) (h : resolveOriginTask trimSpace o info = .ok resolved) :
    resolved =
      { info with
        request :=
          { info.request with originModelName := originModel t info.request.originModelName }
        priceData := addOriginRatios info.priceData t } := by
  rw [resolveOriginTask, htask, hremix] at h
  split at h
  · cases h
  rename_i hid
  split at h
  next hempty => exact absurd ⟨rfl, hempty ▸ htrim⟩ hid
  split at h
  · cases h
  rcases hc : o.channelEnabled with _ | _ | _ <;> rw [hc] at h
  iterate 2 cases h
  dsimp only at h
  split at h
  · cases h
  · exact (Except.ok.inj h).symm

theorem addOriginRatios_otherRatios {p : PriceData} (hp : p.otherRatios = ∅) :
    (addOriginRatios p t).otherRatios = t.ratios := by
  have hadd (p q : PriceData) (h : p.otherRatios = q.otherRatios) (k : String) (r : ℚ) :
      (p.addOtherRatio k r).otherRatios = (q.addOtherRatio k r).otherRatios := by
    rw [addOtherRatio, addOtherRatio]
    cases isValidOtherRatio r
    · exact h
    · exact congrArg (insert k r) h
  rw [OriginTask.ratios, addOriginRatios, addOriginRatios]
  cases t.billingContext with
  | some ratios =>
    simp only [addOtherRatios_eq]
    rw [hp]
  | none =>
    dsimp only
    split
    · exact hadd _ _ (hadd _ _ (hadd _ _ hp _ _) _ _) _ _
    · exact hadd _ _ (hadd _ _ hp _ _) _ _

theorem adjustBilling_empty : adjustBilling info ∅ = info := rfl

end

private def remixInfo (estimate : Ratios) : TaskInfo where
  request :=
    { info := ⟨false, true, true, 0, 0, 0, none, none⟩
      requestId := "request"
      userId := 1
      originModelName := "sora-2"
      usingGroup := "default"
      billingPreference := "wallet_only"
      baseQuotaBeforeGroup := .finite 0
      groupRatio := .finite 1
      imageCount := none }
  userGroup := "default"
  estimatedRatios := estimate

private def eightSeconds : OriginTask :=
  ⟨"sora-2", "sora-2", "", some (singleton "seconds" 8), 0, ""⟩

private def remixOrigin : Origin where
  remix := true
  videoId := "video"
  task := some eightSeconds

private def walletAttempt : Attempt := ⟨none, none, none, some .wallet, .accepted ∅⟩

private def resolvedRemix (estimate : Ratios) : TaskInfo :=
  { remixInfo estimate with priceData := addOriginRatios {} eightSeconds }

theorem resolveOriginTask_remixOrigin (estimate : Ratios) :
    resolveOriginTask id remixOrigin (remixInfo estimate) = .ok (resolvedRemix estimate) := by
  simp [resolveOriginTask, remixOrigin, resolvedRemix, remixInfo, originModel]

private def submittedRemix (estimate : Ratios) : TaskInfo × Except SubmitError ℤ :=
  relayTaskSubmit exactFloats fixedPrice walletAttempt (resolvedRemix estimate)

end Moligate.Tasks.Pricing
