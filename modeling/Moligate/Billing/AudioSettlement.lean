import Moligate.Tasks.Pricing

namespace Moligate.Billing.AudioSettlement

open Foundation Common Tasks.Pricing

structure TokenDetails where
  (textTokens audioTokens : ℤ)

structure QuotaInfo where
  (inputDetails outputDetails : TokenDetails)
  modelName : String
  usePrice : Bool := false
  modelPrice : ℚ := 0
  modelRatio : ℚ := 0
  groupRatio : ℚ := 0

structure AudioRatios where
  completionRatio : String → ℚ
  audioRatio : String → ℚ
  audioCompletionRatio : String → ℚ
  quotaPerUnit : ℚ := 500000

/-- `tieredQuota` is the answer of `TryTieredSettle`, which has none without a snapshot. -/
structure RelayInfo where
  originModelName : String
  priceData : PriceData
  billingSource : BillingSource
  subscriptionBillingRatio : Float64 := .finite 0
  tieredQuota : Option ℤ := none

structure AudioUsage where
  (input output : TokenDetails)
  totalTokens : ℤ

section

variable (s : AudioRatios)

def calculateAudioQuota (info : QuotaInfo) : ℤ × Option QuotaClamp :=
  if info.usePrice then
    quotaFromDecimalChecked (info.modelPrice * s.quotaPerUnit * info.groupRatio)
  else
    let ratio := info.groupRatio * info.modelRatio
    let quota := (info.inputDetails.textTokens +
      info.outputDetails.textTokens * s.completionRatio info.modelName +
      info.inputDetails.audioTokens * s.audioRatio info.modelName +
      info.outputDetails.audioTokens * s.audioRatio info.modelName *
        s.audioCompletionRatio info.modelName) * ratio
    quotaFromDecimalChecked (if ratio ≠ 0 ∧ quota ≤ 0 then 1 else quota)

def realtimeQuotaSnapshot (info : RelayInfo) (modelName : String) (usage : AudioUsage) :
    ℤ × Option QuotaClamp :=
  let groupRatio :=
    if info.billingSource = .subscription then
      (fixedRatio? info.subscriptionBillingRatio).getD info.priceData.groupRatioInfo.groupRatio
    else info.priceData.groupRatioInfo.groupRatio
  calculateAudioQuota s
    { inputDetails := usage.input
      outputDetails := usage.output
      modelName := modelName
      usePrice := info.priceData.usePrice
      modelPrice := info.priceData.modelPrice
      modelRatio := info.priceData.modelRatio
      groupRatio := groupRatio }

/-- The quota that `PostAudioConsumeQuota` settles. Its `QuotaInfo` has no price. -/
def postAudioConsumeQuota (info : RelayInfo) (usage : AudioUsage) : ℤ :=
  let quota := (calculateAudioQuota s
    { inputDetails := usage.input
      outputDetails := usage.output
      modelName := info.originModelName
      usePrice := info.priceData.usePrice
      modelRatio := info.priceData.modelRatio
      groupRatio := info.priceData.groupRatioInfo.groupRatio }).1
  let quota := info.tieredQuota.getD quota
  if usage.totalTokens = 0 then 0 else quota

end

theorem roundDecimal_of_small {d : ℚ} (h : |d| < 1 / 2) : roundDecimal d = 0 := by
  obtain ⟨hlow, hhigh⟩ := abs_lt.1 h
  rw [roundDecimal, Float64.roundHalfAway, Float64.toInt_intCast]
  split
  · exact Int.floor_eq_zero_iff.2 ⟨by linarith, by linarith⟩
  · rw [Int.floor_eq_zero_iff.2 ⟨by linarith, by linarith⟩, neg_zero]

theorem quotaFromDecimalChecked_of_small {d : ℚ} (h : |d| < 1 / 2) :
    quotaFromDecimalChecked d = (0, none) := by
  have hsaturate := @saturateQuota_round d "QuotaFromDecimal"
  rw [roundDecimal_of_small h] at hsaturate
  exact hsaturate (by decide) (by decide)

namespace Example

def info (usePrice : Bool) : RelayInfo where
  originModelName := "gpt-4o-audio-preview"
  priceData := { usePrice := usePrice, modelPrice := 1 / 100, modelRatio := 5 / 4 }
  billingSource := .wallet

def ratios : AudioRatios where
  completionRatio _ := 4
  audioRatio _ := 16
  audioCompletionRatio _ := 2

def usage : AudioUsage := ⟨⟨100, 200⟩, ⟨10, 20⟩, 330⟩

end Example

open Example

end Moligate.Billing.AudioSettlement
