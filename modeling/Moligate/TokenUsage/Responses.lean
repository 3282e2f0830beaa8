import Moligate.TokenUsage.TextQuota

namespace Moligate.TokenUsage

def usageFromResponsesUsage (src : Usage) : Usage :=
  let d := src.completionTokenDetails
  { usageSemantic := src.usageSemantic
    usageSource := src.usageSource
    billingUsage := src.billingUsage.or (newOpenAIResponsesBillingUsage src.toCounts)
    cost := src.cost
    promptTokens := src.inputTokens
    inputTokens := src.inputTokens
    completionTokens := src.outputTokens
    outputTokens := src.outputTokens
    totalTokens :=
      if src.totalTokens ≠ 0 then src.totalTokens else src.inputTokens + src.outputTokens
    promptTokensDetails := src.inputTokensDetails.getD {}
    completionTokenDetails :=
      if d.reasoningTokens ≠ 0 ∨ d.textTokens ≠ 0 ∨ d.audioTokens ≠ 0 ∨ d.imageTokens ≠ 0 then d
      else {}
    claudeCacheCreation5mTokens := src.claudeCacheCreation5mTokens
    claudeCacheCreation1hTokens := src.claudeCacheCreation1hTokens }

structure SameCounts (b v : Counts) : Prop where
  prompt : b.promptTokens = v.promptTokens
  completion : b.completionTokens = v.completionTokens
  cached : b.promptTokensDetails.cachedTokens = v.promptTokensDetails.cachedTokens
  creation : b.promptTokensDetails.cacheCreationTokensTotal =
    v.promptTokensDetails.cacheCreationTokensTotal
  image : b.promptTokensDetails.imageTokens = v.promptTokensDetails.imageTokens
  audio : b.promptTokensDetails.audioTokens = v.promptTokensDetails.audioTokens

/-- The block has its counts also where the chat vocabulary has them: a prompt and a completion that
it names there are the same, and so are the details of the input. -/
structure NamedTwice (u : Usage) : Prop where
  billing : u.billingUsage = none
  prompt : u.promptTokens = 0 ∧ 0 ≤ u.inputTokens ∨ u.promptTokens = u.inputTokens
  completion : u.completionTokens = 0 ∧ 0 ≤ u.outputTokens ∨ u.completionTokens = u.outputTokens
  cached : u.promptTokensDetails.cachedTokens = (u.inputTokensDetails.getD {}).cachedTokens
  creation : u.promptTokensDetails.cacheCreationTokensTotal =
    (u.inputTokensDetails.getD {}).cacheCreationTokensTotal
  image : u.promptTokensDetails.imageTokens = (u.inputTokensDetails.getD {}).imageTokens
  audio : u.promptTokensDetails.audioTokens = (u.inputTokensDetails.getD {}).audioTokens

def Usage.labelled (v b : Usage) : Usage :=
  { v with usageSemantic := b.usageSemantic, usageSource := b.usageSource }

section

variable {rt : Runtime} {u b v : Usage}

theorem effectiveBillingUsage_responses (hrt : rt.Lawful) (hb : u.billingUsage = none) :
    effectiveBillingUsage rt (usageFromResponsesUsage u) = usageFromResponsesUsage u ∨
      ∃ bu, effectiveBillingUsage rt (usageFromResponsesUsage u) =
        usageFromOpenAIBillingUsage bu u.toCounts := by
  have hbilling : (usageFromResponsesUsage u).billingUsage =
      newOpenAIResponsesBillingUsage u.toCounts := by
    simp [usageFromResponsesUsage, hb]
  cases htokens : hasOpenAIUsageTokens u.toCounts with
  | false =>
    left
    rw [newOpenAIResponsesBillingUsage, newOpenAIBillingUsage, htokens] at hbilling
    rw [effectiveBillingUsage, usageFromBillingUsage, hbilling]
    rfl
  | true =>
    right
    rw [newOpenAIResponsesBillingUsage, newOpenAIBillingUsage, if_pos htokens] at hbilling
    have hname : rt.equalFold (rt.trimSpace semanticOpenAI) semanticOpenAI = true := by
      rw [hrt.trim _ (by decide), hrt.fold]
    refine ⟨{ source := sourceOAIResponses, semantic := semanticOpenAI, openAIUsage := u.toCounts },
      ?_⟩
    simp [effectiveBillingUsage, usageFromBillingUsage, hbilling, names, hname, Option.filter_some]

theorem sameCounts_openAI {bu : BillingUsage} (hu : NamedTwice u) :
    SameCounts (usageFromOpenAIBillingUsage bu u.toCounts).toCounts
      (usageFromResponsesUsage u).toCounts := by
  constructor
  · simp only [usageFromOpenAIBillingUsage, usageFromResponsesUsage]
    have := hu.prompt
    split <;> omega
  · simp only [usageFromOpenAIBillingUsage, usageFromResponsesUsage]
    have := hu.completion
    split <;> omega
  · exact hu.cached
  · exact hu.creation
  · exact hu.image
  · exact hu.audio

theorem completionTokenDetails_responses :
    (usageFromResponsesUsage u).completionTokenDetails = u.completionTokenDetails := by
  simp only [usageFromResponsesUsage]
  split
  · rfl
  rename_i h
  simp only [not_or, not_not] at h
  generalize u.completionTokenDetails = d at h
  obtain ⟨text, audio, image, reasoning⟩ := d
  obtain ⟨rfl, rfl, rfl, rfl⟩ := h
  rfl

theorem calculateTextQuotaSummary_congr {b v : Counts} (price : TextPrice) (h : SameCounts b v)
    (h5m : b.claudeCacheCreation5mTokens = v.claudeCacheCreation5mTokens)
    (h1h : b.claudeCacheCreation1hTokens = v.claudeCacheCreation1hTokens) (hcost : b.cost = v.cost)
    (hsemantic : b.usageSemantic = v.usageSemantic) (hsource : b.usageSource = v.usageSource) :
    calculateTextQuotaSummary price b = calculateTextQuotaSummary price v := by
  have hlabel : usageSemanticFromUsage price b = usageSemanticFromUsage price v := by
    rw [usageSemanticFromUsage, usageSemanticFromUsage, hsemantic]
  have htokens : summaryTokens price b = summaryTokens price v := by
    simp [summaryTokens, hlabel, h.prompt, h.completion, h.cached, h.creation, h.image, h.audio,
      h5m, h1h, hcost]
  have hlegacy : isLegacyClaudeDerivedOpenAIUsage price b =
      isLegacyClaudeDerivedOpenAIUsage price v := by
    simp [isLegacyClaudeDerivedOpenAIUsage, h5m, h1h, hsemantic, hsource]
  simp [calculateTextQuotaSummary, htokens, hlegacy]

end

private def plainNames : Runtime := ⟨id, fun a b ↦ a = b⟩

private def cachedBlock : Usage where
  inputTokens := 1000
  outputTokens := 10
  totalTokens := 1010
  inputTokensDetails := some { cachedTokens := 900 }

private def discounted : TextPrice where
  modelRatio := 1
  groupRatio := 1
  completionRatio := 4
  cacheRatio := 1 / 10

end Moligate.TokenUsage
