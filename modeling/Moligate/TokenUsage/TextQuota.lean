import Moligate.Common.QuotaMath
import Moligate.TokenUsage.Model

namespace Moligate.TokenUsage

open Foundation Common

structure TextPrice where
  -- the request is sent on in the Claude format
  finalFormatClaude : Bool := false
  isOpenRouter : Bool := false
  usePrice : Bool := false
  hasCustomModelRatio : Bool := false
  modelPrice : ℚ := 0
  (modelRatio groupRatio completionRatio cacheRatio : ℚ)
  imageRatio : ℚ := 1
  cacheCreationRatio : ℚ := 1
  cacheCreationRatio5m : ℚ := 1
  cacheCreationRatio1h : ℚ := 1
  otherRatioMultiplier : ℚ := 1
  quotaPerUnit : ℚ := 500000
  audioInputPrice : ℚ := 0
  toolCallSurchargeQuota : ℚ := 0
  -- of the prompt, completion and cached tokens and the cost
  calcOpenRouterCacheCreateTokens : ℤ → ℤ → ℤ → ℚ → ℤ := fun _ _ _ _ ↦ 0

structure TextQuotaSummary where
  (promptTokens completionTokens totalTokens cacheTokens cacheCreationTokens : ℤ)
  (cacheCreationTokens5m cacheCreationTokens1h imageTokens audioTokens : ℤ)
  isClaudeUsageSemantic : Bool
  quota : ℤ
  deriving DecidableEq

variable (price : TextPrice) (u : Counts)

def usageSemanticFromUsage : String :=
  if u.usageSemantic ≠ "" then u.usageSemantic
  else if price.finalFormatClaude then semanticAnthropic
  else semanticOpenAI

def isLegacyClaudeDerivedOpenAIUsage : Bool :=
  !price.finalFormatClaude && u.usageSource = "" && u.usageSemantic = "" &&
    (0 < u.claudeCacheCreation5mTokens || 0 < u.claudeCacheCreation1hTokens)

/-- The counts of a usage. OpenRouter reports a Claude prompt with its cached tokens, and for a
model without a price of its own the tokens written to the cache follow from the cost. -/
def summaryTokens : TextQuotaSummary :=
  let isClaude : Bool := usageSemanticFromUsage price u = semanticAnthropic
  let cacheTokens := u.promptTokensDetails.cachedTokens
  let creation := u.promptTokensDetails.cacheCreationTokensTotal
  let openRouter := price.isOpenRouter && isClaude
  let prompt := if openRouter then u.promptTokens - cacheTokens else u.promptTokens
  let maybe := price.calcOpenRouterCacheCreateTokens u.promptTokens u.completionTokens cacheTokens
    u.cost
  let creation :=
    -- `usage.Cost != 0` compares an interface value with an integer and always holds
    if openRouter && creation = 0 && price.cacheCreationRatio ≠ 1 &&
        !(price.usePrice || price.hasCustomModelRatio) && 0 ≤ maybe && maybe ≤ prompt then maybe
    else creation
  { promptTokens := if openRouter then prompt - creation else prompt
    completionTokens := u.completionTokens
    totalTokens := u.promptTokens + u.completionTokens
    cacheTokens
    cacheCreationTokens := creation
    cacheCreationTokens5m := u.claudeCacheCreation5mTokens
    cacheCreationTokens1h := u.claudeCacheCreation1hTokens
    imageTokens := u.promptTokensDetails.imageTokens
    audioTokens := u.promptTokensDetails.audioTokens
    isClaudeUsageSemantic := isClaude
    quota := 0 }

def cacheCreationCharge (s : TextQuotaSummary) (apart : Bool) : ℚ :=
  if s.cacheCreationTokens ≠ 0 ∨ 0 < s.cacheCreationTokens5m ∨ 0 < s.cacheCreationTokens1h then
    if apart then
      let remaining := max 0 (s.cacheCreationTokens - s.cacheCreationTokens5m - s.cacheCreationTokens1h)
      remaining * price.cacheCreationRatio + s.cacheCreationTokens5m * price.cacheCreationRatio5m +
        s.cacheCreationTokens1h * price.cacheCreationRatio1h
    else s.cacheCreationTokens * price.cacheCreationRatio
  else 0

/-- `apart`: the prompt does not include the tokens read from the cache and written to it. -/
def tokenCharge (s : TextQuotaSummary) (apart : Bool) : ℚ :=
  let audio : Bool := s.audioTokens ≠ 0 && 0 < price.audioInputPrice
  let cached : ℤ := if apart then 0 else s.cacheTokens + s.cacheCreationTokens
  let base : ℤ :=
    max 0 (s.promptTokens - cached - s.imageTokens - if audio then s.audioTokens else 0)
  let prompt := base + s.cacheTokens * price.cacheRatio + s.imageTokens * price.imageRatio +
    cacheCreationCharge price s apart
  let audioCharge : ℚ :=
    if audio then
      divDecimal price.audioInputPrice 1000000 * s.audioTokens * price.groupRatio *
        price.quotaPerUnit
    else 0
  let charge := (prompt + s.completionTokens * price.completionRatio) *
    (price.modelRatio * price.groupRatio) + audioCharge
  let total := charge * price.otherRatioMultiplier + price.toolCallSurchargeQuota
  if price.modelRatio * price.groupRatio ≠ 0 ∧ total ≤ 0 then 1 else total

def quotaFromDecimal (d : ℚ) : ℤ :=
  (saturateQuota (Float64.roundHalfAway (.finite d)) "QuotaFromDecimal").1

def calculateTextQuotaSummary : TextQuotaSummary :=
  let s := summaryTokens price u
  let quota :=
    if price.usePrice then
      quotaFromDecimal (price.modelPrice * price.quotaPerUnit * price.groupRatio *
        price.otherRatioMultiplier + price.toolCallSurchargeQuota)
    else
      quotaFromDecimal (tokenCharge price s
        (s.isClaudeUsageSemantic || isLegacyClaudeDerivedOpenAIUsage price u))
  let billable : Bool := 0 < s.totalTokens || price.toolCallSurchargeQuota ≠ 0
  { s with
    quota :=
      if !billable then 0
      else if price.modelRatio * price.groupRatio ≠ 0 ∧ quota = 0 then 1
      else quota }

end Moligate.TokenUsage
