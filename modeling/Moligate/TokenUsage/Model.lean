import Mathlib.Algebra.Order.Field.Rat

namespace Moligate.TokenUsage

-- Token counts are integers. As `float64` values they are exact below 2 ^ 53.

structure InputTokenDetails where
  cachedTokens : ℤ := 0
  cachedCreationTokens : ℤ := 0
  cacheWriteTokens : ℤ := 0
  textTokens : ℤ := 0
  audioTokens : ℤ := 0
  imageTokens : ℤ := 0
  deriving DecidableEq

def InputTokenDetails.cacheCreationTokensTotal (d : InputTokenDetails) : ℤ :=
  max (max d.cachedCreationTokens d.cacheWriteTokens) 0

structure OutputTokenDetails where
  textTokens : ℤ := 0
  audioTokens : ℤ := 0
  imageTokens : ℤ := 0
  reasoningTokens : ℤ := 0
  deriving DecidableEq

/-- `Usage` without its billing usage, which is cleared in every copy that a billing usage holds. -/
structure Counts where
  promptTokens : ℤ := 0
  completionTokens : ℤ := 0
  totalTokens : ℤ := 0
  promptCacheHitTokens : ℤ := 0
  usageSemantic : String := ""
  usageSource : String := ""
  promptTokensDetails : InputTokenDetails := {}
  completionTokenDetails : OutputTokenDetails := {}
  inputTokens : ℤ := 0
  outputTokens : ℤ := 0
  inputTokensDetails : Option InputTokenDetails := none
  claudeCacheCreation5mTokens : ℤ := 0
  claudeCacheCreation1hTokens : ℤ := 0
  -- the number that an OpenRouter answer has here, or 0
  cost : ℚ := 0
  deriving DecidableEq

structure CacheCreation where
  ephemeral5mInputTokens : ℤ := 0
  ephemeral1hInputTokens : ℤ := 0
  deriving DecidableEq

structure ClaudeUsage where
  inputTokens : ℤ := 0
  cacheCreationInputTokens : ℤ := 0
  cacheReadInputTokens : ℤ := 0
  outputTokens : ℤ := 0
  cacheCreation : Option CacheCreation := none
  claudeCacheCreation5mTokens : ℤ := 0
  claudeCacheCreation1hTokens : ℤ := 0
  deriving DecidableEq

def ClaudeUsage.getCacheCreation5mTokens (u : ClaudeUsage) : ℤ :=
  (u.cacheCreation.map CacheCreation.ephemeral5mInputTokens).getD 0

def ClaudeUsage.getCacheCreation1hTokens (u : ClaudeUsage) : ℤ :=
  (u.cacheCreation.map CacheCreation.ephemeral1hInputTokens).getD 0

inductive Modality where
  | audio | image | text | other
  deriving DecidableEq

structure GeminiTokensDetail where
  modality : Modality
  tokenCount : ℤ
  deriving DecidableEq

structure GeminiUsageMetadata where
  promptTokenCount : ℤ := 0
  toolUsePromptTokenCount : ℤ := 0
  candidatesTokenCount : ℤ := 0
  totalTokenCount : ℤ := 0
  thoughtsTokenCount : ℤ := 0
  cachedContentTokenCount : ℤ := 0
  promptTokensDetails : List GeminiTokensDetail := []
  toolUsePromptTokensDetails : List GeminiTokensDetail := []
  candidatesTokensDetails : List GeminiTokensDetail := []
  deriving DecidableEq

structure BillingUsage where
  source : String := ""
  semantic : String := ""
  estimated : Bool := false
  openAIUsage : Option Counts := none
  claudeUsage : Option ClaudeUsage := none
  geminiUsageMetadata : Option GeminiUsageMetadata := none
  deriving DecidableEq

structure Usage extends Counts where
  billingUsage : Option BillingUsage := none
  deriving DecidableEq

def sourceClaudeMessages : String := "claude_messages"
def sourceGeminiChat : String := "gemini_chat"
def sourceOAIChat : String := "oai_chat"
def sourceOAIResponses : String := "oai_responses"

def semanticAnthropic : String := "anthropic"
def semanticGemini : String := "gemini"
def semanticOpenAI : String := "openai"

def hasClaudeUsageTokens (u : ClaudeUsage) : Bool :=
  u.inputTokens ≠ 0 || u.outputTokens ≠ 0 || u.cacheCreationInputTokens ≠ 0 ||
    u.cacheReadInputTokens ≠ 0 || u.claudeCacheCreation5mTokens ≠ 0 ||
    u.claudeCacheCreation1hTokens ≠ 0 ||
    u.cacheCreation.any fun c ↦ c.ephemeral5mInputTokens ≠ 0 || c.ephemeral1hInputTokens ≠ 0

def newClaudeMessagesBillingUsage (u : ClaudeUsage) : Option BillingUsage :=
  if hasClaudeUsageTokens u then
    some { source := sourceClaudeMessages, semantic := semanticAnthropic, claudeUsage := some u }
  else none

def hasOpenAIUsageTokens (u : Counts) : Bool :=
  u.promptTokens ≠ 0 || u.completionTokens ≠ 0 || u.totalTokens ≠ 0 || u.inputTokens ≠ 0 ||
    u.outputTokens ≠ 0 || u.promptCacheHitTokens ≠ 0 || u.claudeCacheCreation5mTokens ≠ 0 ||
    u.claudeCacheCreation1hTokens ≠ 0 ||
    u.promptTokensDetails.cachedTokens ≠ 0 || u.promptTokensDetails.cachedCreationTokens ≠ 0 ||
    u.promptTokensDetails.cacheWriteTokens ≠ 0 || u.promptTokensDetails.textTokens ≠ 0 ||
    u.promptTokensDetails.imageTokens ≠ 0 || u.promptTokensDetails.audioTokens ≠ 0 ||
    u.completionTokenDetails.reasoningTokens ≠ 0 || u.completionTokenDetails.textTokens ≠ 0 ||
    u.completionTokenDetails.imageTokens ≠ 0 || u.completionTokenDetails.audioTokens ≠ 0 ||
    u.inputTokensDetails.isSome

def newOpenAIBillingUsage (source : String) (u : Counts) : Option BillingUsage :=
  if hasOpenAIUsageTokens u then
    some { source, semantic := semanticOpenAI, openAIUsage := some u }
  else none

def newOpenAIChatBillingUsage : Counts → Option BillingUsage := newOpenAIBillingUsage sourceOAIChat

def newOpenAIResponsesBillingUsage : Counts → Option BillingUsage :=
  newOpenAIBillingUsage sourceOAIResponses

def usageFromOpenAIBillingUsage (b : BillingUsage) (u : Counts) : Usage :=
  let prompt :=
    if u.promptTokens = 0 ∧ 0 < u.inputTokens then u.inputTokens else u.promptTokens
  let completion :=
    if u.completionTokens = 0 ∧ 0 < u.outputTokens then u.outputTokens else u.completionTokens
  { u with
    promptTokens := prompt
    completionTokens := completion
    inputTokens := if u.inputTokens = 0 ∧ 0 < prompt then prompt else u.inputTokens
    outputTokens := if u.outputTokens = 0 ∧ 0 < completion then completion else u.outputTokens
    totalTokens := if u.totalTokens = 0 then prompt + completion else u.totalTokens
    usageSemantic := semanticOpenAI
    usageSource := b.source
    billingUsage := some b }

def usageFromClaudeBillingUsage (b : BillingUsage) (u : ClaudeUsage) : Usage where
  promptTokens := u.inputTokens
  completionTokens := u.outputTokens
  totalTokens := u.inputTokens + u.outputTokens
  inputTokens := u.inputTokens + u.cacheReadInputTokens + u.cacheCreationInputTokens
  outputTokens := u.outputTokens
  usageSemantic := semanticAnthropic
  usageSource := sourceClaudeMessages
  billingUsage := some b
  claudeCacheCreation5mTokens :=
    if u.getCacheCreation5mTokens = 0 then u.claudeCacheCreation5mTokens
    else u.getCacheCreation5mTokens
  claudeCacheCreation1hTokens :=
    if u.getCacheCreation1hTokens = 0 then u.claudeCacheCreation1hTokens
    else u.getCacheCreation1hTokens
  promptTokensDetails :=
    { cachedTokens := u.cacheReadInputTokens, cachedCreationTokens := u.cacheCreationInputTokens }

def addGeminiInputTokenDetail (d : InputTokenDetails) (detail : GeminiTokensDetail) :
    InputTokenDetails :=
  match detail.modality with
  | .audio => { d with audioTokens := d.audioTokens + detail.tokenCount }
  | .image => { d with imageTokens := d.imageTokens + detail.tokenCount }
  | .text => { d with textTokens := d.textTokens + detail.tokenCount }
  | .other => d

def addGeminiOutputTokenDetail (d : OutputTokenDetails) (detail : GeminiTokensDetail) :
    OutputTokenDetails :=
  match detail.modality with
  | .audio => { d with audioTokens := d.audioTokens + detail.tokenCount }
  | .image => { d with imageTokens := d.imageTokens + detail.tokenCount }
  | .text => { d with textTokens := d.textTokens + detail.tokenCount }
  | .other => d

def usageFromGeminiBillingUsage (b : BillingUsage) (m : GeminiUsageMetadata) : Usage :=
  let prompt := m.promptTokenCount + m.toolUsePromptTokenCount
  let candidates := m.candidatesTokenCount + m.thoughtsTokenCount
  let details := (m.promptTokensDetails ++ m.toolUsePromptTokensDetails).foldl
    addGeminiInputTokenDetail { cachedTokens := m.cachedContentTokenCount }
  { promptTokens := prompt
    completionTokens :=
      if m.totalTokenCount ≠ 0 ∧ candidates ≤ 0 then m.totalTokenCount - prompt else candidates
    totalTokens := if m.totalTokenCount = 0 then prompt + candidates else m.totalTokenCount
    usageSemantic := semanticGemini
    usageSource := sourceGeminiChat
    billingUsage := some b
    completionTokenDetails := m.candidatesTokensDetails.foldl addGeminiOutputTokenDetail
      { reasoningTokens := m.thoughtsTokenCount }
    promptTokensDetails :=
      if 0 < prompt ∧ details.textTokens = 0 ∧ details.audioTokens = 0 then
        { details with textTokens := prompt }
      else details }

structure Runtime where
  trimSpace : String → String
  equalFold : String → String → Bool

structure Runtime.Lawful (rt : Runtime) : Prop where
  trim : ∀ s ∈ [sourceClaudeMessages, sourceGeminiChat, sourceOAIChat, sourceOAIResponses,
    semanticAnthropic, semanticGemini, semanticOpenAI], rt.trimSpace s = s
  fold : ∀ s, rt.equalFold s s = true

section

variable (rt : Runtime)

def names (b : BillingUsage) (sources : List String) (semantic : String) : Bool :=
  sources.any (rt.equalFold (rt.trimSpace b.source)) ||
    rt.equalFold (rt.trimSpace b.semantic) semantic

def usageFromBillingUsage (u : Usage) : Option Usage :=
  u.billingUsage.bind fun b ↦
    let openAI := b.openAIUsage.filter fun _ ↦
      names rt b [sourceOAIChat, sourceOAIResponses] semanticOpenAI
    let claude := b.claudeUsage.filter fun _ ↦ names rt b [sourceClaudeMessages] semanticAnthropic
    let gemini := b.geminiUsageMetadata.filter fun _ ↦ names rt b [sourceGeminiChat] semanticGemini
    (openAI.map (usageFromOpenAIBillingUsage b)).or
      ((claude.map (usageFromClaudeBillingUsage b)).or (gemini.map (usageFromGeminiBillingUsage b)))

def effectiveBillingUsage (u : Usage) : Usage := (usageFromBillingUsage rt u).getD u

end

structure TokenParams where
  (p c len cr cc cc1h img imgO ai ao : ℤ)
  deriving DecidableEq

structure UsedVars where
  cr : Bool := false
  cc : Bool := false
  cc1h : Bool := false
  img : Bool := false
  ai : Bool := false
  imgO : Bool := false
  ao : Bool := false

/-- A prompt includes its cached, image and audio tokens, except in Claude's vocabulary; those that
have a price of their own are taken out. -/
def buildTieredTokenParams (u : Usage) (isClaudeUsageSemantic : Bool) (used : UsedVars) :
    TokenParams :=
  let cr := u.promptTokensDetails.cachedTokens
  let anthropic : Bool := u.usageSemantic = semanticAnthropic
  let cc :=
    if anthropic then u.claudeCacheCreation5mTokens
    else u.promptTokensDetails.cacheCreationTokensTotal
  let cc1h := if anthropic then u.claudeCacheCreation1hTokens else 0
  let img := u.promptTokensDetails.imageTokens
  let ai := u.promptTokensDetails.audioTokens
  let imgO := u.completionTokenDetails.imageTokens
  let ao := u.completionTokenDetails.audioTokens
  let takeOut (isUsed : Bool) (n : ℤ) : ℤ := if !isClaudeUsageSemantic && isUsed then n else 0
  { p := max 0 (u.promptTokens - takeOut used.cr cr - takeOut used.cc cc - takeOut used.cc1h cc1h -
      takeOut used.img img - takeOut used.ai ai)
    c := max 0 (u.completionTokens - takeOut used.imgO imgO - takeOut used.ao ao)
    len := if isClaudeUsageSemantic then u.promptTokens + cr + cc + cc1h else u.promptTokens
    cr, cc, cc1h, img, imgO, ai, ao }

end Moligate.TokenUsage
