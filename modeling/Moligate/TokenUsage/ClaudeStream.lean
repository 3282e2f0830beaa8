import Moligate.TokenUsage.Model

namespace Moligate.TokenUsage

open Option List ClaudeUsage

/-- What is counted once is not counted again: the tokens that no part of the breakdown has are
five-minute tokens. -/
def normalizeCacheCreationSplit (total tokens5m tokens1h : ℤ) : ℤ × ℤ :=
  (tokens5m + max 0 (total - tokens5m - tokens1h), tokens1h)

def claudeUsageFromSemanticUsage (u : Counts) : ClaudeUsage :=
  let split := normalizeCacheCreationSplit u.promptTokensDetails.cachedCreationTokens
    u.claudeCacheCreation5mTokens u.claudeCacheCreation1hTokens
  { inputTokens := u.promptTokens
    cacheCreationInputTokens := u.promptTokensDetails.cachedCreationTokens
    cacheReadInputTokens := u.promptTokensDetails.cachedTokens
    outputTokens := u.completionTokens
    cacheCreation := if 0 < split.1 ∨ 0 < split.2 then some ⟨split.1, split.2⟩ else none }

def claudeBillingUsageFromSemanticUsage (u : Counts) : Option BillingUsage :=
  newClaudeMessagesBillingUsage (claudeUsageFromSemanticUsage u)

structure StartMessage where
  (id model : String)
  usage : Option ClaudeUsage

inductive StreamEvent where
  | messageStart (message : Option StartMessage)
  | contentBlockStart
  | contentBlockDelta (text thinking : Option String)
  | messageDelta (usage : Option ClaudeUsage)
  | other

structure ClaudeResponseInfo where
  responseId : String := ""
  model : String := ""
  responseText : String := ""
  usage : Usage := {}
  done : Bool := false

def startUsage (usage : Usage) (u : ClaudeUsage) : Usage :=
  let usage : Usage :=
    { usage with
      promptTokens := u.inputTokens
      usageSemantic := semanticAnthropic
      promptTokensDetails :=
        { usage.promptTokensDetails with
          cachedTokens := u.cacheReadInputTokens
          cachedCreationTokens := u.cacheCreationInputTokens }
      claudeCacheCreation5mTokens := u.getCacheCreation5mTokens
      claudeCacheCreation1hTokens := u.getCacheCreation1hTokens
      completionTokens := u.outputTokens }
  { usage with billingUsage := claudeBillingUsageFromSemanticUsage usage.toCounts }

def deltaUsage (usage : Usage) (u : ClaudeUsage) : Usage :=
  let update (old new : ℤ) : ℤ := if 0 < new then new else old
  let d := usage.promptTokensDetails
  let prompt := update usage.promptTokens u.inputTokens
  let completion := update usage.completionTokens u.outputTokens
  let usage : Usage :=
    { usage with
      usageSemantic := semanticAnthropic
      promptTokens := prompt
      promptTokensDetails :=
        { d with
          cachedTokens := update d.cachedTokens u.cacheReadInputTokens
          cachedCreationTokens := update d.cachedCreationTokens u.cacheCreationInputTokens }
      claudeCacheCreation5mTokens :=
        update usage.claudeCacheCreation5mTokens u.getCacheCreation5mTokens
      claudeCacheCreation1hTokens :=
        update usage.claudeCacheCreation1hTokens u.getCacheCreation1hTokens
      completionTokens := completion
      totalTokens := prompt + completion }
  { usage with billingUsage := claudeBillingUsageFromSemanticUsage usage.toCounts }

def formatClaudeResponseInfo (info : ClaudeResponseInfo) : StreamEvent → ClaudeResponseInfo × Bool
  | .messageStart none => (info, true)
  | .messageStart (some m) =>
    ({ info with
       responseId := m.id
       model := m.model
       usage := match m.usage with
         | some u => startUsage info.usage u
         | none => info.usage }, true)
  | .contentBlockDelta text thinking =>
    ({ info with responseText := info.responseText ++ text.getD "" ++ thinking.getD "" }, true)
  | .messageDelta usage =>
    ({ info with
       usage := match usage with
         | some u => deltaUsage info.usage u
         | none => info.usage
       done := true }, true)
  | .contentBlockStart => (info, true)
  | .other => (info, false)

def streamedUsage (events : List StreamEvent) : Usage :=
  (events.foldl (fun info e ↦ (formatClaudeResponseInfo info e).1) {}).usage

def wholeUsage (u : ClaudeUsage) : Usage where
  promptTokens := u.inputTokens
  completionTokens := u.outputTokens
  totalTokens := u.inputTokens + u.outputTokens
  usageSemantic := semanticAnthropic
  billingUsage := newClaudeMessagesBillingUsage u
  promptTokensDetails :=
    { cachedTokens := u.cacheReadInputTokens, cachedCreationTokens := u.cacheCreationInputTokens }
  claudeCacheCreation5mTokens := u.getCacheCreation5mTokens
  claudeCacheCreation1hTokens := u.getCacheCreation1hTokens

/-- The breakdown that the billing of a whole answer uses: a part that is 0 is looked up under its
older name. -/
def ClaudeUsage.cacheCreation5m (u : ClaudeUsage) : ℤ :=
  if u.getCacheCreation5mTokens = 0 then u.claudeCacheCreation5mTokens
  else u.getCacheCreation5mTokens

def ClaudeUsage.cacheCreation1h (u : ClaudeUsage) : ℤ :=
  if u.getCacheCreation1hTokens = 0 then u.claudeCacheCreation1hTokens
  else u.getCacheCreation1hTokens

structure ClaudeUsage.Nonneg (u : ClaudeUsage) : Prop where
  input : 0 ≤ u.inputTokens
  creation : 0 ≤ u.cacheCreationInputTokens
  read : 0 ≤ u.cacheReadInputTokens
  output : 0 ≤ u.outputTokens
  parts : ∀ c ∈ u.cacheCreation, 0 ≤ c.ephemeral5mInputTokens ∧ 0 ≤ c.ephemeral1hInputTokens

theorem ClaudeUsage.Nonneg.get {u : ClaudeUsage} (h : u.Nonneg) :
    0 ≤ u.getCacheCreation5mTokens ∧ 0 ≤ u.getCacheCreation1hTokens := by
  rw [getCacheCreation5mTokens, getCacheCreation1hTokens]
  cases hc : u.cacheCreation with
  | none => exact ⟨le_rfl, le_rfl⟩
  | some c => exact h.parts c hc

def claudeTokenParams (u : ClaudeUsage) : TokenParams where
  p := max 0 u.inputTokens
  c := max 0 u.outputTokens
  len := u.inputTokens + u.cacheReadInputTokens + u.cacheCreation5m + u.cacheCreation1h
  cr := u.cacheReadInputTokens
  cc := u.cacheCreation5m
  cc1h := u.cacheCreation1h
  img := 0
  imgO := 0
  ai := 0
  ao := 0

section

variable {rt : Runtime} {x : Usage} {w : ClaudeUsage} {used : UsedVars}

theorem effectiveBillingUsage_claude (hrt : rt.Lawful)
    (hb : x.billingUsage = newClaudeMessagesBillingUsage w) (hw : hasClaudeUsageTokens w = true) :
    buildTieredTokenParams (effectiveBillingUsage rt x) true used = claudeTokenParams w := by
  rw [newClaudeMessagesBillingUsage, if_pos hw] at hb
  have hname : rt.equalFold (rt.trimSpace sourceClaudeMessages) sourceClaudeMessages = true := by
    rw [hrt.trim _ mem_cons_self, hrt.fold]
  simp only [effectiveBillingUsage, usageFromBillingUsage, hb, bind_some, names,
    any_cons, any_nil, hname, Bool.true_or, filter_none, map_none,
    none_or, filter_some, if_true, map_some, some_or, getD_some]
  simp [buildTieredTokenParams, usageFromClaudeBillingUsage, claudeTokenParams,
    cacheCreation5m, cacheCreation1h]

theorem tokenParams_of_billingUsage (hrt : rt.Lawful)
    (hb : x.billingUsage = newClaudeMessagesBillingUsage w)
    (hzero : hasClaudeUsageTokens w = false →
      buildTieredTokenParams x true used = claudeTokenParams w) :
    buildTieredTokenParams (effectiveBillingUsage rt x) true used = claudeTokenParams w := by
  cases hw : hasClaudeUsageTokens w with
  | true => exact effectiveBillingUsage_claude hrt hb hw
  | false =>
    rw [newClaudeMessagesBillingUsage, hw] at hb
    rw [effectiveBillingUsage, usageFromBillingUsage, hb]
    exact hzero hw

end

theorem hasClaudeUsageTokens_false {u : ClaudeUsage} (h : hasClaudeUsageTokens u = false) :
    (u.inputTokens = 0 ∧ u.outputTokens = 0 ∧ u.cacheReadInputTokens = 0) ∧
      u.cacheCreation5m = 0 ∧ u.cacheCreation1h = 0 ∧
      u.getCacheCreation5mTokens = 0 ∧ u.getCacheCreation1hTokens = 0 := by
  simp only [hasClaudeUsageTokens, Bool.or_eq_false_iff, decide_eq_false_iff_not, not_not] at h
  obtain ⟨⟨⟨⟨⟨⟨hinput, houtput⟩, -⟩, hread⟩, h5m⟩, h1h⟩, hparts⟩ := h
  have hget : u.getCacheCreation5mTokens = 0 ∧ u.getCacheCreation1hTokens = 0 := by
    rw [getCacheCreation5mTokens, getCacheCreation1hTokens]
    cases hc : u.cacheCreation with
    | none => exact ⟨rfl, rfl⟩
    | some c =>
      rw [hc] at hparts
      simpa using hparts
  refine ⟨⟨hinput, houtput, hread⟩, ?_, ?_, hget⟩
  · rw [cacheCreation5m, if_pos hget.1, h5m]
  · rw [cacheCreation1h, if_pos hget.2, h1h]

section

variable {rt : Runtime} {u : ClaudeUsage} {used : UsedVars}

theorem tokenParams_wholeUsage (hrt : rt.Lawful) :
    buildTieredTokenParams (effectiveBillingUsage rt (wholeUsage u)) true used =
      claudeTokenParams u := by
  apply tokenParams_of_billingUsage hrt rfl
  intro hnone
  obtain ⟨⟨hinput, houtput, hread⟩, h5m, h1h, hget5m, hget1h⟩ := hasClaudeUsageTokens_false hnone
  simp [buildTieredTokenParams, claudeTokenParams, wholeUsage, hinput, houtput, hread, h5m, h1h,
    hget5m, hget1h]

/-- The usage of a stream whose first and last event carry the same usage block. -/
def carriedUsage (u : ClaudeUsage) : Usage := deltaUsage (startUsage {} u) u

def StreamEvent.isContent : StreamEvent → Bool
  | .messageStart _ => false
  | .messageDelta _ => false
  | _ => true

theorem streamedUsage_carried {m : StartMessage} {events : List StreamEvent}
    (hm : m.usage = some u) (hevents : ∀ e ∈ events, e.isContent = true) :
    streamedUsage (.messageStart (some m) :: events ++ [.messageDelta (some u)]) =
      carriedUsage u := by
  have hcontent (info : ClaudeResponseInfo) :
      (events.foldl (fun info e ↦ (formatClaudeResponseInfo info e).1) info).usage =
        info.usage := by
    induction events generalizing info with
    | nil => rfl
    | cons e rest ih =>
      rw [foldl_cons, ih fun e he ↦ hevents e (mem_cons_of_mem _ he)]
      have he := hevents e mem_cons_self
      cases e <;> first | rfl | cases he
  have hstart : (formatClaudeResponseInfo {} (.messageStart (some m))).1.usage = startUsage {} u := by
    simp [formatClaudeResponseInfo, hm]
  have hdelta (info : ClaudeResponseInfo) :
      (formatClaudeResponseInfo info (.messageDelta (some u))).1.usage = deltaUsage info.usage u :=
    rfl
  rw [streamedUsage, foldl_append, foldl_cons, foldl_cons, foldl_nil, hdelta,
    hcontent, hstart, carriedUsage]

theorem carriedUsage_counts :
    (carriedUsage u).toCounts =
      { promptTokens := u.inputTokens
        completionTokens := u.outputTokens
        totalTokens := u.inputTokens + u.outputTokens
        usageSemantic := semanticAnthropic
        promptTokensDetails :=
          { cachedTokens := u.cacheReadInputTokens
            cachedCreationTokens := u.cacheCreationInputTokens }
        claudeCacheCreation5mTokens := u.getCacheCreation5mTokens
        claudeCacheCreation1hTokens := u.getCacheCreation1hTokens } := by
  -- a count that the delta does not update is the same one
  have hsame (n : ℤ) : (if 0 < n then n else n) = n := ite_self n
  simp [carriedUsage, deltaUsage, startUsage]

theorem cacheCreation_fromSemanticUsage {x : Counts} (h5m : 0 ≤ x.claudeCacheCreation5mTokens)
    (h1h : 0 ≤ x.claudeCacheCreation1hTokens)
    (hsplit : x.claudeCacheCreation5mTokens + x.claudeCacheCreation1hTokens ≤
      x.promptTokensDetails.cachedCreationTokens) :
    (claudeUsageFromSemanticUsage x).cacheCreation5m =
        x.promptTokensDetails.cachedCreationTokens - x.claudeCacheCreation1hTokens ∧
      (claudeUsageFromSemanticUsage x).cacheCreation1h = x.claudeCacheCreation1hTokens := by
  have hrest : x.claudeCacheCreation5mTokens + max 0 (x.promptTokensDetails.cachedCreationTokens -
      x.claudeCacheCreation5mTokens - x.claudeCacheCreation1hTokens) =
        x.promptTokensDetails.cachedCreationTokens - x.claudeCacheCreation1hTokens := by
    omega
  simp only [cacheCreation5m, cacheCreation1h,
    getCacheCreation5mTokens, getCacheCreation1hTokens,
    claudeUsageFromSemanticUsage, normalizeCacheCreationSplit, hrest]
  by_cases hpos : 0 < x.promptTokensDetails.cachedCreationTokens - x.claudeCacheCreation1hTokens ∨
      0 < x.claudeCacheCreation1hTokens
  · simp only [if_pos hpos, map_some, getD_some]
    constructor <;> split <;> omega
  · simp only [if_neg hpos, map_none, getD_none, if_true]
    omega

/-- On a stream every input token is counted, whatever breakdown the upstream has given. -/
theorem tokenParams_carriedUsage (hrt : rt.Lawful) (hu : u.Nonneg)
    (hsplit : u.getCacheCreation5mTokens + u.getCacheCreation1hTokens ≤
      u.cacheCreationInputTokens) :
    buildTieredTokenParams (effectiveBillingUsage rt (carriedUsage u)) true used =
      { claudeTokenParams u with
        len := u.inputTokens + u.cacheReadInputTokens + u.cacheCreationInputTokens
        cc := u.cacheCreationInputTokens - u.getCacheCreation1hTokens
        cc1h := u.getCacheCreation1hTokens } := by
  obtain ⟨h5m, h1h⟩ := hu.get
  have hcounts := carriedUsage_counts (u := u)
  obtain ⟨hcc, hcc1h⟩ := cacheCreation_fromSemanticUsage (x := (carriedUsage u).toCounts)
    (by rw [hcounts]; exact h5m) (by rw [hcounts]; exact h1h) (by rw [hcounts]; exact hsplit)
  have hparams : claudeTokenParams (claudeUsageFromSemanticUsage (carriedUsage u).toCounts) =
      { claudeTokenParams u with
        len := u.inputTokens + u.cacheReadInputTokens + u.cacheCreationInputTokens
        cc := u.cacheCreationInputTokens - u.getCacheCreation1hTokens
        cc1h := u.getCacheCreation1hTokens } := by
    rw [claudeTokenParams, hcc, hcc1h, hcounts, claudeTokenParams]
    simp only [claudeUsageFromSemanticUsage, TokenParams.mk.injEq, true_and, and_true]
    omega
  rw [← hparams]
  apply tokenParams_of_billingUsage hrt rfl
  intro hnone
  obtain ⟨⟨hinput, houtput, hread⟩, h5m', h1h', -⟩ := hasClaudeUsageTokens_false hnone
  rw [hcc] at h5m'
  rw [hcc1h] at h1h'
  simp only [hcounts, claudeUsageFromSemanticUsage] at hinput houtput hread h5m' h1h'
  have hzero : u.getCacheCreation5mTokens = 0 ∧ u.cacheCreationInputTokens = 0 := by omega
  rw [hparams]
  simp [buildTieredTokenParams, claudeTokenParams, hcounts, hinput, houtput, hread, h1h', hzero]

structure ClaudeUsage.FullBreakdown (u : ClaudeUsage) : Prop where
  oneHour : u.getCacheCreation1hTokens ≠ 0 ∨ u.claudeCacheCreation1hTokens = 0
  total : u.cacheCreation5m + u.getCacheCreation1hTokens = u.cacheCreationInputTokens

theorem ClaudeUsage.FullBreakdown.cacheCreation1h_eq (h : u.FullBreakdown) :
    u.cacheCreation1h = u.getCacheCreation1hTokens := by
  rw [cacheCreation1h]
  split
  next hzero => rw [h.oneHour.resolve_left (not_not.2 hzero), hzero]
  · rfl

end

private def exactNames : Runtime := ⟨id, fun a b ↦ a = b⟩

private def brokenDown : ClaudeUsage where
  inputTokens := 10
  cacheReadInputTokens := 200
  cacheCreationInputTokens := 3000
  outputTokens := 7
  cacheCreation := some ⟨1000, 2000⟩

end Moligate.TokenUsage
