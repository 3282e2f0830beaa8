import Moligate.TokenUsage.Model

namespace Moligate.TokenUsage

def hasGeminiUsageMetadataTokens (m : GeminiUsageMetadata) : Bool :=
  m.promptTokenCount ≠ 0 || m.toolUsePromptTokenCount ≠ 0 || m.candidatesTokenCount ≠ 0 ||
    m.totalTokenCount ≠ 0 || m.thoughtsTokenCount ≠ 0 || m.cachedContentTokenCount ≠ 0 ||
    (m.promptTokensDetails ++ m.toolUsePromptTokensDetails ++ m.candidatesTokensDetails).any
      (·.tokenCount ≠ 0)

def newGeminiChatBillingUsage (m : GeminiUsageMetadata) : Option BillingUsage :=
  if hasGeminiUsageMetadataTokens m then
    some { source := sourceGeminiChat, semantic := semanticGemini, geminiUsageMetadata := some m }
  else none

/-- `attached` is the billing usage that the metadata has kept from another format. -/
def usageFromGeminiMetadata (metadata : Option GeminiUsageMetadata)
    (attached : Option BillingUsage) (fallbackPromptTokens : ℤ) : Option Usage :=
  match metadata with
  | none =>
    if fallbackPromptTokens ≤ 0 then none
    else some
      { promptTokens := fallbackPromptTokens
        promptTokensDetails := { textTokens := fallbackPromptTokens } }
  | some m =>
    let counted := m.promptTokenCount + m.toolUsePromptTokenCount
    let prompt := if counted ≤ 0 ∧ 0 < fallbackPromptTokens then fallbackPromptTokens else counted
    let candidates := m.candidatesTokenCount + m.thoughtsTokenCount
    let details := (m.promptTokensDetails ++ m.toolUsePromptTokensDetails).foldl
      addGeminiInputTokenDetail { cachedTokens := m.cachedContentTokenCount }
    some
      { promptTokens := prompt
        completionTokens :=
          if 0 < m.totalTokenCount ∧ candidates ≤ 0 then m.totalTokenCount - prompt else candidates
        totalTokens := m.totalTokenCount
        billingUsage := attached.or (newGeminiChatBillingUsage m)
        completionTokenDetails := m.candidatesTokensDetails.foldl addGeminiOutputTokenDetail
          { reasoningTokens := m.thoughtsTokenCount }
        promptTokensDetails :=
          if 0 < prompt ∧ details.textTokens = 0 ∧ details.audioTokens = 0 then
            { details with textTokens := prompt }
          else details }

structure GeminiUsageMetadata.Nonneg (m : GeminiUsageMetadata) : Prop where
  prompt : 0 ≤ m.promptTokenCount
  toolUse : 0 ≤ m.toolUsePromptTokenCount
  candidates : 0 ≤ m.candidatesTokenCount
  total : 0 ≤ m.totalTokenCount
  thoughts : 0 ≤ m.thoughtsTokenCount

/-- The prompt is counted, or there is nothing to bill or no estimate for it; and a total that has
to give the completion is not below the prompt. -/
structure GeminiUsageMetadata.Consistent (m : GeminiUsageMetadata) (fallback : ℤ) : Prop where
  prompt : 0 < m.promptTokenCount + m.toolUsePromptTokenCount ∨ fallback ≤ 0 ∨
    hasGeminiUsageMetadataTokens m = false
  total : 0 < m.candidatesTokenCount + m.thoughtsTokenCount ∨ m.totalTokenCount = 0 ∨
    m.promptTokenCount + m.toolUsePromptTokenCount ≤ m.totalTokenCount

variable {rt : Runtime} {m : GeminiUsageMetadata}

theorem effectiveBillingUsage_gemini (hrt : rt.Lawful) {u : Usage}
    (hu : u.billingUsage = newGeminiChatBillingUsage m)
    (hm : hasGeminiUsageMetadataTokens m = true) :
    ∃ b, effectiveBillingUsage rt u = usageFromGeminiBillingUsage b m := by
  rw [newGeminiChatBillingUsage, if_pos hm] at hu
  have hname : rt.equalFold (rt.trimSpace sourceGeminiChat) sourceGeminiChat = true := by
    rw [hrt.trim _ (by simp), hrt.fold]
  simp only [effectiveBillingUsage, usageFromBillingUsage, hu, Option.bind_some, names,
    List.any_cons, hname, Bool.true_or, Option.filter_none, Option.map_none, Option.none_or,
    Option.filter_some, if_true, Option.map_some, Option.getD_some]
  exact ⟨_, rfl⟩

def verbatim : Runtime := ⟨id, (· == ·)⟩

theorem verbatim_lawful : verbatim.Lawful := ⟨fun _ _ ↦ rfl, fun _ ↦ beq_self_eq_true _⟩

end Moligate.TokenUsage
