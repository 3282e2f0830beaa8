import Mathlib.Data.List.Nodup
import Mathlib.Data.List.Range
import Moligate.Convert.ClaudeProtocol

namespace Moligate.Convert

open Foundation Option List Bool Nat ClaudeConvertInfo Phase

variable {υ : Type} {lower : String → String} {st : ClaudeConvertInfo υ} {n : ℕ}
  {out : ClaudeConvertInfo υ × List (Event υ)} {always : Bool} {delta : Delta} {s : Source}

def toolBlocks (base k : ℕ) : List (ℕ × Kind) := (List.range k).map fun o ↦ (base + o, .toolUse)

def ClaudeConvertInfo.openBlocks (st : ClaudeConvertInfo υ) : List (ℕ × Kind) :=
  match st.lastMessagesType with
  | .none => []
  | .text => [(st.index, .text)]
  | .thinking => [(st.index, .thinking)]
  | .tools => toolBlocks st.toolCallBaseIndex (st.toolCallMaxIndexOffset + 1)

def ClaudeConvertInfo.nextIndex (st : ClaudeConvertInfo υ) : ℕ :=
  match st.lastMessagesType with
  | .none => st.index
  | .text | .thinking => st.index + 1
  | .tools => st.toolCallBaseIndex + (st.toolCallMaxIndexOffset + 1)

def ClaudeConvertInfo.phase (st : ClaudeConvertInfo υ) : Phase :=
  .running st.nextIndex st.openBlocks

theorem toolBlocks_succ (base k : ℕ) :
    toolBlocks base (k + 1) = toolBlocks base k ++ [(base + k, .toolUse)] := by
  rw [toolBlocks, range_succ, map_append]
  rfl

theorem mem_toolBlocks {base k : ℕ} {b : ℕ × Kind} :
    b ∈ toolBlocks base k ↔ ∃ o < k, b = (base + o, .toolUse) := by
  simp [toolBlocks, eq_comm]

theorem stopOpenBlocks_eq :
    stopOpenBlocks st = st.openBlocks.map fun b ↦ .contentBlockStop b.1 := by
  rw [stopOpenBlocks, openBlocks]
  cases st.lastMessagesType with
  | none | text | thinking => rfl
  | tools => simp [toolBlocks]

theorem nodup_openBlocks : (st.openBlocks.map Prod.fst).Nodup := by
  rw [openBlocks]
  cases st.lastMessagesType with
  | none => exact nodup_nil
  | text | thinking => exact nodup_singleton _
  | tools =>
    rw [toolBlocks, List.map_map]
    exact nodup_range.map fun i j h ↦ by simpa using h

theorem exec_stops {blocks : List (ℕ × Kind)} (h : (blocks.map Prod.fst).Nodup) :
    exec next (.running n blocks) (blocks.map fun b ↦ (.contentBlockStop b.1 : Event υ)) =
      some (.running n []) := by
  induction blocks with
  | nil => rfl
  | cons b blocks ih =>
    obtain ⟨hb, h⟩ := nodup_cons.1 h
    have hrest : (b :: blocks).filter (·.1 ≠ b.1) = blocks := by
      rw [filter_cons_of_neg (by simp), filter_eq_self]
      intro c hc
      refine decide_eq_true fun heq ↦ hb ?_
      rw [← heq]
      exact mem_map_of_mem hc
    refine exec_cons.2 ⟨.running n blocks, ?_, ih h⟩
    rw [Phase.next, if_pos (by simp), hrest]

theorem exec_stopOpenBlocks (st : ClaudeConvertInfo υ) :
    exec next st.phase (stopOpenBlocks st) = some (.running st.nextIndex []) := by
  rw [stopOpenBlocks_eq]
  exact exec_stops nodup_openBlocks

theorem exec_terminate {usage : Option υ} {reason : String} :
    exec next st.phase (terminate st usage reason).2 = some .stopped :=
  exec_append.2 ⟨_, exec_stopOpenBlocks st, rfl⟩

theorem exec_stopOpenBlocksAndAdvance (st : ClaudeConvertInfo υ) :
    (stopOpenBlocksAndAdvance st).1.lastMessagesType = .none ∧
      exec next st.phase (stopOpenBlocksAndAdvance st).2 =
        some (.running (stopOpenBlocksAndAdvance st).1.index []) := by
  have hstop := exec_stopOpenBlocks st
  rw [stopOpenBlocksAndAdvance]
  cases htype : st.lastMessagesType with
  | none =>
    refine ⟨htype, ?_⟩
    rw [phase, nextIndex, openBlocks, htype]
    rfl
  | text | thinking | tools =>
    rw [hstop, nextIndex, htype]
    exact ⟨rfl, rfl⟩

/-- What the emissions of a part of the converter do: they lead on to the blocks of its new state. -/
def Leads (st : ClaudeConvertInfo υ) (out : ClaudeConvertInfo υ × List (Event υ)) : Prop :=
  exec next st.phase out.2 = some out.1.phase

theorem Leads.refl : Leads st (st, []) := rfl

theorem Leads.trans {st' : ClaudeConvertInfo υ} {events : List (Event υ)}
    (h : Leads st (st', events)) (h' : Leads st' out) : Leads st (out.1, events ++ out.2) :=
  exec_append.2 ⟨_, h, h'⟩

theorem phase_tools (h : st.lastMessagesType = .tools) :
    st.phase = .running (st.toolCallBaseIndex + (st.toolCallMaxIndexOffset + 1))
      (toolBlocks st.toolCallBaseIndex (st.toolCallMaxIndexOffset + 1)) := by
  rw [phase, nextIndex, openBlocks, h]

theorem leads_blockDelta {type : LastMessageType} {block : ContentBlock} {delta : BlockDelta}
    (hkind : delta.kind = block.kind)
    (htype : ∀ st : ClaudeConvertInfo υ, st.lastMessagesType = type →
      st.phase = .running (st.index + 1) [(st.index, block.kind)])
    (halways : always = true → st.lastMessagesType ≠ type) :
    Leads st (blockDelta st type block delta always) := by
  have hphase := htype (blockDelta st type block delta always).1 rfl
  rw [Leads, hphase]
  by_cases hlast : st.lastMessagesType = type
  · have hnot : always = false := by
      cases always with
      | false => rfl
      | true => exact absurd hlast (halways rfl)
    simp [blockDelta, hlast, hnot, htype st hlast, exec, Phase.next, hkind]
  · obtain ⟨-, hstop⟩ := exec_stopOpenBlocksAndAdvance st
    simp only [blockDelta, ne_eq, hlast, not_false_eq_true, if_true, decide_true, Bool.true_or,
      append_assoc]
    refine exec_append.2 ⟨_, hstop, ?_⟩
    simp [exec, Phase.next, hkind]

theorem leads_contentDelta
    (halways : always = true → st.lastMessagesType = .none ∨ st.lastMessagesType = .tools) :
    Leads st (contentDelta st delta always) := by
  have hne (type : LastMessageType) (hnone : type ≠ .none) (htools : type ≠ .tools)
      (h : always = true) : st.lastMessagesType ≠ type := by
    rcases halways h with hst | hst
    · exact fun heq ↦ hnone (heq.symm.trans hst)
    · exact fun heq ↦ htools (heq.symm.trans hst)
  simp only [contentDelta]
  split
  · refine leads_blockDelta rfl (fun st h ↦ ?_) (hne _ (by decide) (by decide))
    rw [phase, nextIndex, openBlocks, h, ContentBlock.kind]
  · split
    · refine leads_blockDelta rfl (fun st h ↦ ?_) (hne _ (by decide) (by decide))
      rw [phase, nextIndex, openBlocks, h, ContentBlock.kind]
    · exact .refl

section

variable {calls : List ToolCall} {k k' i base m : ℕ}

theorem toolsSeen_le (h : toolsSeen k i calls = some k') : k ≤ k' := by
  induction calls generalizing k i with
  | nil => exact le_of_eq (some.inj h)
  | cons call calls ih =>
    simp only [toolsSeen] at h
    split at h
    · exact le_of_succ_le (ih h)
    · split at h
      · exact ih h
      · cases h

theorem toolsSeen_pos (hcalls : calls ≠ []) (h : toolsSeen k i calls = some k') : 0 < k' := by
  cases calls with
  | nil => exact absurd rfl hcalls
  | cons call calls =>
    simp only [toolsSeen] at h
    split at h
    · exact lt_of_lt_of_le (succ_pos k) (toolsSeen_le h)
    · split at h
      next hlt => exact lt_of_lt_of_le (zero_lt_of_lt hlt) (toolsSeen_le h)
      · cases h

theorem exec_arguments {o : ℕ} (ho : o < k) (args : String) :
    exec next (.running n (toolBlocks base k))
        (if args ≠ "" then [(.contentBlockDelta (base + o) (.inputJson args) : Event υ)] else []) =
      some (.running n (toolBlocks base k)) := by
  split
  · refine exec_cons.2 ⟨_, ?_, rfl⟩
    exact if_pos (mem_toolBlocks.2 ⟨o, ho, rfl⟩)
  · rfl

theorem exec_toolStart (id name : String) :
    exec next (.running (base + k) (toolBlocks base k))
        [(.contentBlockStart (base + k) (.toolUse id name) : Event υ)] =
      some (.running (base + (k + 1)) (toolBlocks base (k + 1))) := by
  refine exec_cons.2 ⟨_, ?_, rfl⟩
  rw [Phase.next, if_pos, toolBlocks_succ]
  · rfl
  · refine ⟨rfl, fun b hb ↦ ?_⟩
    obtain ⟨o, -, rfl⟩ := mem_toolBlocks.1 hb
    exact ⟨rfl, rfl⟩

theorem exec_toolCallLoop (base : ℕ) (hm : m = k - 1) (hnamed : namedOnce k i calls = true)
    (h : toolsSeen k i calls = some k') :
    (toolCallLoop base m i calls : ℕ × List (Event υ)).1 = k' - 1 ∧
      exec next (.running (base + k) (toolBlocks base k))
          (toolCallLoop base m i calls : ℕ × List (Event υ)).2 =
        some (.running (base + k') (toolBlocks base k')) := by
  induction calls generalizing k i m with
  | nil =>
    cases h
    exact ⟨hm, rfl⟩
  | cons call calls ih =>
    simp only [toolsSeen] at h
    simp only [namedOnce] at hnamed
    simp only [toolCallLoop, toolEvents]
    split at h
    next hnew =>
      obtain ⟨hindex, hname⟩ := hnew
      rw [if_pos hindex] at hnamed
      have hm' : max m (call.index.getD i) = k + 1 - 1 := by omega
      obtain ⟨hmax, hrun⟩ := ih hm' hnamed h
      refine ⟨hmax, ?_⟩
      rw [if_pos hname, hindex, append_assoc]
      refine exec_append.2 ⟨_, exec_toolStart call.id call.name, ?_⟩
      refine exec_append.2 ⟨_, exec_arguments (lt_succ_self k) call.arguments, ?_⟩
      rwa [hindex] at hrun
    · split at h
      next hlt =>
        rw [if_neg (Nat.ne_of_lt hlt), and_eq_true, decide_eq_true_eq] at hnamed
        have hm' : max m (call.index.getD i) = k - 1 := by omega
        obtain ⟨hmax, hrun⟩ := ih hm' hnamed.2 h
        refine ⟨hmax, ?_⟩
        rw [if_neg (not_not_intro hnamed.1), nil_append]
        exact exec_append.2 ⟨_, exec_arguments hlt call.arguments, hrun⟩
      · cases h

def ToolsOpen (st : ClaudeConvertInfo υ) (seen : ℕ) : Prop :=
  if st.lastMessagesType = .tools then seen = st.toolCallMaxIndexOffset + 1 else seen = 0

theorem leads_toolCallDelta {seen seen' : ℕ} (hseen : ToolsOpen st seen) (hcalls : calls ≠ [])
    (hnamed : namedOnce seen 0 calls = true) (h : toolsSeen seen 0 calls = some seen') :
    Leads st (toolCallDelta st calls) ∧
      (toolCallDelta st calls).1.lastMessagesType = .tools ∧
      seen' = (toolCallDelta st calls).1.toolCallMaxIndexOffset + 1 := by
  have hpos := toolsSeen_pos hcalls h
  have hphase := phase_tools (show (toolCallDelta st calls).1.lastMessagesType = .tools from rfl)
  rw [Leads, hphase]
  rw [ToolsOpen] at hseen
  by_cases hlast : st.lastMessagesType = .tools
  · rw [if_pos hlast] at hseen
    obtain ⟨hmax, hrun⟩ := exec_toolCallLoop (υ := υ) st.toolCallBaseIndex
      (m := st.toolCallMaxIndexOffset) (by omega) hnamed h
    have hseen' : seen' = seen' - 1 + 1 := by omega
    simp only [toolCallDelta, hlast, ne_eq, not_true_eq_false, if_false, nil_append, hmax,
      ← hseen', phase_tools hlast, ← hseen]
    exact ⟨hrun, trivial, trivial⟩
  · rw [if_neg hlast] at hseen
    subst hseen
    obtain ⟨-, hstop⟩ := exec_stopOpenBlocksAndAdvance st
    obtain ⟨hmax, hrun⟩ := exec_toolCallLoop (υ := υ) (stopOpenBlocksAndAdvance st).1.index
      (m := 0) rfl hnamed h
    have hseen' : seen' = seen' - 1 + 1 := by omega
    simp only [toolCallDelta, hlast, ne_eq, not_false_eq_true, if_true, hmax, ← hseen']
    exact ⟨exec_append.2 ⟨_, hstop, hrun⟩, trivial, trivial⟩

end

section

variable {info : Meta υ} {s s' : Source} {call : Call υ} {chunk : Chunk υ} {choice : Choice}

def ToolsAgree (st : ClaudeConvertInfo υ) (s : Source) : Prop :=
  if st.lastMessagesType = .tools then s.seen = st.toolCallMaxIndexOffset + 1 ∧ s.toolsOver = false
  else s.seen = 0 ∨ s.toolsOver = true

structure Follows (s : Source) (choice : Choice) (s' : Source) : Prop where
  seen : toolsSeen s.seen 0 choice.delta.toolCalls = some s'.seen
  toolsOver : s'.toolsOver = (s.toolsOver || choice.delta.hasText &&
    if choice.delta.toolCalls = [] then 0 < s.seen else !s.started)
  finished : s'.finished = choice.finished

theorem next_cases (h : s.next call = some s') :
    s'.started = true ∧
      (call.chunk.choices = [] ∧ s' = { s with started := true, closed := true } ∨
        ∃ choice, call.chunk.choices = [choice] ∧ s.finished = false ∧ Follows s choice s') := by
  rw [Source.next] at h
  split at h
  · cases h
  split at h
  next hnil =>
    cases h
    exact ⟨rfl, .inl ⟨hnil, rfl⟩⟩
  next choice hchoice =>
    split at h
    · cases h
    next hfinished =>
      obtain ⟨seen, hseen, rfl⟩ := map_eq_some_iff.1 h
      exact ⟨rfl, .inr ⟨choice, hchoice, eq_false_iff.2 hfinished, hseen, rfl, rfl⟩⟩
  · cases h

/-- How the session, the stream that it reads and the message that it writes belong together. -/
inductive Sim (info : Meta υ) (s : Source) : Phase → Prop
  | initial (hcount : info.sendResponseCount = 0) (hs : s = {})
      (htype : info.claudeConvertInfo.lastMessagesType = .none)
      (hindex : info.claudeConvertInfo.index = 0) (hdone : info.claudeConvertInfo.done = false) :
      Sim info s .initial
  | running (hcount : info.sendResponseCount ≠ 0) (hs : s.started = true)
      (hdone : info.claudeConvertInfo.done = false)
      (htools : s.finished = false → ToolsAgree info.claudeConvertInfo s) :
      Sim info s info.claudeConvertInfo.phase
  | stopped (hcount : info.sendResponseCount ≠ 0) (hs : s.started = true)
      (hdone : info.claudeConvertInfo.done = true) : Sim info s .stopped

def Reaches (p : Phase) (out : ClaudeConvertInfo υ × List (Event υ)) (s : Source) : Prop :=
  out.1.done = true ∧ exec next p out.2 = some .stopped ∨
    out.1.done = false ∧ exec next p out.2 = some out.1.phase ∧
      (s.finished = false → ToolsAgree out.1 s)

theorem contentDelta_done : (contentDelta st delta always).1.done = st.done := by
  simp only [contentDelta, blockDelta, stopOpenBlocksAndAdvance]
  repeat' split
  all_goals rfl

theorem toolCallDelta_done {calls : List ToolCall} : (toolCallDelta st calls).1.done = st.done := by
  simp only [toolCallDelta, stopOpenBlocksAndAdvance]
  repeat' split
  all_goals rfl

theorem contentDelta_type (st : ClaudeConvertInfo υ) (delta : Delta) (always : Bool) :
    if delta.hasText then (contentDelta st delta always).1.lastMessagesType ≠ .tools
    else contentDelta st delta always = (st, []) := by
  simp only [contentDelta]
  by_cases hreasoning : delta.getReasoningContent = ""
  · by_cases hcontent : delta.getContentString = ""
    · simp [Delta.hasText, hreasoning, hcontent]
    · simp [Delta.hasText, hreasoning, hcontent, blockDelta]
  · simp [Delta.hasText, hreasoning, blockDelta]

theorem toolsAgree_contentDelta (h : ToolsAgree st s)
    (hseen : s'.seen = s.seen) (hover : s'.toolsOver = (s.toolsOver || delta.hasText && 0 < s.seen)) :
    ToolsAgree (contentDelta st delta always).1 s' := by
  have htype := contentDelta_type st delta always
  cases htext : delta.hasText with
  | false =>
    rw [htext, if_neg Bool.false_ne_true] at htype
    rw [htext, Bool.false_and, Bool.or_false] at hover
    rw [htype, ToolsAgree, hseen, hover]
    exact h
  | true =>
    rw [htext, if_pos rfl] at htype
    rw [ToolsAgree, if_neg htype, hseen, hover, htext]
    rcases Nat.eq_zero_or_pos s.seen with hzero | hpos
    · exact .inl hzero
    · exact .inr (by simp [hpos])

theorem toolsOpen_of_oneRun (hagree : ToolsAgree st s) (hok : s.oneRun call = true)
    (hcall : call.chunk.choices = [choice]) (hcalls : choice.delta.toolCalls ≠ []) :
    s.toolsOver = false ∧ ToolsOpen st s.seen ∧ namedOnce s.seen 0 choice.delta.toolCalls = true := by
  rw [Source.oneRun, hcall] at hok
  simp only [all_cons, all_nil, hcalls, decide_false, Bool.false_or, Bool.and_true,
    and_eq_true, not_eq_true'] at hok
  obtain ⟨⟨hover, -⟩, hnamed⟩ := hok
  refine ⟨hover, ?_, hnamed⟩
  rw [ToolsAgree] at hagree
  rw [ToolsOpen]
  split
  next htools =>
    rw [if_pos htools] at hagree
    exact hagree.1
  next htools =>
    rw [if_neg htools, hover] at hagree
    exact hagree.resolve_right false_ne_true

theorem choiceDelta_leads (st : ClaudeConvertInfo υ) (hdone : st.done = false)
    (hagree : ToolsAgree st s) (hs : s.started = true) (hok : s.oneRun call = true)
    (hcall : call.chunk.choices = [choice]) (hnext : Follows s choice s') :
    (choiceDelta st choice.delta).1.done = false ∧ Leads st (choiceDelta st choice.delta) ∧
      ToolsAgree (choiceDelta st choice.delta).1 s' := by
  obtain ⟨hseen, hover, -⟩ := hnext
  rw [choiceDelta]
  by_cases hcalls : choice.delta.toolCalls = []
  · rw [if_neg (not_not_intro hcalls)]
    rw [hcalls] at hseen
    rw [if_pos hcalls] at hover
    exact ⟨contentDelta_done.trans hdone, leads_contentDelta nofun,
      toolsAgree_contentDelta hagree (some.inj hseen).symm hover⟩
  · obtain ⟨hnot, hopen, hnamed⟩ := toolsOpen_of_oneRun hagree hok hcall hcalls
    rw [if_pos hcalls]
    obtain ⟨hleads, htype, hmax⟩ := leads_toolCallDelta hopen hcalls hnamed hseen
    refine ⟨toolCallDelta_done.trans hdone, hleads, hmax, ?_⟩
    rw [hover, if_neg hcalls, hnot, hs]
    simp

theorem reaches_choiceChunk (hdone : st.done = false) (hagree : ToolsAgree st s)
    (hs : s.started = true) (hok : s.oneRun call = true) (hcall : call.chunk.choices = [choice])
    (hnext : Follows s choice s') :
    Reaches st.phase (choiceChunk lower st call.chunk choice) s' := by
  simp only [choiceChunk]
  cases hfinished : choice.finished with
  | false =>
    obtain ⟨hdone', hleads, hagree'⟩ := choiceDelta_leads st hdone hagree hs hok hcall hnext
    simp only [Bool.false_eq_true, if_false, Bool.false_and, Bool.false_or, hdone']
    exact .inr ⟨hdone', hleads, fun _ ↦ hagree'⟩
  | true =>
    cases husage : call.chunk.usage with
    | none =>
      refine .inr ⟨hdone, rfl, fun h ↦ ?_⟩
      rw [hnext.finished, hfinished] at h
      cases h
    | some usage =>
      obtain ⟨-, hleads, -⟩ := choiceDelta_leads
        { st with finishReason := choice.finishReason.getD "" } hdone hagree hs hok hcall hnext
      refine .inl ⟨rfl, ?_⟩
      simp only [some_or, append_assoc]
      exact exec_append.2 ⟨_, hleads, exec_append.2 ⟨_, exec_stopOpenBlocks _, rfl⟩⟩

theorem reaches_usageChunk (hdone : st.done = false)
    (hagree : s'.finished = false → ToolsAgree st s') :
    Reaches st.phase (usageChunk lower st chunk) s' := by
  rw [usageChunk]
  split
  · exact .inr ⟨hdone, rfl, hagree⟩
  · exact .inl ⟨rfl, exec_terminate⟩

theorem reaches_firstFinish (hdone : st.done = false)
    (hagree : s'.finished = false → ToolsAgree st s') :
    Reaches st.phase (firstFinish lower st chunk choice) s' := by
  rw [firstFinish]
  split
  · dsimp only
    split
    · exact .inr ⟨hdone, rfl, hagree⟩
    · exact .inl ⟨rfl, exec_terminate⟩
  · exact .inr ⟨hdone, rfl, hagree⟩

variable {p : Phase} {events : List (Event υ)}

theorem Reaches.prepend {q : Phase} (hevents : exec next p events = some q) (h : Reaches q out s) :
    Reaches p (out.1, events ++ out.2) s := by
  rcases h with ⟨hdone, hrun⟩ | ⟨hdone, hrun, hagree⟩
  · exact .inl ⟨hdone, exec_append.2 ⟨q, hevents, hrun⟩⟩
  · exact .inr ⟨hdone, exec_append.2 ⟨q, hevents, hrun⟩, hagree⟩

theorem firstTools (hok : ({} : Source).oneRun call = true) (hcall : call.chunk.choices = [choice])
    (hnext : Follows {} choice s') :
    choice.delta.toolCalls = [] ∧ s'.seen = 0 ∨
      ∃ tool, choice.delta.toolCalls = [tool] ∧ tool.index.getD 0 = 0 ∧ tool.name ≠ "" ∧
        s'.seen = 1 := by
  have hseen := hnext.seen
  rw [Source.oneRun, hcall] at hok
  cases hcalls : choice.delta.toolCalls with
  | nil =>
    rw [hcalls] at hseen
    exact .inl ⟨rfl, (some.inj hseen).symm⟩
  | cons tool calls =>
    have hone : calls = [] := by
      simp only [hcalls, all_cons, all_nil, Bool.and_true, Bool.or_eq_true, and_eq_true] at hok
      rcases hok with hnil | ⟨⟨-, hlength⟩, -⟩
      · simp at hnil
      · simpa using hlength
    subst hone
    rw [hcalls] at hseen
    simp only [toolsSeen] at hseen
    split at hseen
    next hnew => exact .inr ⟨tool, rfl, hnew.1, hnew.2, (some.inj hseen).symm⟩
    · split at hseen
      next hlt => exact absurd hlt (not_lt_zero _)
      · cases hseen

theorem leads_firstToolCall (hdone : st.done = false) (htype : st.lastMessagesType = .none)
    (hindex : st.index = 0) (hok : ({} : Source).oneRun call = true)
    (hcall : call.chunk.choices = [choice]) (hnext : Follows {} choice s') :
    ((firstToolCall st choice.delta).1.lastMessagesType = .none ∨
        (firstToolCall st choice.delta).1.lastMessagesType = .tools) ∧
      Leads st (firstToolCall st choice.delta) ∧
      (firstToolCall st choice.delta).1.done = false ∧
      ToolsAgree (firstToolCall st choice.delta).1 { s' with toolsOver := false } ∧
      s'.toolsOver = (choice.delta.hasText && 0 < s'.seen) := by
  have hover := hnext.toolsOver
  rw [firstToolCall]
  obtain ⟨hcalls, hseen⟩ | ⟨tool, hcalls, -, -, hseen⟩ := firstTools hok hcall hnext
  · rw [hcalls] at hover ⊢
    refine ⟨.inl htype, .refl, hdone, ?_, ?_⟩
    · rw [ToolsAgree, if_neg (by rw [htype]; decide)]
      exact .inl hseen
    · rw [hover, hseen]
      simp
  · have hphase : st.phase = .running (0 + 0) (toolBlocks 0 0) := by
      rw [phase, nextIndex, openBlocks, htype, hindex]
      rfl
    rw [hcalls] at hover ⊢
    refine ⟨.inr rfl, ?_, hdone, ⟨hseen, rfl⟩, ?_⟩
    · rw [Leads, hphase]
      exact exec_append.2 ⟨_, exec_toolStart tool.id tool.name,
        exec_arguments Nat.zero_lt_one tool.arguments⟩
    · rw [hover, hseen]
      simp

theorem reaches_firstChunk {tokens : ℤ} (hdone : st.done = false)
    (htype : st.lastMessagesType = .none) (hindex : st.index = 0)
    (hok : ({} : Source).oneRun call = true) (hnext : ({} : Source).next call = some s') :
    Reaches .initial (firstChunk lower st tokens call.chunk) s' := by
  have hstart : exec next .initial [(.messageStart call.chunk.id call.chunk.model tokens :
      Event υ)] = some st.phase := by
    rw [phase, nextIndex, openBlocks, htype, hindex]
    rfl
  rw [firstChunk]
  obtain ⟨-, ⟨hnil, rfl⟩ | ⟨choice, hchoice, -, hfollows⟩⟩ := next_cases hnext
  · rw [hnil]
    exact .inr ⟨hdone, hstart, fun _ ↦ by simp [ToolsAgree, htype]⟩
  · rw [hchoice]
    obtain ⟨htool, hleads, hdone', hagree, hover⟩ :=
      leads_firstToolCall hdone htype hindex hok hchoice hfollows
    have hcontent : Leads (firstToolCall st choice.delta).1
        (contentDelta (firstToolCall st choice.delta).1 choice.delta true) :=
      leads_contentDelta fun _ ↦ htool
    have hevents := exec_append.2 ⟨_, hstart, hleads.trans hcontent⟩
    refine Reaches.prepend hevents (reaches_firstFinish (contentDelta_done.trans hdone') fun _ ↦ ?_)
    exact toolsAgree_contentDelta hagree rfl (by rw [hover, Bool.false_or])

theorem Reaches.sim (h : Reaches p (info.claudeConvertInfo, events) s)
    (hcount : info.sendResponseCount ≠ 0) (hs : s.started = true) :
    ∃ p', exec next p events = some p' ∧ Sim info s p' := by
  rcases h with ⟨hdone, hrun⟩ | ⟨hdone, hrun, hagree⟩
  · exact ⟨_, hrun, .stopped hcount hs hdone⟩
  · exact ⟨_, hrun, .running hcount hs hdone hagree⟩

/-- The usage that the caller keeps is no part of the relation. -/
theorem Sim.record (h : Sim info s p) (usage : Option υ) : Sim (info.record usage) s p := by
  cases h <;> constructor <;> assumption

theorem sim_convertChunk (h : Sim info s p) (hok : s.oneRun call = true)
    (hnext : s.next call = some s') :
    ∃ p', exec next p (convertChunk lower info call).2 = some p' ∧
      Sim (convertChunk lower info call).1 s' p' := by
  obtain ⟨hs', hcases⟩ := next_cases hnext
  rw [convertChunk, streamResponseOpenAI2Claude]
  cases h.record call.usage with
  | initial hcount hs htype hindex hdone =>
    subst hs
    rw [if_neg (eq_false_iff.1 hdone), if_pos (by simp [hcount])]
    exact (reaches_firstChunk hdone htype hindex hok hnext).sim (succ_ne_zero _) hs'
  | running hcount hs hdone hagree =>
    rw [if_neg (eq_false_iff.1 hdone), if_neg (by simpa using hcount)]
    rcases hcases with ⟨hnil, rfl⟩ | ⟨choice, hchoice, hfinished, hfollows⟩
    · rw [hnil]
      exact (reaches_usageChunk hdone hagree).sim (succ_ne_zero _) hs'
    · rw [hchoice]
      exact (reaches_choiceChunk hdone (hagree hfinished) hs hok hchoice hfollows).sim
        (succ_ne_zero _) hs'
  | stopped hcount hs hdone =>
    rw [if_pos hdone]
    exact ⟨_, rfl, .stopped (succ_ne_zero _) hs' hdone⟩

end

theorem started_of_exec {calls : List (Call υ)} (hne : calls ≠ [])
    (h : exec Source.next {} calls = some s) : s.started = true := by
  cases calls with
  | nil => exact absurd rfl hne
  | cons call calls =>
    obtain ⟨t, ht, h⟩ := exec_cons.1 h
    have hguard : Guarded Source.next (fun _ (_ : Call υ) ↦ True) t calls :=
      guarded_of_forall fun _ _ ↦ trivial
    exact exec_invariant (I := fun s ↦ s.started = true) (fun _ _ _ _ _ hnext ↦ (next_cases hnext).1)
      (next_cases ht).1 hguard h

theorem finalize_stops {info : Meta υ} {p : Phase} (h : Sim info s p)
    (hs : s.started = true) (usage : Option υ) :
    exec next p (finalizeStreamResponseOpenAI2Claude lower (info.record usage)).2 =
      some .stopped := by
  rw [finalizeStreamResponseOpenAI2Claude]
  cases h.record usage with
  | initial _ hs' => exact absurd hs (by rw [hs']; decide)
  | running _ _ hdone =>
    rw [if_neg (eq_false_iff.1 hdone)]
    exact exec_terminate
  | stopped _ _ hdone =>
    rw [if_pos hdone]
    rfl

/-- The events of a stream whose tool calls come in one run are those of one complete message. -/
theorem claude_stream_well_formed (lower : String → String) (estimatePromptTokens : ℤ)
    (usage : Option υ) {calls : List (Call υ)} {s : Source} (hne : calls ≠ [])
    (hsource : exec Source.next {} calls = some s)
    (hrun : Guarded Source.next (fun s call ↦ s.oneRun call = true) {} calls) :
    IsMessage (claudeEvents lower estimatePromptTokens calls usage) := by
  have hstart : Sim (Meta.start estimatePromptTokens : Meta υ) {} .initial :=
    .initial rfl rfl rfl rfl rfl
  obtain ⟨p, hp, hsim⟩ := transduce_simulates (fun _ _ _ _ _ ↦ sim_convertChunk) hstart hrun hsource
  exact exec_append.2 ⟨p, hp, finalize_stops hsim (started_of_exec hne hsource) usage⟩

namespace ClaudeExample

def tool (index : ℕ) (name arguments : String) : ToolCall := ⟨some index, "", name, arguments⟩

def choice (delta : Delta) (finishReason : Option String) : Call Unit :=
  ⟨⟨"", 0, "", [⟨delta, finishReason⟩], none⟩, none⟩

def text (content : String) : Call Unit := choice { content := some content } none

def tools (calls : List ToolCall) : Call Unit := choice { toolCalls := calls } none

def stop : Call Unit := choice {} (some "stop")

def usage : Call Unit := ⟨⟨"", 0, "", [], some ()⟩, some ()⟩

def isSource (calls : List (Call Unit)) : Bool := (exec Source.next {} calls).isSome

def events (calls : List (Call Unit)) : List (Event Unit) := claudeEvents id 0 calls none

end ClaudeExample

open ClaudeExample

/-- Text, two tools with interleaved arguments, text again, and the usage in a chunk of its own. -/
theorem claude_stream_well_formed_tools :
    IsMessage (events [text "a", tools [tool 0 "f" "", tool 1 "g" "x"], tools [tool 0 "" "y"],
      text "b", stop, usage]) := by
  obtain ⟨s, hs⟩ := isSome_iff_exists.1 (show isSource [text "a",
    tools [tool 0 "f" "", tool 1 "g" "x"], tools [tool 0 "" "y"], text "b", stop, usage] = true by
      decide +kernel)
  exact claude_stream_well_formed id 0 none (cons_ne_nil _ _) hs (by decide +kernel)

/-- Text between the fragments of a tool, two tools in the first chunk, a name that is repeated, and
a stream without chunks. -/
theorem claude_stream_malformed :
    isSource [tools [tool 0 "f" "x"], text "a", tools [tool 0 "" "y"], stop] = true ∧
      ¬ IsMessage (events [tools [tool 0 "f" "x"], text "a", tools [tool 0 "" "y"], stop]) ∧
      isSource [tools [tool 0 "f" ""], text "a", tools [tool 1 "g" ""], stop] = true ∧
      ¬ IsMessage (events [tools [tool 0 "f" ""], text "a", tools [tool 1 "g" ""], stop]) ∧
      isSource [tools [tool 0 "f" "", tool 1 "g" ""], tools [tool 1 "" "x"], stop] = true ∧
      ¬ IsMessage (events [tools [tool 0 "f" "", tool 1 "g" ""], tools [tool 1 "" "x"], stop]) ∧
      isSource [tools [tool 0 "f" "x"], tools [tool 0 "f" "y"], stop] = true ∧
      ¬ IsMessage (events [tools [tool 0 "f" "x"], tools [tool 0 "f" "y"], stop]) ∧
      ¬ IsMessage (events []) := by
  decide +kernel

end Moligate.Convert
