import Moligate.Convert.ClaudeWellFormed
import Moligate.Foundation.Strings

namespace Moligate.Convert

open Foundation Strings List Event Call Convert

variable {υ : Type}

def Event.text : Event υ → String
  | .contentBlockDelta _ (.text text) => text
  | _ => ""

def Event.thinking : Event υ → String
  | .contentBlockDelta _ (.thinking thinking) => thinking
  | _ => ""

def Event.json (index : ℕ) : Event υ → String
  | .contentBlockDelta i (.inputJson partialJson) => if i = index then partialJson else ""
  | _ => ""

def Event.toolStart : Event υ → Option ℕ
  | .contentBlockStart index (.toolUse _ _) => some index
  | _ => none

def toolText (events : List (Event υ)) (j : ℕ) : String :=
  match (events.filterMap toolStart)[j]? with
  | some index => joined (json index) events
  | none => ""

def Call.delta (call : Call υ) : Delta := (call.chunk.choices.head?.map Choice.delta).getD {}

def argumentsFrom (j : ℕ) : ℕ → List ToolCall → String
  | _, [] => ""
  | i, call :: calls =>
    (if call.index.getD i = j then call.arguments else "") ++ argumentsFrom j (i + 1) calls

def Call.arguments (j : ℕ) (call : Call υ) : String := argumentsFrom j 0 call.delta.toolCalls

/-- A chunk of which nothing is left out: one kind of delta, or a tool call before text in the first
chunk, and no delta in a later chunk that has a finish reason without a usage. -/
def Source.carried (s : Source) (call : Call υ) : Bool :=
  call.chunk.choices.all fun choice ↦
    (choice.delta.getReasoningContent = "" || choice.delta.getContentString = "") &&
      (choice.delta.toolCalls = [] || !choice.delta.hasText || !s.started) &&
      (!choice.finished || !s.started || call.chunk.usage.isSome ||
        !choice.delta.hasText && choice.delta.toolCalls.all (·.arguments = ""))

section

def Event.heard : Event υ → Bool
  | .contentBlockDelta _ _ => true
  | .contentBlockStart _ (.toolUse _ _) => true
  | _ => false

variable {events events' : List (Event υ)} {st : ClaudeConvertInfo υ}

theorem silent_of_not_heard (e : Event υ) (h : e.heard = false) :
    e.text = "" ∧ e.thinking = "" ∧ ∀ index, e.json index = "" := by
  cases e <;> first | exact ⟨rfl, rfl, fun _ ↦ rfl⟩ | cases h

theorem toolStarts_heard :
    (events.filter heard).filterMap toolStart = events.filterMap toolStart := by
  rw [filterMap_filter]
  congr 1
  funext e
  cases e with
  | contentBlockStart index block => cases block <;> rfl
  | _ => rfl

theorem heard_stopOpenBlocks : (stopOpenBlocks st).filter heard = [] := by
  rw [stopOpenBlocks_eq, filter_map]
  simp [Function.comp_def, heard]

theorem heard_terminate {usage : Option υ} {reason : String} :
    (terminate st usage reason).2.filter heard = [] := by
  simp [terminate, heard_stopOpenBlocks, heard]

theorem heard_stopOpenBlocksAndAdvance (st : ClaudeConvertInfo υ) :
    (stopOpenBlocksAndAdvance st).2.filter heard = [] := by
  rw [stopOpenBlocksAndAdvance]
  split
  · rfl
  all_goals exact heard_stopOpenBlocks

variable {text thinking text' thinking' : String}

structure Texts (events : List (Event υ)) (text thinking : String) : Prop where
  text : joined Event.text events = text
  thinking : joined Event.thinking events = thinking

structure Toolless (events : List (Event υ)) : Prop where
  json : ∀ index, joined (Event.json index) events = ""
  starts : events.filterMap toolStart = []

theorem Texts.append (h : Texts events text thinking) (h' : Texts events' text' thinking') :
    Texts (events ++ events') (text ++ text') (thinking ++ thinking') :=
  ⟨by rw [joined_append, h.text, h'.text], by rw [joined_append, h.thinking, h'.thinking]⟩

theorem Toolless.append (h : Toolless events) (h' : Toolless events') :
    Toolless (events ++ events') :=
  ⟨fun index ↦ by rw [joined_append, h.json, h'.json, String.empty_append],
    by rw [filterMap_append, h.starts, h'.starts, nil_append]⟩

theorem texts_of_heard_nil (h : events.filter heard = []) : Texts events "" "" := by
  constructor
  · rw [← joined_filter fun e he ↦ (silent_of_not_heard e he).1, h, joined]
  · rw [← joined_filter fun e he ↦ (silent_of_not_heard e he).2.1, h, joined]

theorem Texts.append_silent (h : Texts events text thinking)
    (h' : events'.filter heard = []) : Texts (events ++ events') text thinking := by
  simpa using h.append (texts_of_heard_nil h')

theorem toolless_of_heard_nil (h : events.filter heard = []) : Toolless events := by
  constructor
  · intro index
    rw [← joined_filter fun e he ↦ (silent_of_not_heard e he).2.2 index, h, joined]
  · rw [← toolStarts_heard, h, filterMap_nil]

variable {type : LastMessageType} {block : ContentBlock} {always : Bool}

theorem blockDelta_events {delta : BlockDelta} (hblock : block.kind ≠ .toolUse) :
    ∃ before : List (Event υ), before.filter heard = [] ∧
      (blockDelta st type block delta always).2 =
        before ++ [.contentBlockDelta (blockDelta st type block delta always).1.index delta] := by
  refine ⟨_, ?_, rfl⟩
  rw [filter_append, append_eq_nil_iff]
  constructor
  · split
    · exact heard_stopOpenBlocksAndAdvance st
    · rfl
  · split
    · cases block with
      | text | thinking => rfl
      | toolUse id name => exact absurd rfl hblock
    · rfl

theorem texts_blockDelta (delta : BlockDelta) (always : Bool) (hblock : block.kind ≠ .toolUse) :
    Texts (blockDelta st type block delta always).2 (Event.text (.contentBlockDelta 0 delta : Event υ))
      (Event.thinking (.contentBlockDelta 0 delta : Event υ)) := by
  obtain ⟨before, hbefore, heq⟩ := blockDelta_events (υ := υ) hblock
  have hdelta (index : ℕ) : Texts [(.contentBlockDelta index delta : Event υ)]
      (text (.contentBlockDelta 0 delta : Event υ))
      (thinking (.contentBlockDelta 0 delta : Event υ)) := by
    cases delta <;> exact ⟨String.append_empty, String.append_empty⟩
  rw [heq]
  simpa using (texts_of_heard_nil hbefore).append (hdelta _)

theorem toolless_blockDelta {delta : BlockDelta} (always : Bool) (hblock : block.kind ≠ .toolUse)
    (hdelta : delta.kind ≠ .toolUse) : Toolless (blockDelta st type block delta always).2 := by
  obtain ⟨before, hbefore, heq⟩ := blockDelta_events (υ := υ) hblock
  rw [heq]
  refine (toolless_of_heard_nil hbefore).append ⟨fun index ↦ ?_, rfl⟩
  cases delta with
  | text _ | thinking _ => rfl
  | inputJson _ => exact absurd rfl hdelta

theorem texts_contentDelta {delta : Delta}
    (hone : delta.getReasoningContent = "" ∨ delta.getContentString = "") :
    Texts (contentDelta st delta always).2 delta.getContentString delta.getReasoningContent := by
  simp only [contentDelta]
  split
  next hreasoning =>
    rw [hone.resolve_left hreasoning]
    exact texts_blockDelta (.thinking delta.getReasoningContent) always (by decide)
  rename_i hreasoning
  rw [not_not.1 hreasoning]
  split
  · exact texts_blockDelta (.text delta.getContentString) always (by decide)
  next hcontent =>
    rw [not_not.1 hcontent]
    exact ⟨rfl, rfl⟩

theorem toolless_contentDelta {delta : Delta} : Toolless (contentDelta st delta always).2 := by
  simp only [contentDelta]
  split
  · exact toolless_blockDelta always (by decide) (by simp [BlockDelta.kind])
  · split
    · exact toolless_blockDelta always (by decide) (by simp [BlockDelta.kind])
    · exact ⟨fun _ ↦ rfl, rfl⟩

variable {args : ℕ → String} {k k' b i m : ℕ} {calls : List ToolCall}

/-- The first `seen` tools have the blocks from `b` on, with the arguments that were read. -/
structure ToolsCarried (events : List (Event υ)) (args : ℕ → String) (seen b : ℕ) : Prop where
  starts : events.filterMap toolStart = (List.range seen).map (b + ·)
  json : ∀ j < seen, joined (Event.json (b + j)) events = args j
  others : ∀ index, (∀ j < seen, index ≠ b + j) → joined (Event.json index) events = ""
  unseen : ∀ j, seen ≤ j → args j = ""

theorem ToolsCarried.toolText (h : ToolsCarried events args k b) (j : ℕ) :
    toolText events j = args j := by
  rw [Convert.toolText, h.starts, getElem?_map]
  by_cases hj : j < k
  · rw [getElem?_range hj]
    exact h.json j hj
  · rw [getElem?_eq_none (by simpa using hj), h.unseen j (Nat.not_lt.1 hj)]
    rfl

theorem ToolsCarried.append_toolless (h : ToolsCarried events args k b) (h' : Toolless events') :
    ToolsCarried (events ++ events') args k b where
  starts := by rw [filterMap_append, h'.starts, append_nil, h.starts]
  json j hj := by rw [joined_append, h'.json, String.append_empty, h.json j hj]
  others index hindex := by rw [joined_append, h'.json, String.append_empty, h.others index hindex]
  unseen := h.unseen

theorem toolText_append_toolless (h : Toolless events') (j : ℕ) :
    toolText (events ++ events') j = toolText events j := by
  rw [toolText, toolText, filterMap_append, h.starts, append_nil]
  split
  · rw [joined_append, h.json, String.append_empty]
  · rfl

theorem ToolsCarried.rebase (h : ToolsCarried events args 0 b) (b' : ℕ) :
    ToolsCarried events args 0 b' :=
  ⟨h.starts, fun j hj ↦ absurd hj (Nat.not_lt_zero j),
    fun index _ ↦ h.others index fun j hj ↦ absurd hj (Nat.not_lt_zero j), h.unseen⟩

variable {o : ℕ} {call : ToolCall}

theorem json_toolEvents {index : ℕ} :
    joined (json index) (toolEvents o call : List (Event υ)) =
      if index = o then call.arguments else "" := by
  rw [toolEvents, joined_append]
  have hstart : joined (json index) (if call.name ≠ "" then
      [(.contentBlockStart o (.toolUse call.id call.name) : Event υ)] else []) = "" := by
    split <;> rfl
  rw [hstart, String.empty_append]
  by_cases hargs : call.arguments = ""
  · simp [hargs, joined]
  · simp [hargs, joined, json, eq_comm]

theorem toolStarts_toolEvents :
    (toolEvents o call : List (Event υ)).filterMap toolStart =
      if call.name ≠ "" then [o] else [] := by
  rw [toolEvents, filterMap_append]
  have hargs : (if call.arguments ≠ "" then
      [(.contentBlockDelta o (.inputJson call.arguments) : Event υ)] else []).filterMap
        toolStart = [] := by
    split <;> rfl
  rw [hargs, append_nil]
  split <;> rfl

theorem ToolsCarried.fragment (h : ToolsCarried events args k b) (ho : o < k)
    (hname : call.name = "") :
    ToolsCarried (events ++ toolEvents (b + o) call)
      (fun j ↦ args j ++ if o = j then call.arguments else "") k b where
  starts := by simp [filterMap_append, toolStarts_toolEvents, hname, h.starts]
  json j hj := by simp [joined_append, json_toolEvents, h.json j hj, eq_comm]
  others index hindex := by
    simp [joined_append, json_toolEvents, h.others index hindex, hindex o ho]
  unseen j hj := by simp [h.unseen j hj, Nat.ne_of_lt (Nat.lt_of_lt_of_le ho hj)]

theorem ToolsCarried.newTool (h : ToolsCarried events args k b) (hname : call.name ≠ "") :
    ToolsCarried (events ++ toolEvents (b + k) call)
      (fun j ↦ args j ++ if k = j then call.arguments else "") (k + 1) b where
  starts := by
    simp [filterMap_append, toolStarts_toolEvents, hname, h.starts, range_succ]
  json j hj := by
    have hbefore : joined (Event.json (b + j)) events = args j := by
      rcases Nat.lt_succ_iff_lt_or_eq.1 hj with hj | rfl
      · exact h.json j hj
      · rw [h.unseen j Nat.le.refl]
        exact h.others _ fun j' hj' ↦ by omega
    simp [joined_append, json_toolEvents, hbefore, eq_comm]
  others index hindex := by
    have hbefore := h.others index fun j hj ↦ hindex j (Nat.lt_succ_of_lt hj)
    simp [joined_append, json_toolEvents, hbefore, hindex k (Nat.lt_succ_self k)]
  unseen j hj := by
    simp [h.unseen j (Nat.le_of_succ_le hj), Nat.ne_of_lt (Nat.lt_of_succ_le hj)]

theorem ToolsCarried.toolCallLoop (h : ToolsCarried events args k b) (m : ℕ)
    (hnamed : namedOnce k i calls = true) (hseen : toolsSeen k i calls = some k') :
    ToolsCarried (events ++ (toolCallLoop b m i calls).2)
      (fun j ↦ args j ++ argumentsFrom j i calls) k' b := by
  induction calls generalizing events args k i m with
  | nil =>
    cases hseen
    simpa [toolCallLoop, argumentsFrom] using h
  | cons call calls ih =>
    simp only [toolsSeen] at hseen
    simp only [namedOnce] at hnamed
    simp only [toolCallLoop, argumentsFrom, ← append_assoc, ← String.append_assoc]
    split at hseen
    next hnew =>
      rw [if_pos hnew.1] at hnamed
      rw [hnew.1]
      exact ih (h.newTool hnew.2) _ hnamed hseen
    · split at hseen
      next hlt =>
        rw [if_neg (Nat.ne_of_lt hlt), Bool.and_eq_true, decide_eq_true_eq] at hnamed
        exact ih (h.fragment hlt hnamed.1) _ hnamed.2 hseen
      · cases hseen

theorem texts_toolEvents : Texts (toolEvents o call : List (Event υ)) "" "" := by
  rw [toolEvents]
  constructor <;> split <;> split <;> rfl

theorem texts_toolCallLoop : Texts (toolCallLoop b m i calls : ℕ × List (Event υ)).2 "" "" := by
  induction calls generalizing m i with
  | nil => exact ⟨rfl, rfl⟩
  | cons call calls ih => exact texts_toolEvents.append ih

end

section

variable {lower : String → String} {st st' : ClaudeConvertInfo υ} {events events' : List (Event υ)}
  {args : ℕ → String} {seen seen' : ℕ} {calls : List ToolCall}

def Opened (st : ClaudeConvertInfo υ) (events : List (Event υ)) (args : ℕ → String) (seen : ℕ) :
    Prop :=
  ∃ b, ToolsCarried events args seen b ∧ (st.lastMessagesType = .tools → b = st.toolCallBaseIndex)

theorem Opened.append_toolless (h : Opened st events args seen) (h' : Toolless events')
    (hst : st'.lastMessagesType = .tools →
      st.lastMessagesType = .tools ∧ st'.toolCallBaseIndex = st.toolCallBaseIndex) :
    Opened st' (events ++ events') args seen := by
  obtain ⟨b, hb, hbase⟩ := h
  refine ⟨b, hb.append_toolless h', fun htools ↦ ?_⟩
  obtain ⟨htools, heq⟩ := hst htools
  exact (hbase htools).trans heq.symm

theorem Opened.append_silent {events₁ : List (Event υ)} (h : Opened st (events ++ events₁) args seen)
    (h' : events'.filter heard = []) (htype : st'.lastMessagesType = st.lastMessagesType)
    (hbase : st'.toolCallBaseIndex = st.toolCallBaseIndex) :
    Opened st' (events ++ (events₁ ++ events')) args seen := by
  rw [← append_assoc]
  exact h.append_toolless (toolless_of_heard_nil h') fun hst ↦ ⟨htype.symm.trans hst, hbase⟩

theorem Opened.contentDelta (h : Opened st events args seen) (delta : Delta) (always : Bool) :
    Opened (contentDelta st delta always).1 (events ++ (contentDelta st delta always).2) args
      seen := by
  refine h.append_toolless toolless_contentDelta fun htools ↦ ?_
  have htype := contentDelta_type st delta always
  split at htype
  · exact absurd htools htype
  · rw [htype] at htools ⊢
    exact ⟨htools, rfl⟩

theorem Opened.toolCallDelta (h : Opened st events args seen) (hopen : ToolsOpen st seen)
    (hnamed : namedOnce seen 0 calls = true) (hseen : toolsSeen seen 0 calls = some seen') :
    Opened (toolCallDelta st calls).1 (events ++ (toolCallDelta st calls).2)
      (fun j ↦ args j ++ argumentsFrom j 0 calls) seen' := by
  obtain ⟨b, hb, hbase⟩ := h
  refine ⟨_, ?_, fun _ ↦ rfl⟩
  rw [ToolsOpen] at hopen
  by_cases hlast : st.lastMessagesType = .tools
  · simp only [Convert.toolCallDelta, hlast, ne_eq, not_true_eq_false, if_false, nil_append,
      ← hbase hlast]
    exact hb.toolCallLoop _ hnamed hseen
  rw [if_neg hlast] at hopen
  subst hopen
  simp only [toolCallDelta, ne_eq, hlast, not_false_eq_true, if_true, ← append_assoc]
  have hstop := hb.append_toolless (toolless_of_heard_nil (heard_stopOpenBlocksAndAdvance st))
  exact (hstop.rebase _).toolCallLoop _ hnamed hseen

theorem texts_toolCallDelta : Texts (toolCallDelta st calls).2 "" "" := by
  by_cases hlast : st.lastMessagesType = .tools
  · simp only [toolCallDelta, hlast, ne_eq, not_true_eq_false, if_false, nil_append]
    exact texts_toolCallLoop
  · simp only [toolCallDelta, ne_eq, hlast, not_false_eq_true, if_true]
    exact (texts_of_heard_nil (heard_stopOpenBlocksAndAdvance st)).append texts_toolCallLoop

variable {call : Call υ} {choice : Choice} {s s' : Source}
  {out : ClaudeConvertInfo υ × List (Event υ)}

/-- A chunk adds to the message what it has, after the events and the arguments before it. -/
structure Adds (out : ClaudeConvertInfo υ × List (Event υ)) (call : Call υ) (s' : Source)
    (events : List (Event υ)) (args : ℕ → String) : Prop where
  texts : Texts out.2 call.delta.getContentString call.delta.getReasoningContent
  tools : ∀ j, toolText (events ++ out.2) j = args j ++ call.arguments j
  opened : s'.finished = false →
    Opened out.1 (events ++ out.2) (fun j ↦ args j ++ call.arguments j) s'.seen
  done : out.1.done = true → s'.finished = true ∨ s'.closed = true

theorem Opened.adds (h : Opened out.1 (events ++ out.2) (fun j ↦ args j ++ call.arguments j) s'.seen)
    (htexts : Texts out.2 call.delta.getContentString call.delta.getReasoningContent)
    (hdone : out.1.done = true → s'.finished = true ∨ s'.closed = true) :
    Adds out call s' events args := by
  refine ⟨htexts, fun j ↦ ?_, fun _ ↦ h, hdone⟩
  obtain ⟨b, hb, -⟩ := h
  exact hb.toolText j

theorem delta_of_choices (h : call.chunk.choices = [choice]) : call.delta = choice.delta := by
  rw [delta, h]
  rfl

theorem argumentsFrom_of_empty {j i : ℕ} (h : calls.all (·.arguments = "") = true) :
    argumentsFrom j i calls = "" := by
  induction calls generalizing i with
  | nil => rfl
  | cons call calls ih =>
    rw [all_cons, Bool.and_eq_true, decide_eq_true_eq] at h
    rw [argumentsFrom, ih h.2, h.1, ite_self, String.empty_append]

theorem not_hasText {delta : Delta} (h : delta.hasText = false) :
    delta.getContentString = "" ∧ delta.getReasoningContent = "" := by
  rw [Delta.hasText, Bool.or_eq_false_iff] at h
  simpa [and_comm] using h

theorem carried_choice (h : s.carried call = true) (hcall : call.chunk.choices = [choice]) :
    (choice.delta.getReasoningContent = "" ∨ choice.delta.getContentString = "") ∧
      (choice.delta.toolCalls ≠ [] → s.started = true → choice.delta.hasText = false) ∧
      (choice.finished = true → s.started = true → call.chunk.usage = none →
        choice.delta.hasText = false ∧ choice.delta.toolCalls.all (·.arguments = "") = true) := by
  rw [Source.carried, hcall, all_cons, all_nil, Bool.and_true, Bool.and_eq_true,
    Bool.and_eq_true] at h
  obtain ⟨⟨hone, hkinds⟩, hfinish⟩ := h
  refine ⟨by simpa using hone, fun hcalls hs ↦ ?_, fun hfinished hs husage ↦ ?_⟩
  · simpa [hcalls, hs] using hkinds
  · simpa [hfinished, hs, husage] using hfinish

theorem opened_choiceDelta (st : ClaudeConvertInfo υ) (hopened : Opened st events args s.seen)
    (hagree : ToolsAgree st s)
    (hs : s.started = true) (hok : s.oneRun call = true) (hcarried : s.carried call = true)
    (hcall : call.chunk.choices = [choice]) (hnext : Follows s choice s') :
    Texts (choiceDelta st choice.delta).2 call.delta.getContentString
        call.delta.getReasoningContent ∧
      Opened (choiceDelta st choice.delta).1 (events ++ (choiceDelta st choice.delta).2)
        (fun j ↦ args j ++ call.arguments j) s'.seen := by
  simp only [arguments, delta_of_choices hcall, choiceDelta]
  obtain ⟨hone, hkinds, -⟩ := carried_choice hcarried hcall
  by_cases hcalls : choice.delta.toolCalls = []
  · have hseen := hnext.seen
    rw [hcalls] at hseen
    rw [if_neg (not_not_intro hcalls), hcalls, ← Option.some.inj hseen]
    refine ⟨texts_contentDelta hone, ?_⟩
    simpa [argumentsFrom] using hopened.contentDelta choice.delta false
  · obtain ⟨hcontent, hreasoning⟩ := not_hasText (hkinds hcalls hs)
    obtain ⟨-, hopen, hnamed⟩ := toolsOpen_of_oneRun hagree hok hcall hcalls
    rw [if_pos hcalls, hcontent, hreasoning]
    exact ⟨texts_toolCallDelta, hopened.toolCallDelta hopen hnamed hnext.seen⟩

theorem adds_choiceChunk (hdone : st.done = false) (hopened : Opened st events args s.seen)
    (hagree : ToolsAgree st s) (hs : s.started = true) (hok : s.oneRun call = true)
    (hcarried : s.carried call = true) (hcall : call.chunk.choices = [choice])
    (hnext : Follows s choice s') :
    Adds (choiceChunk lower st call.chunk choice) call s' events args := by
  simp only [choiceChunk]
  cases hfinished : choice.finished with
  | false =>
    obtain ⟨hdone', -, -⟩ := choiceDelta_leads st hdone hagree hs hok hcall hnext
    obtain ⟨htexts, hopened'⟩ := opened_choiceDelta st hopened hagree hs hok hcarried hcall hnext
    simp only [Bool.false_eq_true, if_false, Bool.false_and, Bool.false_or, hdone']
    exact hopened'.adds htexts fun h ↦ by cases hdone'.symm.trans h
  | true =>
    have hfinished' : s'.finished = true := hnext.finished.trans hfinished
    cases husage : call.chunk.usage with
    | none =>
      obtain ⟨htext, hargs⟩ := (carried_choice hcarried hcall).2.2 hfinished hs husage
      obtain ⟨hcontent, hreasoning⟩ := not_hasText htext
      obtain ⟨b, hb, -⟩ := hopened
      refine ⟨?_, fun j ↦ ?_, fun h ↦ ?_, fun h ↦ ?_⟩
      · rw [delta_of_choices hcall, hcontent, hreasoning]
        exact ⟨rfl, rfl⟩
      · rw [arguments, delta_of_choices hcall, argumentsFrom_of_empty hargs,
          String.append_empty]
        exact (append_nil events).symm ▸ hb.toolText j
      · cases h.symm.trans hfinished'
      · cases hdone.symm.trans h
    | some usage =>
      have hstop (out : ClaudeConvertInfo υ) : (stopOpenBlocks out ++
          ([messageDelta (some usage) (stopReason lower out)] ++
            [messageStop])).filter heard = [] := by
        simp [heard_stopOpenBlocks, heard]
      obtain ⟨htexts, hopened'⟩ :=
        opened_choiceDelta { st with finishReason := choice.finishReason.getD "" } hopened hagree
          hs hok hcarried hcall hnext
      simp only [Option.isNone_some, Option.some_or, append_assoc]
      exact (hopened'.append_silent (hstop _) rfl rfl).adds (htexts.append_silent (hstop _))
        fun _ ↦ .inl hfinished'

theorem adds_silent (hnil : call.chunk.choices = []) (hsilent : out.2.filter heard = [])
    (htools : ∀ j, toolText events j = args j)
    (hopened : s'.finished = false → Opened out.1 events args s'.seen) (hclosed : s'.closed = true) :
    Adds out call s' events args := by
  have hdelta : call.delta = {} := by
    rw [delta, hnil]
    rfl
  have hargs (j : ℕ) : args j ++ call.arguments j = args j := by
    rw [arguments, hdelta]
    exact String.append_empty
  refine ⟨?_, fun j ↦ ?_, fun h ↦ ?_, fun _ ↦ .inr hclosed⟩
  · rw [hdelta]
    exact texts_of_heard_nil hsilent
  · rw [hargs, toolText_append_toolless (toolless_of_heard_nil hsilent), htools]
  · simp only [hargs]
    exact (hopened h).append_toolless (toolless_of_heard_nil hsilent) fun h ↦ ⟨h, rfl⟩

theorem Opened.firstToolCall (h : Opened st events args 0)
    (hok : ({} : Source).oneRun call = true) (hcall : call.chunk.choices = [choice])
    (hnext : Follows {} choice s') :
    Texts (firstToolCall st choice.delta).2 "" "" ∧
      Opened (firstToolCall st choice.delta).1 (events ++ (firstToolCall st choice.delta).2)
        (fun j ↦ args j ++ argumentsFrom j 0 choice.delta.toolCalls) s'.seen := by
  rw [Convert.firstToolCall]
  obtain ⟨hcalls, hseen⟩ | ⟨tool, hcalls, hindex, hname, hseen⟩ := firstTools hok hcall hnext
  · rw [hcalls, hseen]
    refine ⟨⟨rfl, rfl⟩, ?_⟩
    simpa [argumentsFrom] using h
  · have hevents : (toolEvents (0 + 0) tool : List (Event υ)) =
        .contentBlockStart 0 (.toolUse tool.id tool.name) ::
          if tool.arguments ≠ "" then [.contentBlockDelta 0 (.inputJson tool.arguments)] else [] := by
      simp [toolEvents, hname]
    obtain ⟨b, hb, -⟩ := h
    rw [hcalls, hseen]
    dsimp only
    rw [← hevents]
    refine ⟨texts_toolEvents, 0, ?_, fun _ ↦ rfl⟩
    simpa [argumentsFrom, hindex] using (hb.rebase 0).newTool hname

theorem adds_firstFinish {chunk : Chunk υ} {start : List (Event υ)}
    (h : Opened st (events ++ start) (fun j ↦ args j ++ call.arguments j) s'.seen)
    (htexts : Texts start call.delta.getContentString call.delta.getReasoningContent)
    (hdone : st.done = false) (hfinished : s'.finished = choice.finished) :
    Adds ((firstFinish lower st chunk choice).1, start ++ (firstFinish lower st chunk choice).2)
      call s' events args := by
  have hnot (h : st.done = true) : s'.finished = true ∨ s'.closed = true :=
    nomatch hdone.symm.trans h
  rw [firstFinish]
  split
  next hfinish =>
    dsimp only
    split
    · rw [append_nil]
      exact Opened.adds h htexts hnot
    · exact Opened.adds (h.append_silent heard_terminate rfl rfl)
        (htexts.append_silent heard_terminate) fun _ ↦ .inl (hfinished.trans hfinish)
  · rw [append_nil]
    exact Opened.adds h htexts hnot

theorem adds_firstChunk {tokens : ℤ} (hdone : st.done = false)
    (htype : st.lastMessagesType = .none) (hindex : st.index = 0)
    (hok : ({} : Source).oneRun call = true) (hcarried : ({} : Source).carried call = true)
    (hnext : ({} : Source).next call = some s') :
    Adds (firstChunk lower st tokens call.chunk) call s' [] (fun _ ↦ "") := by
  have hopened (events : List (Event υ)) (h : events.filter heard = []) :
      Opened st events (fun _ ↦ "") 0 := by
    have htoolless := toolless_of_heard_nil h
    refine ⟨0, ⟨htoolless.starts, fun j _ ↦ htoolless.json _, fun index _ ↦ htoolless.json index,
      fun _ _ ↦ rfl⟩, fun htools ↦ ?_⟩
    rw [htype] at htools
    cases htools
  rw [firstChunk]
  obtain ⟨-, ⟨hnil, rfl⟩ | ⟨choice, hchoice, -, hfollows⟩⟩ := next_cases hnext
  · rw [hnil]
    exact adds_silent hnil rfl (fun _ ↦ rfl) (fun _ ↦ hopened [] rfl) rfl
  · rw [hchoice]
    dsimp only
    have hstart : Texts [(.messageStart call.chunk.id call.chunk.model tokens : Event υ)] "" "" :=
      ⟨rfl, rfl⟩
    obtain ⟨htool, htools⟩ := (hopened [.messageStart call.chunk.id call.chunk.model tokens]
      rfl).firstToolCall hok hchoice hfollows
    obtain ⟨-, -, hdone', -, -⟩ := leads_firstToolCall hdone htype hindex hok hchoice hfollows
    have hcontent : Texts (contentDelta (firstToolCall st choice.delta).1 choice.delta true).2
        choice.delta.getContentString choice.delta.getReasoningContent :=
      texts_contentDelta (carried_choice hcarried hchoice).1
    have htexts := hstart.append (htool.append hcontent)
    have hopened' := htools.contentDelta choice.delta true
    rw [← delta_of_choices hchoice] at htexts hopened' hdone' ⊢
    rw [append_assoc, ← nil_append ([_] ++ _)] at hopened'
    exact adds_firstFinish hopened' htexts (contentDelta_done.trans hdone') hfollows.finished

end

section

variable {lower : String → String} {info : Meta υ} {s s' : Source} {call : Call υ}
  {calls : List (Call υ)} {events : List (Event υ)}

structure Carried (info : Meta υ) (s : Source) (calls : List (Call υ)) (events : List (Event υ)) :
    Prop where
  sim : ∃ p, Sim info s p
  initial : info.sendResponseCount = 0 → calls = [] ∧ events = []
  texts : Texts events (joined (fun call ↦ call.delta.getContentString) calls)
    (joined (fun call ↦ call.delta.getReasoningContent) calls)
  tools : ∀ j, toolText events j = joined (arguments j) calls
  opened : s.finished = false →
    Opened info.claudeConvertInfo events (fun j ↦ joined (arguments j) calls) s.seen
  done : info.claudeConvertInfo.done = true → s.finished = true ∨ s.closed = true

theorem joined_snoc {f : Call υ → String} :
    joined f (calls ++ [call]) = joined f calls ++ f call := by
  rw [joined_append]
  simp [joined]

theorem Adds.carried {info' : Meta υ} {out : List (Event υ)} (h : Carried info s calls events)
    (hadds : Adds (info'.claudeConvertInfo, out) call s' events
      (fun j ↦ joined (arguments j) calls)) (hsim : ∃ p, Sim info' s' p)
    (hcount : info'.sendResponseCount ≠ 0) :
    Carried info' s' (calls ++ [call]) (events ++ out) := by
  refine ⟨hsim, fun h ↦ absurd h hcount, ?_, fun j ↦ ?_, fun hfinished ↦ ?_, hadds.done⟩
  · rw [joined_snoc, joined_snoc]
    exact h.texts.append hadds.texts
  · rw [joined_snoc]
    exact hadds.tools j
  · simp only [joined_snoc]
    exact hadds.opened hfinished

theorem closed_of_next (h : s.next call = some s') : s.closed = false := by
  cases hclosed : s.closed with
  | false => rfl
  | true =>
    rw [Source.next, if_pos hclosed] at h
    cases h

theorem convertChunk_count : (convertChunk lower info call).1.sendResponseCount ≠ 0 := by
  simp only [convertChunk, streamResponseOpenAI2Claude]
  split <;> exact Nat.succ_ne_zero _

theorem carried_convertChunk (h : Carried info s calls events) (hok : s.oneRun call = true)
    (hcarried : s.carried call = true) (hnext : s.next call = some s') :
    Carried (convertChunk lower info call).1 s' (calls ++ [call])
      (events ++ (convertChunk lower info call).2) := by
  obtain ⟨p, hsim⟩ := h.sim
  obtain ⟨p', -, hsim'⟩ : ∃ p', exec Phase.next p (convertChunk lower info call).2 = some p' ∧
      Sim (convertChunk lower info call).1 s' p' := sim_convertChunk hsim hok hnext
  refine Adds.carried h ?_ ⟨p', hsim'⟩ convertChunk_count
  have hopened : s.finished = false → Opened (info.record call.usage).claudeConvertInfo events
    (fun j ↦ joined (arguments j) calls) s.seen := h.opened
  rw [convertChunk, streamResponseOpenAI2Claude]
  obtain ⟨-, hcases⟩ := next_cases hnext
  cases hsim.record call.usage with
  | initial hcount hs htype hindex hdone =>
    obtain ⟨rfl, rfl⟩ := h.initial hcount
    subst hs
    rw [if_neg (Bool.eq_false_iff.1 hdone), if_pos (by simp [hcount])]
    exact adds_firstChunk hdone htype hindex hok hcarried hnext
  | running hcount hs hdone hagree =>
    rw [if_neg (Bool.eq_false_iff.1 hdone), if_neg (by simpa using hcount)]
    obtain ⟨hnil, rfl⟩ | ⟨choice, hchoice, hfinished, hfollows⟩ := hcases
    · rw [hnil]
      dsimp only
      rw [usageChunk]
      split
      · exact adds_silent hnil rfl h.tools hopened rfl
      · exact adds_silent hnil heard_terminate h.tools hopened rfl
    · rw [hchoice]
      exact adds_choiceChunk hdone (hopened hfinished) (hagree hfinished) hs hok hcarried hchoice
        hfollows
  | stopped hcount hs hdone =>
    have hover : s.finished = true :=
      (h.done hdone).resolve_right (Bool.eq_false_iff.1 (closed_of_next hnext))
    rw [if_pos hdone]
    -- a stream that has finished goes on with nothing but its usage
    obtain ⟨hnil, rfl⟩ | ⟨choice, hchoice, hfinished, hfollows⟩ := hcases
    · exact adds_silent hnil rfl h.tools hopened rfl
    · cases hfinished.symm.trans hover

theorem heard_finalize : (finalizeStreamResponseOpenAI2Claude lower info).2.filter heard = [] := by
  rw [finalizeStreamResponseOpenAI2Claude]
  split
  · rfl
  · exact heard_terminate

end

/-- A stream whose tool calls come in one run, and of whose chunks none is cut, comes out whole: its
text, its reasoning, and the arguments of each tool. -/
theorem claude_stream_lossless (lower : String → String) (estimatePromptTokens : ℤ)
    (usage : Option υ) {calls : List (Call υ)} {s : Source}
    (hsource : exec Source.next {} calls = some s)
    (hrun : Guarded Source.next (fun s call ↦ s.oneRun call = true ∧ s.carried call = true) {}
      calls) :
    joined Event.text (claudeEvents lower estimatePromptTokens calls usage) =
        joined (fun call ↦ call.delta.getContentString) calls ∧
      joined Event.thinking (claudeEvents lower estimatePromptTokens calls usage) =
        joined (fun call ↦ call.delta.getReasoningContent) calls ∧
      ∀ j, toolText (claudeEvents lower estimatePromptTokens calls usage) j =
        joined (arguments j) calls := by
  have hstart : Carried (Meta.start estimatePromptTokens : Meta υ) {} [] [] := by
    refine ⟨⟨_, .initial rfl rfl rfl rfl rfl⟩, fun _ ↦ ⟨rfl, rfl⟩, ⟨rfl, rfl⟩, fun _ ↦ rfl, ?_, ?_⟩
    · exact fun _ ↦ ⟨0, ⟨rfl, fun _ _ ↦ rfl, fun _ _ ↦ rfl, fun _ _ ↦ rfl⟩, fun h ↦ by cases h⟩
    · exact fun h ↦ by cases h
  have hcarried := transduce_history (P := Carried) hstart
    (fun info _ _ _ call _ h hok hnext ↦
      (carried_convertChunk h hok.1 hok.2 hnext : Carried (convertChunk lower info call).1 _ _ _))
    hrun hsource
  have htexts : Texts (claudeEvents lower estimatePromptTokens calls usage) _ _ :=
    hcarried.texts.append_silent heard_finalize
  refine ⟨htexts.text, htexts.thinking, fun j ↦ ?_⟩
  rw [claudeEvents, toolText_append_toolless (toolless_of_heard_nil heard_finalize)]
  exact hcarried.tools j

namespace ClaudeExample

def texts (calls : List (Call Unit)) : String × String :=
  (joined (fun call ↦ call.delta.getContentString) calls, joined Event.text (events calls))

def arguments (j : ℕ) (calls : List (Call Unit)) : String × String :=
  (joined (Call.arguments j) calls, toolText (events calls) j)

end ClaudeExample

open ClaudeExample

/-- Two chunks of text, then two tools, one of them in two fragments. -/
theorem claude_stream_lossless_tools :
    joined Event.text (events [text "a", text "b", tools [tool 0 "f" "x", tool 1 "g" "y"],
        tools [tool 0 "" "z"], stop, usage]) = "ab" ∧
      toolText (events [text "a", text "b", tools [tool 0 "f" "x", tool 1 "g" "y"],
        tools [tool 0 "" "z"], stop, usage]) 0 = "xz" := by
  obtain ⟨s, hs⟩ := Option.isSome_iff_exists.1 (show isSource [text "a", text "b",
    tools [tool 0 "f" "x", tool 1 "g" "y"], tools [tool 0 "" "z"], stop, usage] = true by
      decide +kernel)
  obtain ⟨htext, -, htools⟩ := claude_stream_lossless id 0 none hs (by decide +kernel)
  exact ⟨htext.trans (by decide +kernel), (htools 0).trans (by decide +kernel)⟩

/-- Text beside a tool call, text beside reasoning, text in the chunk with the finish reason, a
second tool call in the first chunk, and arguments that go on after text. -/
theorem claude_stream_lossy :
    isSource [text "a", choice { content := some "b", toolCalls := [tool 0 "f" "x"] } none, stop] =
        true ∧
      texts [text "a", choice { content := some "b", toolCalls := [tool 0 "f" "x"] } none, stop] =
        ("ab", "a") ∧
      isSource [choice { content := some "a", reasoningContent := some "b" } none, stop] = true ∧
      texts [choice { content := some "a", reasoningContent := some "b" } none, stop] =
        ("a", "") ∧
      isSource [text "a", choice { content := some "b" } (some "stop")] = true ∧
      texts [text "a", choice { content := some "b" } (some "stop")] = ("ab", "a") ∧
      isSource [tools [tool 0 "f" "x", tool 1 "g" "y"], stop] = true ∧
      arguments 1 [tools [tool 0 "f" "x", tool 1 "g" "y"], stop] = ("y", "") ∧
      isSource [tools [tool 0 "f" "x"], text "a", tools [tool 0 "" "y"], stop] = true ∧
      arguments 0 [tools [tool 0 "f" "x"], text "a", tools [tool 0 "" "y"], stop] = ("xy", "x") := by
  decide +kernel

end Moligate.Convert
