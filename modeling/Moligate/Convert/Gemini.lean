import Mathlib.Data.List.Nodup
import Moligate.Convert.ClaudeAgree
import Moligate.Foundation.Transducer

namespace Moligate.Convert.Gemini

open Foundation ClaudeMessages List

variable {α υ : Type}

structure InlineData where
  (mimeType data : String)

structure ExecutableCode where
  (language code : String)

structure FunctionCall (α : Type) where
  functionName : String
  arguments : α
  deriving DecidableEq

structure Part (α : Type) where
  text : String := ""
  thought : Bool := false
  inlineData : Option InlineData := none
  functionCall : Option (FunctionCall α) := none
  executableCode : Option ExecutableCode := none
  codeExecutionResult : Option String := none
  -- drawn when a call is converted
  uuid : String := ""

structure Candidate (α : Type) where
  parts : List (Part α)
  finishReason : Option String := none

open Candidate

def Part.call? (p : Part α) : Option (FunctionCall α) :=
  if p.inlineData.isSome then none else p.functionCall

def Part.isThought (p : Part α) : Bool :=
  p.inlineData.isNone && p.functionCall.isNone && p.thought

/-- What a part writes to the content. -/
def Part.written (streamed : Bool) (p : Part α) : Option String :=
  let codeEnd := if streamed then "\n```\n" else "\n```"
  match p.inlineData, p.functionCall with
  | some d, _ =>
    if "image".toList.isPrefixOf d.mimeType.toList then
      some ("![image](data:" ++ d.mimeType ++ ";base64," ++ d.data ++ ")")
    else if streamed then none
    else some ("[media](data:" ++ d.mimeType ++ ";base64," ++ d.data ++ ")")
  | none, some _ => none
  | none, none =>
    if p.thought then if streamed then some p.text else none
    else match p.executableCode, p.codeExecutionResult with
      | some c, _ => some ("```" ++ c.language ++ "\n" ++ c.code ++ codeEnd)
      | none, some output => some ("```output\n" ++ output ++ codeEnd)
      | none, none => if p.text ≠ "\n" then some p.text else none

def Candidate.content (streamed : Bool) (c : Candidate α) : String :=
  "\n".intercalate (c.parts.filterMap (Part.written streamed))

def Candidate.calls (c : Candidate α) : List (FunctionCall α) := c.parts.filterMap Part.call?

def openAIFinishReason : String → String
  | "STOP" => "stop"
  | "MAX_TOKENS" => "length"
  | _ => "content_filter"

section

variable (marshal : α → String)

def geminiResponseToolCall (p : Part α) (call : FunctionCall α) : ToolCall :=
  ⟨none, "call_" ++ p.uuid, call.functionName, marshal call.arguments⟩

def Candidate.toolCalls (c : Candidate α) : List ToolCall :=
  c.parts.filterMap fun p ↦ p.call?.map (geminiResponseToolCall marshal p)

def responseGeminiChat2OpenAI : Bool → List (Candidate α) → List TextChoice
  | _, [] => []
  | isToolCall, c :: cs =>
    let isToolCall := isToolCall || c.toolCalls marshal ≠ []
    { content := c.content false
      -- each thought takes the place of the one before it
      reasoningContent := (c.parts.filter Part.isThought).getLast?.map Part.text
      toolCalls := c.toolCalls marshal
      finishReason :=
        if isToolCall then "tool_calls" else (c.finishReason.map openAIFinishReason).getD "stop" }
      :: responseGeminiChat2OpenAI isToolCall cs

def streamChoice (c : Candidate α) : Choice where
  delta :=
    let thought := c.parts.any Part.isThought
    { content := if thought then none else some (c.content true)
      reasoningContent := if thought then some (c.content true) else none
      toolCalls := (c.toolCalls marshal).mapIdx fun i call ↦ { call with index := some i } }
  finishReason :=
    if c.toolCalls marshal ≠ [] then some "tool_calls"
    else (c.finishReason.filter (· ≠ "STOP")).map openAIFinishReason

def streamResponseGeminiChat2OpenAI (cs : List (Candidate α)) : List Choice × Bool :=
  (cs.map (streamChoice marshal), cs.any (·.finishReason = some "STOP"))

structure StreamState (υ : Type) where
  id : String
  created : ℤ
  sawToolCall : Bool := false
  finishEmitted : Bool := false
  latestUsage : Option υ := none

def StreamState.terminalChunk (s : StreamState υ) (model : String) : Chunk υ where
  id := s.id
  created := s.created
  model := model
  choices := [⟨{}, some (if s.sawToolCall then "tool_calls" else "stop")⟩]
  usage := s.latestUsage

structure Arrival (α υ : Type) where
  candidates : List (Candidate α)
  model : String := ""
  usage : Option υ := none

def StreamState.convertChunk (s : StreamState υ) (a : Arrival α υ) :
    StreamState υ × List (Chunk υ) :=
  let hasNonStopFinish := a.candidates.any (·.finishReason.any fun r ↦ r ≠ "" && r ≠ "STOP")
  let response := streamResponseGeminiChat2OpenAI marshal a.candidates
  let isToolCall := response.1.head?.any (·.delta.toolCalls ≠ [])
  let choices := response.1.map fun c ↦
    if isToolCall && !hasNonStopFinish && c.finishReason = some "tool_calls" then
      { c with finishReason := none }
    else c
  let s :=
    { s with
      sawToolCall := s.sawToolCall || isToolCall
      latestUsage := a.usage.or s.latestUsage
      finishEmitted := s.finishEmitted || choices.any Choice.finished }
  let chunk : Chunk υ := ⟨s.id, s.created, a.model, choices, a.usage⟩
  if response.2 && !s.finishEmitted then
    ({ s with finishEmitted := true }, [chunk, s.terminalChunk a.model])
  else (s, [chunk])

end

/-- How argument text is read; text that is not JSON goes under the key `arguments`. -/
structure Reader (α : Type) where
  unmarshal : String → Option α
  underArguments : String → α
  empty : α

def Reader.functionCall (reader : Reader α) (t : ToolCall) : FunctionCall α where
  functionName := t.name
  arguments :=
    if t.arguments = "" then reader.empty
    else (reader.unmarshal t.arguments).getD (reader.underArguments t.arguments)

def Reader.parts (reader : Reader α) (calls : List ToolCall) : List (Part α) :=
  calls.map fun t ↦ { functionCall := some (reader.functionCall t) }

def textParts (text : String) : List (Part α) := if text ≠ "" then [{ text := text }] else []

def geminiFinishReason : String → String
  | "length" => "MAX_TOKENS"
  | "content_filter" => "SAFETY"
  | _ => "STOP"

def responseOpenAI2Gemini (reader : Reader α) (choices : List TextChoice) : List (Candidate α) :=
  choices.map fun c ↦
    ⟨textParts c.content ++ reader.parts c.toolCalls, some (geminiFinishReason c.finishReason)⟩

def streamResponseOpenAI2Gemini (reader : Reader α) (choices : List Choice) :
    Option (List (Candidate α)) :=
  if choices.all fun c ↦
      c.delta.getContentString = "" && c.delta.toolCalls = [] && c.finishReason.isNone then
    none
  else
    some (choices.map fun c ↦
      ⟨if c.delta.toolCalls ≠ [] then reader.parts c.delta.toolCalls
        else textParts c.delta.getContentString, c.finishReason.map geminiFinishReason⟩)

variable {marshal : α → String} {reader : Reader α}

/-- A client that merges deltas by index keeps calls with different indices apart. -/
theorem foldl_addFragment_of_nodup {acc tools : List ToolCall}
    (h : ((acc ++ tools).map ToolCall.index).Nodup) :
    tools.foldl addFragment acc = acc ++ tools := by
  induction tools generalizing acc with
  | nil => simp
  | cons t tools ih =>
    have hnew : acc.any (·.index = t.index) = false := by
      simp only [map_append, map_cons, nodup_append, mem_map] at h
      simp only [any_eq_false, decide_eq_true_eq]
      intro tool htool
      exact h.2.2 _ ⟨tool, htool, rfl⟩ _ mem_cons_self
    rw [foldl_cons, addFragment, hnew, ih (by simpa using h)]
    simp

theorem convertChunk_toolCalls (s : StreamState υ) (a : Arrival α υ) :
    (chunkDeltas (s.convertChunk marshal a).2).flatMap Delta.toolCalls =
      a.candidates.flatMap fun c ↦ (streamChoice marshal c).delta.toolCalls := by
  unfold StreamState.convertChunk
  extract_lets hasNonStopFinish response isToolCall choices s' chunk
  have hchoices : choices.map Choice.delta =
      a.candidates.map fun c ↦ (streamChoice marshal c).delta := by
    simp only [choices, response, streamResponseGeminiChat2OpenAI, map_map]
    refine map_congr_left fun c _ ↦ ?_
    dsimp only [Function.comp_apply]
    split <;> rfl
  split <;> simp [chunkDeltas, chunk, hchoices, StreamState.terminalChunk, flatMap_map]

theorem transduce_toolCalls (s : StreamState υ) (arrivals : List (Arrival α υ)) :
    (chunkDeltas (transduce (StreamState.convertChunk marshal) s arrivals).2).flatMap
        Delta.toolCalls =
      (arrivals.flatMap Arrival.candidates).flatMap
        fun c ↦ (streamChoice marshal c).delta.toolCalls := by
  induction arrivals generalizing s with
  | nil => rfl
  | cons a arrivals ih =>
    rw [transduce, flatMap_cons, flatMap_append, ← ih (s.convertChunk marshal a).1,
      ← convertChunk_toolCalls s a]
    simp [chunkDeltas]

theorem streamChoice_unindexed (c : Candidate α) :
    (streamChoice marshal c).delta.toolCalls.map ToolCall.unindexed = c.toolCalls marshal := by
  apply ext_getElem (by simp [streamChoice])
  intro n hn hn'
  obtain ⟨p, -, hp⟩ := mem_filterMap.1 (getElem_mem hn')
  obtain ⟨call, -, hcall⟩ := Option.map_eq_some_iff.1 hp
  simp [streamChoice, ToolCall.unindexed, ← hcall, geminiResponseToolCall]

theorem streamChoice_indices (c : Candidate α) :
    (streamChoice marshal c).delta.toolCalls.map ToolCall.index =
      (range (c.toolCalls marshal).length).map some := by
  apply ext_getElem <;> simp [streamChoice]

/-- Where all the calls of a stream come in one candidate, each has an index of its own. -/
theorem stream_tools_apart (s : StreamState υ) (arrivals : List (Arrival α υ))
    (h : (arrivals.flatMap Arrival.candidates).Pairwise fun c c' ↦ c.calls = [] ∨ c'.calls = []) :
    let chunks := (transduce (StreamState.convertChunk marshal) s arrivals).2
    (((chunkDeltas chunks).flatMap Delta.toolCalls).map ToolCall.index).Nodup ∧
      (assembledTools chunks).map ToolCall.unindexed =
        (arrivals.flatMap Arrival.candidates).flatMap (toolCalls marshal) := by
  have hnone {c : Candidate α} (hc : c.calls = []) : c.toolCalls marshal = [] := by
    simpa [calls, toolCalls] using hc
  have hnodup : (((arrivals.flatMap Arrival.candidates).flatMap
      fun c ↦ (streamChoice marshal c).delta.toolCalls).map ToolCall.index).Nodup := by
    simp only [map_flatMap, streamChoice_indices, nodup_flatMap]
    refine ⟨fun c _ ↦ nodup_range.map fun _ _ ↦ Option.some.inj, h.imp ?_⟩
    rintro c c' (hc | hc) <;> simp [Function.onFun, hnone hc]
  intro chunks
  rw [assembledTools, transduce_toolCalls, foldl_addFragment_of_nodup (by simpa using hnodup)]
  exact ⟨hnodup, by simp [map_flatMap, streamChoice_unindexed]⟩

def callPart (name arguments : String) : Part String := { functionCall := some ⟨name, arguments⟩ }

theorem stream_tools_apart_two : let chunks := (transduce (StreamState.convertChunk id)
      ({ id := "", created := 0 } : StreamState ℕ)
      [{ candidates := [⟨[callPart "f" "1", callPart "g" "2"], none⟩] },
        { candidates := [⟨[{ text := "done" }], some "STOP"⟩] }]).2
    (((chunkDeltas chunks).flatMap Delta.toolCalls).map ToolCall.index).Nodup ∧
      (assembledTools chunks).map ToolCall.unindexed =
        [⟨none, "call_", "f", "1"⟩, ⟨none, "call_", "g", "2"⟩] :=
  stream_tools_apart _ _ (by decide)

/-- The indices start again in every chunk. -/
theorem stream_tools_merged :
    (assembledTools (transduce (StreamState.convertChunk id)
      ({ id := "", created := 0 } : StreamState ℕ) [{ candidates := [⟨[callPart "f" "1"], none⟩] },
        { candidates := [⟨[callPart "g" "2"], none⟩] }]).2).map
      (fun t ↦ (t.name, t.arguments)) = [("fg", "12")] := by
  decide

/-- The texts of the thoughts of a candidate, or those of its answer. -/
def Candidate.texts (c : Candidate α) (thought : Bool) : List String :=
  c.parts.filterMap fun p ↦ if p.thought = thought then some p.text else none

def Candidate.text (c : Candidate α) (thought : Bool) : String :=
  "\n".intercalate (c.texts thought)

structure Candidate.Plain (c : Candidate α) : Prop where
  part : ∀ p ∈ c.parts, p = { text := p.text, thought := p.thought }
  answer : "\n" ∉ c.texts false

variable {c : Candidate α} {cs : List (Candidate α)}

theorem Candidate.Plain.written (h : c.Plain) {p : Part α} (hp : p ∈ c.parts) :
    p.isThought = p.thought ∧ p.written true = some p.text ∧
      p.written false = if p.thought = false then some p.text else none := by
  have hanswer : p.thought = false → p.text ≠ "\n" := by
    intro hthought htext
    exact h.answer (mem_filterMap.2 ⟨p, hp, by simp [hthought, htext]⟩)
  rw [h.part p hp]
  cases hthought : p.thought <;> simp [Part.isThought, Part.written, hanswer, hthought]

theorem Candidate.Plain.reasoning (h : c.Plain) (hone : (c.texts true).length ≤ 1) :
    ((c.parts.filter Part.isThought).getLast?.map Part.text).getD "" = c.text true := by
  have hthoughts : c.texts true = (c.parts.filter Part.isThought).map Part.text := by
    rw [filter_congr fun _ hp ↦ (h.written hp).1, texts]
    simp [← filterMap_eq_map, filterMap_filter]
  rw [← getLast?_map, ← hthoughts, text]
  match c.texts true, hone with
  | [], _ => rfl
  | [text], _ => simp

theorem Candidate.Plain.stream (h : c.Plain) (hkind : c.texts true = [] ∨ c.texts false = []) :
    (streamChoice marshal c).delta.getContentString = c.text false ∧
      (streamChoice marshal c).delta.getReasoningContent = c.text true := by
  have hall (b : Bool) (hb : c.texts (!b) = []) :
      (∀ p ∈ c.parts, p.isThought = b) ∧ c.content true = c.text b ∧ c.text (!b) = "" := by
    have hkind : ∀ p ∈ c.parts, p.thought = b := by simpa [texts] using hb
    refine ⟨fun p hp ↦ (h.written hp).1.trans (hkind p hp), ?_, by rw [text, hb]; rfl⟩
    refine congrArg _ (filterMap_congr fun p hp ↦ ?_)
    rw [(h.written hp).2.1, if_pos (hkind p hp)]
  simp only [streamChoice, Delta.getContentString, Delta.getReasoningContent]
  rcases hkind with hkind | hkind
  · obtain ⟨hfalse, hcontent, hnone⟩ := hall false hkind
    have hany : c.parts.any Part.isThought = false := by simpa using hfalse
    simp [hany, hcontent, ← hnone]
  · obtain ⟨htrue, hcontent, hnone⟩ := hall true hkind
    cases hparts : c.parts with
    | nil => simp [content, text, texts, hparts]
    | cons p ps => simp [htrue p (hparts ▸ mem_cons_self), hcontent, ← hnone]

def textPart (thought : Bool) (text : String) : Part ℕ := { text := text, thought := thought }

def streamedCalls (reader : Reader α) (chunks : List (Chunk υ)) : List (FunctionCall α) :=
  chunks.flatMap fun c ↦
    ((streamResponseOpenAI2Gemini reader c.choices).getD []).flatMap calls

def messageCalls (reader : Reader α) (chunks : List (Chunk υ)) (finishReason : String) :
    List (FunctionCall α) :=
  (responseOpenAI2Gemini reader [⟨assembledContent chunks, some (assembledReasoning chunks),
    assembledTools chunks, finishReason⟩]).flatMap calls

/-- Where each call comes whole in one delta, the calls of a stream are those of its message. -/
theorem streamedCalls_eq {chunks : List (Chunk υ)} (finishReason : String)
    (h : (((chunkDeltas chunks).flatMap Delta.toolCalls).map ToolCall.index).Nodup) :
    streamedCalls reader chunks = messageCalls reader chunks finishReason := by
  have hcalls (tools : List ToolCall) :
      (reader.parts tools).filterMap Part.call? = tools.map reader.functionCall := by
    simp [Reader.parts, filterMap_map, Function.comp_def, Part.call?]
  have htext (text : String) : (textParts text : List (Part α)).filterMap Part.call? = [] := by
    rw [textParts]
    split <;> rfl
  have hchunk (c : Chunk υ) :
      ((streamResponseOpenAI2Gemini reader c.choices).getD []).flatMap calls =
        ((c.choices.map Choice.delta).flatMap Delta.toolCalls).map reader.functionCall := by
    rw [streamResponseOpenAI2Gemini]
    split
    next hskip =>
      simp only [all_eq_true, Bool.and_eq_true, decide_eq_true_eq] at hskip
      symm
      simpa [flatMap_map] using fun choice hchoice ↦ (hskip choice hchoice).1.2
    · simp only [Option.getD_some, flatMap_map, map_flatMap]
      congr 1
      funext choice
      dsimp only [calls]
      split
      · rw [hcalls]
      next htools => rw [htext, not_not.1 htools, map_nil]
  rw [streamedCalls, messageCalls, assembledTools, foldl_addFragment_of_nodup (by simpa using h)]
  simp [hchunk, responseOpenAI2Gemini, calls, hcalls, htext, chunkDeltas, map_flatMap,
    flatMap_assoc]

def toolChunk (t : ToolCall) : Chunk ℕ := ⟨"", 0, "", [⟨{ toolCalls := [t] }, none⟩], none⟩

def pairReader : Reader String := ⟨fun s ↦ if s = "\x7b\x7d" then some "parsed" else none, id, ""⟩

theorem streamedCalls_eq_two :
    let chunks := [toolChunk ⟨some 0, "a", "f", "\x7b\x7d"⟩, toolChunk ⟨some 1, "b", "g", "2"⟩]
    streamedCalls pairReader chunks = messageCalls pairReader chunks "tool_calls" :=
  streamedCalls_eq _ (by decide)

/-- Each fragment of the arguments becomes a call of its own. -/
theorem streamedCalls_split :
    let chunks := [toolChunk ⟨some 0, "a", "f", "\x7b"⟩, toolChunk ⟨some 0, "", "", "\x7d"⟩]
    streamedCalls pairReader chunks = [⟨"f", "\x7b"⟩, ⟨"", "\x7d"⟩] ∧
      messageCalls pairReader chunks "tool_calls" = [⟨"f", "parsed"⟩] := by
  decide

end Moligate.Convert.Gemini
