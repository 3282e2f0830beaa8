import Moligate.Convert.Chat
import Moligate.Foundation.Strings

namespace Moligate.Convert.ClaudeMessages

open Foundation Strings

inductive MediaType
  | text | toolUse | thinking | textDelta | inputJsonDelta | signatureDelta | thinkingDelta | other
  deriving DecidableEq

structure MediaMessage (ι : Type) where
  type : MediaType := .other
  text : Option String := none
  model : String := ""
  stopReason : Option String := none
  partialJson : Option String := none
  thinking : Option String := none
  id : String := ""
  name : String := ""
  input : Option ι := none
  deriving DecidableEq

open MediaMessage

inductive ResponseType
  | message | messageStart | contentBlockStart | contentBlockDelta | contentBlockStop | messageDelta
  | messageStop | other
  deriving DecidableEq

structure ClaudeResponse (ι : Type) where
  type : ResponseType
  id : String := ""
  content : List (MediaMessage ι) := []
  stopReason : String := ""
  model : String := ""
  index : Option ℕ := none
  contentBlock : Option (MediaMessage ι) := none
  delta : Option (MediaMessage ι) := none
  message : Option (MediaMessage ι) := none

variable {ι υ : Type}

def MediaMessage.getText (m : MediaMessage ι) : String := m.text.getD ""

section

variable (lower : String → String)

def withTools (delta : Delta) (tools : List ToolCall) : Choice :=
  ⟨if tools ≠ [] then { delta with content := none, toolCalls := tools } else delta, none⟩

def contentBlockStart (index : ℕ) (block : MediaMessage ι) : Choice :=
  withTools { content := if block.type = .text then block.text else none }
    (if block.type = .toolUse then [⟨some index, block.id, block.name, ""⟩] else [])

/-- An `input_json_delta` without its fragment is an error, as it is dereferenced. -/
def contentBlockDelta (index : ℕ) (delta : MediaMessage ι) : Except String Choice :=
  match delta.type with
  | .inputJsonDelta =>
    match delta.partialJson with
    | some partialJson => .ok (withTools { content := delta.text } [⟨some index, "", "", partialJson⟩])
    | none => .error "nil pointer dereference"
  | .signatureDelta =>
    .ok (withTools { content := delta.text, reasoningContent := some "\n" } [])
  | .thinkingDelta =>
    .ok (withTools { content := delta.text, reasoningContent := delta.thinking } [])
  | _ => .ok (withTools { content := delta.text } [])

def messageDelta (delta : Option (MediaMessage ι)) : Choice :=
  let finishReason := (delta.bind stopReason).map
    (claudeStopReasonToOpenAIFinishReason lower)
  ⟨{}, finishReason.filter (· ≠ "null")⟩

def streamResponseClaude2OpenAI (event : ClaudeResponse ι) : Except String (Option (Chunk υ)) :=
  let index := event.index.getD 0
  let chunk (choice : Choice) : Chunk υ := ⟨"", 0, event.model, [choice], none⟩
  match event.type with
  | .messageStart =>
    let start := chunk ⟨{ content := some "", role := "assistant" }, none⟩
    .ok (some (match event.message with
      | some message => { start with id := message.id, model := message.model }
      | none => start))
  | .contentBlockStart => .ok (event.contentBlock.map fun block ↦ chunk (contentBlockStart index block))
  | .contentBlockDelta =>
    match event.delta with
    | some delta => (contentBlockDelta index delta).map fun choice ↦ some (chunk choice)
    | none => .ok (some (chunk ⟨{}, none⟩))
  | .messageDelta => .ok (some (chunk (messageDelta lower event.delta)))
  | _ => .ok none

def streamChunks : List (ClaudeResponse ι) → Except String (List (Chunk υ))
  | [] => .ok []
  | event :: events => do
      let chunk ← streamResponseClaude2OpenAI lower event
      let rest ← streamChunks events
      return chunk.toList ++ rest

end

structure TextChoice where
  content : String
  reasoningContent : Option String
  toolCalls : List ToolCall
  finishReason : String
  deriving DecidableEq

structure TextResponse where
  id : String
  created : ℤ
  model : String
  choices : List TextChoice
  deriving DecidableEq

structure Loop where
  responseText : String
  thinkingContent : String := ""
  tools : List ToolCall := []

def Loop.step (marshal : Option ι → String) (l : Loop) (message : MediaMessage ι) : Loop :=
  match message.type with
  | .toolUse =>
    { l with tools := l.tools ++ [⟨none, message.id, message.name, marshal message.input⟩] }
  | .thinking => { l with thinkingContent := message.thinking.getD l.thinkingContent }
  | .text => { l with responseText := message.getText }
  | _ => l

def responseClaude2OpenAI (lower : String → String) (marshal : Option ι → String) (now : ℤ)
    (response : ClaudeResponse ι) : TextResponse :=
  let responseText := (response.content.head?.map getText).getD ""
  let responseThinking := (response.content.head?.bind thinking).getD ""
  let l := response.content.foldl (Loop.step marshal) { responseText := responseText }
  let reasoningContent := if l.thinkingContent ≠ "" then some l.thinkingContent
    else if responseThinking ≠ "" then some responseThinking
    else none
  { id := response.id
    created := now
    model := response.model
    choices := [{ content := l.responseText, reasoningContent := reasoningContent
                  toolCalls := l.tools
                  finishReason := claudeStopReasonToOpenAIFinishReason lower response.stopReason }] }

end Moligate.Convert.ClaudeMessages
