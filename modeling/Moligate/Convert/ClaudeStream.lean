import Moligate.Convert.Chat
import Moligate.Foundation.Transducer

namespace Moligate.Convert

open Foundation

inductive ContentBlock where
  | text | thinking
  | toolUse (id name : String)
  deriving DecidableEq

inductive BlockDelta where
  | text (text : String)
  | thinking (thinking : String)
  | inputJson (partialJson : String)
  deriving DecidableEq

inductive Event (υ : Type) where
  | messageStart (id model : String) (inputTokens : ℤ)
  | contentBlockStart (index : ℕ) (block : ContentBlock)
  | contentBlockDelta (index : ℕ) (delta : BlockDelta)
  | contentBlockStop (index : ℕ)
  | messageDelta (usage : Option υ) (stopReason : String)
  | messageStop
  deriving DecidableEq

inductive LastMessageType where
  | none | text | tools | thinking
  deriving DecidableEq

structure ClaudeConvertInfo (υ : Type) where
  lastMessagesType : LastMessageType := .none
  index : ℕ := 0
  usage : Option υ := none
  finishReason : String := ""
  done : Bool := false
  toolCallBaseIndex : ℕ := 0
  toolCallMaxIndexOffset : ℕ := 0

structure Meta (υ : Type) where
  estimatePromptTokens : ℤ
  sendResponseCount : ℕ
  claudeConvertInfo : ClaudeConvertInfo υ

variable {υ : Type} (lower : String → String) (st : ClaudeConvertInfo υ)

def stopOpenBlocks : List (Event υ) :=
  match st.lastMessagesType with
  | .text | .thinking => [.contentBlockStop st.index]
  | .tools => (List.range (st.toolCallMaxIndexOffset + 1)).map fun offset ↦
      .contentBlockStop (st.toolCallBaseIndex + offset)
  | .none => []

def stopOpenBlocksAndAdvance : ClaudeConvertInfo υ × List (Event υ) :=
  match st.lastMessagesType with
  | .none => (st, [])
  | .tools =>
    ({ st with
        index := st.toolCallBaseIndex + st.toolCallMaxIndexOffset + 1
        toolCallBaseIndex := 0
        toolCallMaxIndexOffset := 0
        lastMessagesType := .none }, stopOpenBlocks st)
  | .text | .thinking =>
    ({ st with index := st.index + 1, lastMessagesType := .none }, stopOpenBlocks st)

/-- A delta of a text or thinking block. The block is started unless the last one is of its type and
`always` is off. -/
def blockDelta (type : LastMessageType) (block : ContentBlock) (delta : BlockDelta) (always : Bool) :
    ClaudeConvertInfo υ × List (Event υ) :=
  let out := if st.lastMessagesType ≠ type then stopOpenBlocksAndAdvance st else (st, [])
  let start := if st.lastMessagesType ≠ type || always then
      [.contentBlockStart out.1.index block] else []
  ({ out.1 with lastMessagesType := type },
    out.2 ++ start ++ [.contentBlockDelta out.1.index delta])

/-- Reasoning goes before content, which is then skipped. -/
def contentDelta (delta : Delta) (always : Bool) : ClaudeConvertInfo υ × List (Event υ) :=
  let reasoning := delta.getReasoningContent
  let content := delta.getContentString
  if reasoning ≠ "" then blockDelta st .thinking .thinking (.thinking reasoning) always
  else if content ≠ "" then blockDelta st .text .text (.text content) always
  else (st, [])

def toolEvents (index : ℕ) (call : ToolCall) : List (Event υ) :=
  (if call.name ≠ "" then [.contentBlockStart index (.toolUse call.id call.name)] else []) ++
    if call.arguments ≠ "" then [.contentBlockDelta index (.inputJson call.arguments)] else []

def toolCallLoop (base : ℕ) : ℕ → ℕ → List ToolCall → ℕ × List (Event υ)
  | maxOffset, _, [] => (maxOffset, [])
  | maxOffset, i, call :: calls =>
    let offset := call.index.getD i
    let rest := toolCallLoop base (max maxOffset offset) (i + 1) calls
    (rest.1, toolEvents (base + offset) call ++ rest.2)

def toolCallDelta (calls : List ToolCall) : ClaudeConvertInfo υ × List (Event υ) :=
  let out := if st.lastMessagesType ≠ .tools then
      let out := stopOpenBlocksAndAdvance st
      ({ out.1 with toolCallBaseIndex := out.1.index, toolCallMaxIndexOffset := 0 }, out.2)
    else (st, [])
  let st := out.1
  let loop := toolCallLoop st.toolCallBaseIndex st.toolCallMaxIndexOffset 0 calls
  ({ st with
      lastMessagesType := .tools
      toolCallMaxIndexOffset := loop.1
      index := st.toolCallBaseIndex + loop.1 }, out.2 ++ loop.2)

/-- The first tool call of the first chunk; the others of that chunk are not read. -/
def firstToolCall (delta : Delta) : ClaudeConvertInfo υ × List (Event υ) :=
  match delta.toolCalls with
  | [] => (st, [])
  | call :: _ =>
    ({ st with lastMessagesType := .tools, toolCallBaseIndex := 0, toolCallMaxIndexOffset := 0 },
      .contentBlockStart 0 (.toolUse call.id call.name) ::
        if call.arguments ≠ "" then [.contentBlockDelta 0 (.inputJson call.arguments)] else [])

def terminate (usage : Option υ) (stopReason : String) : ClaudeConvertInfo υ × List (Event υ) :=
  ({ st with done := true }, stopOpenBlocks st ++ [.messageDelta usage stopReason, .messageStop])

def stopReason : String := openAIFinishReasonToClaudeStopReason lower st.finishReason

def stopReasonOrEndTurn : String :=
  if stopReason lower st = "" then "end_turn" else stopReason lower st

/-- A finish reason in the first chunk; the end is deferred until there is a usage. -/
def firstFinish (chunk : Chunk υ) (choice : Choice) : ClaudeConvertInfo υ × List (Event υ) :=
  if choice.finished then
    let st := { st with finishReason := choice.finishReason.getD "" }
    match chunk.usage.or st.usage with
    | none => (st, [])
    | some usage => terminate st (some usage) (stopReason lower st)
  else (st, [])

def firstChunk (estimatePromptTokens : ℤ) (chunk : Chunk υ) :
    ClaudeConvertInfo υ × List (Event υ) :=
  let start := .messageStart chunk.id chunk.model estimatePromptTokens
  match chunk.choices with
  | [] => (st, [start])
  | choice :: _ =>
    let tool := firstToolCall st choice.delta
    let content := contentDelta tool.1 choice.delta true
    let finish := firstFinish lower content.1 chunk choice
    (finish.1, start :: (tool.2 ++ content.2 ++ finish.2))

/-- A chunk without choices; with a usage it ends the message. -/
def usageChunk (chunk : Chunk υ) : ClaudeConvertInfo υ × List (Event υ) :=
  match chunk.usage.or st.usage with
  | none => (st, [])
  | some usage => terminate st (some usage) (stopReasonOrEndTurn lower st)

/-- The tool calls of a chunk; its text is read when there are none. -/
def choiceDelta (delta : Delta) : ClaudeConvertInfo υ × List (Event υ) :=
  if delta.toolCalls ≠ [] then toolCallDelta st delta.toolCalls else contentDelta st delta false

def choiceChunk (chunk : Chunk υ) (choice : Choice) : ClaudeConvertInfo υ × List (Event υ) :=
  let doneChunk := choice.finished
  let st := if doneChunk then { st with finishReason := choice.finishReason.getD "" } else st
  if doneChunk && chunk.usage.isNone then (st, [])
  else
    let out := choiceDelta st choice.delta
    if doneChunk || out.1.done then
      let finish := match chunk.usage.or out.1.usage with
        | some usage => [.messageDelta (some usage) (stopReason lower out.1)]
        | none => []
      ({ out.1 with done := true }, out.2 ++ stopOpenBlocks out.1 ++ finish ++ [.messageStop])
    else out

def streamResponseOpenAI2Claude (info : Meta υ) (chunk : Chunk υ) : Meta υ × List (Event υ) :=
  let st := info.claudeConvertInfo
  if st.done then (info, [])
  else
    let out := if info.sendResponseCount = 1 then
        firstChunk lower st info.estimatePromptTokens chunk
      else
        match chunk.choices with
        | [] => usageChunk lower st chunk
        | choice :: _ => choiceChunk lower st chunk choice
    ({ info with claudeConvertInfo := out.1 }, out.2)

def finalizeStreamResponseOpenAI2Claude (info : Meta υ) : Meta υ × List (Event υ) :=
  let st := info.claudeConvertInfo
  if st.done then (info, [])
  else
    let out := terminate st st.usage (stopReasonOrEndTurn lower st)
    ({ info with claudeConvertInfo := out.1 }, out.2)

/-- A chunk, and the usage that the caller keeps in the state when it converts the chunk. -/
structure Call (υ : Type) where
  chunk : Chunk υ
  usage : Option υ

def Meta.record (info : Meta υ) (usage : Option υ) : Meta υ :=
  { info with claudeConvertInfo := { info.claudeConvertInfo with usage := usage } }

def convertChunk (info : Meta υ) (call : Call υ) : Meta υ × List (Event υ) :=
  let info := info.record call.usage
  streamResponseOpenAI2Claude lower { info with sendResponseCount := info.sendResponseCount + 1 }
    call.chunk

def Meta.start (estimatePromptTokens : ℤ) : Meta υ := ⟨estimatePromptTokens, 0, {}⟩

def claudeEvents (estimatePromptTokens : ℤ) (calls : List (Call υ)) (usage : Option υ) :
    List (Event υ) :=
  let out := transduce (convertChunk lower) (Meta.start estimatePromptTokens) calls
  out.2 ++ (finalizeStreamResponseOpenAI2Claude lower (out.1.record usage)).2

end Moligate.Convert
