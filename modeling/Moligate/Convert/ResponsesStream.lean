import Mathlib.Data.List.AList
import Mathlib.Data.List.Sort
import Moligate.Convert.Chat
import Moligate.Foundation.Strings
import Moligate.Foundation.Transducer

namespace Moligate.Convert.Responses

open Foundation Strings

inductive EventType
  | created | completed | done | incomplete | failed | error | outputTextDelta | outputItemAdded
  | outputItemDone | functionArgsDelta | functionArgsDone | customToolInputDelta
  | customToolInputDone | reasoningSummaryDelta | reasoningSummaryDone | reasoningTextDelta
  | reasoningTextDone | other
  deriving DecidableEq

inductive OutputType
  | functionCall | customToolCall | message | reasoning | other
  deriving DecidableEq

def OutputType.isResponsesToolOutputType (outputType : OutputType) : Bool :=
  outputType = .functionCall || outputType = .customToolCall

structure OutputContent where
  (type text : String)
  deriving DecidableEq

structure Output where
  type : OutputType
  id : String := ""
  content : List OutputContent := []
  callId : String := ""
  name : String := ""
  arguments : String := ""
  deriving DecidableEq

structure Response (υ : Type) where
  id : String := ""
  createdAt : ℤ := 0
  status : Option String := none
  incompleteDetails : Option String := none
  model : String := ""
  output : List Output := []
  usage : Option υ := none
  deriving DecidableEq

structure Event (υ : Type) where
  type : EventType
  response : Option (Response υ) := none
  delta : String := ""
  item : Option Output := none
  outputIndex : Option ℤ := none
  itemID : String := ""
  deriving DecidableEq

inductive Key
  | output (outputIndex : ℤ)
  | item (itemID : String)
  | call (callID : String)
  deriving DecidableEq

def Key.text : Key → String
  | .output outputIndex => "output:" ++ toString outputIndex
  | .item itemID => "item:" ++ itemID
  | .call callID => "call:" ++ callID

structure Tool where
  key : Key
  callID : String
  itemID : String := ""
  name : String := ""
  arguments : String := ""
  index : ℕ
  sent : Bool := false
  nameSent : Bool := false
  argsSentAt : ℕ := 0
  deriving DecidableEq

/-- `ResponsesToChatStreamState`. The tools stand in the order in which they were made, and
`toolByKey` has their positions, since two keys can have one tool. -/
structure State (υ : Type) where
  id : String := ""
  model : String
  created : ℤ
  includeUsage : Bool
  usage : Option υ
  sentStart : Bool := false
  finalized : Bool := false
  hasSentText : Bool := false
  sawToolCall : Bool := false
  hasSentReasoning : Bool := false
  needsReasoningSummaryBreak : Bool := false
  nextToolIndex : ℕ := 0
  tools : List Tool := []
  toolByKey : AList (fun _ : Key ↦ ℕ) := ∅
  outputIndexToKey : AList (fun _ : ℤ ↦ Key) := ∅
  itemIDToKey : AList (fun _ : String ↦ Key) := ∅
  callIDToKey : AList (fun _ : String ↦ Key) := ∅
  pendingArgsByOutputIndex : AList (fun _ : ℤ ↦ String) := ∅
  pendingArgsByItemID : AList (fun _ : String ↦ String) := ∅
  usageText : String := ""

variable {υ : Type}

def newResponsesToChatStreamState (model : String) (now : ℤ) (includeUsage : Bool) (empty : υ) :
    State υ where
  model := model
  created := now
  includeUsage := includeUsage
  usage := some empty

def responseStreamEventItemID (event : Event υ) : String :=
  match event.item with
  | some item => if trimSpace item.id ≠ "" then trimSpace item.id else trimSpace event.itemID
  | none => trimSpace event.itemID

def itemKey (itemID : String) : Option Key :=
  if trimSpace itemID ≠ "" then some (.item (trimSpace itemID)) else none

def callKey (callID : String) : Option Key :=
  if trimSpace callID ≠ "" then some (.call (trimSpace callID)) else none

def fallbackToolKey (itemID callID : String) (outputIndex : Option ℤ) : Option Key :=
  (outputIndex.map .output).or ((itemKey itemID).or (callKey callID))

def keyForEvent (event : Event υ) : Option Key :=
  (event.outputIndex.map .output).or
    ((event.item.bind fun item ↦ (itemKey item.id).or (callKey item.callId)).or
      (itemKey event.itemID))

def fallbackCallID (event : Event υ) : String :=
  if trimSpace event.itemID ≠ "" then trimSpace event.itemID
  else
    match event.outputIndex with
    | some outputIndex => "call_output_" ++ toString outputIndex
    | none => ""

section

variable (s : State υ)

def State.makeChunk (delta : Delta) (finishReason : Option String) : Chunk υ :=
  ⟨s.id, s.created, s.model, [⟨delta, finishReason⟩], none⟩

def State.ensureStart : State υ × List (Chunk υ) :=
  if s.sentStart then (s, [])
  else
    ({ s with sentStart := true }, [s.makeChunk { role := "assistant", content := some "" } none])

def State.textDelta (delta : String) : State υ × List (Chunk υ) :=
  if delta = "" then (s, [])
  else
    let out := { s with usageText := s.usageText ++ delta, hasSentText := true }.ensureStart
    (out.1, out.2 ++ [out.1.makeChunk { content := some delta } none])

def State.brokenDelta (delta : String) : String :=
  if s.needsReasoningSummaryBreak then
    if hasPrefix delta "\n\n" then delta
    else if hasPrefix delta "\n" then "\n" ++ delta
    else "\n\n" ++ delta
  else delta

def State.reasoningDelta (delta : String) : State υ × List (Chunk υ) :=
  if delta = "" then (s, [])
  else
    let delta := s.brokenDelta delta
    let out := { s with
      needsReasoningSummaryBreak := false, usageText := s.usageText ++ delta }.ensureStart
    ({ out.1 with hasSentReasoning := true },
      out.2 ++ [out.1.makeChunk { reasoningContent := some delta } none])

end

section

def Tool.argsDelta (tool : Tool) (explicitDelta : String) : String :=
  if explicitDelta = "" ∧ tool.argsSentAt < tool.arguments.utf8ByteSize then
    sliceFrom tool.arguments tool.argsSentAt
  else explicitDelta

def Tool.response (tool : Tool) (argsDelta : String) : ToolCall where
  index := some tool.index
  id := if trimSpace tool.callID = "" then tool.key.text else trimSpace tool.callID
  name := if tool.nameSent then "" else tool.name
  arguments := argsDelta

def Tool.record (tool : Tool) (argsDelta : String) : Tool :=
  { tool with
    sent := true
    nameSent := tool.nameSent || tool.name ≠ ""
    argsSentAt := tool.argsSentAt + argsDelta.utf8ByteSize }

variable (s : State υ)

def State.modifyTool (ref : ℕ) (f : Tool → Tool) : State υ :=
  { s with tools := s.tools.modify ref f }

def State.toolDelta (ref : ℕ) (explicitDelta : String) : State υ × List (Chunk υ) :=
  match s.tools[ref]? with
  | none => (s, [])
  | some tool =>
    let argsDelta := tool.argsDelta explicitDelta
    if tool.sent && argsDelta = "" && (tool.name = "" || tool.nameSent) then (s, [])
    else
      let responseTool := tool.response argsDelta
      let out := s.ensureStart
      let chunk := out.1.makeChunk { toolCalls := [responseTool] } none
      let s := out.1.modifyTool ref (·.record argsDelta)
      ({ s with
          usageText := s.usageText ++ argsDelta ++ responseTool.name
          sawToolCall := true },
        out.2 ++ [chunk])

def State.newTool (key : Key) (callID : String) : State υ × ℕ :=
  ({ s with
      tools := s.tools ++ [{ key := key, callID := callID, index := s.nextToolIndex }]
      nextToolIndex := s.nextToolIndex + 1
      toolByKey := s.toolByKey.insert key s.tools.length },
    s.tools.length)

def State.toolForKey (key : Key) (itemID callID : String) : State υ × ℕ :=
  match s.toolByKey.lookup key with
  | some ref => (s, ref)
  | none =>
    let byItem := if itemID ≠ "" then (s.itemIDToKey.lookup itemID).bind s.toolByKey.lookup
      else none
    let byCall := if callID ≠ "" then (s.callIDToKey.lookup callID).bind s.toolByKey.lookup
      else none
    match byItem.or byCall with
    | some ref => ({ s with toolByKey := s.toolByKey.insert key ref }, ref)
    | none => s.newTool key ""

def State.claimOutputIndex (ref : ℕ) (key : Key) : Option ℤ → State υ
  | none => s
  | some outputIndex =>
    let s := { s with outputIndexToKey := s.outputIndexToKey.insert outputIndex key }
    match s.pendingArgsByOutputIndex.lookup outputIndex with
    | some pending =>
      if pending ≠ "" then
        { s.modifyTool ref fun tool ↦ { tool with arguments := tool.arguments ++ pending } with
          pendingArgsByOutputIndex := s.pendingArgsByOutputIndex.erase outputIndex }
      else s
    | none => s

def State.claimItemID (ref : ℕ) (key : Key) (itemID : String) : State υ :=
  if itemID = "" then s
  else
    let s := { s.modifyTool ref fun tool ↦ { tool with itemID := itemID } with
      itemIDToKey := s.itemIDToKey.insert itemID key }
    match s.pendingArgsByItemID.lookup itemID with
    | some pending =>
      if pending ≠ "" then
        { s.modifyTool ref fun tool ↦ { tool with arguments := tool.arguments ++ pending } with
          pendingArgsByItemID := s.pendingArgsByItemID.erase itemID }
      else s
    | none => s

def State.claimCallID (ref : ℕ) (key : Key) (item : Output) : State υ :=
  let callID := trimSpace item.callId
  if callID ≠ "" then
    { s.modifyTool ref fun tool ↦ { tool with callID := callID } with
      callIDToKey := s.callIDToKey.insert callID key }
  else
    s.modifyTool ref fun tool ↦
      if tool.callID = "" then { tool with callID := trimSpace item.id } else tool

def State.claimName (ref : ℕ) (item : Output) : State υ :=
  if trimSpace item.name ≠ "" then
    s.modifyTool ref fun tool ↦ { tool with name := trimSpace item.name }
  else s

def State.ensureToolForEvent (event : Event υ) : State υ × Option ℕ :=
  match event.item with
  | none => (s, none)
  | some item =>
    match (keyForEvent event).or (fallbackToolKey item.id item.callId event.outputIndex) with
    | none => (s, none)
    | some key =>
      let itemID := responseStreamEventItemID event
      let (s, ref) := s.toolForKey key itemID (trimSpace item.callId)
      let s := s.claimOutputIndex ref key event.outputIndex
      let s := s.claimItemID ref key itemID
      let s := s.claimCallID ref key item
      (s.claimName ref item, some ref)

def State.findToolForEvent (event : Event υ) : Option ℕ :=
  match event.outputIndex.bind s.outputIndexToKey.lookup with
  | some key => s.toolByKey.lookup key
  | none =>
    let itemID := trimSpace event.itemID
    match if itemID ≠ "" then s.itemIDToKey.lookup itemID else none with
    | some key => s.toolByKey.lookup key
    | none => event.item.bind fun _ ↦ (keyForEvent event).bind s.toolByKey.lookup

def State.ensureFallbackToolForEvent (event : Event υ) : State υ × Option ℕ :=
  match (event.outputIndex.map Key.output).or (itemKey event.itemID) with
  | none => (s, none)
  | some key =>
    let (s, ref) := match s.toolByKey.lookup key with
      | some ref => (s, ref)
      | none => s.newTool key (fallbackCallID event)
    let s := s.claimOutputIndex ref key event.outputIndex
    (s.claimItemID ref key (responseStreamEventItemID event), some ref)

def State.toolItem (event : Event υ) : State υ × List (Chunk υ) :=
  match s.ensureToolForEvent event, event.item with
  | (s, some ref), some item =>
    let s := if item.arguments ≠ "" then
        s.modifyTool ref fun tool ↦ { tool with arguments := item.arguments }
      else s
    s.toolDelta ref ""
  | (s, _), _ => (s, [])

def State.toolArgumentsDelta (event : Event υ) : State υ × List (Chunk υ) :=
  if event.delta = "" then (s, [])
  else
    match s.findToolForEvent event with
    | some ref =>
      (s.modifyTool ref fun tool ↦ { tool with arguments := tool.arguments ++ event.delta }
        ).toolDelta ref event.delta
    | none =>
      match event.outputIndex with
      | some outputIndex =>
        let pending := (s.pendingArgsByOutputIndex.lookup outputIndex).getD "" ++ event.delta
        ({ s with
            pendingArgsByOutputIndex := s.pendingArgsByOutputIndex.insert outputIndex pending },
          [])
      | none =>
        let itemID := trimSpace event.itemID
        if itemID ≠ "" then
          let pending := (s.pendingArgsByItemID.lookup itemID).getD "" ++ event.delta
          ({ s with pendingArgsByItemID := s.pendingArgsByItemID.insert itemID pending }, [])
        else (s, [])

def State.flushPendingTool (event : Event υ) : State υ × List (Chunk υ) :=
  match s.findToolForEvent event with
  | some ref => s.toolDelta ref ""
  | none =>
    match s.ensureFallbackToolForEvent event with
    | (s, some ref) => s.toolDelta ref ""
    | (s, none) => (s, [])

end

def Response.applyTo (usageFromResponsesUsage : υ → υ) (response : Response υ) (s : State υ) :
    State υ :=
  { s with
    id := if response.id ≠ "" ∧ s.id = "" then response.id else s.id
    model := if response.model ≠ "" then response.model else s.model
    created := if response.createdAt ≠ 0 then response.createdAt else s.created
    usage := (response.usage.map usageFromResponsesUsage).or s.usage }

def State.applyResponseMetadata (usageFromResponsesUsage : υ → υ) (s : State υ)
    (response : Option (Response υ)) : State υ :=
  match response with
  | some response => response.applyTo usageFromResponsesUsage s
  | none => s

def Output.outputText (out : Output) : String :=
  joined (fun c ↦ if c.type = "output_text" then c.text else "") out.content

def Output.contentText (out : Output) : String := joined OutputContent.text out.content

/-- One output of the response at the end; what has been streamed is not sent again. -/
def State.terminalOutput (s : State υ) (out : Output) : State υ × List (Chunk υ) :=
  if out.type = .message && !s.hasSentText then s.textDelta out.outputText
  else if out.type = .reasoning && !s.hasSentReasoning then s.reasoningDelta out.contentText
  else if out.type.isResponsesToolOutputType then s.toolItem { type := .other, item := some out }
  else (s, [])

def State.terminalOutputChunks (s : State υ) (response : Option (Response υ)) :
    State υ × List (Chunk υ) :=
  transduce State.terminalOutput s ((response.map Response.output).getD [])

def responseStatusString (response : Response υ) : String := trimSpace (response.status.getD "")

def responsesFinishReasonFromStatus (response : Option (Response υ)) : Option String :=
  response.bind fun response ↦
    if responseStatusString response ≠ "incomplete" then none
    else if trimSpace (response.incompleteDetails.getD "") = "content_filter" then
      some "content_filter"
    else some "length"

def ensureIncompleteResponse (response : Option (Response υ)) : Response υ :=
  let response := response.getD {}
  { response with status := response.status.or (some "incomplete") }

def State.pendingKeys (s : State υ) : List Key :=
  let keys := s.toolByKey.keys
  let outputs := s.pendingArgsByOutputIndex.keys.map Key.output
  let items := s.pendingArgsByItemID.keys.map Key.item
  (keys ++ outputs.filter (· ∉ keys) ++ items.filter (· ∉ keys)).insertionSort
    fun a b ↦ a.text ≤ b.text

def Key.fallbackCallID : Key → String
  | .output outputIndex => "call_output_" ++ toString outputIndex
  | .item itemID => itemID
  | .call callID => "call:" ++ callID

def State.claimPending (s : State υ) (ref : ℕ) : Key → State υ
  | .output outputIndex =>
    let pending := (s.pendingArgsByOutputIndex.lookup outputIndex).getD ""
    { s.modifyTool ref fun tool ↦ { tool with arguments := tool.arguments ++ pending } with
      pendingArgsByOutputIndex := s.pendingArgsByOutputIndex.erase outputIndex }
  | .item itemID =>
    let pending := (s.pendingArgsByItemID.lookup itemID).getD ""
    { s.modifyTool ref fun tool ↦ { tool with arguments := tool.arguments ++ pending } with
      pendingArgsByItemID := s.pendingArgsByItemID.erase itemID }
  | .call _ => s

def State.flushKey (s : State υ) (key : Key) : State υ × List (Chunk υ) :=
  let (s, ref) := match s.toolByKey.lookup key with
    | some ref => (s, ref)
    | none => s.newTool key key.fallbackCallID
  (s.claimPending ref key).toolDelta ref ""

def State.flushAllPendingTools (s : State υ) : State υ × List (Chunk υ) :=
  transduce State.flushKey s s.pendingKeys

def State.finalize (s : State υ) (response : Option (Response υ)) : State υ × List (Chunk υ) :=
  if s.finalized then (s, [])
  else
    let flush := { s with finalized := true }.flushAllPendingTools
    let start := flush.1.ensureStart
    let s := start.1
    let finishReason := (responsesFinishReasonFromStatus response).getD
      (if s.sawToolCall then "tool_calls" else "stop")
    let usage := if s.includeUsage && s.usage.isSome then
        [⟨s.id, s.created, s.model, [], s.usage⟩]
      else []
    (s, flush.2 ++ start.2 ++ [s.makeChunk {} (some finishReason)] ++ usage)

variable (usageFromResponsesUsage : υ → υ)

def Event.terminalResponse (event : Event υ) : Option (Response υ) :=
  if event.type = .incomplete then some (ensureIncompleteResponse event.response)
  else event.response

def State.convert (s : State υ) (event : Event υ) : State υ × List (Chunk υ) :=
  match event.type with
  | .created => (s.applyResponseMetadata usageFromResponsesUsage event.response).ensureStart
  | .reasoningSummaryDelta | .reasoningTextDelta => s.reasoningDelta event.delta
  | .reasoningSummaryDone | .reasoningTextDone =>
    ({ s with
        needsReasoningSummaryBreak := s.needsReasoningSummaryBreak || s.hasSentReasoning }, [])
  | .outputTextDelta => s.textDelta event.delta
  | .outputItemAdded | .outputItemDone =>
    if event.item.any (·.type.isResponsesToolOutputType) then s.toolItem event else (s, [])
  | .functionArgsDelta | .customToolInputDelta => s.toolArgumentsDelta event
  | .functionArgsDone | .customToolInputDone => s.flushPendingTool event
  | .completed | .done | .incomplete =>
    let response := event.terminalResponse
    let s := s.applyResponseMetadata usageFromResponsesUsage response
    let output := s.terminalOutputChunks response
    let finish := output.1.finalize response
    (finish.1, output.2 ++ finish.2)
  | .failed | .error | .other => (s, [])

def EventType.streamError : EventType → Option String
  | .failed => some "responses stream error: response.failed"
  | .error => some "responses stream error: response.error"
  | _ => none

def responsesStreamEventToChatChunks (s : State υ) (event : Event υ) :
    Except String (State υ × List (Chunk υ)) :=
  match event.type.streamError with
  | some error => .error error
  | none => .ok (s.convert usageFromResponsesUsage event)

def finalizeResponsesToChatStream (s : State υ) : State υ × List (Chunk υ) := s.finalize none

def chatChunks (s : State υ) : List (Event υ) → Except String (State υ × List (Chunk υ))
  | [] => .ok (s, [])
  | event :: events => do
      let out ← responsesStreamEventToChatChunks usageFromResponsesUsage s event
      let rest ← chatChunks out.1 events
      return (rest.1, out.2 ++ rest.2)

def streamChunks (s : State υ) (events : List (Event υ)) (finalize : Bool) :
    Except String (List (Chunk υ)) := do
  let out ← chatChunks usageFromResponsesUsage s events
  return out.2 ++ if finalize then (finalizeResponsesToChatStream out.1).2 else []

end Moligate.Convert.Responses
