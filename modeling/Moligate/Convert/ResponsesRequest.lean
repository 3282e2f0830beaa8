import Moligate.Foundation.Strings

namespace Moligate.Convert.ResponsesRequest

open Foundation Strings List

inductive ItemType
  | message | functionCall | customToolCall | functionCallOutput | customToolCallOutput | reasoning
  deriving DecidableEq

variable {ν γ : Type}

structure Item (ν : Type) where
  type : ItemType
  role : String := ""
  content : Option ν := none
  callId : String := ""
  id : String := ""
  name : String := ""
  arguments : Option ν := none
  input : Option ν := none
  output : Option ν := none

structure ToolCallRequest (ν : Type) where
  id : String
  name : String
  arguments : String
  custom : Option (Item ν) := none

structure Message (ν γ : Type) where
  role : String
  content : Option γ := none
  toolCalls : List (ToolCallRequest ν) := []
  toolCallId : String := ""

open Message

/-- How decoded JSON becomes the content of a message or, as it is or encoded, a string. -/
structure Codec (ν γ : Type) where
  text : String → γ
  contentOf : ν → γ
  stringOf : ν → String

inductive Input (ν : Type)
  | absent | string (input : String) | array (items : List (Item ν)) | other (jsonType : String)

variable (codec : Codec ν γ)

def responsesArgumentsString (value : Option ν) : String := value.elim "" codec.stringOf

def responseToolOutputToChatContent (value : Option ν) : γ :=
  codec.text (value.elim "" codec.stringOf)

def responsesCallID (item : Item ν) : String :=
  if trimSpace item.callId ≠ "" then trimSpace item.callId else trimSpace item.id

def responsesFunctionCallItemToChatToolCall (item : Item ν) : Except String (ToolCallRequest ν) :=
  if trimSpace item.name = "" then .error "function_call item is missing name"
  else .ok ⟨responsesCallID item, trimSpace item.name,
    responsesArgumentsString codec item.arguments, none⟩

def responsesCustomToolCallItemToChatToolCall (item : Item ν) : ToolCallRequest ν :=
  ⟨responsesCallID item, trimSpace item.name, responsesArgumentsString codec item.input, some item⟩

def appendToolCallToLastAssistant (messages : List (Message ν γ)) (toolCall : ToolCallRequest ν) :
    List (Message ν γ) :=
  match messages.getLast?.filter (·.role = "assistant") with
  | none => messages ++ [{ role := "assistant", toolCalls := [toolCall] }]
  | some m => messages.dropLast ++ [{ m with toolCalls := m.toolCalls ++ [toolCall] }]

def Item.chatRole (item : Item ν) : String :=
  if trimSpace item.role = "" then "user" else trimSpace item.role

def responsesInputContentToChatContent (content : Option ν) : γ :=
  content.elim (codec.text "") codec.contentOf

def responsesInputItemToChatMessages (messages : List (Message ν γ)) (item : Item ν) :
    Except String (List (Message ν γ)) :=
  match item.type with
  | .functionCall =>
    (responsesFunctionCallItemToChatToolCall codec item).map
      (appendToolCallToLastAssistant messages)
  | .customToolCall =>
    .ok (appendToolCallToLastAssistant messages
      (responsesCustomToolCallItemToChatToolCall codec item))
  | .functionCallOutput =>
    .ok (messages ++ [⟨"tool", some (responseToolOutputToChatContent codec item.output), [],
      trimSpace item.callId⟩])
  | _ =>
    .ok (messages ++ [⟨item.chatRole, some (responsesInputContentToChatContent codec item.content),
      [], ""⟩])

def responsesRequestMessagesToChat (instructions : String) (input : Input ν) :
    Except String (List (Message ν γ)) :=
  let messages : List (Message ν γ) :=
    if trimSpace instructions = "" then [] else [⟨"system", some (codec.text instructions), [], ""⟩]
  match input with
  | .absent => .ok messages
  | .string input => .ok (messages ++ [⟨"user", some (codec.text input), [], ""⟩])
  | .array items => items.foldlM (responsesInputItemToChatMessages codec) messages
  | .other jsonType => .error ("unsupported responses input type \"" ++ jsonType ++ "\"")

/-! ### What a conversation consists of -/

inductive Event (γ : Type)
  | say (role : String) (content : γ)
  | call (id name arguments : String)
  | output (id : String) (content : γ)
  deriving DecidableEq

def Item.event (item : Item ν) : Option (Event γ) :=
  match item.type with
  | .message =>
    some (.say item.chatRole (responsesInputContentToChatContent codec item.content))
  | .functionCall =>
    some (.call item.callId item.name (responsesArgumentsString codec item.arguments))
  | .customToolCall =>
    some (.call item.callId item.name (responsesArgumentsString codec item.input))
  | .functionCallOutput | .customToolCallOutput =>
    some (.output item.callId (responseToolOutputToChatContent codec item.output))
  | .reasoning => none

def Message.events (m : Message ν γ) : List (Event γ) :=
  (m.content.toList.map fun c ↦
      if m.role = "tool" then .output m.toolCallId c else .say m.role c) ++
    m.toolCalls.map fun t ↦ .call t.id t.name t.arguments

/-- Only an assistant calls tools, and no message is empty. -/
def Proper (messages : List (Message ν γ)) : Prop :=
  ∀ m ∈ messages, m.events ≠ [] ∧ (m.toolCalls ≠ [] → m.role = "assistant")

/-- Ids and names have no blanks around them, a call has an id and that of a function a name, nobody
but a tool speaks as one, and the item is neither reasoning nor the output of a custom tool. -/
structure Item.Plain (item : Item ν) : Prop where
  type : item.type ≠ .customToolCallOutput ∧ item.type ≠ .reasoning
  role : trimSpace item.role ≠ "tool"
  callId : trimSpace item.callId = item.callId
  name : trimSpace item.name = item.name
  call : item.type = .functionCall ∨ item.type = .customToolCall → item.callId ≠ ""
  named : item.type = .functionCall → item.name ≠ ""

variable {codec} {messages : List (Message ν γ)} {item : Item ν} {toolCall : ToolCallRequest ν}

theorem events_appendToolCall {id name arguments : String} {custom : Option (Item ν)} :
    (appendToolCallToLastAssistant messages ⟨id, name, arguments, custom⟩).flatMap events =
      messages.flatMap events ++ [.call id name arguments] := by
  rw [appendToolCallToLastAssistant]
  split
  · simp [events]
  next m hm =>
    obtain ⟨hlast, -⟩ := Option.filter_eq_some_iff.1 hm
    obtain ⟨init, rfl⟩ := getLast?_eq_some_iff.1 hlast
    simp [events]

theorem Proper.append {m : Message ν γ} (h : Proper messages) (hevents : m.events ≠ [])
    (hcalls : m.toolCalls ≠ [] → m.role = "assistant") : Proper (messages ++ [m]) := by
  intro m' hm'
  rcases mem_append.1 hm' with hm' | hm'
  · exact h m' hm'
  · rw [mem_singleton.1 hm']
    exact ⟨hevents, hcalls⟩

theorem Proper.appendToolCall (h : Proper messages) :
    Proper (appendToolCallToLastAssistant messages toolCall) := by
  rw [appendToolCallToLastAssistant]
  split
  · exact h.append (by simp [events]) fun _ ↦ rfl
  next m hm =>
    obtain ⟨hlast, hrole⟩ := Option.filter_eq_some_iff.1 hm
    obtain ⟨init, rfl⟩ := getLast?_eq_some_iff.1 hlast
    rw [dropLast_concat]
    have hinit : Proper init := fun m hm ↦ h m (mem_append_left _ hm)
    exact hinit.append (by simp [events]) fun _ ↦ of_decide_eq_true hrole

theorem Item.Plain.converts (hplain : item.Plain) (h : Proper messages) :
    ∃ messages', responsesInputItemToChatMessages codec messages item = .ok messages' ∧
      messages'.flatMap events =
        messages.flatMap events ++ (item.event codec).toList ∧ Proper messages' := by
  obtain ⟨⟨houtput, hreasoning⟩, hrole, hid, hname, hcall, hnamed⟩ := hplain
  rw [responsesInputItemToChatMessages, event]
  cases htype : item.type with
  | customToolCallOutput => exact absurd htype houtput
  | reasoning => exact absurd htype hreasoning
  | functionCall =>
    simp only [responsesFunctionCallItemToChatToolCall, responsesCallID, hid, hname,
      if_neg (hnamed htype), if_pos (hcall (.inl htype))]
    exact ⟨_, rfl, events_appendToolCall, h.appendToolCall⟩
  | customToolCall =>
    simp only [responsesCustomToolCallItemToChatToolCall, responsesCallID, hid, hname,
      if_pos (hcall (.inr htype))]
    exact ⟨_, rfl, events_appendToolCall, h.appendToolCall⟩
  | functionCallOutput =>
    exact ⟨_, rfl, by simp [events, hid], h.append (by simp [events]) nofun⟩
  | message =>
    have hne : item.chatRole ≠ "tool" := by
      rw [chatRole]
      split
      · decide
      · exact hrole
    refine ⟨_, rfl, ?_, h.append (by simp [events]) (absurd rfl)⟩
    simp [events, hne]

def verbatim : Codec String String := ⟨id, id, id⟩

def customCall : Item String :=
  { type := .customToolCall, callId := "c", name := "f", input := "x" }

def customOutput : Item String := { type := .customToolCallOutput, callId := "c", output := "42" }

end Moligate.Convert.ResponsesRequest
