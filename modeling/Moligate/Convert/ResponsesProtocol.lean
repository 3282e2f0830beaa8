import Moligate.Convert.ResponsesStream

namespace Moligate.Convert.Responses

open Foundation Strings Option

structure Call where
  outputIndex : ℤ
  (itemID callID name : String)
  deriving DecidableEq

def Identifies (s : String) : Prop := s ≠ "" ∧ trimSpace s = s

instance (s : String) : Decidable (Identifies s) := inferInstanceAs (Decidable (_ ∧ _))

structure Calls where
  list : List Call
  itemID : ∀ c ∈ list, Identifies c.itemID
  callID : ∀ c ∈ list, Identifies c.callID
  name : ∀ c ∈ list, Identifies c.name
  own : ∀ c ∈ list, ∀ c' ∈ list,
    c.outputIndex = c'.outputIndex ∨ c.itemID = c'.itemID ∨ c.callID = c'.callID → c = c'

/-- What a stream of events has delivered: its text, the calls in the order in which their items
were added, and the arguments of each call. -/
structure Source where
  started : Bool := false
  text : String := ""
  added : List Call := []
  arguments : Call → String := fun _ ↦ ""
  closed : Bool := false

variable {υ : Type} (calls : Calls) (s : Source)

def Call.owns (c : Call) (event : Event υ) : Bool :=
  event.outputIndex = some c.outputIndex && responseStreamEventItemID event = c.itemID

def Calls.of (event : Event υ) : Option Call := calls.list.find? (·.owns event)

def Call.describedBy (c : Call) (item : Output) : Bool :=
  trimSpace item.callId = c.callID && trimSpace item.name = c.name

/-- An item has all arguments of the call, or has no arguments, as those of custom tools. -/
def Source.repeats (c : Call) (item : Output) : Bool :=
  item.arguments = "" || item.arguments = s.arguments c

def Source.add (c : Call) : Source :=
  { s with added := if c ∈ s.added then s.added else s.added ++ [c] }

def Source.extend (c : Call) (delta : String) : Source :=
  { s with arguments := Function.update s.arguments c (s.arguments c ++ delta) }

def Response.text (response : Response υ) : String :=
  joined (fun out ↦ if out.type = .message then out.outputText else "") response.output

/-- The response at the end has what was streamed, and every call was added. -/
def Source.ends (response : Option (Response υ)) : Bool :=
  calls.list.all (· ∈ s.added) &&
    response.all fun response ↦
      (response.text = "" || response.text = s.text) &&
        response.output.all fun out ↦
          !out.type.isResponsesToolOutputType || calls.list.any fun c ↦
            trimSpace out.id = c.itemID && c.describedBy out && s.repeats c out

def Source.nextItem (event : Event υ) (item : Output) : Option Source :=
  (calls.of event).bind fun c ↦
    if c.describedBy item then
      if event.type = .outputItemAdded then
        if item.arguments = "" then some (s.add c) else none
      else if c ∈ s.added ∧ s.repeats c item then some s
      else none
    else none

/-- The well-formed streams: `response.created` comes first, a call is added before its arguments
are done, and what is repeated is what was streamed. -/
def Source.next (event : Event υ) : Option Source :=
  if s.closed || decide (event.type = .created) == s.started then none
  else
    match event.type with
    | .created => some { s with started := true }
    | .outputTextDelta => some { s with text := s.text ++ event.delta }
    | .outputItemAdded | .outputItemDone =>
      match event.item with
      | some item =>
        if item.type.isResponsesToolOutputType then s.nextItem calls event item else some s
      | none => some s
    | .functionArgsDelta | .customToolInputDelta =>
      (calls.of event).bind fun c ↦
        if trimSpace event.itemID = c.itemID then some (s.extend c event.delta) else none
    | .functionArgsDone | .customToolInputDone =>
      (calls.of event).bind fun c ↦ if c ∈ s.added then some s else none
    | .completed | .done | .incomplete =>
      if s.ends calls event.response then some { s with closed := true } else none
    | .failed | .error => none
    | .reasoningSummaryDelta | .reasoningSummaryDone | .reasoningTextDelta | .reasoningTextDone
    | .other => some s

variable {calls} {s} {s' : Source} {event : Event υ} {c : Call} {item : Output}

theorem Call.owns_iff : c.owns event = true ↔
    event.outputIndex = some c.outputIndex ∧ responseStreamEventItemID event = c.itemID := by
  rw [Call.owns, Bool.and_eq_true, decide_eq_true_eq, decide_eq_true_eq]

theorem of_eq_some (h : calls.of event = some c) : c ∈ calls.list ∧ c.owns event = true :=
  ⟨List.mem_of_find?_eq_some h, List.find?_some (p := fun c ↦ Call.owns c event) h⟩

def EventType.isItem (type : EventType) : Bool := type = .outputItemAdded || type = .outputItemDone

def EventType.isArgsDelta (type : EventType) : Bool :=
  type = .functionArgsDelta || type = .customToolInputDelta

def EventType.isArgsDone (type : EventType) : Bool :=
  type = .functionArgsDone || type = .customToolInputDone

def EventType.isReasoningDelta (type : EventType) : Bool :=
  type = .reasoningSummaryDelta || type = .reasoningTextDelta

def EventType.isReasoningDone (type : EventType) : Bool :=
  type = .reasoningSummaryDone || type = .reasoningTextDone

def EventType.isLast (type : EventType) : Bool :=
  type = .completed || type = .done || type = .incomplete

inductive Next (calls : Calls) (s : Source) (event : Event υ) : Source → Prop
  | created (htype : event.type = .created) : Next calls s event { s with started := true }
  | text (htype : event.type = .outputTextDelta) :
      Next calls s event { s with text := s.text ++ event.delta }
  | ignored (htype : event.type.isItem = true)
      (hitem : event.item.any (·.type.isResponsesToolOutputType) = false) : Next calls s event s
  | repeated (c : Call) (item : Output) (htype : event.type.isItem = true)
      (hitem : event.item = some item) (htool : item.type.isResponsesToolOutputType = true)
      (hof : calls.of event = some c) (hdescribed : c.describedBy item = true)
      (hadded : c ∈ s.added) (hrepeats : s.repeats c item = true) : Next calls s event s
  | added (c : Call) (item : Output) (htype : event.type.isItem = true)
      (hitem : event.item = some item) (htool : item.type.isResponsesToolOutputType = true)
      (hof : calls.of event = some c) (hdescribed : c.describedBy item = true)
      (hnew : c ∉ s.added) (hargs : item.arguments = "") : Next calls s event (s.add c)
  | arguments (c : Call) (htype : event.type.isArgsDelta = true) (hof : calls.of event = some c)
      (hid : trimSpace event.itemID = c.itemID) : Next calls s event (s.extend c event.delta)
  | argumentsDone (c : Call) (htype : event.type.isArgsDone = true) (hof : calls.of event = some c)
      (hadded : c ∈ s.added) : Next calls s event s
  | reasoning (htype : event.type.isReasoningDelta = true) : Next calls s event s
  | reasoningDone (htype : event.type.isReasoningDone = true) : Next calls s event s
  | other (htype : event.type = .other) : Next calls s event s
  | last (htype : event.type.isLast = true) (hends : s.ends calls event.response = true) :
      Next calls s event { s with closed := true }

theorem next_of_nextItem (htype : event.type.isItem = true) (hitem : event.item = some item)
    (htool : item.type.isResponsesToolOutputType = true)
    (hnext : s.nextItem calls event item = some s') : Next calls s event s' := by
  obtain ⟨c, hof, hnext⟩ := bind_eq_some_iff.1 hnext
  split at hnext
  next hdescribed =>
    split at hnext
    · split at hnext
      next hargs =>
        cases hnext
        by_cases hadded : c ∈ s.added
        · have hrepeats : s.repeats c item = true := by simp [Source.repeats, hargs]
          rw [Source.add, if_pos hadded]
          exact .repeated c item htype hitem htool hof hdescribed hadded hrepeats
        · exact .added c item htype hitem htool hof hdescribed hadded hargs
      · cases hnext
    · split at hnext
      next hadded =>
        cases hnext
        exact .repeated c item htype hitem htool hof hdescribed hadded.1 hadded.2
      · cases hnext
  · cases hnext

theorem next_of_item (htype : event.type.isItem = true)
    (hnext : (match event.item with
      | some item =>
        if item.type.isResponsesToolOutputType then s.nextItem calls event item else some s
      | none => some s) = some s') : Next calls s event s' := by
  split at hnext
  next item hitem =>
    split at hnext
    next htool => exact next_of_nextItem htype hitem htool hnext
    next htool =>
      cases hnext
      exact .ignored htype (by rw [hitem, any_some]; exact Bool.eq_false_iff.2 htool)
  next hitem =>
    cases hnext
    exact .ignored htype (by rw [hitem]; rfl)

theorem next_cases (hnext : s.next calls event = some s') :
    s.closed = false ∧ (event.type = .created ↔ s.started = false) ∧ Next calls s event s' := by
  rw [Source.next] at hnext
  split at hnext
  · cases hnext
  rename_i hguard
  rw [Bool.or_eq_true, not_or, Bool.not_eq_true, beq_iff_eq] at hguard
  refine ⟨hguard.1, ?_, ?_⟩
  · by_cases hcreated : event.type = .created <;> simpa [hcreated] using hguard.2
  · cases htype : event.type <;> simp only [htype] at hnext
    case created => exact some.inj hnext ▸ .created htype
    case outputTextDelta => exact some.inj hnext ▸ .text htype
    case outputItemAdded | outputItemDone => exact next_of_item (by rw [htype]; rfl) hnext
    case functionArgsDelta | customToolInputDelta =>
      obtain ⟨c, hof, hnext⟩ := bind_eq_some_iff.1 hnext
      split at hnext
      next hid => exact some.inj hnext ▸ .arguments c (by rw [htype]; rfl) hof hid
      · cases hnext
    case functionArgsDone | customToolInputDone =>
      obtain ⟨c, hof, hnext⟩ := bind_eq_some_iff.1 hnext
      split at hnext
      next hadded => exact some.inj hnext ▸ .argumentsDone c (by rw [htype]; rfl) hof hadded
      · cases hnext
    case completed | done | incomplete =>
      split at hnext
      next hends => exact some.inj hnext ▸ .last (by rw [htype]; rfl) hends
      · cases hnext
    case failed | error => cases hnext
    case reasoningSummaryDelta | reasoningTextDelta =>
      exact some.inj hnext ▸ .reasoning (by rw [htype]; rfl)
    case reasoningSummaryDone | reasoningTextDone =>
      exact some.inj hnext ▸ .reasoningDone (by rw [htype]; rfl)
    case other => exact some.inj hnext ▸ .other htype

def Event.text (event : Event υ) : String :=
  if event.type = .outputTextDelta then event.delta else ""

def Event.arguments (c : Call) (event : Event υ) : String :=
  if event.type.isArgsDelta && c.owns event then event.delta else ""

def Event.incomplete (event : Event υ) : Bool :=
  match event.response.bind Response.status with
  | some status => trimSpace status = "incomplete"
  | none => event.type = .incomplete

def choices (chunks : List (Chunk υ)) : List Choice := chunks.flatMap Chunk.choices

def fragments (choices : List Choice) : List ToolCall := choices.flatMap (·.delta.toolCalls)

def fragmentsOf (index : ℕ) (tools : List ToolCall) : List ToolCall :=
  tools.filter (·.index = some index)

def finishReasons (choices : List Choice) : List String := choices.filterMap Choice.finishReason

/-- The chunks are those of one message: the role comes first and once, the text is complete, the
tools are the calls, each under an index of its own, with its id in each fragment, its name once and
its arguments once, and there is one finish reason. -/
structure Assembles (calls : Calls) (choices : List Choice) (text : String)
    (arguments : Call → String) (finishReason : String) : Prop where
  role : ∃ first rest, choices = first :: rest ∧ first.delta.role = "assistant" ∧
    ∀ choice ∈ rest, choice.delta.role = ""
  content : joined (·.delta.getContentString) choices = text
  tools : ∃ index : Call → ℕ,
    (∀ c ∈ calls.list, ∀ c' ∈ calls.list, index c = index c' → c = c') ∧
      (∀ tool ∈ fragments choices, ∃ c ∈ calls.list, tool.index = some (index c)) ∧
      ∀ c ∈ calls.list,
        (∀ tool ∈ fragmentsOf (index c) (fragments choices), tool.id = c.callID) ∧
          ((fragmentsOf (index c) (fragments choices)).map ToolCall.name).filter (· ≠ "") =
            [c.name] ∧
          joined ToolCall.arguments (fragmentsOf (index c) (fragments choices)) = arguments c
  finish : finishReasons choices = [finishReason]

end Moligate.Convert.Responses
