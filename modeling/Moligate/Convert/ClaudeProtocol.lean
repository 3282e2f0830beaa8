import Moligate.Convert.ClaudeStream

namespace Moligate.Convert

open Foundation

inductive Kind where
  | text | thinking | toolUse
  deriving DecidableEq

def ContentBlock.kind : ContentBlock → Kind
  | .text => .text
  | .thinking => .thinking
  | .toolUse _ _ => .toolUse

def BlockDelta.kind : BlockDelta → Kind
  | .text _ => .text
  | .thinking _ => .thinking
  | .inputJson _ => .toolUse

/-- How far a Claude message has come; while it runs, the index of the next block and the blocks
that are open. -/
inductive Phase where
  | initial
  | running (next : ℕ) (blocks : List (ℕ × Kind))
  | closing | stopped
  deriving DecidableEq

/-- What may follow: blocks are started in the order of their indices, only tool blocks are open
together, deltas go to an open block of their kind, and no block is open when the message ends. -/
def Phase.next {υ : Type} : Phase → Event υ → Option Phase
  | .initial, .messageStart _ _ _ => some (.running 0 [])
  | .running n blocks, .contentBlockStart index block =>
    if index = n ∧ ∀ b ∈ blocks, b.2 = .toolUse ∧ block.kind = .toolUse then
      some (.running (n + 1) (blocks ++ [(index, block.kind)]))
    else none
  | .running n blocks, .contentBlockDelta index delta =>
    if (index, delta.kind) ∈ blocks then some (.running n blocks) else none
  | .running n blocks, .contentBlockStop index =>
    if index ∈ blocks.map Prod.fst then some (.running n (blocks.filter (·.1 ≠ index))) else none
  | .running _ [], .messageDelta _ _ => some .closing
  | .closing, .messageStop => some .stopped
  | _, _ => none

def IsMessage {υ : Type} (events : List (Event υ)) : Prop :=
  exec Phase.next .initial events = some .stopped

instance {υ : Type} (events : List (Event υ)) : Decidable (IsMessage events) :=
  inferInstanceAs (Decidable (_ = _))

/-- The number of tools after a chunk, when the tools below `seen` have appeared before: a new tool
is the next one and has a name. -/
def toolsSeen : ℕ → ℕ → List ToolCall → Option ℕ
  | seen, _, [] => some seen
  | seen, i, call :: calls =>
    let index := call.index.getD i
    if index = seen ∧ call.name ≠ "" then toolsSeen (seen + 1) (i + 1) calls
    else if index < seen then toolsSeen seen (i + 1) calls
    else none

def namedOnce : ℕ → ℕ → List ToolCall → Bool
  | _, _, [] => true
  | seen, i, call :: calls =>
    if call.index.getD i = seen then namedOnce (seen + 1) (i + 1) calls
    else call.name = "" && namedOnce seen (i + 1) calls

/-- How far an OpenAI stream has come: whether there was a chunk, the number of tools, whether text
has followed them, a finish reason and the chunk without choices at the end. -/
structure Source where
  started : Bool := false
  seen : ℕ := 0
  toolsOver : Bool := false
  finished : Bool := false
  closed : Bool := false

def Delta.hasText (d : Delta) : Bool := d.getReasoningContent ≠ "" || d.getContentString ≠ ""

def Source.next {υ : Type} (s : Source) (call : Call υ) : Option Source :=
  if s.closed then none
  else
    match call.chunk.choices with
    | [] => some { s with started := true, closed := true }
    | [choice] =>
      if s.finished then none
      else
        (toolsSeen s.seen 0 choice.delta.toolCalls).map fun seen ↦
          { started := true
            seen := seen
            toolsOver := s.toolsOver || choice.delta.hasText &&
              if choice.delta.toolCalls = [] then 0 < s.seen else !s.started
            finished := choice.finished
            closed := false }
    | _ => none

/-- The tool calls of a stream come in one run, of which the first chunk has at most one, and each
tool is named once. -/
def Source.oneRun {υ : Type} (s : Source) (call : Call υ) : Bool :=
  call.chunk.choices.all fun choice ↦
    choice.delta.toolCalls = [] || !s.toolsOver &&
      (s.started || choice.delta.toolCalls.length ≤ 1) && namedOnce s.seen 0 choice.delta.toolCalls

end Moligate.Convert
