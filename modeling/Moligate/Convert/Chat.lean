import Mathlib.Data.Nat.Notation
import Mathlib.Data.Int.Notation

namespace Moligate.Convert

structure ToolCall where
  index : Option ℕ
  (id name arguments : String)
  deriving DecidableEq

structure Delta where
  content : Option String := none
  reasoningContent : Option String := none
  reasoning : Option String := none
  role : String := ""
  toolCalls : List ToolCall := []
  deriving DecidableEq

def Delta.getContentString (d : Delta) : String := d.content.getD ""

def Delta.getReasoningContent (d : Delta) : String := (d.reasoningContent.or d.reasoning).getD ""

structure Choice where
  delta : Delta
  finishReason : Option String
  deriving DecidableEq

def Choice.finished (c : Choice) : Bool := c.finishReason.any (· ≠ "")

structure Chunk (υ : Type) where
  id : String
  created : ℤ
  model : String
  choices : List Choice
  usage : Option υ
  deriving DecidableEq

/-- The names for one reason in the two formats; `lower` is `strings.ToLower`. -/
def openAIFinishReasonToClaudeStopReason (lower : String → String) (finishReason : String) :
    String :=
  match lower finishReason with
  | "stop" => "end_turn"
  | "stop_sequence" => "stop_sequence"
  | "length" | "max_tokens" => "max_tokens"
  | "content_filter" => "refusal"
  | "tool_calls" => "tool_use"
  | _ => finishReason

def claudeStopReasonToOpenAIFinishReason (lower : String → String) (stopReason : String) : String :=
  match lower stopReason with
  | "stop_sequence" => "stop"
  | "end_turn" => "stop"
  | "max_tokens" => "length"
  | "tool_use" => "tool_calls"
  | "refusal" => "content_filter"
  | _ => stopReason

end Moligate.Convert
