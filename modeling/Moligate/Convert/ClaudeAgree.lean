import Moligate.Convert.ClaudeResponse
import Moligate.Foundation.Call

namespace Moligate.Convert.ClaudeMessages

open Foundation Strings List Delta Loop

variable {ι υ : Type}

section

inductive Block (ι : Type)
  | text (text : String)
  | thinking (thinking : String) (signature : Option String)
  | toolUse (id name : String) (input : Option ι)
  deriving DecidableEq

structure Message (ι : Type) where
  (id model : String)
  blocks : List (Block ι)
  stopReason : String

variable (marshal : Option ι → String)

def Block.media : Block ι → MediaMessage ι
  | .text s => { type := .text, text := some s }
  | .thinking s _ => { type := .thinking, thinking := some s }
  | .toolUse id name input => { type := .toolUse, id := id, name := name, input := input }

def Block.text? : Block ι → Option String
  | .text s => some s
  | _ => none

def Block.thinking? : Block ι → Option String
  | .thinking s _ => some s
  | _ => none

def Block.tool? : Block ι → Option ToolCall
  | .toolUse id name input => some ⟨none, id, name, marshal input⟩
  | _ => none

def Block.payload : Block ι → String
  | .text s => s
  | .thinking s _ => s
  | .toolUse _ _ input => marshal input

def Message.texts (m : Message ι) : List String := m.blocks.filterMap Block.text?

def Message.thinkings (m : Message ι) : List String := m.blocks.filterMap Block.thinking?

def Message.tools (m : Message ι) : List ToolCall := m.blocks.filterMap (Block.tool? marshal)

def Message.response (m : Message ι) : ClaudeResponse ι :=
  { type := .message, id := m.id, model := m.model, content := m.blocks.map Block.media
    stopReason := m.stopReason }

def Block.opening : Block ι → MediaMessage ι
  | .text _ => { type := .text, text := some "" }
  | .thinking _ _ => { type := .thinking, thinking := some "" }
  | .toolUse id name _ => { type := .toolUse, id := id, name := name }

def Block.fragment (b : Block ι) (fragment : String) : MediaMessage ι :=
  match b with
  | .text _ => { type := .textDelta, text := some fragment }
  | .thinking _ _ => { type := .thinkingDelta, thinking := some fragment }
  | .toolUse _ _ _ => { type := .inputJsonDelta, partialJson := some fragment }

def Block.signature : Block ι → List (MediaMessage ι)
  | .thinking _ (some _) => [{ type := .signatureDelta }]
  | _ => []

def Block.deltas (b : Block ι) (fragments : List String) : List (MediaMessage ι) :=
  fragments.map b.fragment ++ b.signature

def deltaEvent (index : ℕ) (delta : MediaMessage ι) : ClaudeResponse ι :=
  { type := .contentBlockDelta, index := some index, delta := some delta }

def blockEvents (index : ℕ) (b : Block ι) (fragments : List String) : List (ClaudeResponse ι) :=
  { type := .contentBlockStart, index := some index, contentBlock := some b.opening } ::
    (b.deltas fragments).map (deltaEvent index) ++
    [{ type := .contentBlockStop, index := some index }]

def blocksEvents : ℕ → List (Block ι × List String) → List (ClaudeResponse ι)
  | _, [] => []
  | index, (b, fragments) :: blocks => blockEvents index b fragments ++ blocksEvents (index + 1) blocks

def messageEvents (id model stopReason : String) (blocks : List (Block ι × List String)) :
    List (ClaudeResponse ι) :=
  { type := .messageStart, message := some { id := id, model := model } } ::
    blocksEvents 0 blocks ++
    [{ type := .messageDelta, delta := some { stopReason := some stopReason } },
      { type := .messageStop }]

/-- The fragments of each block add up to it. -/
def Fragmented (blocks : List (Block ι × List String)) : Prop :=
  ∀ p ∈ blocks, joined id p.2 = p.1.payload marshal

end

def addFragment (tools : List ToolCall) (t : ToolCall) : List ToolCall :=
  if tools.any (·.index = t.index) then
    tools.map fun tool ↦
      if tool.index = t.index then
        { tool with name := tool.name ++ t.name, arguments := tool.arguments ++ t.arguments }
      else tool
  else tools ++ [t]

def chunkDeltas (chunks : List (Chunk υ)) : List Delta :=
  (chunks.flatMap Chunk.choices).map Choice.delta

def assembledContent (chunks : List (Chunk υ)) : String :=
  joined getContentString (chunkDeltas chunks)

def assembledReasoning (chunks : List (Chunk υ)) : String :=
  joined getReasoningContent (chunkDeltas chunks)

def assembledTools (chunks : List (Chunk υ)) : List ToolCall :=
  ((chunkDeltas chunks).flatMap toolCalls).foldl addFragment []

def ToolCall.unindexed (t : ToolCall) : ToolCall := { t with index := none }

open ToolCall

section

variable {marshal : Option ι → String} {strings : List String}

/-- All strings but the last one are empty. -/
def LastOnly (strings : List String) : Prop := ∀ s ∈ strings.dropLast, s = ""

instance (strings : List String) : Decidable (LastOnly strings) :=
  inferInstanceAs (Decidable (∀ s ∈ strings.dropLast, s = ""))

theorem joined_of_lastOnly (h : LastOnly strings) :
    joined id strings = strings.getLast?.getD "" := by
  induction strings with
  | nil => rfl
  | cons s strings ih =>
    cases strings with
    | nil => simp [joined]
    | cons t strings =>
      have hs : s = "" := h s mem_cons_self
      have ht : LastOnly (t :: strings) := fun u hu ↦ h u (mem_cons_of_mem s hu)
      rw [joined, ih ht, hs, getLast?_cons_cons]
      exact String.empty_append

theorem foldl_step (blocks : List (Block ι)) (l : Loop) :
    (blocks.map Block.media).foldl (step marshal) l =
      { responseText := (blocks.filterMap Block.text?).getLast?.getD l.responseText
        thinkingContent := (blocks.filterMap Block.thinking?).getLast?.getD l.thinkingContent
        tools := l.tools ++ blocks.filterMap (Block.tool? marshal) } := by
  induction blocks generalizing l with
  | nil => simp
  | cons b blocks ih =>
    rw [map_cons, foldl_cons, ih]
    cases b <;> simp [step, Block.media, MediaMessage.getText, Block.text?, Block.thinking?,
      Block.tool?, getLast?_cons, filterMap_cons]

variable {lower : String → String} {now : ℤ} {m : Message ι}

theorem head_thinking (blocks : List (Block ι)) (h : LastOnly (blocks.filterMap Block.thinking?))
    (hlast : (blocks.filterMap Block.thinking?).getLast?.getD "" = "") :
    ((blocks.map Block.media).head?.bind MediaMessage.thinking).getD "" = "" := by
  cases blocks with
  | nil => rfl
  | cons b blocks =>
    cases b with
    | text | toolUse => rfl
    | thinking s signature =>
      have hempty := joined_eq_empty ((joined_of_lastOnly h).trans hlast)
      exact hempty s mem_cons_self

theorem whole_choice (h : LastOnly m.thinkings) : ∃ choice,
    (responseClaude2OpenAI lower marshal now m.response).choices = [choice] ∧
      choice.content = m.texts.getLast?.getD "" ∧
      choice.reasoningContent.getD "" = m.thinkings.getLast?.getD "" ∧
      choice.toolCalls = m.tools marshal := by
  have hthinking (s : String) :
      (m.response.content.foldl (step marshal) { responseText := s }).thinkingContent =
        m.thinkings.getLast?.getD "" := congrArg thinkingContent (foldl_step m.blocks _)
  have hchosen (t r : String) (hr : t = "" → r = "") :
      (if t ≠ "" then some t else if r ≠ "" then some r else none).getD "" = t := by
    by_cases ht : t = ""
    · simp [ht, hr ht]
    · simp [ht]
  refine ⟨_, rfl, ?_, (hchosen _ _ fun hlast ↦ ?_).trans (hthinking _), ?_⟩
  · simp only [Message.response, foldl_step]
    cases hblocks : m.blocks with
    | nil => simp [Message.texts, hblocks]
    | cons b blocks =>
      cases b with
      | text s => simp [Message.texts, hblocks, Block.text?, getLast?_cons]
      | thinking | toolUse => simp [Message.texts, hblocks]; rfl
  · exact head_thinking m.blocks h ((hthinking _).symm.trans hlast)
  · simp [Message.response, foldl_step, Message.tools]

structure Carries (chunks : List (Chunk υ)) (content reasoning : String) (tools : List ToolCall) :
    Prop where
  content : assembledContent chunks = content
  reasoning : assembledReasoning chunks = reasoning
  tools : (chunkDeltas chunks).flatMap toolCalls = tools

def Yields (υ : Type) (lower : String → String) (events : List (ClaudeResponse ι))
    (content reasoning : String) (tools : List ToolCall) : Prop :=
  ∃ chunks : List (Chunk υ),
    streamChunks lower events = .ok chunks ∧ Carries chunks content reasoning tools

variable {events events' : List (ClaudeResponse ι)} {chunks chunks' : List (Chunk υ)}
  {content content' reasoning reasoning' : String} {tools tools' : List ToolCall}

theorem streamChunks_append (h : streamChunks lower events = .ok chunks)
    (h' : streamChunks lower events' = .ok chunks') :
    streamChunks lower (events ++ events') = .ok (chunks ++ chunks') := by
  induction events generalizing chunks with
  | nil =>
    cases h
    exact h'
  | cons event events ih =>
    rw [streamChunks] at h
    obtain ⟨chunk, hevent, h⟩ := except_bind_eq_ok.1 h
    obtain ⟨rest, hrest, h⟩ := except_bind_eq_ok.1 h
    cases h
    rw [cons_append, streamChunks, hevent, ih hrest]
    simp only [append_assoc]
    rfl

theorem chunkDeltas_append :
    chunkDeltas (chunks ++ chunks') = chunkDeltas chunks ++ chunkDeltas chunks' := by
  simp [chunkDeltas]

theorem Yields.append (h : Yields υ lower events content reasoning tools)
    (h' : Yields υ lower events' content' reasoning' tools') :
    Yields υ lower (events ++ events') (content ++ content') (reasoning ++ reasoning')
      (tools ++ tools') := by
  obtain ⟨chunks, hchunks, hcarries⟩ := h
  obtain ⟨chunks', hchunks', hcarries'⟩ := h'
  refine ⟨chunks ++ chunks', streamChunks_append hchunks hchunks', ?_, ?_, ?_⟩
  · rw [assembledContent, chunkDeltas_append, joined_append]
    exact congrArg₂ _ hcarries.content hcarries'.content
  · rw [assembledReasoning, chunkDeltas_append, joined_append]
    exact congrArg₂ _ hcarries.reasoning hcarries'.reasoning
  · rw [chunkDeltas_append, flatMap_append]
    exact congrArg₂ _ hcarries.tools hcarries'.tools

theorem yields_nil : Yields υ lower ([] : List (ClaudeResponse ι)) "" "" [] :=
  ⟨[], rfl, rfl, rfl, rfl⟩

variable {event : ClaudeResponse ι} {delta : Delta}

theorem yields_silent
    (h : streamResponseClaude2OpenAI lower event = .ok (none : Option (Chunk υ))) :
    Yields υ lower [event] "" "" [] := by
  refine ⟨[], ?_, rfl, rfl, rfl⟩
  rw [streamChunks, h]
  rfl

def HasDelta (υ : Type) (lower : String → String) (event : ClaudeResponse ι) (delta : Delta) : Prop :=
  ∃ (chunk : Chunk υ) (finishReason : Option String),
    streamResponseClaude2OpenAI lower event = .ok (some chunk) ∧
      chunk.choices = [⟨delta, finishReason⟩]

theorem HasDelta.yields (h : HasDelta υ lower event delta) :
    Yields υ lower [event] delta.getContentString delta.getReasoningContent delta.toolCalls := by
  obtain ⟨chunk, finishReason, hchunk, hchoices⟩ := h
  have hdeltas : chunkDeltas [chunk] = [delta] := by simp [chunkDeltas, hchoices]
  refine ⟨[chunk], ?_, ?_, ?_, ?_⟩
  · rw [streamChunks, hchunk]
    rfl
  · simp [assembledContent, hdeltas, joined]
  · simp [assembledReasoning, hdeltas, joined]
  · simp [hdeltas]

theorem yields_map {event : String → ClaudeResponse ι} {delta : String → Delta}
    (h : ∀ fragment, HasDelta υ lower (event fragment) (delta fragment)) (fragments : List String) :
    Yields υ lower (fragments.map event)
      (joined (fun fragment ↦ (delta fragment).getContentString) fragments)
      (joined (fun fragment ↦ (delta fragment).getReasoningContent) fragments)
      (fragments.flatMap fun fragment ↦ (delta fragment).toolCalls) := by
  induction fragments with
  | nil => exact yields_nil
  | cons fragment fragments ih => exact (h fragment).yields.append ih

def Block.toolFragments (index : ℕ) (fragments : List String) : Block ι → List ToolCall
  | .toolUse id name _ =>
    ⟨some index, id, name, ""⟩ :: fragments.map fun fragment ↦ ⟨some index, "", "", fragment⟩
  | _ => []

def Block.signatureText : Block ι → String
  | .thinking _ (some _) => "\n"
  | _ => ""

def Block.streamedThinking (b : Block ι) : String := b.thinking?.getD "" ++ b.signatureText

def Block.chunkDelta (index : ℕ) (fragment : String) : Block ι → Delta
  | .text _ => { content := some fragment }
  | .thinking _ _ => { reasoningContent := some fragment }
  | .toolUse _ _ _ => { toolCalls := [⟨some index, "", "", fragment⟩] }

theorem hasDelta_fragment (b : Block ι) (index : ℕ) (fragment : String) :
    HasDelta υ lower (deltaEvent index (b.fragment fragment)) (b.chunkDelta index fragment) := by
  cases b <;> exact ⟨_, _, rfl, rfl⟩

theorem yields_signature (b : Block ι) (index : ℕ) :
    Yields υ lower (b.signature.map (deltaEvent index)) "" b.signatureText [] := by
  cases b with
  | text | toolUse => exact yields_nil
  | thinking s signature =>
    cases signature with
    | none => exact yields_nil
    | some signature =>
      have h : HasDelta υ lower (deltaEvent index ({ type := .signatureDelta } : MediaMessage ι))
        { reasoningContent := some "\n" } := ⟨_, _, rfl, rfl⟩
      exact h.yields

def Block.openingDelta (index : ℕ) : Block ι → Delta
  | .text _ => { content := some "" }
  | .thinking _ _ => {}
  | .toolUse id name _ => { toolCalls := [⟨some index, id, name, ""⟩] }

theorem yields_parts (b : Block ι) (index : ℕ) (fragments : List String) :
    Yields υ lower (blockEvents index b fragments)
      ((b.openingDelta index).getContentString ++
        joined (fun fragment ↦ (b.chunkDelta index fragment).getContentString) fragments)
      (joined (fun fragment ↦ (b.chunkDelta index fragment).getReasoningContent) fragments ++
        b.signatureText)
      ((b.openingDelta index).toolCalls ++
        fragments.flatMap fun fragment ↦ (b.chunkDelta index fragment).toolCalls) := by
  have hopening : HasDelta υ lower
      { type := .contentBlockStart, index := some index, contentBlock := some b.opening }
      (b.openingDelta index) := by
    cases b <;> exact ⟨_, _, rfl, rfl⟩
  have hreasoning : (b.openingDelta index).getReasoningContent = "" := by cases b <;> rfl
  have hstop : Yields υ lower
      [({ type := .contentBlockStop, index := some index } : ClaudeResponse ι)] "" "" [] :=
    yields_silent rfl
  have hparts := (hopening.yields.append ((yields_map (hasDelta_fragment b index)
    fragments).append (yields_signature b index))).append hstop
  simpa [blockEvents, Block.deltas, Function.comp_def, hreasoning] using hparts

theorem yields_block {b : Block ι} {index : ℕ} {fragments : List String}
    (h : joined id fragments = b.payload marshal) :
    Yields υ lower (blockEvents index b fragments) (b.text?.getD "") b.streamedThinking
      (b.toolFragments index fragments) := by
  have hempty : joined (fun _ : String ↦ "") fragments = "" := joined_of_empty fun _ _ ↦ rfl
  have hid : joined (fun fragment ↦ fragment) fragments = b.payload marshal := h
  have hcontent : (b.openingDelta index).getContentString ++
      joined (fun fragment ↦ (b.chunkDelta index fragment).getContentString) fragments =
        b.text?.getD "" := by
    cases b <;> simp [Block.openingDelta, Block.chunkDelta, getContentString, hempty, hid,
      Block.payload, Block.text?]
  have hreasoning : joined (fun fragment ↦ (b.chunkDelta index fragment).getReasoningContent)
      fragments = b.thinking?.getD "" := by
    cases b <;> simp [Block.chunkDelta, getReasoningContent, hempty, hid, Block.payload,
      Block.thinking?]
  have htools : ((b.openingDelta index).toolCalls ++
      fragments.flatMap fun fragment ↦ (b.chunkDelta index fragment).toolCalls) =
        b.toolFragments index fragments := by
    cases b with
    | toolUse id name input =>
      simp [Block.openingDelta, Block.chunkDelta, Block.toolFragments, map_eq_flatMap]
    | _ => exact flatMap_eq_nil_iff.2 fun _ _ ↦ rfl
  have hparts : Yields υ lower (blockEvents index b fragments) _ _ _ := yields_parts b index fragments
  rwa [hcontent, hreasoning, htools] at hparts

def blocksTools : ℕ → List (Block ι × List String) → List ToolCall
  | _, [] => []
  | index, (b, fragments) :: blocks => b.toolFragments index fragments ++ blocksTools (index + 1) blocks

variable {blocks : List (Block ι × List String)}

theorem yields_blocks (h : Fragmented marshal blocks) (index : ℕ) :
    Yields υ lower (blocksEvents index blocks)
      (joined (fun p ↦ p.1.text?.getD "") blocks) (joined (fun p ↦ p.1.streamedThinking) blocks)
      (blocksTools index blocks) := by
  induction blocks generalizing index with
  | nil => exact yields_nil
  | cons p blocks ih =>
    obtain ⟨hp, hblocks⟩ := forall_mem_cons.1 h
    exact (yields_block hp).append (ih hblocks (index + 1))

theorem yields_message {id model stopReason : String} (h : Fragmented marshal blocks) :
    Yields υ lower (messageEvents id model stopReason blocks)
      (joined (fun p ↦ p.1.text?.getD "") blocks) (joined (fun p ↦ p.1.streamedThinking) blocks)
      (blocksTools 0 blocks) := by
  have hstart : HasDelta υ lower
      ({ type := .messageStart, message := some { id := id, model := model } } : ClaudeResponse ι)
      { content := some "", role := "assistant" } := ⟨_, _, rfl, rfl⟩
  have hdelta : HasDelta υ lower
      ({ type := .messageDelta, delta := some { stopReason := some stopReason } } :
        ClaudeResponse ι) {} := ⟨_, _, rfl, rfl⟩
  have hstop : Yields υ lower [({ type := .messageStop } : ClaudeResponse ι)] "" "" [] :=
    yields_silent rfl
  have hall := (hstart.yields.append (yields_blocks h 0)).append (hdelta.yields.append hstop)
  simpa [messageEvents, getContentString, getReasoningContent] using hall

variable {acc : List ToolCall} {index : ℕ}

def Below (index : ℕ) (tools : List ToolCall) : Prop :=
  ∀ t ∈ tools, ∃ i < index, t.index = some i

section

variable (h : Below index acc)
include h

theorem Below.ne {t : ToolCall} (ht : t ∈ acc) : t.index ≠ some index := by
  intro heq
  obtain ⟨i, hi, hindex⟩ := h t ht
  exact Nat.ne_of_lt hi (Option.some.inj (hindex.symm.trans heq))

theorem addFragment_new (id name arguments : String) :
    addFragment acc ⟨some index, id, name, arguments⟩ = acc ++ [⟨some index, id, name, arguments⟩] := by
  refine if_neg ?_
  rw [any_eq_true]
  rintro ⟨t, ht, hindex⟩
  exact h.ne ht (of_decide_eq_true hindex)

theorem addFragment_last (id name arguments fragment : String) :
    addFragment (acc ++ [⟨some index, id, name, arguments⟩]) ⟨some index, "", "", fragment⟩ =
      acc ++ [⟨some index, id, name, arguments ++ fragment⟩] := by
  have hany : ((acc ++ [(⟨some index, id, name, arguments⟩ : ToolCall)]).any fun t ↦
      t.index = some index) = true := by simp
  refine (if_pos hany).trans ?_
  rw [map_append]
  refine congrArg₂ _ ?_ (by simp)
  rw [map_congr_left fun t ht ↦ if_neg (h.ne ht)]
  exact map_id' acc

theorem foldl_fragments (id name arguments : String) (fragments : List String) :
    (fragments.map fun fragment ↦ (⟨some index, "", "", fragment⟩ : ToolCall)).foldl addFragment
        (acc ++ [⟨some index, id, name, arguments⟩]) =
      acc ++ [⟨some index, id, name, arguments ++ joined (fun fragment ↦ fragment) fragments⟩] := by
  induction fragments generalizing arguments with
  | nil => simp [joined]
  | cons fragment fragments ih =>
    rw [map_cons, foldl_cons, addFragment_last h, ih, joined, String.append_assoc]

theorem foldl_toolFragments {b : Block ι} {fragments : List String}
    (hb : joined id fragments = b.payload marshal) :
    (b.toolFragments index fragments).foldl addFragment acc =
      acc ++ (b.tool? marshal).toList.map fun t ↦ { t with index := some index } := by
  cases b with
  | toolUse id name input =>
    rw [Block.toolFragments, foldl_cons, addFragment_new h, foldl_fragments h, String.empty_append]
    exact congrArg (fun arguments ↦ acc ++ [⟨some index, id, name, arguments⟩]) hb
  | _ => exact (append_nil acc).symm

theorem Below.next (tool : Option ToolCall) :
    Below (index + 1) (acc ++ tool.toList.map fun t ↦ { t with index := some index }) := by
  intro t ht
  rcases mem_append.1 ht with ht | ht
  · obtain ⟨i, hi, hindex⟩ := h t ht
    exact ⟨i, Nat.lt_succ_of_lt hi, hindex⟩
  · obtain ⟨t', -, rfl⟩ := mem_map.1 ht
    exact ⟨index, index.lt_succ_self, rfl⟩

theorem foldl_blocksTools (hblocks : Fragmented marshal blocks) :
    ((blocksTools index blocks).foldl addFragment acc).map unindexed =
      acc.map unindexed ++ (blocks.map Prod.fst).filterMap (Block.tool? marshal) := by
  induction blocks generalizing acc index with
  | nil => exact (append_nil _).symm
  | cons p blocks ih =>
    obtain ⟨hp, hblocks⟩ := forall_mem_cons.1 hblocks
    have hunindexed : ((p.1.tool? marshal).toList.map fun t ↦
        ({ t with index := some index } : ToolCall)).map unindexed =
          (p.1.tool? marshal).toList := by
      cases p.1 <;> rfl
    rw [blocksTools, foldl_append, foldl_toolFragments h hp, ih (h.next _) hblocks,
      map_append, hunindexed, append_assoc, map_cons, filterMap_cons]
    cases p.1.tool? marshal <;> rfl

end

theorem joined_text (blocks : List (Block ι × List String)) :
    joined (fun p ↦ p.1.text?.getD "") blocks =
      joined id ((blocks.map Prod.fst).filterMap Block.text?) := by
  induction blocks with
  | nil => rfl
  | cons p blocks ih =>
    rw [joined, ih, map_cons, filterMap_cons]
    cases p.1 <;> simp [Block.text?, joined]

theorem joined_streamedThinking (h : ∀ p ∈ blocks, p.1.signature = []) :
    joined (fun p ↦ p.1.streamedThinking) blocks =
      joined id ((blocks.map Prod.fst).filterMap Block.thinking?) := by
  induction blocks with
  | nil => rfl
  | cons p blocks ih =>
    obtain ⟨hp, hblocks⟩ := forall_mem_cons.1 h
    have hsigned : p.1.signatureText = "" := by
      cases hb : p.1 with
      | thinking s signature =>
        cases signature with
        | none => rfl
        | some signature => rw [hb] at hp; cases hp
      | _ => rfl
    rw [joined, ih hblocks, map_cons, filterMap_cons, Block.streamedThinking, hsigned]
    cases p.1 <;> simp [Block.thinking?, joined]

end

variable {m : Message ι} {blocks : List (Block ι × List String)} {marshal : Option ι → String}

def answer : List (Block String × List String) :=
  [(.thinking "look it up" none, ["look ", "it up"]), (.text "One moment.", ["One ", "moment."]),
    (.toolUse "call_1" "lookup" (some "[1, 2]"), ["[1,", " 2]"])]

def answerMessage (answer : List (Block String × List String)) : Message String :=
  ⟨"msg_1", "claude", answer.map Prod.fst, "tool_use"⟩

def marshalText (input : Option String) : String := input.getD "null"

def interrupted : List (Block String × List String) :=
  [(.text "Let me see.", ["Let me see."]), (.toolUse "call_1" "lookup" (some "[]"), ["[]"]),
    (.text " Done.", [" Done."])]

def signed : List (Block String × List String) := [(.thinking "hm" (some "EqQB"), ["hm"])]

end Moligate.Convert.ClaudeMessages
