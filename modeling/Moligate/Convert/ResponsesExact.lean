import Moligate.Convert.ResponsesTools

namespace Moligate.Convert.Responses

open Foundation Strings Function Option List State Source

variable {υ : Type}

section

structure Writes (chunks : List (Chunk υ)) (text : String) (tools : List ToolCall)
    (finishes : List String) : Prop where
  role : ∀ choice ∈ choices chunks, choice.delta.role = ""
  content : joined (·.delta.getContentString) (choices chunks) = text
  tools : fragments (choices chunks) = tools
  finish : finishReasons (choices chunks) = finishes

variable {chunks chunks' : List (Chunk υ)} {text text' : String} {tools tools' : List ToolCall}
  {finishes finishes' : List String}

theorem choices_append : choices (chunks ++ chunks') = choices chunks ++ choices chunks' :=
  flatMap_append

theorem Writes.nil : Writes ([] : List (Chunk υ)) "" [] [] := ⟨by simp [choices], rfl, rfl, rfl⟩

theorem Writes.append (h : Writes chunks text tools finishes)
    (h' : Writes chunks' text' tools' finishes') :
    Writes (chunks ++ chunks') (text ++ text') (tools ++ tools') (finishes ++ finishes') := by
  refine ⟨fun choice hchoice ↦ ?_, ?_, ?_, ?_⟩
  · rw [choices_append, mem_append] at hchoice
    exact hchoice.elim (h.role choice) (h'.role choice)
  · rw [choices_append, joined_append, h.content, h'.content]
  · rw [choices_append, fragments, flatMap_append]
    exact congrArg₂ _ h.tools h'.tools
  · rw [choices_append, finishReasons, filterMap_append]
    exact congrArg₂ _ h.finish h'.finish

theorem writes_of_choices {delta : Delta} {finishReason : Option String}
    (h : choices chunks = [⟨delta, finishReason⟩]) (hrole : delta.role = "")
    (htext : delta.getContentString = text) (htools : delta.toolCalls = tools)
    (hfinish : finishReason.toList = finishes) : Writes chunks text tools finishes := by
  subst htext htools hfinish
  refine ⟨fun choice hchoice ↦ ?_, ?_, ?_, ?_⟩
  · rw [h, mem_singleton] at hchoice
    rw [hchoice]
    exact hrole
  · simp [h, joined]
  · simp [h, fragments]
  · cases finishReason <;> simp [h, finishReasons]

variable {st : State υ} {delta : String}

theorem textDelta_spec (h : st.sentStart = true) :
    Writes (st.textDelta delta).2 delta [] [] ∧ (st.textDelta delta).1.book = st.book ∧
      (st.textDelta delta).1.flags =
        { st.flags with hasSentText := st.hasSentText || decide (delta ≠ "") } := by
  by_cases hne : delta = ""
  · rw [textDelta, if_pos hne, hne]
    exact ⟨.nil, rfl, by simp [flags]⟩
  · simp only [textDelta, if_neg hne, ensureStart, h, if_true]
    exact ⟨writes_of_choices rfl rfl rfl rfl rfl, rfl, by simp [flags, hne, h]⟩

theorem reasoningDelta_spec (h : st.sentStart = true) :
    Writes (st.reasoningDelta delta).2 "" [] [] ∧ (st.reasoningDelta delta).1.book = st.book ∧
      (st.reasoningDelta delta).1.flags = st.flags := by
  simp only [reasoningDelta, ensureStart, h, if_true]
  split
  · exact ⟨.nil, rfl, rfl⟩
  · exact ⟨writes_of_choices rfl rfl rfl rfl rfl, rfl, by simp [flags, h]⟩

end

section

/-- The fragments belong to the calls that were added, each with its id, its name once, and its
arguments. -/
structure Covers (s : Source) (tools : List ToolCall) : Prop where
  index : ∀ tool ∈ tools, ∃ i, tool.index = some i ∧ i < s.added.length
  id : ∀ (i : ℕ) c, s.added[i]? = some c → ∀ tool ∈ fragmentsOf i tools, tool.id = c.callID
  name : ∀ (i : ℕ) c, s.added[i]? = some c →
    ((fragmentsOf i tools).map ToolCall.name).filter (· ≠ "") = [c.name]
  arguments : ∀ (i : ℕ) c, s.added[i]? = some c →
    joined ToolCall.arguments (fragmentsOf i tools) = s.arguments c

variable {s : Source} {tools : List ToolCall} {c : Call} {i : ℕ} {id name arguments : String}

theorem fragmentsOf_self :
    fragmentsOf i (tools ++ [⟨some i, id, name, arguments⟩]) =
      fragmentsOf i tools ++ [⟨some i, id, name, arguments⟩] := by
  simp [fragmentsOf]

theorem fragmentsOf_other {j : ℕ} (h : i ≠ j) :
    fragmentsOf i (tools ++ [⟨some j, id, name, arguments⟩]) = fragmentsOf i tools := by
  simp [fragmentsOf, h.symm]

theorem Covers.fragmentsOf_length (h : Covers s tools) : fragmentsOf s.added.length tools = [] := by
  refine filter_eq_nil_iff.2 fun tool htool heq ↦ ?_
  obtain ⟨i, hi, hlt⟩ := h.index tool htool
  rw [hi, decide_eq_true_eq, some.injEq] at heq
  exact Nat.ne_of_lt hlt heq

theorem Covers.add (h : Covers s tools) (hnew : c ∉ s.added) (hname : c.name ≠ "") :
    Covers (s.add c) (tools ++ [⟨some s.added.length, c.callID, c.name, s.arguments c⟩]) := by
  have hadded := added_add hnew
  have hcases (i : ℕ) (c' : Call) (hi : (s.add c).added[i]? = some c') :
      i ≠ s.added.length ∧ s.added[i]? = some c' ∨ i = s.added.length ∧ c' = c := by
    rw [hadded] at hi
    rcases Nat.lt_or_ge i s.added.length with hlt | hge
    · rw [getElem?_append_left hlt] at hi
      exact .inl ⟨Nat.ne_of_lt hlt, hi⟩
    · rw [getElem?_append_right hge, getElem?_singleton] at hi
      split at hi
      next hzero =>
        exact .inr ⟨Nat.le_antisymm (Nat.le_of_sub_eq_zero hzero) hge, (some.inj hi).symm⟩
      · cases hi
  have hself : fragmentsOf s.added.length
      (tools ++ [⟨some s.added.length, c.callID, c.name, s.arguments c⟩]) =
        [⟨some s.added.length, c.callID, c.name, s.arguments c⟩] := by
    rw [fragmentsOf_self, h.fragmentsOf_length, nil_append]
  refine ⟨fun tool htool ↦ ?_, ?_, ?_, ?_⟩
  · rw [hadded, length_append]
    rcases mem_append.1 htool with htool | htool
    · obtain ⟨i, hi, hlt⟩ := h.index tool htool
      exact ⟨i, hi, Nat.lt_add_right 1 hlt⟩
    · rw [mem_singleton] at htool
      exact ⟨s.added.length, by rw [htool], Nat.lt_succ_self _⟩
  all_goals
    intro i c' hi
    rcases hcases i c' hi with ⟨hne, hi⟩ | ⟨rfl, rfl⟩
    · rw [fragmentsOf_other hne]
      first | exact h.id i c' hi | exact h.name i c' hi | exact h.arguments i c' hi
    · simp [hself, hname, joined, add]

theorem Covers.extend {delta : String} (h : Covers s tools) (hs : s.added.Nodup)
    (hi : s.added[i]? = some c) :
    Covers (s.extend c delta) (tools ++ [⟨some i, c.callID, "", delta⟩]) := by
  have hcases (j : ℕ) (c' : Call) (hj : s.added[j]? = some c') : j ≠ i ∧ c' ≠ c ∨ j = i ∧ c' = c := by
    by_cases hji : j = i
    · subst hji
      exact .inr ⟨rfl, some.inj (hj.symm.trans hi)⟩
    · refine .inl ⟨hji, ?_⟩
      rintro rfl
      exact hji ((List.getElem?_inj (List.getElem?_eq_some_iff.1 hj).1 hs).1 (hj.trans hi.symm))
  refine ⟨fun tool htool ↦ ?_, fun j c' hj ↦ ?_, fun j c' hj ↦ ?_, fun j c' hj ↦ ?_⟩
  · rcases mem_append.1 htool with htool | htool
    · exact h.index tool htool
    · rw [mem_singleton] at htool
      exact ⟨i, by rw [htool], (List.getElem?_eq_some_iff.1 hi).1⟩
  · have hid := h.id j c' hj
    rcases hcases j c' hj with ⟨hne, -⟩ | ⟨rfl, rfl⟩
    · rwa [fragmentsOf_other hne]
    rw [fragmentsOf_self]
    intro tool htool
    rcases mem_append.1 htool with htool | htool
    · exact hid tool htool
    · rw [mem_singleton] at htool
      rw [htool]
  · have hname := h.name j c' hj
    rcases hcases j c' hj with ⟨hne, -⟩ | ⟨rfl, rfl⟩
    · rwa [fragmentsOf_other hne]
    · rw [fragmentsOf_self, map_append, filter_append, hname]
      simp
  · have harguments := h.arguments j c' hj
    rcases hcases j c' hj with ⟨hne, hcc⟩ | ⟨rfl, rfl⟩
    · rw [fragmentsOf_other hne, harguments, Source.extend]
      exact (update_of_ne hcc _ _).symm
    · rw [fragmentsOf_self, joined_append, harguments]
      simp [joined, Source.extend]

theorem Covers.wait {delta : String} (h : Covers s tools) (hnew : c ∉ s.added) :
    Covers (s.extend c delta) tools := by
  refine { h with arguments := fun i c' hi ↦ ?_ }
  have hne : c' ≠ c := fun hcc ↦ hnew (hcc ▸ mem_of_getElem? hi)
  rw [h.arguments i c' hi, Source.extend]
  exact (update_of_ne hne _ _).symm

end

section

/-- The session agrees with a stream that has begun and is not over. -/
structure Agrees (calls : Calls) (st : State υ) (s : Source) : Prop where
  tracks : Tracks calls st.book s
  started : st.sentStart = true
  finalized : st.finalized = false
  text : st.hasSentText = decide (s.text ≠ "")
  saw : st.sawToolCall = decide (s.added ≠ [])

/-- An event brings the session to the next state of the stream, and writes the text and the
fragments that the stream has more. -/
structure Step (calls : Calls) (s s' : Source) (text : String) (out : State υ × List (Chunk υ)) :
    Prop where
  agrees : Agrees calls out.1 s'
  writes : ∃ tools, Writes out.2 text tools [] ∧
    ∀ before, Covers s before → Covers s' (before ++ tools)

variable {calls : Calls} {st : State υ} {s s' : Source} {out : State υ × List (Chunk υ)} {c : Call}
  {event : Event υ} {item : Output} {i : ℕ}

theorem Agrees.flags (h : Agrees calls st s) :
    st.flags = ⟨true, false, decide (s.text ≠ ""), decide (s.added ≠ [])⟩ := by
  rw [State.flags, h.started, h.finalized, h.text, h.saw]

theorem agrees_of_flags (htracks : Tracks calls st.book s)
    (hflags : st.flags = ⟨true, false, decide (s.text ≠ ""), decide (s.added ≠ [])⟩) :
    Agrees calls st s :=
  ⟨htracks, congrArg Flags.sentStart hflags, congrArg Flags.finalized hflags,
    congrArg Flags.hasSentText hflags, congrArg Flags.sawToolCall hflags⟩

theorem Idle.step (h : Idle calls s' st out) (ha : Agrees calls st s) (htext : s'.text = s.text)
    (hadded : s'.added = s.added) (hcovers : ∀ before, Covers s before → Covers s' before) :
    Step calls s s' "" out := by
  obtain ⟨hchunks, htracks, hflags⟩ := h
  refine ⟨agrees_of_flags htracks ?_, [], hchunks ▸ .nil, fun before hbefore ↦ ?_⟩
  · rw [hflags, ha.flags, htext, hadded]
  · rw [append_nil]
    exact hcovers before hbefore

theorem step_of_fragment {tool : ToolCall} (ha : Agrees calls st s)
    (hchoices : choices out.2 = [⟨{ toolCalls := [tool] }, none⟩])
    (htracks : Tracks calls out.1.book s') (hflags : out.1.flags = { st.flags with sawToolCall := true })
    (htext : s'.text = s.text) (hadded : s'.added ≠ [])
    (hcovers : ∀ before, Covers s before → Covers s' (before ++ [tool])) :
    Step calls s s' "" out := by
  refine ⟨agrees_of_flags htracks ?_, [tool], writes_of_choices hchoices rfl rfl rfl rfl, hcovers⟩
  rw [hflags, ha.flags, htext, decide_eq_true hadded]

theorem describes (hc : c ∈ calls.list) (h : c.describedBy item = true) : Describes c item := by
  rw [Call.describedBy, Bool.and_eq_true, decide_eq_true_eq, decide_eq_true_eq] at h
  exact ⟨calls.itemID c hc, calls.callID c hc, calls.name c hc, h.1, h.2⟩

theorem Agrees.arguments_step (h : Agrees calls st s) (hof : calls.of event = some c)
    (hid : trimSpace event.itemID = c.itemID) :
    Step calls s (s.extend c event.delta) "" (st.toolArgumentsDelta event) := by
  obtain ⟨hc, howns⟩ := of_eq_some hof
  by_cases hne : event.delta = ""
  · rw [toolArgumentsDelta, if_pos hne, hne, Source.extend, String.append_empty,
      update_eq_self]
    exact Idle.step ⟨rfl, h.tracks, rfl⟩ h rfl rfl fun _ hb ↦ hb
  by_cases hadded : c ∈ s.added
  · obtain ⟨i, hi⟩ := mem_iff_getElem?.1 hadded
    obtain ⟨hchoices, htracks, hflags⟩ :=
      h.tracks.argumentsDelta_known h.started hi howns hne
    exact step_of_fragment h hchoices htracks hflags rfl (ne_nil_of_mem hadded)
      fun _ hb ↦ hb.extend h.tracks.nodup hi
  · exact (h.tracks.argumentsDelta_pending hc hadded howns hid hne).step h rfl rfl
      fun _ hb ↦ hb.wait hadded

theorem Agrees.text_step (h : Agrees calls st s) (delta : String) :
    Step calls s { s with text := s.text ++ delta } delta (st.textDelta delta) := by
  obtain ⟨hwrites, hbook, hflags⟩ : _ ∧ (st.textDelta delta).1.book = _ ∧ _ :=
    textDelta_spec h.started
  have htracks : Tracks calls (st.textDelta delta).1.book s := hbook ▸ h.tracks
  refine ⟨agrees_of_flags { htracks with } ?_, [], hwrites, fun before hb ↦ ?_⟩
  · rw [hflags, h.flags, h.text]
    by_cases htext : s.text = "" <;> simp [htext]
  · rw [append_nil]
    exact { hb with }

theorem Agrees.silent_step (h : Agrees calls st s) (hwrites : Writes out.2 "" [] [])
    (hbook : out.1.book = st.book) (hflags : out.1.flags = st.flags) : Step calls s s "" out := by
  refine ⟨agrees_of_flags (hbook ▸ h.tracks) (hflags.trans h.flags), [], hwrites,
    fun before hb ↦ ?_⟩
  rwa [append_nil]

variable {usageFromResponsesUsage : υ → υ}

theorem eq_or_eq {t a b : EventType} (h : (decide (t = a) || decide (t = b)) = true) :
    t = a ∨ t = b := by
  rwa [Bool.or_eq_true, decide_eq_true_eq, decide_eq_true_eq] at h

theorem convert_item (htype : event.type.isItem = true) :
    st.convert usageFromResponsesUsage event =
      (if event.item.any (·.type.isResponsesToolOutputType) then st.toolItem event else (st, [])) ∧
      event.text = "" := by
  rcases eq_or_eq htype with htype | htype
  all_goals simp [convert, Event.text, htype]

theorem Agrees.step (h : Agrees calls st s) (hcreated : event.type ≠ .created)
    (hnext : Next calls s event s') (hopen : s'.closed = false) :
    Step calls s s' event.text (st.convert usageFromResponsesUsage event) := by
  cases hnext with
  | created htype => exact absurd htype hcreated
  | text htype =>
    simp only [convert, Event.text, htype, if_true]
    exact h.text_step event.delta
  | ignored htype hitem =>
    obtain ⟨hconvert, htext⟩ := convert_item htype
    rw [hconvert, htext, if_neg (Bool.eq_false_iff.1 hitem)]
    exact h.silent_step .nil rfl rfl
  | repeated c item htype hitem htool hof hdescribed hadded hrepeats =>
    obtain ⟨hconvert, htext⟩ := convert_item htype
    rw [hconvert, htext, hitem, any_some, if_pos htool]
    obtain ⟨hc, howns⟩ := of_eq_some hof
    obtain ⟨i, hi⟩ := mem_iff_getElem?.1 hadded
    obtain ⟨st', hensure, htracks⟩ := h.tracks.ensure_known hi howns hitem (describes hc hdescribed)
    exact (htracks.toolItem_known hensure hi hitem hrepeats).step h rfl rfl fun _ hb ↦ hb
  | added c item htype hitem htool hof hdescribed hnew hargs =>
    obtain ⟨hconvert, htext⟩ := convert_item htype
    rw [hconvert, htext, hitem, any_some, if_pos htool]
    obtain ⟨hc, howns⟩ := of_eq_some hof
    have hd := describes hc hdescribed
    obtain ⟨hchoices, htracks, hflags⟩ :=
      h.tracks.toolItem_new h.started hc hnew howns hitem hd hargs
    have hne : (s.add c).added ≠ [] := by simp [added_add hnew]
    exact step_of_fragment h hchoices htracks hflags rfl hne fun _ hb ↦ hb.add hnew hd.name.1
  | arguments c htype hof hid =>
    rcases eq_or_eq htype with htype | htype
    all_goals
      simp only [convert, Event.text, htype]
      exact h.arguments_step hof hid
  | argumentsDone c htype hof hadded =>
    rcases eq_or_eq htype with htype | htype
    all_goals
      simp only [convert, Event.text, htype]
      obtain ⟨i, hi⟩ := mem_iff_getElem?.1 hadded
      exact (h.tracks.flushPendingTool hi (of_eq_some hof).2).step h rfl rfl fun _ hb ↦ hb
  | reasoning htype =>
    rcases eq_or_eq htype with htype | htype
    all_goals
      simp only [convert, Event.text, htype]
      obtain ⟨hwrites, hbook, hflags⟩ : Writes (st.reasoningDelta event.delta).2 "" [] [] ∧ _ :=
        reasoningDelta_spec h.started
      exact h.silent_step hwrites hbook hflags
  | reasoningDone htype =>
    rcases eq_or_eq htype with htype | htype
    all_goals
      simp only [convert, Event.text, htype]
      exact h.silent_step .nil rfl rfl
  | other htype =>
    simp only [convert, Event.text, htype, reduceCtorEq, if_false]
    exact h.silent_step .nil rfl rfl
  | last htype hends => cases hopen

end

section

variable {calls : Calls} {st : State υ} {s : Source} {event : Event υ} {out : Output}
  {response : Response υ}

structure Repeated (calls : Calls) (s : Source) (out : Output) : Prop where
  text : out.type = .message → s.text = "" → out.outputText = ""
  tool : out.type.isResponsesToolOutputType = true → ∃ c ∈ calls.list,
    trimSpace out.id = c.itemID ∧ c.describedBy out = true ∧ s.repeats c out = true

def Source.finishReason (s : Source) (response : Option (Response υ)) : String :=
  (responsesFinishReasonFromStatus response).getD (if s.added ≠ [] then "tool_calls" else "stop")

theorem all_of_ends {response : Option (Response υ)} (hends : s.ends calls response = true) :
    ∀ c ∈ calls.list, c ∈ s.added := by
  rw [ends, Bool.and_eq_true, List.all_eq_true] at hends
  simpa using hends.1

theorem repeated_of_ends (hends : s.ends calls (some response) = true) :
    ∀ out ∈ response.output, Repeated calls s out := by
  rw [ends, Bool.and_eq_true, all_some, Bool.and_eq_true, Bool.or_eq_true,
    decide_eq_true_eq, decide_eq_true_eq] at hends
  obtain ⟨-, htext, houtputs⟩ := hends
  intro out hout
  refine ⟨fun hmessage hempty ↦ ?_, fun htool ↦ ?_⟩
  · have hnone : response.text = "" := htext.elim id fun h ↦ h.trans hempty
    have hthis := joined_eq_empty hnone out hout
    rwa [if_pos hmessage] at hthis
  · have hthis := all_eq_true.1 houtputs out hout
    simpa [htool, and_assoc] using hthis

theorem terminalResponse_output :
    (event.terminalResponse.map Response.output).getD [] =
      (event.response.map Response.output).getD [] := by
  rw [Event.terminalResponse]
  split
  · cases event.response <;> rfl
  · rfl

section

variable (h : Agrees calls st s)
include h

theorem Agrees.terminalOutput (hall : ∀ c ∈ calls.list, c ∈ s.added) (hout : Repeated calls s out) :
    Agrees calls (st.terminalOutput out).1 s ∧ Writes (st.terminalOutput out).2 "" [] [] := by
  rw [State.terminalOutput]
  split
  next hmessage =>
    rw [Bool.and_eq_true, decide_eq_true_eq, Bool.not_eq_true', h.text,
      decide_eq_false_iff_not, not_not] at hmessage
    rw [hout.text hmessage.1 hmessage.2]
    exact ⟨h, .nil⟩
  · split
    · obtain ⟨hwrites, hbook, hflags⟩ := @reasoningDelta_spec υ st out.contentText h.started
      exact ⟨(h.silent_step hwrites hbook hflags).agrees, hwrites⟩
    split
    next htool =>
      obtain ⟨c, hc, hid, hdescribed, hrepeats⟩ := hout.tool htool
      obtain ⟨i, hi⟩ := mem_iff_getElem?.1 (hall c hc)
      obtain ⟨st', hensure, htracks⟩ := h.tracks.ensure_output hi hid (describes hc hdescribed)
      have hidle := htracks.toolItem_known hensure hi rfl hrepeats
      exact ⟨(hidle.step h rfl rfl fun _ hb ↦ hb).agrees, hidle.chunks ▸ .nil⟩
    · exact ⟨h, .nil⟩

theorem Agrees.terminalOutputs {outputs : List Output} (hall : ∀ c ∈ calls.list, c ∈ s.added)
    (houtputs : ∀ out ∈ outputs, Repeated calls s out) :
    Agrees calls (transduce State.terminalOutput st outputs).1 s ∧
      Writes (transduce State.terminalOutput st outputs).2 "" [] [] := by
  induction outputs generalizing st with
  | nil => exact ⟨h, .nil⟩
  | cons out outputs ih =>
    obtain ⟨hout, houtputs⟩ := forall_mem_cons.1 houtputs
    obtain ⟨hagrees, hwrites⟩ := h.terminalOutput hall hout
    obtain ⟨hagrees', hwrites'⟩ := ih hagrees houtputs
    exact ⟨hagrees', hwrites.append hwrites'⟩

theorem Agrees.finalize (hall : ∀ c ∈ calls.list, c ∈ s.added) (response : Option (Response υ)) :
    Writes (st.finalize response).2 "" [] [s.finishReason response] ∧
      (st.finalize response).1.finalized = true := by
  have hflush : { st with finalized := true }.flushAllPendingTools =
      ({ st with finalized := true }, []) := by
    have htracks : Tracks calls { st with finalized := true }.book s := h.tracks
    exact htracks.flushAllPendingTools hall
  have hstart : { st with finalized := true }.ensureStart = ({ st with finalized := true }, []) := by
    rw [ensureStart, if_pos h.started]
  have hreason : (responsesFinishReasonFromStatus response).getD
      (if st.sawToolCall then "tool_calls" else "stop") = s.finishReason response := by
    simp [finishReason, h.saw]
  have hchoices (usage : List (Chunk υ)) (husage : choices usage = []) :
      choices ([] ++ [] ++ [st.makeChunk {} (some (s.finishReason response))] ++ usage) =
        [⟨{}, some (s.finishReason response)⟩] := by
    rw [choices_append, husage]
    rfl
  rw [State.finalize, if_neg (Bool.eq_false_iff.1 h.finalized)]
  simp only [hflush, hstart, hreason, and_true]
  refine writes_of_choices (hchoices _ ?_) rfl rfl rfl rfl
  split <;> rfl

theorem Agrees.applyResponseMetadata (usageFromResponsesUsage : υ → υ)
    (response : Option (Response υ)) :
    Agrees calls (st.applyResponseMetadata usageFromResponsesUsage response) s := by
  cases response with
  | none => exact h
  | some response => exact { h with }

theorem Agrees.last {usageFromResponsesUsage : υ → υ} (hends : s.ends calls event.response = true)
    (htype : event.type.isLast = true) :
    Writes (st.convert usageFromResponsesUsage event).2 "" []
        [s.finishReason event.terminalResponse] ∧
      (st.convert usageFromResponsesUsage event).1.finalized = true := by
  have hall := all_of_ends hends
  have houtputs : ∀ out ∈ (event.response.map Response.output).getD [], Repeated calls s out := by
    cases hresponse : event.response with
    | none => exact fun out hout ↦ absurd hout not_mem_nil
    | some response => exact repeated_of_ends (hresponse ▸ hends)
  obtain ⟨hagrees, hwrites⟩ :=
    (h.applyResponseMetadata usageFromResponsesUsage event.terminalResponse).terminalOutputs hall
      houtputs
  obtain ⟨hfinish, hfinalized⟩ := hagrees.finalize hall event.terminalResponse
  rw [EventType.isLast, Bool.or_eq_true, Bool.or_eq_true, decide_eq_true_eq, decide_eq_true_eq,
    decide_eq_true_eq] at htype
  rcases htype with (htype | htype) | htype
  all_goals
    simp only [convert, htype, terminalOutputChunks, terminalResponse_output]
    exact ⟨hwrites.append hfinish, hfinalized⟩

end

variable {s' : Source} {events : List (Event υ)} {chunks : List (Chunk υ)} {c : Call}

theorem arguments_extend (hof : calls.of event = some c) (hdelta : event.type.isArgsDelta = true)
    (c' : Call) (hc' : c' ∈ calls.list) :
    (s.extend c event.delta).arguments c' = s.arguments c' ++ event.arguments c' := by
  obtain ⟨hc, howns⟩ := of_eq_some hof
  rw [Event.arguments, hdelta, Bool.true_and]
  by_cases hcc : c' = c
  · subst hcc
    simp [Source.extend, howns]
  · have hnot : c'.owns event = false := by
      rw [Call.owns_iff] at howns
      have hne := (calls.apart hc' hc hcc).output
      simp [Call.owns, howns.1, hne.symm]
    simp [Source.extend, hnot, hcc]

theorem silent_of_type {t : EventType}
    (h : t = .created ∨ t.isItem ∨ t.isArgsDone ∨ t.isReasoningDelta ∨ t.isReasoningDone ∨ t = .other ∨
      t.isLast) : t ≠ .outputTextDelta ∧ t.isArgsDelta = false := by
  revert h
  cases t <;> decide

theorem Next.delivers (h : Next calls s event s') :
    s'.text = s.text ++ event.text ∧
      ∀ c ∈ calls.list, s'.arguments c = s.arguments c ++ event.arguments c := by
  have hsilent (hs : s'.text = s.text) (hs' : s'.arguments = s.arguments)
      (htype : event.type ≠ .outputTextDelta ∧ event.type.isArgsDelta = false) :
      s'.text = s.text ++ event.text ∧
        ∀ c ∈ calls.list, s'.arguments c = s.arguments c ++ event.arguments c := by
    simp [Event.text, Event.arguments, htype, hs, hs']
  cases h with
  | text htype => simp [Event.text, Event.arguments, EventType.isArgsDelta, htype]
  | arguments c htype hof hid =>
    have hne : event.type ≠ .outputTextDelta := fun hne ↦ by
      rw [hne] at htype
      cases htype
    refine ⟨?_, arguments_extend hof htype⟩
    rw [Event.text, if_neg hne, String.append_empty]
    rfl
  | created htype | ignored htype | repeated _ _ htype | added _ _ htype | argumentsDone _ htype
  | reasoning htype | reasoningDone htype | other htype | last htype =>
    exact hsilent rfl rfl (silent_of_type (by simp [htype]))

structure Begun (s : Source) (chunks : List (Chunk υ)) (finishes : List String) : Prop where
  chunks : ∃ first rest tools, chunks = first :: rest ∧
    first.choices = [⟨{ role := "assistant", content := some "" }, none⟩] ∧
    Writes rest s.text tools finishes ∧ Covers s tools

inductive Reached (calls : Calls) (st : State υ) (s : Source) (events : List (Event υ))
    (chunks : List (Chunk υ)) : Prop
  | initial (hs : s = {}) (hchunks : chunks = []) (hbook : Tracks calls st.book {})
      (hflags : st.flags = ⟨false, false, false, false⟩)
  | running (hstarted : s.started = true) (hopen : s.closed = false) (hagrees : Agrees calls st s)
      (hbegun : Begun s chunks [])
  | ended (hstarted : s.started = true) (hclosed : s.closed = true) (hfinalized : st.finalized = true)
      (hall : ∀ c ∈ calls.list, c ∈ s.added) (hsub : ∀ c ∈ s.added, c ∈ calls.list)
      (hnodup : s.added.Nodup) (event : Event υ) (hlast : events.getLast? = some event)
      (hbegun : Begun s chunks [s.finishReason event.terminalResponse])

theorem Next.started (h : Next calls s event s') (hs : s.started = true) : s'.started = true := by
  cases h <;> first | rfl | exact hs

variable {usageFromResponsesUsage : υ → υ}

theorem Begun.append {chunks' : List (Chunk υ)} {tools : List ToolCall} {finishes : List String}
    {text : String} (h : Begun s chunks []) (hwrites : Writes chunks' text tools finishes)
    (htext : s'.text = s.text ++ text)
    (hcovers : ∀ before, Covers s before → Covers s' (before ++ tools)) :
    Begun s' (chunks ++ chunks') finishes := by
  obtain ⟨first, rest, before, rfl, hfirst, hrest, hbefore⟩ := h.chunks
  refine ⟨first, rest ++ chunks', before ++ tools, rfl, hfirst, ?_, hcovers before hbefore⟩
  rw [htext]
  exact hrest.append hwrites

theorem reached_created (htype : event.type = .created) (hbook : Tracks calls st.book {})
    (hflags : st.flags = ⟨false, false, false, false⟩) :
    Reached calls (st.convert usageFromResponsesUsage event).1 { started := true } events
      (st.convert usageFromResponsesUsage event).2 := by
  obtain ⟨st', hst'⟩ : ∃ st', st' = st.applyResponseMetadata usageFromResponsesUsage
    event.response := ⟨_, rfl⟩
  have hsame : st'.book = st.book ∧ st'.flags = st.flags := by
    rw [hst']
    cases event.response <;> exact ⟨rfl, rfl⟩
  have hflags' := hsame.2.trans hflags
  have hstarted := congrArg Flags.sentStart hflags'
  have hconvert : st.convert usageFromResponsesUsage event =
      ({ st' with sentStart := true },
        [st'.makeChunk { role := "assistant", content := some "" } none]) := by
    simp only [convert, htype, ← hst', ensureStart]
    exact if_neg (Bool.eq_false_iff.1 hstarted)
  have htracks : Tracks calls st'.book { started := true } := { hsame.1 ▸ hbook with }
  rw [hconvert]
  have hagrees : Agrees calls { st' with sentStart := true } { started := true } :=
    agrees_of_flags htracks (congrArg ({ · with sentStart := true }) hflags')
  refine .running rfl rfl hagrees ⟨_, [], [], rfl, rfl, .nil, ?_⟩
  exact ⟨by simp, by simp, by simp, by simp⟩

theorem Reached.step (h : Reached calls st s events chunks) (hnext : s.next calls event = some s') :
    Reached calls (st.convert usageFromResponsesUsage event).1 s' (events ++ [event])
      (chunks ++ (st.convert usageFromResponsesUsage event).2) := by
  obtain ⟨hopen, hcreated, hcases⟩ := next_cases hnext
  cases h with
  | initial hs hchunks hbook hflags =>
    subst hs hchunks
    have htype : event.type = .created := hcreated.2 rfl
    have hs' : s' = { started := true } := by
      simpa [Source.next, htype, eq_comm] using hnext
    subst hs'
    exact reached_created htype hbook hflags
  | running hstarted _ hagrees hbegun =>
    have htype : event.type ≠ .created := fun h ↦ by
      rw [hcreated.1 h] at hstarted
      cases hstarted
    cases hs' : s'.closed with
    | false =>
      obtain ⟨hagrees', tools, hwrites, hcovers⟩ : Step calls s s' event.text
        (st.convert usageFromResponsesUsage event) := hagrees.step htype hcases hs'
      exact .running (hcases.started hstarted) hs' hagrees'
        (hbegun.append hwrites hcases.delivers.1 hcovers)
    | true =>
      obtain ⟨htype, hends, rfl⟩ : event.type.isLast = true ∧ s.ends calls event.response = true ∧
          s' = { s with closed := true } := by
        cases hcases with
        | last htype hends => exact ⟨htype, hends, rfl⟩
        | _ => cases hopen.symm.trans hs'
      obtain ⟨hwrites, hfinalized⟩ : Writes (st.convert usageFromResponsesUsage event).2 "" []
        [s.finishReason event.terminalResponse] ∧ _ := hagrees.last hends htype
      have hsub (c : Call) (hc : c ∈ s.added) : c ∈ calls.list := by
        obtain ⟨i, hi⟩ := mem_iff_getElem?.1 hc
        exact (hagrees.tracks.known i c hi).1
      refine .ended hstarted rfl hfinalized (all_of_ends hends) hsub hagrees.tracks.nodup event
        getLast?_concat (hbegun.append hwrites String.append_empty.symm ?_)
      intro before hb
      rw [append_nil]
      exact { hb with }
  | ended _ hclosed => cases hopen.symm.trans hclosed

theorem chatChunks_ok (hrun : exec (next calls) s events = some s') :
    chatChunks usageFromResponsesUsage st events =
      .ok (transduce (convert usageFromResponsesUsage) st events) := by
  induction events generalizing st s with
  | nil => rfl
  | cons event events ih =>
    obtain ⟨t, ht, hrun⟩ := exec_cons.1 hrun
    have herror : event.type.streamError = none := by
      cases htype : event.type with
      | failed | error => simp [Source.next, htype] at ht
      | _ => rfl
    rw [chatChunks, responsesStreamEventToChatChunks, herror]
    simp only [transduce, ih hrun]
    rfl

theorem Begun.assembles {finishReason : String} {arguments : Call → String}
    (h : Begun s chunks [finishReason]) (hall : ∀ c ∈ calls.list, c ∈ s.added)
    (hsub : ∀ c ∈ s.added, c ∈ calls.list) (hnodup : s.added.Nodup)
    (harguments : ∀ c ∈ calls.list, s.arguments c = arguments c) :
    Assembles calls (choices chunks) s.text arguments finishReason := by
  obtain ⟨first, rest, tools, rfl, hfirst, hwrites, hcovers⟩ := h.chunks
  have hchoices : choices (first :: rest) =
      ⟨{ role := "assistant", content := some "" }, none⟩ :: choices rest := by
    rw [choices, flatMap_cons, hfirst]
    rfl
  have htools : fragments (choices (first :: rest)) = tools := by
    rw [hchoices, fragments, flatMap_cons]
    exact hwrites.tools
  refine ⟨⟨_, _, hchoices, rfl, hwrites.role⟩, ?_, ⟨s.added.idxOf, ?_, ?_, ?_⟩, ?_⟩
  · rw [hchoices, joined, hwrites.content]
    exact String.empty_append
  · intro c hc c' hc' heq
    exact (idxOf_inj (hall c hc)).1 heq
  · rw [htools]
    intro tool htool
    obtain ⟨i, hi, hlt⟩ := hcovers.index tool htool
    refine ⟨s.added[i], hsub _ (getElem_mem hlt), hi.trans ?_⟩
    exact congrArg some (hnodup.idxOf_getElem i hlt).symm
  · intro c hc
    have hi : s.added[s.added.idxOf c]? = some c := getElem?_idxOf (hall c hc)
    rw [htools, ← harguments c hc]
    exact ⟨hcovers.id _ c hi, hcovers.name _ c hi, hcovers.arguments _ c hi⟩
  · rw [hchoices, finishReasons, filterMap_cons]
    exact hwrites.finish

structure Progress (calls : Calls) (st : State υ) (s : Source) (events : List (Event υ))
    (chunks : List (Chunk υ)) : Prop where
  reached : Reached calls st s events chunks
  text : s.text = joined Event.text events
  arguments : ∀ c ∈ calls.list, s.arguments c = joined (Event.arguments c) events

theorem Progress.step (h : Progress calls st s events chunks)
    (hnext : s.next calls event = some s') :
    Progress calls (st.convert usageFromResponsesUsage event).1 s' (events ++ [event])
      (chunks ++ (st.convert usageFromResponsesUsage event).2) := by
  obtain ⟨-, -, hcases⟩ := next_cases hnext
  obtain ⟨htext, harguments⟩ := hcases.delivers
  refine ⟨h.reached.step hnext, ?_, fun c hc ↦ ?_⟩
  · rw [htext, h.text, joined_append]
    simp [joined]
  · rw [harguments c hc, h.arguments c hc, joined_append]
    simp [joined]

theorem progress_start {model : String} {now : ℤ} {includeUsage : Bool} {empty : υ} :
    Progress calls (newResponsesToChatStreamState model now includeUsage empty) {} [] [] := by
  refine ⟨.initial rfl rfl ?_ rfl, rfl, fun _ _ ↦ rfl⟩
  refine ⟨nodup_nil, rfl, rfl, by simp, fun c _ _ ↦ ?_, ?_, ?_, fun _ ↦ rfl⟩
  · exact ⟨rfl, fun _ _ ↦ rfl, rfl, rfl, rfl⟩
  · exact fun key i hi ↦ absurd hi (some_ne_none i).symm
  · exact fun outputIndex h ↦ absurd rfl h

end

theorem finishReason_of_complete {event : Event υ} {s : Source} (h : event.incomplete = false) :
    s.finishReason event.terminalResponse = if s.added ≠ [] then "tool_calls" else "stop" := by
  have hnone : responsesFinishReasonFromStatus event.terminalResponse = none := by
    rw [Event.incomplete] at h
    rw [Event.terminalResponse]
    split at h
    next status hstatus =>
      obtain ⟨response, hresponse, hstatus⟩ := bind_eq_some_iff.1 hstatus
      rw [decide_eq_false_iff_not] at h
      split <;> simp [responsesFinishReasonFromStatus, responseStatusString,
        ensureIncompleteResponse, hresponse, hstatus, h]
    next hstatus =>
      rw [if_neg (of_decide_eq_false h), responsesFinishReasonFromStatus, bind_eq_none_iff]
      intro response hresponse
      rw [responseStatusString, bind_eq_none_iff.1 hstatus response hresponse]
      rfl
  rw [finishReason, hnone, getD_none]

/-- A well-formed stream comes out as the chunks of one message, with and without the final call. -/
theorem responses_stream_exact (usageFromResponsesUsage : υ → υ) (model : String) (now : ℤ)
    (includeUsage : Bool) (empty : υ) (calls : Calls) (events : List (Event υ)) (finalize : Bool)
    {s : Source} (hsource : exec (next calls) {} events = some s) (hclosed : s.closed = true) :
    ∃ chunks finishReason,
      streamChunks usageFromResponsesUsage
          (newResponsesToChatStreamState model now includeUsage empty) events finalize = .ok chunks ∧
        Assembles calls (choices chunks) (joined Event.text events)
          (fun c ↦ joined (Event.arguments c) events) finishReason ∧
        ∀ event, events.getLast? = some event → event.incomplete = false →
          finishReason = if calls.list = [] then "stop" else "tool_calls" := by
  obtain ⟨hreached, htext, harguments⟩ := transduce_history (P := Progress calls)
    (s := newResponsesToChatStreamState model now includeUsage empty) progress_start
    (fun _ _ _ _ _ _ h _ hnext ↦ h.step hnext) (guarded_of_forall fun _ _ ↦ trivial) hsource
  cases hreached with
  | initial hs => cases hs ▸ hclosed
  | running _ hopen => exact nomatch hopen.symm.trans hclosed
  | ended _ _ hfinalized hall hsub hnodup event hlast hbegun =>
    refine ⟨_, s.finishReason event.terminalResponse, ?_, htext ▸
      hbegun.assembles hall hsub hnodup harguments, fun event' hlast' hcomplete ↦ ?_⟩
    · have hdone (st : State υ) (h : st.finalized = true) (finalize : Bool) :
          (if finalize then (finalizeResponsesToChatStream st).2 else []) = [] := by
        cases finalize with
        | false => rfl
        | true => simp [finalizeResponsesToChatStream, State.finalize, h]
      rw [streamChunks, chatChunks_ok hsource]
      exact congrArg Except.ok ((congrArg _ (hdone _ hfinalized finalize)).trans (append_nil _))
    · obtain rfl := some.inj (hlast.symm.trans hlast')
      have hnil : s.added = [] ↔ calls.list = [] := by
        simp only [eq_nil_iff_forall_not_mem]
        exact ⟨fun h c hc ↦ h c (hall c hc), fun h c hc ↦ h c (hsub c hc)⟩
      rw [finishReason_of_complete hcomplete]
      by_cases hcalls : calls.list = []
      · rw [if_neg (not_not_intro (hnil.2 hcalls)), if_pos hcalls]
      · rw [if_pos (hcalls ∘ hnil.1), if_neg hcalls]

namespace ResponsesExample

def first : Call := ⟨3, "i1", "c1", "f"⟩

def second : Call := ⟨1, "i2", "c2", "g"⟩

def calls : Calls where
  list := [first, second]
  itemID := by decide +kernel
  callID := by decide +kernel
  name := by decide +kernel
  own := by decide +kernel

def item (c : Call) (arguments : String) : Output :=
  { type := .functionCall, id := c.itemID, callId := c.callID, name := c.name,
    arguments := arguments }

def itemEvent (type : EventType) (c : Call) (arguments : String) : Event Unit :=
  { type := type, item := some (item c arguments), outputIndex := some c.outputIndex }

def argsDelta (c : Call) (delta : String) : Event Unit :=
  { type := .functionArgsDelta, delta := delta, outputIndex := some c.outputIndex
    itemID := c.itemID }

/-- Arguments before the item of their call, text and the arguments of two calls interleaved, and
everything again at the end. -/
def events : List (Event Unit) :=
  [{ type := .created }, argsDelta first "a", { type := .outputTextDelta, delta := "x" },
    itemEvent .outputItemAdded second "", argsDelta second "b",
    itemEvent .outputItemAdded first "", argsDelta first "c",
    { type := .functionArgsDone, outputIndex := some 3, itemID := "i1" },
    itemEvent .outputItemDone first "ac",
    { type := .completed
      response := some
        { output := [item second "b", item first "ac",
            { type := .message, content := [⟨"output_text", "x"⟩] }] } }]

end ResponsesExample

open ResponsesExample

theorem responses_stream_exact_interleaved :
    ∃ chunks, streamChunks id (newResponsesToChatStreamState "m" 0 true ()) events true =
        .ok chunks ∧
      joined (·.delta.getContentString) (choices chunks) = "x" ∧
      finishReasons (choices chunks) = ["tool_calls"] := by
  obtain ⟨s, hs, hclosed⟩ := map_eq_some_iff.1
    (show (exec (next calls) {} events).map closed = some true by decide +kernel)
  obtain ⟨chunks, finishReason, hchunks, hassembles, hfinish⟩ :=
    responses_stream_exact id "m" 0 true () calls events true hs hclosed
  refine ⟨chunks, hchunks, hassembles.content.trans (by decide +kernel), ?_⟩
  rw [hassembles.finish, hfinish _ rfl (by decide +kernel)]
  rfl

end Moligate.Convert.Responses
