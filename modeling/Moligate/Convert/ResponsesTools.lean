import Moligate.Convert.ResponsesProtocol

namespace Moligate.Convert.Responses

open Foundation Strings Function Option List Call State Source AList Tool

variable {υ α β : Type} {m : AList (fun _ : α ↦ β)} {l : List α} {f : α → α} {a : α}

section

/-- The bookkeeping of the tools, with the maps as functions. -/
structure Book where
  tools : List Tool
  nextToolIndex : ℕ
  toolAt : Key → Option ℕ
  outputKey : ℤ → Option Key
  itemKey : String → Option Key
  callKey : String → Option Key
  pending : ℤ → Option String
  pendingItems : String → Option String

def State.book (st : State υ) : Book where
  tools := st.tools
  nextToolIndex := st.nextToolIndex
  toolAt := fun key ↦ st.toolByKey.lookup key
  outputKey := fun outputIndex ↦ st.outputIndexToKey.lookup outputIndex
  itemKey := fun itemID ↦ st.itemIDToKey.lookup itemID
  callKey := fun callID ↦ st.callIDToKey.lookup callID
  pending := fun outputIndex ↦ st.pendingArgsByOutputIndex.lookup outputIndex
  pendingItems := fun itemID ↦ st.pendingArgsByItemID.lookup itemID

theorem lookup_insert_update [DecidableEq α]
    {b : β} : (fun k ↦ (m.insert a b).lookup k) = update (fun k ↦ m.lookup k) a (some b) := by
  funext k
  by_cases hk : k = a
  · subst hk
    rw [lookup_insert, update_self]
  · rw [lookup_insert_ne hk, update_of_ne hk]

theorem lookup_erase_update [DecidableEq α] :
    (fun k ↦ (m.erase a).lookup k) = update (fun k ↦ m.lookup k) a none := by
  funext k
  by_cases hk : k = a
  · subst hk
    rw [lookup_erase, update_self]
  · rw [lookup_erase_ne hk, update_of_ne hk]

def Call.fill (c : Call) (pending : String) (tool : Tool) : Tool :=
  { tool with
    arguments := tool.arguments ++ pending, itemID := c.itemID, callID := c.callID, name := c.name }

theorem Call.fill_eq (c : Call) (pending : String) : c.fill pending = fun tool ↦
    { tool with
      arguments := tool.arguments ++ pending, itemID := c.itemID, callID := c.callID
      name := c.name } := rfl

variable {st : State υ} {ref : ℕ} {key : Key} {c : Call} {item : Output}

theorem modify_id_of_eq {i : ℕ} (hf : ∀ a, f a = a) : l.modify i f = l := by
  rw [funext hf]
  exact modify_id i l

theorem book_claimOutputIndex {outputIndex : ℤ} (h : st.book.pending outputIndex ≠ some "") :
    (st.claimOutputIndex ref key (some outputIndex)).book =
      { st.book with
        tools := st.book.tools.modify ref fun tool ↦
          { tool with arguments := tool.arguments ++ (st.book.pending outputIndex).getD "" }
        outputKey := update st.book.outputKey outputIndex (some key)
        pending := update st.book.pending outputIndex none } := by
  have hpending : st.book.pending outputIndex =
    st.pendingArgsByOutputIndex.lookup outputIndex := rfl
  rw [claimOutputIndex]
  split
  next pending hlookup =>
    have hne : pending ≠ "" := fun hp ↦ h (by rw [hpending, hlookup, hp])
    rw [if_pos hne, hpending, hlookup]
    simp [book, modifyTool, lookup_insert_update, lookup_erase_update]
  next hlookup =>
    rw [hpending, hlookup, modify_id_of_eq (by simp)]
    simp only [← hlookup]
    simp [book, lookup_insert_update]

theorem book_claimItemID {itemID : String} (hne : itemID ≠ "")
    (h : st.book.pendingItems itemID = none) :
    (st.claimItemID ref key itemID).book =
      { st.book with
        tools := st.book.tools.modify ref fun tool ↦ { tool with itemID := itemID }
        itemKey := update st.book.itemKey itemID (some key) } := by
  have hlookup : st.pendingArgsByItemID.lookup itemID = none := h
  rw [claimItemID, if_neg hne]
  simp [modifyTool, hlookup, book, lookup_insert_update]

theorem book_claimCallID (hcall : trimSpace item.callId = c.callID) (hne : c.callID ≠ "") :
    (st.claimCallID ref key item).book =
      { st.book with
        tools := st.book.tools.modify ref fun tool ↦ { tool with callID := c.callID }
        callKey := update st.book.callKey c.callID (some key) } := by
  simp [claimCallID, hcall, hne, modifyTool, book, lookup_insert_update]

theorem book_claimName (hname : trimSpace item.name = c.name) (hne : c.name ≠ "") :
    (st.claimName ref item).book =
      { st.book with tools := st.book.tools.modify ref fun tool ↦ { tool with name := c.name } } := by
  simp [claimName, hname, hne, modifyTool, book]

def Book.claim (b : Book) (c : Call) (ref : ℕ) (key : Key) (pending : String) : Book :=
  { b with
    tools := b.tools.modify ref (c.fill pending)
    itemKey := update b.itemKey c.itemID (some key)
    callKey := update b.callKey c.callID (some key) }

structure Describes (c : Call) (item : Output) : Prop where
  itemID : Identifies c.itemID
  callID : Identifies c.callID
  name : Identifies c.name
  callId_eq : trimSpace item.callId = c.callID
  name_eq : trimSpace item.name = c.name

theorem book_claims (h : Describes c item) (hitems : ∀ id, st.book.pendingItems id = none) :
    (((st.claimItemID ref key c.itemID).claimCallID ref key item).claimName ref item).book =
      st.book.claim c ref key "" := by
  rw [book_claimName h.name_eq h.name.1, book_claimCallID h.callId_eq h.callID.1,
    book_claimItemID h.itemID.1 (hitems c.itemID)]
  simp [Book.claim, modify_modify_eq, comp_def, fill_eq]

theorem book_claims_pending (h : Describes c item) (hitems : ∀ id, st.book.pendingItems id = none)
    (hpending : st.book.pending c.outputIndex ≠ some "") :
    ((((st.claimOutputIndex ref key (some c.outputIndex)).claimItemID ref key c.itemID).claimCallID
        ref key item).claimName ref item).book =
      { st.book.claim c ref key ((st.book.pending c.outputIndex).getD "") with
        outputKey := update st.book.outputKey c.outputIndex (some key)
        pending := update st.book.pending c.outputIndex none } := by
  have hbook : (st.claimOutputIndex ref key (some c.outputIndex)).book = _ :=
    book_claimOutputIndex hpending
  rw [book_claims h (fun id ↦ by rw [hbook]; exact hitems id), hbook]
  simp [Book.claim, modify_modify_eq, comp_def, fill_eq]

end

section

def Call.tool (c : Call) (index : ℕ) (arguments : String) : Tool where
  key := .output c.outputIndex
  callID := c.callID
  itemID := c.itemID
  name := c.name
  arguments := arguments
  index := index
  sent := true
  nameSent := true
  argsSentAt := arguments.utf8ByteSize

def Call.Owns (c : Call) (key : Key) : Prop := key = .output c.outputIndex ∨ key = .item c.itemID

/-- The call has the tool at `i`. -/
structure Knows (b : Book) (c : Call) (i : ℕ) : Prop where
  output : b.outputKey c.outputIndex = some (.output c.outputIndex)
  tool : b.toolAt (.output c.outputIndex) = some i
  item : ∃ key, c.Owns key ∧ b.itemKey c.itemID = some key ∧ b.toolAt key = some i
  only : ∀ j, b.toolAt (.item c.itemID) = some j → j = i
  pending : b.pending c.outputIndex = none

/-- The call has no tool, and its arguments wait for one. -/
structure Awaits (b : Book) (c : Call) (arguments : String) : Prop where
  output : b.outputKey c.outputIndex = none
  tool : ∀ key, c.Owns key → b.toolAt key = none
  item : b.itemKey c.itemID = none
  call : b.callKey c.callID = none
  pending : b.pending c.outputIndex = if arguments = "" then none else some arguments

/-- The bookkeeping agrees with the stream. -/
structure Tracks (calls : Calls) (b : Book) (s : Source) : Prop where
  nodup : s.added.Nodup
  tools : b.tools = s.added.mapIdx fun i c ↦ c.tool i (s.arguments c)
  next : b.nextToolIndex = s.added.length
  known : ∀ (i : ℕ) c, s.added[i]? = some c → c ∈ calls.list ∧ Knows b c i
  awaited : ∀ c ∈ calls.list, c ∉ s.added → Awaits b c (s.arguments c)
  bound : ∀ key i, b.toolAt key = some i → i < s.added.length
  pending : ∀ outputIndex, b.pending outputIndex ≠ none → ∃ c ∈ calls.list, c.outputIndex = outputIndex
  items : ∀ itemID, b.pendingItems itemID = none

structure Touches (c : Call) (b b' : Book) : Prop where
  output : ∀ outputIndex, outputIndex ≠ c.outputIndex → b'.outputKey outputIndex = b.outputKey outputIndex
  tool : ∀ key, ¬ c.Owns key → b'.toolAt key = b.toolAt key
  item : ∀ itemID, itemID ≠ c.itemID → b'.itemKey itemID = b.itemKey itemID
  call : ∀ callID, callID ≠ c.callID → b'.callKey callID = b.callKey callID
  pending : ∀ outputIndex, outputIndex ≠ c.outputIndex → b'.pending outputIndex = b.pending outputIndex
  items : b'.pendingItems = b.pendingItems

variable {calls : Calls} {b b' : Book} {c c' : Call} {i : ℕ} {args : String} {s : Source} {key : Key}

structure Apart (c c' : Call) : Prop where
  output : c.outputIndex ≠ c'.outputIndex
  item : c.itemID ≠ c'.itemID
  call : c.callID ≠ c'.callID

theorem Calls.apart (hc : c ∈ calls.list) (hc' : c' ∈ calls.list) (hne : c ≠ c') : Apart c c' where
  output h := hne (calls.own c hc c' hc' (.inl h))
  item h := hne (calls.own c hc c' hc' (.inr (.inl h)))
  call h := hne (calls.own c hc c' hc' (.inr (.inr h)))

theorem Apart.not_owns (h : Apart c' c) (hkey : c'.Owns key) : ¬ c.Owns key := by
  rcases hkey with rfl | rfl
  · rintro (hkey | hkey)
    · exact h.output (Key.output.inj hkey)
    · cases hkey
  · rintro (hkey | hkey)
    · cases hkey
    · exact h.item (Key.item.inj hkey)

theorem Knows.frame (h : Knows b c' i) (ht : Touches c b b') (ha : Apart c' c) : Knows b' c' i := by
  have htool (key : Key) (hkey : c'.Owns key) : b'.toolAt key = b.toolAt key :=
    ht.tool key (ha.not_owns hkey)
  obtain ⟨key, hkey, hitem, hi⟩ := h.item
  exact
    { output := (ht.output _ ha.output).trans h.output
      tool := (htool _ (.inl rfl)).trans h.tool
      item := ⟨key, hkey, (ht.item _ ha.item).trans hitem, (htool key hkey).trans hi⟩
      only := fun j hj ↦ h.only j ((htool _ (.inr rfl)).symm.trans hj)
      pending := (ht.pending _ ha.output).trans h.pending }

theorem Awaits.frame (h : Awaits b c' args) (ht : Touches c b b') (ha : Apart c' c) :
    Awaits b' c' args where
  output := (ht.output _ ha.output).trans h.output
  tool key hkey := (ht.tool key (ha.not_owns hkey)).trans (h.tool key hkey)
  item := (ht.item _ ha.item).trans h.item
  call := (ht.call _ ha.call).trans h.call
  pending := (ht.pending _ ha.output).trans h.pending

/-- How the stream goes on for one call: it has the tool at `i`, and the other calls have what they
had. -/
structure Moves (s s' : Source) (c : Call) (i : ℕ) : Prop where
  nodup : s'.added.Nodup
  at_index : s'.added[i]? = some c
  others : ∀ (j : ℕ) c', s'.added[j]? = some c' → c' ≠ c → s.added[j]? = some c'
  mono : ∀ c' ∈ s.added, c' ∈ s'.added
  length : s.added.length ≤ s'.added.length
  arguments : ∀ c', c' ≠ c → s'.arguments c' = s.arguments c'

theorem Tracks.step {s' : Source} (h : Tracks calls b s) (ht : Touches c b b') (hm : Moves s s' c i)
    (hc : c ∈ calls.list) (hk : Knows b' c i)
    (hown : ∀ key j, c.Owns key → b'.toolAt key = some j → j = i)
    (htools : b'.tools = s'.added.mapIdx fun i c ↦ c.tool i (s'.arguments c))
    (hnext : b'.nextToolIndex = s'.added.length) : Tracks calls b' s' where
  nodup := hm.nodup
  tools := htools
  next := hnext
  known j c' hj := by
    by_cases hcc : c' = c
    · subst hcc
      have hji : j = i := (List.getElem?_inj (List.getElem?_eq_some_iff.1 hj).1 hm.nodup).1
        (hj.trans hm.at_index.symm)
      exact ⟨hc, hji ▸ hk⟩
    · obtain ⟨hc', hk'⟩ := h.known j c' (hm.others j c' hj hcc)
      exact ⟨hc', hk'.frame ht (calls.apart hc' hc hcc)⟩
  awaited c' hc' hnew := by
    have hcc : c' ≠ c := fun hcc ↦ hnew (hcc ▸ mem_of_getElem? hm.at_index)
    rw [hm.arguments c' hcc]
    exact (h.awaited c' hc' fun hold ↦ hnew (hm.mono c' hold)).frame ht (calls.apart hc' hc hcc)
  bound key j hj := by
    by_cases hkey : c.Owns key
    · rw [hown key j hkey hj]
      exact (List.getElem?_eq_some_iff.1 hm.at_index).1
    · exact Nat.lt_of_lt_of_le (h.bound key j ((ht.tool key hkey).symm.trans hj)) hm.length
  pending outputIndex hp := by
    by_cases ho : outputIndex = c.outputIndex
    · exact ⟨c, hc, ho.symm⟩
    · exact h.pending outputIndex (ht.pending outputIndex ho ▸ hp)
  items itemID := ht.items ▸ h.items itemID

theorem Moves.refl (hs : s.added.Nodup) (hi : s.added[i]? = some c) : Moves s s c i :=
  ⟨hs, hi, fun _ _ h _ ↦ h, fun _ h ↦ h, Nat.le.refl, fun _ _ ↦ rfl⟩

variable {delta : String}

theorem Moves.extend (hs : s.added.Nodup) (hi : s.added[i]? = some c) :
    Moves s (s.extend c delta) c i :=
  ⟨hs, hi, fun _ _ h _ ↦ h, fun _ h ↦ h, Nat.le.refl, fun _ h ↦ update_of_ne h _ _⟩

theorem Source.added_add (hc : c ∉ s.added) : (s.add c).added = s.added ++ [c] := if_neg hc

theorem Moves.add (hs : s.added.Nodup) (hc : c ∉ s.added) : Moves s (s.add c) c s.added.length := by
  refine ⟨?_, ?_, fun j c' hj hne ↦ ?_, fun c' h ↦ ?_, ?_, fun _ _ ↦ rfl⟩
  · rw [added_add hc, ← concat_eq_append]
    exact List.Nodup.concat hc hs
  · rw [added_add hc, getElem?_concat_length]
  · rw [added_add hc] at hj
    rcases Nat.lt_or_ge j s.added.length with hlt | hge
    · rwa [getElem?_append_left hlt] at hj
    rw [getElem?_append_right hge, getElem?_singleton] at hj
    split at hj
    · exact absurd (some.inj hj).symm hne
    · cases hj
  · rw [added_add hc]
    exact mem_append_left _ h
  · rw [added_add hc, length_append]
    exact Nat.le_add_right _ _

theorem Tracks.extend_pending (h : Tracks calls b s) (hc : c ∈ calls.list) (hnew : c ∉ s.added)
    (hne : delta ≠ "") :
    Tracks calls { b with pending := update b.pending c.outputIndex (some (s.arguments c ++ delta)) }
      (s.extend c delta) where
  nodup := h.nodup
  tools := by
    refine h.tools.trans (mapIdx_eq_mapIdx_iff.2 fun j hj ↦ ?_)
    have hne : s.added[j] ≠ c := fun hj' ↦ hnew (hj' ▸ getElem_mem hj)
    simp [Source.extend, update_of_ne hne]
  next := h.next
  known i c' hi := by
    obtain ⟨hc', hk⟩ := h.known i c' hi
    have hne : c' ≠ c := fun hcc ↦ hnew (hcc ▸ mem_of_getElem? hi)
    have hpending : update b.pending c.outputIndex (some (s.arguments c ++ delta)) c'.outputIndex =
        none := by rw [update_of_ne (calls.apart hc' hc hne).output, hk.pending]
    exact ⟨hc', hk.output, hk.tool, hk.item, hk.only, hpending⟩
  awaited c' hc' hnew' := by
    have hw := h.awaited c' hc' hnew'
    refine { hw with pending := ?_ }
    by_cases hcc : c' = c
    · subst hcc
      have hlong : s.arguments c' ++ delta ≠ "" := by simp [hne]
      simp only [Source.extend, update_self, if_neg hlong]
    · simp [Source.extend, update_of_ne hcc, update_of_ne (calls.apart hc' hc hcc).output,
        hw.pending]
  bound := h.bound
  pending outputIndex hp := by
    by_cases ho : outputIndex = c.outputIndex
    · exact ⟨c, hc, ho.symm⟩
    · have hp : update b.pending c.outputIndex _ outputIndex ≠ none := hp
      rw [update_of_ne ho] at hp
      exact h.pending outputIndex hp
  items := h.items

theorem Tracks.getElem? (h : Tracks calls b s) (hi : s.added[i]? = some c) :
    b.tools[i]? = some (c.tool i (s.arguments c)) := by
  rw [h.tools, getElem?_mapIdx, hi]
  rfl

theorem modify_eq_self (h : l[i]? = some a) (hf : f a = a) : l.modify i f = l := by
  refine ext_getElem? fun j ↦ ?_
  by_cases hij : i = j
  · rw [← hij, getElem?_modify_eq, h]
    exact congrArg some hf
  · rw [getElem?_modify_ne _ _ hij]

theorem Tracks.modify_extend {f : Tool → Tool} (h : Tracks calls b s) (hi : s.added[i]? = some c)
    (hf : f (c.tool i (s.arguments c)) = c.tool i (s.arguments c ++ delta)) :
    b.tools.modify i f =
      (s.extend c delta).added.mapIdx fun i c' ↦ c'.tool i ((s.extend c delta).arguments c') := by
  refine ext_getElem? fun j ↦ ?_
  have hadded : (s.extend c delta).added = s.added := rfl
  rw [getElem?_mapIdx, hadded]
  by_cases hij : i = j
  · subst hij
    rw [getElem?_modify_eq, h.getElem? hi, hi]
    simp [hf, Source.extend]
  rw [getElem?_modify_ne _ _ hij, h.tools, getElem?_mapIdx]
  cases hj : s.added[j]? with
  | none => rfl
  | some c' =>
    have hne : c' ≠ c := by
      rintro rfl
      exact hij ((List.getElem?_inj (List.getElem?_eq_some_iff.1 hi).1 h.nodup).1
        (hi.trans hj.symm))
    simp [Source.extend, update_of_ne hne]

structure Settles (c : Call) (i : ℕ) (key : Key) (b b' : Book) : Prop where
  owns : c.Owns key
  tool : b'.toolAt = update b.toolAt key (some i)
  output : b'.outputKey = update b.outputKey c.outputIndex (some (.output c.outputIndex))
  item : b'.itemKey = update b.itemKey c.itemID (some key)
  call : b'.callKey = update b.callKey c.callID (some key)
  pending : b'.pending = update b.pending c.outputIndex none
  items : b'.pendingItems = b.pendingItems

theorem Settles.with_tools (h : Settles c i key b b') (tools : List Tool) :
    Settles c i key b { b' with tools := tools } :=
  { h with }

theorem Settles.touches (h : Settles c i key b b') : Touches c b b' where
  output outputIndex hne := by rw [h.output, update_of_ne hne]
  tool key' hne := by
    have hkey : key' ≠ key := fun hkey ↦ hne (hkey ▸ h.owns)
    rw [h.tool, update_of_ne hkey]
  item itemID hne := by rw [h.item, update_of_ne hne]
  call callID hne := by rw [h.call, update_of_ne hne]
  pending outputIndex hne := by rw [h.pending, update_of_ne hne]
  items := h.items

theorem Settles.only (h : Settles c i key b b')
    (hold : ∀ key j, c.Owns key → b.toolAt key = some j → j = i) (key' : Key) (j : ℕ)
    (hkey : c.Owns key') (hj : b'.toolAt key' = some j) : j = i := by
  rw [h.tool] at hj
  by_cases heq : key' = key
  · rw [heq, update_self] at hj
    exact (some.inj hj).symm
  · rw [update_of_ne heq] at hj
    exact hold key' j hkey hj

theorem Settles.knows (h : Settles c i key b b')
    (hold : ∀ key j, c.Owns key → b.toolAt key = some j → j = i)
    (htool : b'.toolAt (.output c.outputIndex) = some i) : Knows b' c i where
  output := by rw [h.output, update_self]
  tool := htool
  item := ⟨key, h.owns, by rw [h.item, update_self], by rw [h.tool, update_self]⟩
  only j hj := h.only hold _ j (.inr rfl) hj
  pending := by rw [h.pending, update_self]

theorem Knows.owned (h : Knows b c i) (key : Key) (j : ℕ) (hkey : c.Owns key)
    (hj : b.toolAt key = some j) : j = i := by
  rcases hkey with rfl | rfl
  · exact some.inj (hj.symm.trans h.tool)
  · exact h.only j hj

theorem Tracks.settle (h : Tracks calls b s) (hi : s.added[i]? = some c)
    (hs : Settles c i key b b') (htools : b'.tools = b.tools)
    (hnext : b'.nextToolIndex = b.nextToolIndex) : Tracks calls b' s := by
  obtain ⟨hc, hk⟩ := h.known i c hi
  have htool : b'.toolAt (.output c.outputIndex) = some i := by
    rw [hs.tool]
    by_cases hkey : Key.output c.outputIndex = key
    · rw [hkey, update_self]
    · rw [update_of_ne hkey, hk.tool]
  exact h.step hs.touches (.refl h.nodup hi) hc (hs.knows hk.owned htool) (hs.only hk.owned)
    (htools.trans h.tools) (hnext.trans h.next)

end

structure Flags where
  (sentStart finalized hasSentText sawToolCall : Bool)

def State.flags (st : State υ) : Flags := ⟨st.sentStart, st.finalized, st.hasSentText, st.sawToolCall⟩

variable {st st' : State υ} {event : Event υ} {ref : ℕ} {key : Key} {item : Output} {itemID : String}

theorem flags_toolForKey {callID : String} :
    (st.toolForKey key itemID callID).1.flags = st.flags := by
  rw [toolForKey]
  split
  · rfl
  · dsimp only
    split <;> rfl

theorem flags_claimOutputIndex {outputIndex : Option ℤ} :
    (st.claimOutputIndex ref key outputIndex).flags = st.flags := by
  cases outputIndex with
  | none => rfl
  | some outputIndex =>
    simp only [claimOutputIndex]
    repeat' split
    all_goals rfl

theorem flags_claimItemID : (st.claimItemID ref key itemID).flags = st.flags := by
  simp only [claimItemID]
  repeat' split
  all_goals rfl

theorem flags_claimCallID : (st.claimCallID ref key item).flags = st.flags := by
  simp only [claimCallID]
  split <;> rfl

theorem flags_claimName : (st.claimName ref item).flags = st.flags := by
  rw [claimName]
  split <;> rfl

theorem flags_ensureToolForEvent : (st.ensureToolForEvent event).1.flags = st.flags := by
  rw [ensureToolForEvent]
  split
  · rfl
  split
  · rfl
  · simp [flags_claimName, flags_claimCallID, flags_claimItemID, flags_claimOutputIndex,
      flags_toolForKey]

variable {calls : Calls} {s : Source} {c : Call} {i : ℕ} {args : String}

theorem toolDelta_sent (h : st.tools[i]? = some (c.tool i args)) :
    st.toolDelta i "" = (st, []) := by
  simp [toolDelta, h, argsDelta, tool]

theorem ensureToolForEvent_eq (hitem : event.item = some item)
    (hkey : keyForEvent event = some key) (hid : responseStreamEventItemID event = c.itemID)
    (hfor : st.toolForKey key c.itemID (trimSpace item.callId) = (st', i)) :
    st.ensureToolForEvent event =
      ((((st'.claimOutputIndex i key event.outputIndex).claimItemID i key c.itemID).claimCallID i
        key item).claimName i item, some i) := by
  simp [ensureToolForEvent, hitem, hkey, hid, hfor]

theorem fill_tool : c.fill "" (c.tool i args) = c.tool i args := by
  simp [fill, tool]

theorem Tracks.ensure_known (h : Tracks calls st.book s) (hi : s.added[i]? = some c)
    (howns : c.owns event = true) (hitem : event.item = some item) (hd : Describes c item) :
    ∃ st', st.ensureToolForEvent event = (st', some i) ∧ Tracks calls st'.book s := by
  obtain ⟨hindex, hid⟩ := owns_iff.1 howns
  obtain ⟨hc, hk⟩ := h.known i c hi
  have hkey : keyForEvent event = some (.output c.outputIndex) := by
    rw [keyForEvent, hindex]
    rfl
  have hfor : st.toolForKey (.output c.outputIndex) c.itemID (trimSpace item.callId) = (st, i) := by
    have hlookup : st.toolByKey.lookup (.output c.outputIndex) = some i := hk.tool
    rw [toolForKey, hlookup]
  refine ⟨_, ensureToolForEvent_eq hitem hkey hid hfor, ?_⟩
  have hpending : st.book.pending c.outputIndex ≠ some "" := by
    rw [hk.pending]
    exact some_ne_none _ |>.symm
  rw [hindex, book_claims_pending hd h.items hpending, hk.pending]
  have htools := modify_eq_self (h.getElem? hi) fill_tool
  have howns : c.Owns (.output c.outputIndex) := .inl rfl
  exact h.settle hi ⟨howns, (update_eq_self_iff.2 hk.tool.symm).symm, rfl, rfl, rfl, rfl, rfl⟩
    htools rfl

/-- An output of the response at the end finds the tool of its call by its item id. -/
theorem Tracks.ensure_output (h : Tracks calls st.book s) (hi : s.added[i]? = some c)
    (hid : trimSpace item.id = c.itemID) (hd : Describes c item) :
    ∃ st', st.ensureToolForEvent { type := .other, item := some item } = (st', some i) ∧
      Tracks calls st'.book s := by
  obtain ⟨event, hevent⟩ : ∃ event : Event υ, event = { type := .other, item := some item } :=
    ⟨_, rfl⟩
  obtain ⟨-, hk⟩ := h.known i c hi
  have hitem : event.item = some item := hevent ▸ rfl
  have hkey : keyForEvent event = some (.item c.itemID) := by
    simp [hevent, keyForEvent, itemKey, hid, hd.itemID.1]
  have hid' : responseStreamEventItemID event = c.itemID := by
    simp [hevent, responseStreamEventItemID, hid, hd.itemID.1]
  -- the item id is known for a key of the tool, which the item key may be already
  obtain ⟨st', hfor, hbook⟩ : ∃ st',
      st.toolForKey (.item c.itemID) c.itemID (trimSpace item.callId) = (st', i) ∧
        st'.book = { st.book with toolAt := update st.book.toolAt (.item c.itemID) (some i) } := by
    rw [toolForKey]
    cases hlookup : st.toolByKey.lookup (.item c.itemID) with
    | some j =>
      obtain rfl := hk.only j hlookup
      refine ⟨st, rfl, ?_⟩
      have hself : update st.book.toolAt (.item c.itemID) (some j) = st.book.toolAt :=
        update_eq_self_iff.2 hlookup.symm
      rw [hself]
    | none =>
      obtain ⟨key, -, hitem, htool⟩ := hk.item
      have hitem : st.itemIDToKey.lookup c.itemID = some key := hitem
      have htool : st.toolByKey.lookup key = some i := htool
      simp only [ne_eq, hd.itemID.1, not_false_eq_true, if_true, hitem, bind_some, htool, some_or]
      refine ⟨_, rfl, ?_⟩
      simp [book, lookup_insert_update]
  rw [← hevent]
  refine ⟨_, ensureToolForEvent_eq hitem hkey hid' hfor, ?_⟩
  have hindex : event.outputIndex = none := hevent ▸ rfl
  rw [hindex, claimOutputIndex, book_claims hd (hbook ▸ h.items), hbook]
  have howns : c.Owns (.item c.itemID) := .inr rfl
  exact h.settle hi ⟨howns, rfl, (update_eq_self_iff.2 hk.output.symm).symm, rfl, rfl,
    (update_eq_self_iff.2 hk.pending.symm).symm, rfl⟩
    (modify_eq_self (h.getElem? hi) fill_tool) rfl

variable {tool : Tool} {delta explicitDelta : String} {b : Book}

structure Sends (st : State υ) (out : State υ × List (Chunk υ)) (i : ℕ) (delta : String)
    (response : ToolCall) : Prop where
  choices : choices out.2 = [⟨{ toolCalls := [response] }, none⟩]
  book : out.1.book = { st.book with tools := st.book.tools.modify i (·.record delta) }
  flags : out.1.flags = { st.flags with sawToolCall := true }

theorem sends_toolDelta (hstart : st.sentStart = true) (h : st.tools[i]? = some tool)
    (hdelta : tool.argsDelta explicitDelta = delta) (hsend : tool.sent = false ∨ delta ≠ "") :
    Sends st (st.toolDelta i explicitDelta) i delta (tool.response delta) := by
  have hsent : (tool.sent && decide (delta = "") &&
      (decide (tool.name = "") || tool.nameSent)) = false := by
    rcases hsend with hsend | hsend <;> simp [hsend]
  have hensure : st.ensureStart = (st, []) := by rw [ensureStart, if_pos hstart]
  simp only [toolDelta, h, hdelta, hsent, Bool.false_eq_true, if_false, hensure]
  exact ⟨rfl, rfl, rfl⟩

def Call.fresh (c : Call) (index : ℕ) (arguments : String) : Tool :=
  { c.tool index arguments with sent := false, nameSent := false, argsSentAt := 0 }

theorem fresh_argsDelta : (c.fresh i args).argsDelta "" = args := by
  by_cases h : args = ""
  · subst h
    rfl
  · have hpos : 0 < args.utf8ByteSize := by
      rw [Nat.pos_iff_ne_zero, ne_eq, String.utf8ByteSize_eq_zero_iff]
      exact h
    rw [argsDelta, if_pos ⟨rfl, hpos⟩]
    exact sliceFrom_zero

theorem fresh_record (h : c.name ≠ "") : (c.fresh i args).record args = c.tool i args := by
  simp [record, fresh, tool, h]

theorem Awaits.pending_ne (h : Awaits b c args) : b.pending c.outputIndex ≠ some "" := by
  rw [h.pending]
  split
  · exact (some_ne_none _).symm
  next hne => exact fun h ↦ hne (some.inj h)

theorem Awaits.pending_getD (h : Awaits b c args) : (b.pending c.outputIndex).getD "" = args := by
  rw [h.pending]
  split
  next heq => exact heq.symm
  · rfl

section

variable (h : Tracks calls st.book s)
include h

theorem Tracks.length : st.tools.length = s.added.length := by
  have htools : st.tools = _ := h.tools
  rw [htools, length_mapIdx]

omit h in
theorem Awaits.newTool (h : Awaits st.book c args) :
    st.toolForKey (.output c.outputIndex) c.itemID c.callID =
      st.newTool (.output c.outputIndex) "" := by
  have htool : st.toolByKey.lookup (.output c.outputIndex) = none := h.tool _ (.inl rfl)
  have hitem : st.itemIDToKey.lookup c.itemID = none := h.item
  have hcall : st.callIDToKey.lookup c.callID = none := h.call
  simp [toolForKey, htool, hitem, hcall]

omit h in
theorem modify_concat : (l ++ [a]).modify l.length f = l ++ [f a] := by
  induction l with
  | nil => rfl
  | cons b l ih => simp [ih]

/-- The first item of a call makes its tool, which takes the arguments that wait for it. -/
theorem Tracks.ensure_new (hc : c ∈ calls.list) (hnew : c ∉ s.added) (howns : c.owns event = true)
    (hitem : event.item = some item) (hd : Describes c item) :
    ∃ st', st.ensureToolForEvent event = (st', some s.added.length) ∧
      Settles c s.added.length (.output c.outputIndex) st.book st'.book ∧
      st'.book.tools = st.book.tools ++ [c.fresh s.added.length (s.arguments c)] ∧
      st'.book.nextToolIndex = s.added.length + 1 := by
  obtain ⟨hindex, hid⟩ := owns_iff.1 howns
  have hw := h.awaited c hc hnew
  have hkey : keyForEvent event = some (.output c.outputIndex) := by
    rw [keyForEvent, hindex]
    rfl
  obtain ⟨st', hst'⟩ : ∃ st', st' = (st.newTool (.output c.outputIndex) "").1 := ⟨_, rfl⟩
  have hbook : st'.book =
      { st.book with
        tools := st.book.tools ++
          [{ key := .output c.outputIndex, callID := "", index := s.added.length }]
        nextToolIndex := s.added.length + 1
        toolAt := update st.book.toolAt (.output c.outputIndex) (some s.added.length) } := by
    have hnext : st.nextToolIndex = s.added.length := h.next
    rw [hst']
    simp [newTool, book, lookup_insert_update, hnext, h.length]
  have hfor : st.toolForKey (.output c.outputIndex) c.itemID (trimSpace item.callId) =
      (st', s.added.length) := by
    rw [hd.callId_eq, hw.newTool, hst', ← h.length]
    rfl
  have hpending : st'.book.pending = st.book.pending := by rw [hbook]
  have hitems (id : String) : st'.book.pendingItems id = none := by
    rw [hbook]
    exact h.items id
  refine ⟨_, ensureToolForEvent_eq hitem hkey hid hfor, ?_⟩
  rw [hindex, book_claims_pending hd hitems (hpending ▸ hw.pending_ne), hpending, hw.pending_getD,
    hbook]
  refine ⟨⟨.inl rfl, rfl, rfl, rfl, rfl, rfl, rfl⟩, ?_, rfl⟩
  have hlength : s.added.length = st.book.tools.length := h.length.symm
  simp only [Book.claim, hlength, modify_concat]
  simp [fill, fresh, tool]

theorem Tracks.toolItem_new (hstart : st.sentStart = true) (hc : c ∈ calls.list)
    (hnew : c ∉ s.added) (howns : c.owns event = true) (hitem : event.item = some item)
    (hd : Describes c item) (hargs : item.arguments = "") :
    choices (st.toolItem event).2 =
        [⟨{ toolCalls := [⟨some s.added.length, c.callID, c.name, s.arguments c⟩] }, none⟩] ∧
      Tracks calls (st.toolItem event).1.book (s.add c) ∧
      (st.toolItem event).1.flags = { st.flags with sawToolCall := true } := by
  obtain ⟨st', hensure, hsettles, htools, hnext⟩ := h.ensure_new hc hnew howns hitem hd
  have hflags : (st.ensureToolForEvent event).1.flags = st.flags := flags_ensureToolForEvent
  rw [hensure] at hflags
  have hfresh : st'.tools[s.added.length]? = some (c.fresh s.added.length (s.arguments c)) := by
    have htools : st'.tools = _ := htools
    rw [htools, ← h.length]
    exact getElem?_concat_length
  have hsends := sends_toolDelta (congrArg Flags.sentStart hflags |>.trans hstart) hfresh
    fresh_argsDelta (.inl rfl)
  simp only [response, fresh, tool, hd.callID.1, hd.callID.2] at hsends
  have heq : st.toolItem event = st'.toolDelta s.added.length "" := by
    simp [toolItem, hensure, hitem, hargs]
  rw [heq]
  refine ⟨hsends.choices, ?_, hsends.flags.trans (by rw [hflags])⟩
  have hw := h.awaited c hc hnew
  have hold (key : Key) (j : ℕ) (hkey : c.Owns key) (hj : st.book.toolAt key = some j) :
      j = s.added.length := absurd ((hw.tool key hkey).symm.trans hj) (some_ne_none j).symm
  have htool : st'.book.toolAt (.output c.outputIndex) = some s.added.length := by
    rw [hsettles.tool, update_self]
  have hlength : s.added.length = st.book.tools.length := h.length.symm
  rw [hsends.book]
  have hsettles := hsettles.with_tools (st'.book.tools.modify s.added.length
    (·.record (s.arguments c)))
  refine h.step hsettles.touches (.add h.nodup hnew) hc (hsettles.knows hold htool)
    (hsettles.only hold) ?_ ?_
  · rw [added_add hnew, mapIdx_concat, htools]
    simp only [hlength, modify_concat, fresh_record hd.name.1]
    exact congrArg (· ++ _) h.tools
  · rw [added_add hnew, length_append]
    exact hnext

omit h in
structure Idle (calls : Calls) (s : Source) (st : State υ) (out : State υ × List (Chunk υ)) :
    Prop where
  chunks : out.2 = []
  tracks : Tracks calls out.1.book s
  flags : out.1.flags = st.flags

omit h in
theorem Tracks.toolItem_known (h : Tracks calls st'.book s)
    (hensure : st.ensureToolForEvent event = (st', some i)) (hi : s.added[i]? = some c)
    (hitem : event.item = some item) (hargs : s.repeats c item = true) :
    Idle calls s st (st.toolItem event) := by
  have hflags : (st.ensureToolForEvent event).1.flags = st.flags := flags_ensureToolForEvent
  rw [hensure] at hflags
  rw [repeats, Bool.or_eq_true, decide_eq_true_eq, decide_eq_true_eq] at hargs
  have htool : st'.tools[i]? = some (c.tool i (s.arguments c)) := h.getElem? hi
  have hsame : (if item.arguments ≠ "" then
      st'.modifyTool i fun tool ↦ { tool with arguments := item.arguments } else st') = st' := by
    split
    next hne =>
      have htools : st'.tools.modify i (fun tool ↦ { tool with arguments := item.arguments }) =
          st'.tools := by
        refine modify_eq_self htool ?_
        rw [hargs.resolve_left hne]
        rfl
      rw [modifyTool, htools]
    · rfl
  have heq : st.toolItem event = (st', []) := by
    simp only [toolItem, hensure, hitem]
    rw [hsame, toolDelta_sent htool]
  rw [heq]
  exact ⟨rfl, h, hflags⟩

theorem Tracks.findTool_known (hi : s.added[i]? = some c) (howns : c.owns event = true) :
    st.findToolForEvent event = some i := by
  rw [owns_iff] at howns
  obtain ⟨-, hk⟩ := h.known i c hi
  have hkey : st.outputIndexToKey.lookup c.outputIndex = some (.output c.outputIndex) := hk.output
  have htool : st.toolByKey.lookup (.output c.outputIndex) = some i := hk.tool
  simp [findToolForEvent, howns.1, hkey, htool]

theorem Tracks.flushPendingTool (hi : s.added[i]? = some c) (howns : c.owns event = true) :
    Idle calls s st (st.flushPendingTool event) := by
  rw [State.flushPendingTool, h.findTool_known hi howns]
  dsimp only
  rw [toolDelta_sent (h.getElem? hi)]
  exact ⟨rfl, h, rfl⟩

theorem Tracks.argumentsDelta_known (hstart : st.sentStart = true) (hi : s.added[i]? = some c)
    (howns : c.owns event = true) (hne : event.delta ≠ "") :
    choices (st.toolArgumentsDelta event).2 =
        [⟨{ toolCalls := [⟨some i, c.callID, "", event.delta⟩] }, none⟩] ∧
      Tracks calls (st.toolArgumentsDelta event).1.book (s.extend c event.delta) ∧
      (st.toolArgumentsDelta event).1.flags = { st.flags with sawToolCall := true } := by
  obtain ⟨hc, hk⟩ := h.known i c hi
  obtain ⟨st', hst'⟩ : ∃ st', st' = st.modifyTool i fun tool ↦
    { tool with arguments := tool.arguments ++ event.delta } := ⟨_, rfl⟩
  have htool : st'.tools[i]? = some
      { c.tool i (s.arguments c) with arguments := s.arguments c ++ event.delta } := by
    have htool : st.tools[i]? = _ := h.getElem? hi
    simp only [hst', modifyTool, getElem?_modify_eq, htool]
    rfl
  have hdelta : argsDelta
      { c.tool i (s.arguments c) with arguments := s.arguments c ++ event.delta } event.delta =
        event.delta := by
    rw [argsDelta, if_neg fun h ↦ hne h.1]
  have hsends := sends_toolDelta (hst' ▸ hstart) htool hdelta (.inr hne)
  have heq : st.toolArgumentsDelta event = st'.toolDelta i event.delta := by
    rw [toolArgumentsDelta, if_neg hne, h.findTool_known hi howns, hst']
  have hid := calls.callID c hc
  rw [heq]
  refine ⟨hsends.choices.trans ?_, ?_, hsends.flags.trans (by rw [hst']; rfl)⟩
  · simp [response, tool, hid.1, hid.2]
  · rw [hsends.book, hst']
    have howned := hk.owned
    refine h.step (c := c) ?_ (.extend h.nodup hi) hc ?_ howned ?_ h.next
    · exact ⟨fun _ _ ↦ rfl, fun _ _ ↦ rfl, fun _ _ ↦ rfl, fun _ _ ↦ rfl, fun _ _ ↦ rfl, rfl⟩
    · exact { hk with }
    · have hf : record { c.tool i (s.arguments c) with
          arguments := s.arguments c ++ event.delta } event.delta =
            c.tool i (s.arguments c ++ event.delta) := by
        simp [record, tool, String.utf8ByteSize_append]
      have hbook : (st.modifyTool i fun tool ↦
          { tool with arguments := tool.arguments ++ event.delta }).book.tools =
            st.book.tools.modify i _ := rfl
      rw [hbook, modify_modify_eq]
      exact h.modify_extend hi hf

theorem Tracks.argumentsDelta_pending (hc : c ∈ calls.list) (hnew : c ∉ s.added)
    (howns : c.owns event = true) (hid : trimSpace event.itemID = c.itemID) (hne : event.delta ≠ "")
    : Idle calls (s.extend c event.delta) st (st.toolArgumentsDelta event) := by
  obtain ⟨hindex, -⟩ := owns_iff.1 howns
  have hw := h.awaited c hc hnew
  have hfind : st.findToolForEvent event = none := by
    have hkey : st.outputIndexToKey.lookup c.outputIndex = none := hw.output
    have hitem : st.itemIDToKey.lookup (trimSpace event.itemID) = none := hid ▸ hw.item
    have htool : st.toolByKey.lookup (.output c.outputIndex) = none := hw.tool _ (.inl rfl)
    simp only [findToolForEvent, hindex, bind_some, hkey, hitem, ite_self]
    cases event.item with
    | none => rfl
    | some item => simp [keyForEvent, hindex, htool]
  have hpending : (st.pendingArgsByOutputIndex.lookup c.outputIndex).getD "" = s.arguments c :=
    hw.pending_getD
  rw [toolArgumentsDelta, if_neg hne, hfind]
  simp only [hindex, hpending]
  refine ⟨rfl, ?_, rfl⟩
  have htracks := h.extend_pending hc hnew hne
  simpa [book, lookup_insert_update] using htracks

end

theorem erase_of_lookup [DecidableEq α] (h : m.lookup a = none) : m.erase a = m :=
  ext (kerase_of_notMem_keys (lookup_eq_none.1 h))

theorem claimPending_eq (hpending : ∀ outputIndex, st.book.pending outputIndex = none)
    (hitems : ∀ itemID, st.book.pendingItems itemID = none) : st.claimPending i key = st := by
  have hsame : st.tools.modify i (fun tool ↦ { tool with arguments := tool.arguments ++ "" }) =
      st.tools := modify_id_of_eq fun tool ↦ by rw [String.append_empty]
  cases key with
  | output outputIndex =>
    have hlookup : st.pendingArgsByOutputIndex.lookup outputIndex = none := hpending outputIndex
    simp only [claimPending, hlookup, getD_none, modifyTool, hsame, erase_of_lookup hlookup]
  | item itemID =>
    have hlookup : st.pendingArgsByItemID.lookup itemID = none := hitems itemID
    simp only [claimPending, hlookup, getD_none, modifyTool, hsame, erase_of_lookup hlookup]
  | call callID => rfl

theorem Tracks.flushAllPendingTools (h : Tracks calls st.book s)
    (hall : ∀ c ∈ calls.list, c ∈ s.added) : st.flushAllPendingTools = (st, []) := by
  have hpending (outputIndex : ℤ) : st.book.pending outputIndex = none := by
    by_contra hne
    obtain ⟨c, hc, rfl⟩ := h.pending outputIndex hne
    obtain ⟨i, hi⟩ := List.mem_iff_getElem?.1 (hall c hc)
    exact hne (h.known i c hi).2.pending
  refine transduce_fixed fun key hkey ↦ ?_
  have hkey : key ∈ st.toolByKey.keys := by
    rw [pendingKeys, List.mem_insertionSort] at hkey
    simp only [List.mem_append, List.mem_filter, List.mem_map] at hkey
    rcases hkey with (hkey | ⟨⟨outputIndex, hmem, -⟩, -⟩) | ⟨⟨itemID, hmem, -⟩, -⟩
    · exact hkey
    · exact absurd hmem (lookup_eq_none.1 (hpending outputIndex))
    · exact absurd hmem (lookup_eq_none.1 (h.items itemID))
  obtain ⟨i, hi⟩ := isSome_iff_exists.1 (lookup_isSome.2 hkey)
  have hget := List.getElem?_eq_getElem (h.bound key i hi)
  simp only [flushKey, hi, claimPending_eq hpending h.items]
  exact toolDelta_sent (h.getElem? hget)

end Moligate.Convert.Responses
