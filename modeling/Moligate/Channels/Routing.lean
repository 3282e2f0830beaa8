import Moligate.Channels.Cache
import Moligate.Foundation.Run

namespace Moligate.Channels

open Foundation Option Table Call List Index

variable {rt : Runtime} {index index' : Index}

section

variable {cache : Cache} {group model requestPath : String} {retry random : ℤ}

variable {id : ℤ} {ch : Channel} {ids : List ℤ}

theorem mem_of_filtered
    (h : id ∈ filterChannelsByRequestPathAndModel rt cache ids requestPath model) : id ∈ ids := by
  rw [filterChannelsByRequestPathAndModel] at h
  split at h
  · exact h
  · exact mem_of_mem_filter h

theorem candidates_indexed (h : id ∈ candidates rt cache group model requestPath) :
    ∃ model', id ∈ cache.group2model2channels.channels group model' := by
  simp only [candidates] at h
  split at h <;> exact ⟨_, mem_of_filtered h⟩

theorem lookupAll_found {channels : List Channel} (h : cache.lookupAll ids = .ok channels) :
    ∀ ch ∈ channels, ∃ id ∈ ids, cache.channelsIDM.find id = some ch := by
  induction ids generalizing channels with
  | nil =>
    cases h
    simp
  | cons id ids ih =>
    obtain ⟨ch, hch, h⟩ := bind_eq_ok.1 h
    obtain ⟨rest, hrest, h⟩ := bind_eq_ok.1 h
    cases h
    intro ch' hmem
    rcases mem_cons.1 hmem with rfl | hmem
    · exact ⟨id, mem_cons_self, required_eq_ok.1 hch⟩
    · obtain ⟨id', hid', hf⟩ := ih hrest ch' hmem
      exact ⟨id', mem_cons_of_mem _ hid', hf⟩

theorem pickByWeight_mem {s : Smoothing} {targets : List Channel} {randomWeight : ℤ}
    (h : pickByWeight s targets randomWeight = some ch) : ch ∈ targets := by
  induction targets generalizing randomWeight with
  | nil => simp [pickByWeight] at h
  | cons first rest ih =>
    simp only [pickByWeight] at h
    split at h
    · exact mem_cons.2 (.inl (some.inj h).symm)
    · exact mem_cons_of_mem _ (ih h)

theorem getRandomSatisfiedChannel_indexed
    (h : getRandomSatisfiedChannel rt cache group model retry requestPath random = .ok (some ch)) :
    ∃ id model', id ∈ cache.group2model2channels.channels group model' ∧
      cache.channelsIDM.find id = some ch := by
  suffices ∃ id ∈ candidates rt cache group model requestPath,
      cache.channelsIDM.find id = some ch by
    obtain ⟨id, hid, hf⟩ := this
    obtain ⟨model', hm⟩ := candidates_indexed hid
    exact ⟨id, model', hm, hf⟩
  unfold getRandomSatisfiedChannel at h
  split at h
  · simp at h
  next id hids =>
    obtain ⟨ch', hch, h⟩ := bind_eq_ok.1 h
    obtain rfl := some.inj (pure_eq_ok.1 h)
    exact ⟨id, by rw [hids]; exact mem_singleton_self _, required_eq_ok.1 hch⟩
  · obtain ⟨channels, hchannels, h⟩ := bind_eq_ok.1 h
    obtain ⟨priority, -, h⟩ := bind_eq_ok.1 h
    obtain ⟨-, -, h⟩ := bind_eq_ok.1 h
    dsimp only at h
    split at h
    · simp at h
    obtain ⟨ch', hpick, h⟩ := bind_eq_ok.1 h
    obtain rfl := some.inj (pure_eq_ok.1 h)
    have hmem := pickByWeight_mem (required_eq_ok.1 hpick)
    exact lookupAll_found hchannels ch' (mem_of_mem_filter hmem)

end

def idsOf (group model : String) (es : List (String × String × ℤ)) : List ℤ :=
  (es.filter fun e ↦ e.1 = group && e.2.1 = model).map fun e ↦ e.2.2

theorem count_idsOf (group model : String) (id : ℤ) (es : List (String × String × ℤ)) :
    (idsOf group model es).count id = es.count (group, model, id) := by
  induction es with
  | nil => rfl
  | cons e es ih =>
    obtain ⟨g, m, i⟩ := e
    rw [idsOf] at ih ⊢
    by_cases h : g = group ∧ m = model
    · simp [h, count_cons, ih]
    · rw [filter_cons_of_neg (by simpa using not_and.1 h), ih, count_cons_of_ne]
      rintro ⟨⟩
      exact h ⟨rfl, rfl⟩

theorem channels_append {e : String × String × ℤ}
    (h : index.append e = some index') (group model : String) :
    index'.channels group model = index.channels group model ++ idsOf group model [e] := by
  obtain ⟨models, hm, rfl⟩ := map_eq_some_iff.1 h
  by_cases hg : e.1 = group
  · subst hg
    by_cases hmodel : e.2.1 = model
    · subst hmodel
      simp [channels, idsOf, hm]
    · simp [channels, idsOf, hm, hmodel, Function.update_of_ne (Ne.symm hmodel)]
  · simp [channels, idsOf, hg, Function.update_of_ne (Ne.symm hg)]

theorem channels_appendAll {es : List (String × String × ℤ)}
    (h : appendAll index es = some index') (group model : String) :
    index'.channels group model = index.channels group model ++ idsOf group model es := by
  induction es generalizing index with
  | nil =>
    cases h
    simp [idsOf]
  | cons e es ih =>
    obtain ⟨next, hnext, h⟩ := bind_eq_some_iff.1 h
    rw [ih h, channels_append hnext, append_assoc]
    congr 1
    rw [idsOf, idsOf, idsOf, ← map_append, ← filter_append, singleton_append]

theorem channels_emptyIndex (abilities : List Ability) (group model : String) :
    (emptyIndex abilities).channels group model = [] := by
  by_cases h : abilities.any fun a ↦ decide (a.group = group) <;> simp [channels, emptyIndex, h]

section

/-- No entry of its two lists is repeated. -/
def Channel.Distinct (ch : Channel) : Prop :=
  (Strings.split ch.group ",").Nodup ∧ (Strings.split ch.models ",").Nodup

variable {ch : Channel} {id : ℤ} {old : Table Channel.id} {db : Database} {group model : String}
  {cache cache' : Cache} {channels : List Channel} {named : ℤ → Prop}

theorem entriesOf_nodup (h : ch.Distinct) : (entriesOf ch).Nodup := by
  refine nodup_flatMap.2 ⟨fun group _ ↦ ?_, ?_⟩
  · refine h.2.map fun model model' he ↦ ?_
    exact (Prod.mk.inj (Prod.mk.inj he).2).1
  · refine h.1.imp fun {group group'} hne ↦ ?_
    intro e he he'
    obtain ⟨model, -, rfl⟩ := mem_map.1 he
    obtain ⟨model', -, he⟩ := mem_map.1 he'
    exact hne (Prod.mk.inj he).1.symm

theorem id_of_mem_entriesOf (h : (group, model, id) ∈ entriesOf ch) : ch.id = id := by
  obtain ⟨_, -, h⟩ := mem_flatMap.1 h
  obtain ⟨_, -, h⟩ := mem_map.1 h
  exact (Prod.mk.inj (Prod.mk.inj h).2).2

theorem entries_enabled (h : (group, model, id) ∈ entries channels) :
    ∃ ch ∈ channels, ch.id = id ∧ ch.status = channelStatusEnabled := by
  obtain ⟨ch, hch, h⟩ := mem_flatMap.1 h
  obtain ⟨hmem, hstatus⟩ := mem_filter.1 hch
  exact ⟨ch, hmem, id_of_mem_entriesOf h, by simpa using hstatus⟩

theorem entries_cons (ch : Channel) (channels : List Channel) :
    entries (ch :: channels) =
      (if ch.status = channelStatusEnabled then entriesOf ch else []) ++ entries channels := by
  by_cases h : ch.status = channelStatusEnabled <;> simp [entries, h]

theorem count_entries_le_one (hids : (channels.map Channel.id).Nodup)
    (hdistinct : ∀ ch ∈ channels, ch.id = id → ch.status = channelStatusEnabled → ch.Distinct) :
    (entries channels).count (group, model, id) ≤ 1 := by
  induction channels with
  | nil => simp [entries]
  | cons ch channels ih =>
    obtain ⟨hnew, hids⟩ := nodup_cons.1 hids
    rw [entries_cons, count_append]
    by_cases hid : ch.id = id
    · -- the other channels have other ids
      have hrest : (entries channels).count (group, model, id) = 0 := by
        refine count_eq_zero.2 fun hmem ↦ hnew ?_
        obtain ⟨ch', hch', hid', -⟩ := entries_enabled hmem
        exact mem_map.2 ⟨ch', hch', hid'.trans hid.symm⟩
      rw [hrest, Nat.add_zero]
      split
      next henabled =>
        have hd := hdistinct ch mem_cons_self hid henabled
        exact nodup_iff_count_le_one.1 (entriesOf_nodup hd) _
      · simp
    · have hhead : (if ch.status = channelStatusEnabled then entriesOf ch else []).count
          (group, model, id) = 0 := by
        refine count_eq_zero.2 fun hmem ↦ ?_
        split at hmem
        · exact hid (id_of_mem_entriesOf hmem)
        · simp at hmem
      rw [hhead, Nat.zero_add]
      exact ih hids fun ch' hch' ↦ hdistinct ch' (mem_cons_of_mem _ hch')

/-- Every id of the index has an enabled channel, and an id that a call may name is at most once in
a list. -/
structure Routable (named : ℤ → Prop) (cache : Cache) : Prop where
  enabled : ∀ group model, ∀ id ∈ cache.group2model2channels.channels group model,
    ∃ ch, cache.channelsIDM.find id = some ch ∧ ch.status = channelStatusEnabled
  once : ∀ id, named id → ∀ group model,
    (cache.group2model2channels.channels group model).count id ≤ 1

theorem initChannelCache_perm (h : initChannelCache rt old db = some cache) (group model : String) :
    (cache.group2model2channels.channels group model).Perm
      (idsOf group model (entries db.channels.rows)) := by
  obtain ⟨index, hindex, rfl⟩ := map_eq_some_iff.1 h
  have hsorted : ((sortByPriority rt db.channels index).channels group model).Perm
      (index.channels group model) := by
    cases h : index group with
    | none => simp [channels, sortByPriority, h]
    | some models =>
      simp only [channels, sortByPriority, h, map_some]
      exact rt.sortSlice_perm _ _
  rwa [channels_appendAll hindex, channels_emptyIndex, nil_append] at hsorted

theorem routable_init (h : initChannelCache rt old db = some cache)
    (hdistinct : ∀ id, named id → ∀ ch ∈ db.channels.rows, ch.id = id →
      ch.status = channelStatusEnabled → ch.Distinct) : Routable named cache := by
  constructor
  · intro group model id hid
    have hcount := count_pos_iff.2 ((initChannelCache_perm h group model).mem_iff.1 hid)
    rw [count_idsOf] at hcount
    obtain ⟨ch, hch, rfl, hstatus⟩ := entries_enabled (count_pos_iff.1 hcount)
    obtain ⟨index, -, rfl⟩ := map_eq_some_iff.1 h
    exact ⟨_, by rw [find_update, find_of_mem hch, map_some],
      (cachedChannel_status rt old ch).trans hstatus⟩
  · intro id hid group model
    rw [(initChannelCache_perm h group model).count_eq, count_idsOf]
    exact count_entries_le_one db.channels.nodup (hdistinct id hid)

structure Updates (id : ℤ) (cache cache' : Cache) : Prop where
  others : ∀ k ≠ id, cache'.channelsIDM.find k = cache.channelsIDM.find k
  index : (cache'.group2model2channels = cache.group2model2channels ∧
      ∀ ch, cache.channelsIDM.find id = some ch → ch.status = channelStatusEnabled →
        ∃ ch', cache'.channelsIDM.find id = some ch' ∧ ch'.status = channelStatusEnabled) ∨
    ∀ group model, cache'.group2model2channels.channels group model =
      (cache.group2model2channels.channels group model).erase id

theorem updates_cacheUpdateChannelStatus {status : ℤ} {t : Table Channel.id}
    (hothers : ∀ k ≠ id, t.find k = cache.channelsIDM.find k) (hid : ∃ ch, t.find id = some ch) :
    Updates id cache (cacheUpdateChannelStatus { cache with channelsIDM := t } id status) := by
  constructor
  · intro k hk
    rw [cacheUpdateChannelStatus, find_update, ← hothers k hk]
    cases hf : t.find k with
    | none => rfl
    | some ch => rw [map_some, if_neg ((key_of_find hf : ch.id = k) ▸ hk)]
  · by_cases hstatus : status = channelStatusEnabled
    · refine .inl ⟨if_neg (not_not.2 hstatus), fun _ _ _ ↦ ?_⟩
      obtain ⟨ch, hf⟩ := hid
      refine ⟨{ ch with status := status }, ?_, hstatus⟩
      rw [cacheUpdateChannelStatus, find_update, hf, map_some, if_pos (key_of_find hf)]
    · refine .inr fun group model ↦ ?_
      rw [cacheUpdateChannelStatus, if_pos hstatus]
      cases h : cache.group2model2channels group <;> simp [channels, h]

theorem updates_updateCachedStatus {u : StatusUpdate}
    (h : updateCachedStatus rt cache u = some cache') : Updates u.channelId cache cache' := by
  rw [updateCachedStatus] at h
  split at h
  · simp at h
  next ch hf =>
  split at h
  · -- the handler of a multi-key channel has written the cached channel itself
    cases h
    have hkey : (handlerMultiKeyUpdate rt ch u).id = u.channelId :=
      (handlerMultiKeyUpdate_id rt ch u).trans (key_of_find hf)
    have hself : (cache.channelsIDM.save (handlerMultiKeyUpdate rt ch u)).find u.channelId =
        some (handlerMultiKeyUpdate rt ch u) := by
      rw [← hkey] at hf ⊢
      exact find_save_self hf
    have hothers : ∀ k ≠ u.channelId, (cache.channelsIDM.save (handlerMultiKeyUpdate rt ch u)).find
        k = cache.channelsIDM.find k := fun k hk ↦ find_save_of_ne (by rwa [hkey])
    split
    · exact updates_cacheUpdateChannelStatus hothers ⟨_, hself⟩
    next hstatus =>
      refine ⟨hothers, .inl ⟨rfl, fun ch' hf' henabled ↦ ⟨_, hself, ?_⟩⟩⟩
      obtain rfl := some.inj (hf.symm.trans hf')
      exact (not_not.1 hstatus).symm.trans henabled
  · split at h
    · simp at h
    · cases h
      exact updates_cacheUpdateChannelStatus (fun _ _ ↦ rfl) ⟨ch, hf⟩

theorem Routable.updates (h : Routable named cache)
    (hu : Updates id cache cache') (hid : named id) : Routable named cache' := by
  rcases hu.index with ⟨hindex, hself⟩ | herase
  · refine ⟨fun group model k hk ↦ ?_, fun k hk ↦ hindex ▸ h.once k hk⟩
    rw [hindex] at hk
    obtain ⟨ch, hf, henabled⟩ := h.enabled group model k hk
    by_cases heq : k = id
    · subst heq
      exact hself ch hf henabled
    · exact ⟨ch, (hu.others k heq).trans hf, henabled⟩
  · constructor
    · intro group model k hk
      rw [herase] at hk
      obtain ⟨ch, hf, henabled⟩ := h.enabled group model k (mem_of_mem_erase hk)
      refine ⟨ch, (hu.others k ?_).trans hf, henabled⟩
      -- the id stood in the list once, and it has been erased
      rintro rfl
      have hcount := count_pos_iff.2 hk
      rw [count_erase_self] at hcount
      have := h.once k hid group model
      omega
    · intro k hk group model
      rw [herase]
      exact ((erase_sublist).count_le k).trans (h.once k hk group model)

end

variable (rt) in
def step (s : State) (call : StatusUpdate × Failures) : Option State :=
  some (updateChannelStatus rt call.1 call.2 s).1

theorem Routable.step {named : ℤ → Prop} {s t : State} {call : StatusUpdate × Failures}
    (h : Routable named s.cache) (hid : named call.1.channelId)
    (hstep : Channels.step rt s call = some t) : Routable named t.cache := by
  cases hstep
  rw [updateChannelStatus]
  split
  · exact h
  next hcache => exact h.updates (updates_updateCachedStatus hcache) hid

/-- A channel that is selected is enabled in the cache, after any calls that change the status of
channels without repeated entries. -/
theorem disabled_channel_not_routed {old : Table Channel.id} {db : Database} {cache : Cache}
    (hinit : initChannelCache rt old db = some cache) (calls : List (StatusUpdate × Failures))
    (hdistinct : ∀ call ∈ calls, ∀ ch ∈ db.channels.rows, ch.id = call.1.channelId →
      ch.status = channelStatusEnabled → ch.Distinct)
    {s : State} (hrun : exec (step rt) ⟨db, cache⟩ calls = some s)
    (group model : String) (retry : ℤ) (requestPath : String) (random : ℤ) {ch : Channel}
    (hselect : getRandomSatisfiedChannel rt s.cache group model retry requestPath random =
      .ok (some ch)) :
    s.cache.channelsIDM.find ch.id = some ch ∧ ch.status = channelStatusEnabled := by
  let named (id : ℤ) : Prop := ∃ call ∈ calls, call.1.channelId = id
  have hstart : Routable named cache := by
    refine routable_init hinit ?_
    rintro _ ⟨call, hcall, rfl⟩
    exact hdistinct call hcall
  have hall : ∀ call ∈ calls, named call.1.channelId := fun call hcall ↦ ⟨call, hcall, rfl⟩
  have hend := exec_invariant (I := fun s ↦ Routable named s.cache) (fun _ _ _ h hid ↦ h.step hid)
    hstart (guarded_of_forall hall) hrun
  obtain ⟨id, model', hid, hf⟩ := getRandomSatisfiedChannel_indexed hselect
  obtain ⟨ch', hf', henabled⟩ := hend.enabled group model' id hid
  obtain rfl := some.inj (hf.symm.trans hf')
  exact ⟨(key_of_find hf : ch.id = id) ▸ hf, henabled⟩

namespace RoutingExample

def runtime : Runtime where
  trimSpace := id
  matchString _ := none
  unmarshalArray _ := none
  sortSlice less ids := ids.insertionSort fun i j ↦ !less j i
  sortSlice_perm _ _ := perm_insertionSort _ _

def channel (models : String) : Channel where
  id := 1
  type := 1
  key := "sk"
  status := channelStatusEnabled
  weight := none
  models := models
  group := "default"
  priority := none
  tag := none
  otherInfo := ⟨none, none⟩
  channelInfo := ⟨false, fun _ ↦ none, fun _ ↦ none, fun _ ↦ none, 0, .unset⟩
  advancedCustom := none
  keys := []

def database (models : String) : Database where
  channels := ⟨[channel models, { channel models with id := 2 }], by simp [channel]⟩
  abilities := ⟨[⟨"default", "gpt-4", 1, true, none, 0, none⟩,
    ⟨"default", "gpt-4", 2, true, none, 0, none⟩], by decide⟩

def disable (id : ℤ) : StatusUpdate × Failures :=
  (⟨id, "", channelStatusAutoDisabled, "quota exceeded", 0⟩, {})

def select (models : String) (calls : List (StatusUpdate × Failures)) : Option (ℤ × ℤ) :=
  (initChannelCache runtime ∅ (database models)).bind fun cache ↦
    (exec (step runtime) ⟨database models, cache⟩ calls).bind fun s ↦
      match getRandomSatisfiedChannel runtime s.cache "default" "gpt-4" 0 "/v1/chat/completions" 0
        with
      | .ok (some ch) => some (ch.id, ch.status)
      | _ => none

end RoutingExample

open RoutingExample

/-- Of two channels that serve the model, the one that is not disabled is selected. -/
theorem disabled_channel_not_routed_two_channels :
    ∃ cache s ch, initChannelCache runtime ∅ (database "gpt-4,gpt-4o") = some cache ∧
      exec (step runtime) ⟨database "gpt-4,gpt-4o", cache⟩ [disable 1] = some s ∧
      getRandomSatisfiedChannel runtime s.cache "default" "gpt-4" 0 "/v1/chat/completions" 0 =
        .ok (some ch) ∧ s.cache.channelsIDM.find ch.id = some ch ∧
      ch.status = channelStatusEnabled := by
  have h : select "gpt-4,gpt-4o" [disable 1] = some (2, channelStatusEnabled) := by decide +kernel
  obtain ⟨cache, hinit, h⟩ := bind_eq_some_iff.1 h
  obtain ⟨s, hrun, h⟩ := bind_eq_some_iff.1 h
  split at h
  next ch hselect =>
    refine ⟨cache, s, ch, hinit, hrun, hselect,
      disabled_channel_not_routed hinit [disable 1] ?_ hrun _ _ _ _ _ hselect⟩
    intro _ _ ch hch _ _
    simp only [database, mem_cons, not_mem_nil, or_false] at hch
    rcases hch with rfl | rfl <;> exact ⟨by decide +kernel, by decide +kernel⟩
  · simp at h

/-- A model that is listed twice keeps the channel in the list when it is disabled. -/
theorem disabled_channel_routed :
    select "gpt-4,gpt-4" [disable 2, disable 1] = some (1, channelStatusAutoDisabled) := by
  decide +kernel

end Moligate.Channels
