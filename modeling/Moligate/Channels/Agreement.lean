import Moligate.Channels.DisabledKeys
import Moligate.Channels.Projection
import Moligate.Channels.Routing

namespace Moligate.Channels

open Foundation Table Polling Example Channel

variable {rt : Runtime} {id : ℤ} {ch stored : Channel} {u : StatusUpdate}

theorem handlerMultiKeyUpdate_getKeys :
    (handlerMultiKeyUpdate rt ch u).getKeys rt = ch.getKeys rt := by
  obtain ⟨status, otherInfo, channelInfo, heq⟩ := handlerMultiKeyUpdate_eq rt ch u
  rw [heq]
  rfl

theorem handlerMultiKeyUpdate_row :
    (handlerMultiKeyUpdate rt ch.ofRow u).ofRow.getKeys rt = ch.ofRow.getKeys rt := by
  obtain ⟨status, otherInfo, channelInfo, heq⟩ := handlerMultiKeyUpdate_eq rt ch.ofRow u
  rw [heq]
  rfl

def nextStatusList (keys : List String) (statusList : ℕ → Option ℤ) (u : StatusUpdate) :
    ℕ → Option ℤ :=
  match keys.findIdx? (· = u.usingKey) with
  | none => statusList
  | some keyIndex => Function.update statusList keyIndex
      (if u.status = channelStatusEnabled then none else some u.status)

def nextStatus (keys : List String) (statusList : ℕ → Option ℤ) (status : ℤ) (u : StatusUpdate) :
    ℤ :=
  if keys = [] then u.status
  else
    match keys.findIdx? (· = u.usingKey) with
    | none => if u.usingKey ≠ "" then status else u.status
    | some _ =>
      if !hasEnabledMultiKey keys (nextStatusList keys statusList u) then
        channelStatusAutoDisabled
      else if u.status = channelStatusEnabled then channelStatusEnabled
      else status

theorem handlerMultiKeyUpdate_statusList :
    (handlerMultiKeyUpdate rt ch u).channelInfo.multiKeyStatusList =
      nextStatusList (ch.getKeys rt) ch.channelInfo.multiKeyStatusList u := by
  rw [handlerMultiKeyUpdate_info, nextStatusList]
  cases (ch.getKeys rt).findIdx? (· = u.usingKey) with
  | none => rfl
  | some keyIndex => exact setKeyStatus_statusList

theorem handlerMultiKeyUpdate_nextStatus :
    (handlerMultiKeyUpdate rt ch u).status =
      nextStatus (ch.getKeys rt) ch.channelInfo.multiKeyStatusList ch.status u := by
  rw [handlerMultiKeyUpdate, nextStatus]
  by_cases hkeys : ch.getKeys rt = []
  · rw [if_pos hkeys, if_pos hkeys]
  cases hfind : (ch.getKeys rt).findIdx? (· = u.usingKey) with
  | none => simp [apply_ite status, setStatus]
  | some keyIndex =>
    have hlist : nextStatusList (ch.getKeys rt) ch.channelInfo.multiKeyStatusList u =
        (ch.channelInfo.setKeyStatus keyIndex u).multiKeyStatusList := by
      rw [nextStatusList, hfind, setKeyStatus_statusList]
    simp [apply_ite status, setStatus, hlist]

section

/-- The channel is multi-key in both places, with the same keys; its status and its key statuses
are the same; and its abilities are enabled when the stored status is. -/
structure Agree (rt : Runtime) (id : ℤ) (s : State) (cached stored : Channel) : Prop where
  findCached : s.cache.channelsIDM.find id = some cached
  findStored : s.db.channels.find id = some stored
  cachedMultiKey : cached.channelInfo.isMultiKey = true
  storedMultiKey : stored.channelInfo.isMultiKey = true
  keys : cached.getKeys rt = stored.ofRow.getKeys rt
  status : cached.status = stored.status
  statusList : cached.channelInfo.multiKeyStatusList = stored.channelInfo.multiKeyStatusList
  abilities : ∀ a ∈ s.db.abilities.rows, a.channelId = id →
    (a.enabled = true ↔ stored.status = channelStatusEnabled)

def Agreed (rt : Runtime) (id : ℤ) (s : State) : Prop :=
  ∃ cached stored, Agree rt id s cached stored

variable {s t : State} {cached : Channel}

def update (rt : Runtime) (s : State) (u : StatusUpdate) : Option State :=
  some (updateChannelStatus rt u {} s).1

/-- The stored status is not the requested one yet, or the call names none of the keys. -/
def differs (rt : Runtime) (id : ℤ) (s : State) (u : StatusUpdate) : Bool :=
  (s.db.channels.find id).all fun stored ↦
    stored.status ≠ u.status || u.usingKey ∉ stored.ofRow.getKeys rt

variable {cache : Cache}

theorem updateCachedStatus_multiKey (h : cache.channelsIDM.find u.channelId = some cached)
    (hmulti : cached.channelInfo.isMultiKey = true) :
    ∃ cache', updateCachedStatus rt cache u = some cache' ∧
      cache'.channelsIDM.find u.channelId = some (handlerMultiKeyUpdate rt cached u) := by
  have hid : (handlerMultiKeyUpdate rt cached u).id = u.channelId :=
    (handlerMultiKeyUpdate_id rt cached u).trans (key_of_find h)
  have hsaved : (cache.channelsIDM.save (handlerMultiKeyUpdate rt cached u)).find u.channelId =
      some (handlerMultiKeyUpdate rt cached u) := by
    rw [← hid] at h ⊢
    exact find_save_self h
  rw [updateCachedStatus, h]
  dsimp only
  rw [if_pos hmulti]
  refine ⟨_, rfl, ?_⟩
  split
  · rw [cacheUpdateChannelStatus, find_update, hsaved, Option.map_some, if_pos hid]
  · exact hsaved

theorem updateStoredStatus_eq {db : Database} (h : db.channels.find u.channelId = some stored)
    (hid : u.channelId ≠ 0) (hstatus : stored.status ≠ u.status) :
    (updateStoredStatus rt u {} db).1 =
      { channels := db.channels.save (updated rt u stored.ofRow)
        abilities := if !stored.channelInfo.isMultiKey ∨
              stored.status ≠ (updated rt u stored.ofRow).status then
            updateAbilityStatus db.abilities u.channelId (u.status = channelStatusEnabled)
          else db.abilities } := by
  have hkey : (updated rt u stored.ofRow).id ≠ 0 := by
    rw [(updated_same rt u stored).id]
    exact (key_of_find h : stored.id = u.channelId) ▸ hid
  have hstatus' : stored.ofRow.status ≠ u.status := hstatus
  rw [updateStoredStatus, if_neg Bool.false_ne_true, h]
  dsimp only
  rw [if_neg hstatus']
  change Database.mk (if (!(false || decide ((updated rt u stored.ofRow).id = 0))) = true then
      db.channels.save (updated rt u stored.ofRow) else db.channels)
    (if ((!stored.channelInfo.isMultiKey ||
        decide (stored.status ≠ (updated rt u stored.ofRow).status)) && !false) = true then
      updateAbilityStatus db.abilities u.channelId (decide (u.status = channelStatusEnabled))
      else db.abilities) = _
  rw [decide_eq_false hkey]
  simp

theorem nextStatus_of_not_mem {keys : List String} {statusList : ℕ → Option ℤ}
    (hkey : u.usingKey ∉ keys) :
    nextStatus keys statusList u.status u = u.status ∧
      nextStatusList keys statusList u = statusList := by
  have hfind : keys.findIdx? (· = u.usingKey) = none := by
    rw [List.findIdx?_eq_none_iff]
    intro key hmem
    exact decide_eq_false fun heq ↦ hkey (heq ▸ hmem)
  rw [nextStatus, nextStatusList, hfind]
  refine ⟨?_, rfl⟩
  rw [ite_self, ite_self]

theorem Agree.handler (h : Agree rt id s cached stored) :
    (handlerMultiKeyUpdate rt cached u).status =
        nextStatus (stored.ofRow.getKeys rt) stored.channelInfo.multiKeyStatusList stored.status u ∧
      (handlerMultiKeyUpdate rt cached u).channelInfo.multiKeyStatusList =
        nextStatusList (stored.ofRow.getKeys rt) stored.channelInfo.multiKeyStatusList u := by
  rw [handlerMultiKeyUpdate_nextStatus, handlerMultiKeyUpdate_statusList, h.keys, h.status, h.statusList]
  exact ⟨rfl, rfl⟩

theorem abilities_follow {abilities : Table Ability.key} {before after : ℤ}
    (hbefore : ∀ a ∈ abilities.rows, a.channelId = id →
      (a.enabled = true ↔ before = channelStatusEnabled))
    (hafter : before ≠ after → (after = channelStatusEnabled ↔ u.status = channelStatusEnabled)) :
    ∀ a ∈ (if before ≠ after then
        updateAbilityStatus abilities id (u.status = channelStatusEnabled) else abilities).rows,
      a.channelId = id → (a.enabled = true ↔ after = channelStatusEnabled) := by
  intro a ha hchannel
  split at ha
  next hchanged =>
    obtain ⟨b, hb, rfl⟩ := (mem_update _).1 ha
    by_cases hmine : b.channelId = id
    · rw [if_pos hmine, hafter hchanged, decide_eq_true_iff]
    · rw [if_neg hmine] at hchannel
      exact absurd hchannel hmine
  next hsame => exact not_not.1 hsame ▸ hbefore a ha hchannel

theorem handlerMultiKeyUpdate_isMultiKey (h : ch.channelInfo.isMultiKey = true) :
    (handlerMultiKeyUpdate rt ch u).channelInfo.isMultiKey = true := by
  have hmulti := @updated_isMultiKey rt ch u
  rwa [updated, if_pos h, h] at hmulti

theorem Agree.same (h : Agree rt u.channelId s cached stored)
    (hcached : cache.channelsIDM.find u.channelId = some (handlerMultiKeyUpdate rt cached u))
    (hstatus : stored.status = u.status) (hkey : u.usingKey ∉ stored.ofRow.getKeys rt) :
    Agree rt u.channelId ⟨s.db, cache⟩ (handlerMultiKeyUpdate rt cached u) stored := by
  obtain ⟨hnext, hlist⟩ := @Agree.handler rt u.channelId stored u s cached h
  obtain ⟨hstay, hstayList⟩ := @nextStatus_of_not_mem u (stored.ofRow.getKeys rt)
    stored.channelInfo.multiKeyStatusList hkey
  exact
    { findCached := hcached
      findStored := h.findStored
      cachedMultiKey := handlerMultiKeyUpdate_isMultiKey h.cachedMultiKey
      storedMultiKey := h.storedMultiKey
      keys := handlerMultiKeyUpdate_getKeys.trans h.keys
      status := by rw [hnext, hstatus, hstay]
      statusList := by rw [hlist, hstayList]
      abilities := h.abilities }

theorem Agree.both (h : Agree rt u.channelId s cached stored)
    (hcached : cache.channelsIDM.find u.channelId = some (handlerMultiKeyUpdate rt cached u))
    (hid : u.channelId ≠ 0) (hstatus : stored.status ≠ u.status) :
    Agree rt u.channelId ⟨(updateStoredStatus rt u {} s.db).1, cache⟩
      (handlerMultiKeyUpdate rt cached u) (handlerMultiKeyUpdate rt stored.ofRow u) := by
  obtain ⟨hnext, hlist⟩ := @Agree.handler rt u.channelId stored u s cached h
  have hupdated : updated rt u stored.ofRow = handlerMultiKeyUpdate rt stored.ofRow u :=
    if_pos h.storedMultiKey
  have hstored : (handlerMultiKeyUpdate rt stored.ofRow u).status = nextStatus
      (stored.ofRow.getKeys rt) stored.channelInfo.multiKeyStatusList stored.status u :=
    handlerMultiKeyUpdate_nextStatus
  have hkey : (handlerMultiKeyUpdate rt stored.ofRow u).id = u.channelId :=
    (handlerMultiKeyUpdate_id rt stored.ofRow u).trans
      (key_of_find h.findStored : stored.id = u.channelId)
  have hfind := h.findStored
  rw [updateStoredStatus_eq h.findStored hid hstatus, hupdated, h.storedMultiKey]
  exact
    { findCached := hcached
      findStored := by
        rw [← hkey] at hfind ⊢
        exact find_save_self hfind
      cachedMultiKey := handlerMultiKeyUpdate_isMultiKey h.cachedMultiKey
      storedMultiKey := handlerMultiKeyUpdate_isMultiKey h.storedMultiKey
      keys := by
        rw [handlerMultiKeyUpdate_getKeys, h.keys, handlerMultiKeyUpdate_row]
      status := hnext.trans hstored.symm
      statusList := hlist.trans handlerMultiKeyUpdate_statusList.symm
      abilities := by
        simp only [Bool.not_true, Bool.false_eq_true, false_or]
        exact abilities_follow h.abilities fun hchanged ↦
          handlerMultiKeyUpdate_status (Ne.symm hchanged) }

theorem Agreed.update (h : Agreed rt id s) (hid : id ≠ 0) (hu : u.channelId = id)
    (hdiffers : differs rt id s u = true) (hstep : update rt s u = some t) : Agreed rt id t := by
  obtain ⟨cached, stored, h⟩ := h
  cases hstep
  subst hu
  obtain ⟨cache, hcache, hcached⟩ :=
    @updateCachedStatus_multiKey rt u cached s.cache h.findCached h.cachedMultiKey
  simp only [updateChannelStatus, hcache]
  by_cases hsame : stored.status = u.status
  · have hkey : u.usingKey ∉ stored.ofRow.getKeys rt := by
      rw [differs, h.findStored] at hdiffers
      simpa [hsame] using hdiffers
    have hsame' : stored.ofRow.status = u.status := hsame
    rw [updateStoredStatus, if_neg Bool.false_ne_true, h.findStored]
    dsimp only
    rw [if_pos hsame']
    exact ⟨_, _, h.same hcached hsame hkey⟩
  · exact ⟨_, _, h.both hcached hid hsame⟩

end

/-- The cached and the stored state of a multi-key channel agree after any calls that ask for
another status than the stored one, or that name none of the keys. -/
theorem cached_and_stored_agree (rt : Runtime) {id : ℤ} (hid : id ≠ 0) {s t : State}
    (hagreed : Agreed rt id s) {calls : List StatusUpdate}
    (hguard : Guarded (update rt) (fun s u ↦ u.channelId = id ∧ differs rt id s u = true) s calls)
    (hrun : exec (update rt) s calls = some t) : Agreed rt id t := by
  refine exec_invariant (fun s u t hs hu hstep ↦ ?_) hagreed hguard hrun
  exact hs.update hid hu.1 hu.2 hstep

namespace AgreementExample

open Polling.Example (runtime channel)

def state : State where
  db :=
    ⟨⟨[channel], List.nodup_singleton _⟩,
      ⟨[⟨"default", "gpt-4", 1, true, none, 0, none⟩], by simp⟩⟩
  cache := ⟨fun _ ↦ none, ⟨[channel], List.nodup_singleton _⟩, fun _ ↦ none⟩

theorem state_agreed : Agreed runtime 1 state := by
  refine ⟨channel, channel, rfl, rfl, rfl, rfl, rfl, rfl, rfl, fun a ha _ ↦ ?_⟩
  obtain rfl := List.mem_singleton.1 ha
  exact ⟨fun _ ↦ rfl, fun _ ↦ rfl⟩

def call (usingKey : String) (status : ℤ) : StatusUpdate := ⟨1, usingKey, status, "", 0⟩

def recovery : List StatusUpdate :=
  [call "sk-a" channelStatusAutoDisabled, call "sk-b" channelStatusAutoDisabled,
    call "sk-a" channelStatusEnabled]

def firstKey (calls : List StatusUpdate) : Option (Option ℤ × Option ℤ) :=
  (exec (update runtime) state calls).bind fun s ↦
    (s.cache.channelsIDM.find 1).bind fun cached ↦ (s.db.channels.find 1).map fun stored ↦
      (cached.channelInfo.multiKeyStatusList 0, stored.channelInfo.multiKeyStatusList 0)

end AgreementExample

open AgreementExample

theorem cached_and_stored_agree_recovery :
    ∃ t, exec (update runtime) state recovery = some t ∧
      Agreed runtime 1 t := by
  have hguard : Guarded (update runtime)
      (fun s u ↦ u.channelId = 1 ∧ differs runtime 1 s u = true) state recovery := by
    decide +kernel
  exact ⟨_, rfl, cached_and_stored_agree _ (by decide) state_agreed hguard rfl⟩

/-- The channel is still enabled when its failed key recovers: the row keeps the key disabled. -/
theorem recovered_key_stays_disabled :
    firstKey [call "sk-a" channelStatusAutoDisabled, call "sk-a" channelStatusEnabled] =
      some (none, some channelStatusAutoDisabled) := by
  decide +kernel

end Moligate.Channels
