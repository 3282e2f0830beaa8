import Moligate.Channels.AdvancedCustom
import Moligate.Foundation.Table

namespace Moligate.Channels

open Foundation Function

def channelStatusEnabled : ℤ := 1
def channelStatusAutoDisabled : ℤ := 3

def channelTypeAdvancedCustom : ℤ := 58

inductive MultiKeyMode where
  | unset | random | polling
  deriving DecidableEq

/-- The maps of the source from key indices; a map that is nil and an empty one read alike. -/
structure ChannelInfo where
  isMultiKey : Bool
  multiKeyStatusList : ℕ → Option ℤ
  multiKeyDisabledReason : ℕ → Option String
  multiKeyDisabledTime : ℕ → Option ℤ
  multiKeyPollingIndex : ℤ
  multiKeyMode : MultiKeyMode

structure OtherInfo where
  statusReason : Option String
  statusTime : Option ℤ
  deriving DecidableEq

/-- A row of `channels`; `keys` is no column, it is filled in the cache. -/
structure Channel where
  (id type : ℤ)
  key : String
  status : ℤ
  weight : Option ℕ
  (models group : String)
  priority : Option ℤ
  tag : Option String
  otherInfo : OtherInfo
  channelInfo : ChannelInfo
  advancedCustom : Option AdvancedCustomConfig
  keys : List String

structure Ability where
  (group model : String)
  channelId : ℤ
  enabled : Bool
  priority : Option ℤ
  weight : ℕ
  tag : Option String
  deriving DecidableEq

def Ability.key (a : Ability) : String × String × ℤ := (a.group, a.model, a.channelId)

structure Database where
  channels : Table Channel.id
  abilities : Table Ability.key

def Channel.ofRow (row : Channel) : Channel := { row with keys := [] }

def Channel.getPriority (ch : Channel) : ℤ := ch.priority.getD 0

def Channel.getWeight (ch : Channel) : ℤ := Int.bmod (ch.weight.getD 0) (2 ^ 64)

variable (rt : Runtime)

def Channel.getKeys (ch : Channel) : List String :=
  if ch.key = "" then []
  else if ch.keys ≠ [] then ch.keys
  else
    let trimmed := rt.trimSpace ch.key
    let array := if Strings.hasPrefix trimmed "[" then rt.unmarshalArray trimmed else none
    match array with
    | some keys => keys
    | none => Strings.split (Strings.trim ch.key '\n') "\n"

def hasEnabledMultiKey (keys : List String) (statusList : ℕ → Option ℤ) : Bool :=
  (List.range keys.length).any fun i ↦
    match statusList i with
    | none => true
    | some status => status = channelStatusEnabled

structure StatusUpdate where
  channelId : ℤ
  usingKey : String
  status : ℤ
  reason : String
  now : ℤ

def Channel.setStatus (ch : Channel) (status : ℤ) (reason : String) (now : ℤ) : Channel :=
  { ch with
    status := status
    otherInfo := { statusReason := some reason, statusTime := some now } }

def ChannelInfo.setKeyStatus (info : ChannelInfo) (keyIndex : ℕ) (u : StatusUpdate) : ChannelInfo :=
  if u.status = channelStatusEnabled then
    { info with multiKeyStatusList := update info.multiKeyStatusList keyIndex none }
  else
    { info with
      multiKeyStatusList := update info.multiKeyStatusList keyIndex (some u.status)
      multiKeyDisabledReason := update info.multiKeyDisabledReason keyIndex (some u.reason)
      multiKeyDisabledTime := update info.multiKeyDisabledTime keyIndex (some u.now) }

def handlerMultiKeyUpdate (ch : Channel) (u : StatusUpdate) : Channel :=
  let keys := ch.getKeys rt
  if keys = [] then { ch with status := u.status }
  else
    match keys.findIdx? (· = u.usingKey) with
    | none => if u.usingKey ≠ "" then ch else ch.setStatus u.status u.reason u.now
    | some keyIndex =>
      let ch := { ch with channelInfo := ch.channelInfo.setKeyStatus keyIndex u }
      if !hasEnabledMultiKey keys ch.channelInfo.multiKeyStatusList then
        ch.setStatus channelStatusAutoDisabled "All keys are disabled" u.now
      else if u.status = channelStatusEnabled then { ch with status := channelStatusEnabled }
      else ch

theorem handlerMultiKeyUpdate_eq (ch : Channel) (u : StatusUpdate) :
    ∃ status otherInfo channelInfo, handlerMultiKeyUpdate rt ch u =
      { ch with status := status, otherInfo := otherInfo, channelInfo := channelInfo } := by
  rw [handlerMultiKeyUpdate]
  by_cases hkeys : ch.getKeys rt = []
  · rw [if_pos hkeys]
    exact ⟨_, _, _, rfl⟩
  rw [if_neg hkeys]
  cases (ch.getKeys rt).findIdx? (· = u.usingKey) with
  | none =>
    dsimp only
    split <;> exact ⟨_, _, _, rfl⟩
  | some keyIndex =>
    dsimp only
    split
    · exact ⟨_, _, _, rfl⟩
    · split <;> exact ⟨_, _, _, rfl⟩

@[simp] theorem handlerMultiKeyUpdate_id (ch : Channel) (u : StatusUpdate) :
    (handlerMultiKeyUpdate rt ch u).id = ch.id := by
  obtain ⟨status, otherInfo, channelInfo, heq⟩ := handlerMultiKeyUpdate_eq rt ch u
  rw [heq]

def updateAbilityStatus (abilities : Table Ability.key) (channelId : ℤ) (status : Bool) :
    Table Ability.key :=
  abilities.update (fun a ↦ if a.channelId = channelId then { a with enabled := status } else a)
    fun a ↦ by split <;> rfl

structure Failures where
  load : Bool := false
  save : Bool := false
  abilities : Bool := false

/-- The part of `UpdateChannelStatus` on the database. The abilities are written after the row, also
when the row could not be saved. -/
def updateStoredStatus (u : StatusUpdate) (fails : Failures) (db : Database) : Database × Bool :=
  if fails.load then (db, false)
  else
    match db.channels.find u.channelId with
    | none => (db, false)
    | some row =>
      let stored := row.ofRow
      if stored.status = u.status then (db, false)
      else
        let ch := if stored.channelInfo.isMultiKey then handlerMultiKeyUpdate rt stored u
          else stored.setStatus u.status u.reason u.now
        let shouldUpdateAbilities := !stored.channelInfo.isMultiKey || stored.status ≠ ch.status
        let saved := !(fails.save || ch.id = 0)
        let channels := if saved then db.channels.save ch else db.channels
        let abilities := if shouldUpdateAbilities && !fails.abilities then
            updateAbilityStatus db.abilities u.channelId (u.status = channelStatusEnabled)
          else db.abilities
        ({ channels := channels, abilities := abilities }, saved)

end Moligate.Channels
