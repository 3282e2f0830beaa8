import Moligate.Channels.Cache
import Moligate.Foundation.Derived

namespace Moligate.Channels

open Foundation Strings

def channelStatusManuallyDisabled : ℤ := 2

@[irreducible]
def Channel.abilityWeight (ch : Channel) : ℕ := (ch.getWeight % 2 ^ 64).toNat

def Channel.pairs (ch : Channel) : List (String × String) :=
  (split ch.models ",").flatMap fun model ↦
    (split ch.group ",").map fun group ↦ (group, model)

def pairKey (pair : String × String) : String := pair.1 ++ "|" ++ pair.2

/-- A nil priority is stored as the default of its column. -/
def Channel.ability (ch : Channel) (group model : String) : Ability where
  group := group
  model := model
  channelId := ch.id
  enabled := ch.status = channelStatusEnabled
  priority := some (ch.priority.getD 0)
  weight := ch.abilityWeight
  tag := ch.tag

def Channel.abilities (ch : Channel) : List Ability :=
  (keepFirst pairKey [] ch.pairs).map fun pair ↦ ch.ability pair.1 pair.2

/-- The chunks are created with `OnConflict` `DoNothing`. -/
def addAbilities (db : Database) (ch : Channel) : Database :=
  { db with abilities := db.abilities.createMissing ch.abilities }

def deleteAbilities (db : Database) (channelId : ℤ) : Database :=
  { db with abilities := db.abilities.filter fun a ↦ a.channelId ≠ channelId }

def updateAbilities (db : Database) (ch : Channel) : Database :=
  addAbilities (deleteAbilities db ch.id) ch

def updateChannelsByTag (channels : Table Channel.id) (tag : String) (f : Channel → Channel)
    (hf : ∀ ch, (f ch).id = ch.id) : Table Channel.id :=
  channels.update (fun ch ↦ if ch.tag = some tag then f ch else ch) fun ch ↦ by
    split
    · exact hf ch
    · rfl

def updateAbilitiesByTag (abilities : Table Ability.key) (tag : String) (g : Ability → Ability)
    (hg : ∀ a, (g a).key = a.key) : Table Ability.key :=
  abilities.update (fun a ↦ if a.tag = some tag then g a else a) fun a ↦ by
    split
    · exact hg a
    · rfl

section

variable (db : Database)

/-- `Create` fills the zero fields that have a default, in the row and in the value. -/
def Channel.withDefaults (ch : Channel) : Channel :=
  { ch with
    status := if ch.status = 0 then 1 else ch.status
    weight := some (ch.weight.getD 0)
    group := if ch.group = "" then "default" else ch.group
    priority := some (ch.priority.getD 0) }

def Database.insert (ch : Channel) (newId : ℤ) : Database :=
  let row := { ch.withDefaults with id := if ch.id = 0 then newId else ch.id }
  match db.channels.create row with
  | none => db
  | some channels => addAbilities { db with channels := channels } row

/-- The value that `Update` is called with. The columns with a composite text are `none` when their
field is the zero value. -/
structure ChannelValues where
  (id type : ℤ)
  key : String
  status : ℤ
  weight : Option ℕ
  (models group : String)
  priority : Option ℤ
  tag : Option String
  otherInfo : Option OtherInfo
  channelInfo : Option ChannelInfo
  settings : Option (Option AdvancedCustomConfig)

def keyCount (rt : Runtime) (keyStr : String) : ℕ :=
  if keyStr = "" then 0
  else
    let trimmed := rt.trimSpace keyStr
    match if hasPrefix trimmed "[" then rt.unmarshalArray trimmed else none with
    | some (k :: ks) => (k :: ks).length
    | _ => (split (trim keyStr '\n') "\n").length

def ChannelInfo.cleaned (info : ChannelInfo) (size : ℕ) : ChannelInfo :=
  { info with multiKeyStatusList := fun i ↦ if i < size then info.multiKeyStatusList i else none }

def ChannelValues.prepared (rt : Runtime) (v : ChannelValues) : ChannelValues :=
  match v.channelInfo with
  | none => v
  | some info =>
    if info.isMultiKey then
      let keyStr := if v.key ≠ "" then v.key else ((db.channels.find v.id).map Channel.key).getD ""
      { v with channelInfo := some (info.cleaned (keyCount rt keyStr)) }
    else v

def Channel.updates (row : Channel) (v : ChannelValues) : Channel :=
  { row with
    type := if v.type = 0 then row.type else v.type
    key := if v.key = "" then row.key else v.key
    status := if v.status = 0 then row.status else v.status
    weight := v.weight.or row.weight
    models := if v.models = "" then row.models else v.models
    group := if v.group = "" then row.group else v.group
    priority := v.priority.or row.priority
    tag := v.tag.or row.tag
    otherInfo := v.otherInfo.getD row.otherInfo
    channelInfo := v.channelInfo.getD row.channelInfo
    advancedCustom := v.settings.getD row.advancedCustom }

def ChannelValues.channel (v : ChannelValues) : Channel where
  id := v.id
  type := v.type
  key := v.key
  status := v.status
  weight := v.weight
  models := v.models
  group := v.group
  priority := v.priority
  tag := v.tag
  otherInfo := v.otherInfo.getD ⟨none, none⟩
  channelInfo := v.channelInfo.getD ⟨false, fun _ ↦ none, fun _ ↦ none, fun _ ↦ none, 0, .unset⟩
  advancedCustom := v.settings.getD none
  keys := []

def Database.updateRow (v : ChannelValues) : Database :=
  { db with
    channels := db.channels.update (fun row ↦ if row.id = v.id then row.updates v else row)
      fun row ↦ by split <;> rfl }

/-- `Update`. Without an id the statement has no condition and fails; the error of reading the row
back is ignored. -/
def Database.update (rt : Runtime) (v : ChannelValues) : Database :=
  if v.id = 0 then db
  else
    let v := v.prepared db rt
    let db := db.updateRow v
    updateAbilities db ((db.channels.find v.id).getD v.channel)

def Database.delete (id : ℤ) : Database :=
  if id = 0 then db
  else deleteAbilities { db with channels := db.channels.filter fun ch ↦ ch.id ≠ id } id

def Database.batchDeleteChannels (ids : List ℤ) : Database where
  channels := db.channels.filter fun ch ↦ ch.id ∉ ids
  abilities := db.abilities.filter fun a ↦ a.channelId ∉ ids

def Database.enableChannelByTag (tag : String) : Database where
  channels := updateChannelsByTag db.channels tag
    (fun ch ↦ { ch with status := channelStatusEnabled }) fun _ ↦ rfl
  abilities := updateAbilitiesByTag db.abilities tag (fun a ↦ { a with enabled := true }) fun _ ↦ rfl

def Database.disableChannelByTag (tag : String) : Database where
  channels := updateChannelsByTag db.channels tag
    (fun ch ↦ { ch with status := channelStatusManuallyDisabled }) fun _ ↦ rfl
  abilities := updateAbilitiesByTag db.abilities tag (fun a ↦ { a with enabled := false }) fun _ ↦ rfl

structure TagEdit where
  tag : String
  (newTag models group : Option String)
  priority : Option ℤ
  weight : Option UInt64

namespace TagEdit

variable (e : TagEdit)

def updatedTag : String := e.newTag.getD e.tag

def shouldReCreateAbilities : Bool := e.models.any (· ≠ "") || e.group.any (· ≠ "")

def channel (row : Channel) : Channel :=
  { row with
    tag := if e.newTag.any (· ≠ e.tag) then e.newTag else row.tag
    models := (e.models.filter (· ≠ "")).getD row.models
    group := (e.group.filter (· ≠ "")).getD row.group
    priority := e.priority.or row.priority
    weight := (e.weight.map UInt64.toNat).or row.weight }

theorem channel_id (row : Channel) : (e.channel row).id = row.id := rfl

/-- `UpdateAbilityByTag`; its weight is no pointer, so that a zero is skipped. -/
def ability (a : Ability) : Ability :=
  { a with
    tag := e.newTag.or a.tag
    priority := e.priority.or a.priority
    weight := match e.weight with
      | none => a.weight
      | some w => if w = 0 then a.weight else w.toNat }

theorem ability_key (a : Ability) : (e.ability a).key = a.key := rfl

end TagEdit

def Database.editChannelByTag (e : TagEdit) : Database :=
  let channels := updateChannelsByTag db.channels e.tag e.channel e.channel_id
  if e.shouldReCreateAbilities then
    (channels.rows.filter fun ch ↦ ch.tag = some e.updatedTag).foldl updateAbilities
      { db with channels := channels }
  else ⟨channels, updateAbilitiesByTag db.abilities e.tag e.ability e.ability_key⟩

/-- `BatchSetChannelTag`: the tags are set in the transaction, but the channels whose abilities are
written are read outside of it. -/
def Database.batchSetChannelTag (ids : List ℤ) (tag : Option String) : Database :=
  let channels := db.channels.update (fun ch ↦ if ch.id ∈ ids then { ch with tag := tag } else ch)
    fun ch ↦ by split <;> rfl
  (db.channels.rows.filter fun ch ↦ ch.id ∈ ids).foldl updateAbilities
    { db with channels := channels }

def Database.deleteChannelByStatus (status : ℤ) : Database :=
  { db with channels := db.channels.filter fun ch ↦ ch.status ≠ status }

def Database.deleteDisabledChannel : Database :=
  { db with channels := db.channels.filter fun ch ↦
      !(ch.status = channelStatusAutoDisabled || ch.status = channelStatusManuallyDisabled) }

/-- `UpdateChannelStatus`; with the memory cache on it may return before it reaches the tables. -/
def Database.updateStatus (rt : Runtime) (u : StatusUpdate) (cache : Option Cache) : Database :=
  match cache with
  | some cache =>
    if (updateCachedStatus rt cache u).isSome then (updateStoredStatus rt u {} db).1 else db
  | none => (updateStoredStatus rt u {} db).1

end

inductive Operation where
  | insert (ch : Channel) (newId : ℤ)
  | update (v : ChannelValues)
  | delete (id : ℤ)
  | batchDeleteChannels (ids : List ℤ)
  | updateChannelStatus (u : StatusUpdate) (cache : Option Cache)
  | enableChannelByTag (tag : String)
  | disableChannelByTag (tag : String)
  | editChannelByTag (e : TagEdit)
  | batchSetChannelTag (ids : List ℤ) (tag : Option String)
  | deleteDisabledChannel
  | deleteChannelByStatus (status : ℤ)

def Operation.run (rt : Runtime) (db : Database) : Operation → Database
  | .insert ch newId => db.insert ch newId
  | .update v => db.update rt v
  | .delete id => db.delete id
  | .batchDeleteChannels ids => db.batchDeleteChannels ids
  | .updateChannelStatus u cache => db.updateStatus rt u cache
  | .enableChannelByTag tag => db.enableChannelByTag tag
  | .disableChannelByTag tag => db.disableChannelByTag tag
  | .editChannelByTag e => db.editChannelByTag e
  | .batchSetChannelTag ids tag => db.batchSetChannelTag ids tag
  | .deleteDisabledChannel => db.deleteDisabledChannel
  | .deleteChannelByStatus status => db.deleteChannelByStatus status

def Operation.step (rt : Runtime) (db : Database) (op : Operation) : Option Database :=
  some (op.run rt db)

end Moligate.Channels
