import Moligate.Channels.Model
import Moligate.Foundation.Threads

namespace Moligate.Channels

open Foundation

section

variable (rt : Runtime)

def keyStatus (statusList : ℕ → Option ℤ) (i : ℕ) : ℤ := (statusList i).getD channelStatusEnabled

def enabledIdx (keys : List String) (statusList : ℕ → Option ℤ) : List ℕ :=
  (List.range keys.length).filter fun i ↦ keyStatus statusList i = channelStatusEnabled

def pollFrom (keys : List String) (statusList : ℕ → Option ℤ) (start : ℕ) : Option ℕ :=
  ((List.range keys.length).map fun i ↦ (start + i) % keys.length).find? fun idx ↦
    keyStatus statusList idx = channelStatusEnabled

def Channel.poll (ch : Channel) (cursor : ℤ) : Channel × ℕ :=
  let keys := ch.getKeys rt
  let start := if cursor < 0 ∨ keys.length ≤ cursor then 0 else cursor.toNat
  match pollFrom keys ch.channelInfo.multiKeyStatusList start with
  | some idx =>
    ({ ch with channelInfo := { ch.channelInfo with
        multiKeyPollingIndex := ((idx + 1) % keys.length : ℕ) } }, idx)
  | none => (ch, (enabledIdx keys ch.channelInfo.multiKeyStatusList).headD 0)

def Channel.keyAt (ch : Channel) (i : ℕ) : String × ℕ := ((ch.getKeys rt).getD i "", i)

end

namespace Polling

inductive Reply where
  | key (result : Except String (String × ℕ))
  | updated (result : Bool)

/-- The next step of a goroutine. A request carries the row that it loaded, and how many statuses
had been saved when it did. -/
inductive Stage where
  | idle (reply : Option Reply)
  -- `GetNextEnabledKey`
  | request (ch : Channel) (seen : ℕ)
  | pick (ch : Channel) (seen : ℕ)
  | saveInfo (ch : Channel) (seen idx : ℕ)
  -- `UpdateChannelStatus`
  | update (u : StatusUpdate)
  | load (u : StatusUpdate)
  | saveStatus (u : StatusUpdate) (stored : Channel)
  | saveAbilities (u : StatusUpdate) (saved : Bool)
  | unlock (reply : Reply)

inductive Action where
  | loadChannel
  | updateChannelStatus (u : StatusUpdate)
  -- a statement of an administrator
  | edit (db : Database)
  -- the random number of `rand.Intn`, and whether the statement fails
  | next (random : ℕ) (fails : Bool)

/-- The tables and the polling lock of the channel. Besides, how many statuses were saved, and the
keys that `UpdateChannelStatus` has disabled and nobody has enabled since. -/
structure World (π : Type) where
  db : Database
  lock : Option π
  saves : ℕ
  disabled : List ℕ

section

variable {π : Type} (rt : Runtime) (id : ℤ) (p : π) (w : World π)

def acquire (stage : Stage) : Option (World π × Stage) :=
  if w.lock.isNone then some ({ w with lock := some p }, stage) else none

def request (ch : Channel) (seen : ℕ) : Option (World π × Stage) :=
  if !ch.channelInfo.isMultiKey then some (w, .idle (some (.key (.ok (ch.key, 0)))))
  else if ch.getKeys rt = [] then some (w, .idle (some (.key (.error "no keys available"))))
  else acquire p w (.pick ch seen)

def pick (ch : Channel) (seen random : ℕ) (fails : Bool) : Stage :=
  let enabled := enabledIdx (ch.getKeys rt) ch.channelInfo.multiKeyStatusList
  if enabled = [] then .unlock (.key (.error "no enabled keys"))
  else
    match ch.channelInfo.multiKeyMode with
    | .random => .unlock (.key (.ok (ch.keyAt rt (enabled.getD (random % enabled.length) 0))))
    | .unset => .unlock (.key (.ok (ch.keyAt rt (enabled.headD 0))))
    | .polling =>
      match if fails then none else w.db.channels.find id with
      | none => .unlock (.key (.error "record not found"))
      | some row =>
        let out := ch.poll rt row.channelInfo.multiKeyPollingIndex
        .saveInfo out.1 seen out.2

def setInfo (db : Database) (id : ℤ) (info : ChannelInfo) : Database :=
  { db with
    channels := db.channels.update
      (fun row ↦ if row.id = id then { row with channelInfo := info } else row)
      fun row ↦ by split <;> rfl }

def saveInfo (ch : Channel) (fails : Bool) : World π :=
  if fails || ch.id = 0 then w else { w with db := setInfo w.db id ch.channelInfo }

def load (u : StatusUpdate) (fails : Bool) : Stage :=
  match if fails then none else w.db.channels.find id with
  | none => .unlock (.updated false)
  | some row =>
    if row.status = u.status then .unlock (.updated false) else .saveStatus u row.ofRow

def updated (u : StatusUpdate) (stored : Channel) : Channel :=
  if stored.channelInfo.isMultiKey then handlerMultiKeyUpdate rt stored u
  else stored.setStatus u.status u.reason u.now

def setStatusState (db : Database) (id : ℤ) (ch : Channel) : Database :=
  { db with
    channels := db.channels.update
      (fun row ↦ if row.id = id then { row with
          status := ch.status
          otherInfo := ch.otherInfo
          channelInfo := if ch.channelInfo.isMultiKey then ch.channelInfo else row.channelInfo }
        else row)
      fun row ↦ by split <;> rfl }

def keyIndex (u : StatusUpdate) (stored : Channel) : Option ℕ :=
  if stored.channelInfo.isMultiKey then (stored.getKeys rt).findIdx? (· = u.usingKey) else none

def afterSave (disabled : List ℕ) (key : Option ℕ) (status : ℤ) : List ℕ :=
  match key with
  | none => disabled
  | some k => if status = channelStatusEnabled then disabled.filter (· ≠ k) else k :: disabled

def saveStatus (u : StatusUpdate) (stored : Channel) (fails : Bool) : World π × Stage :=
  let ch := updated rt u stored
  let saved := !(fails || ch.id = 0)
  let w := if saved then
      { w with
        db := setStatusState w.db id ch
        saves := w.saves + 1
        disabled := if (w.db.channels.find id).isSome then
            afterSave w.disabled (keyIndex rt u stored) u.status
          else w.disabled }
    else w
  if !stored.channelInfo.isMultiKey || stored.status ≠ ch.status then (w, .saveAbilities u saved)
  else (w, .unlock (.updated saved))

def saveAbilities (u : StatusUpdate) (fails : Bool) : World π :=
  if fails then w
  else
    { w with db := { w.db with
        abilities := updateAbilityStatus w.db.abilities id (u.status = channelStatusEnabled) } }

def next (random : ℕ) (fails : Bool) : Stage → Option (World π × Stage)
  | .idle _ => none
  | .request ch seen => request rt p w ch seen
  | .pick ch seen => some (w, pick rt id w ch seen random fails)
  | .saveInfo ch _ idx => some (saveInfo id w ch fails, .unlock (.key (.ok (ch.keyAt rt idx))))
  | .update u => acquire p w (.load u)
  | .load u => some (w, load id w u fails)
  | .saveStatus u stored => some (saveStatus rt id w u stored fails)
  | .saveAbilities u saved => some (saveAbilities id w u fails, .unlock (.updated saved))
  | .unlock reply => some ({ w with lock := none }, .idle (some reply))

def marks (db : Database) (id : ℤ) (k : ℕ) : Bool :=
  (db.channels.find id).any fun row ↦
    keyStatus row.channelInfo.multiKeyStatusList k ≠ channelStatusEnabled

def Stage.isIdle : Stage → Bool
  | .idle _ => true
  | _ => false

def perform (a : Action) (stage : Stage) : Option (World π × Stage) :=
  match a with
  | .loadChannel =>
    if stage.isIdle then (w.db.channels.find id).map fun row ↦ (w, .request row.ofRow w.saves)
    else none
  | .updateChannelStatus u =>
    if stage.isIdle ∧ u.channelId = id then some (w, .update u) else none
  | .edit db => some ({ w with db := db, disabled := w.disabled.filter (marks db id) }, stage)
  | .next random fails => next rt id p w random fails stage

end

variable {π : Type} [DecidableEq π]

def System.step (rt : Runtime) (id : ℤ) : Config (World π) π Stage → π × Action →
    Option (Config (World π) π Stage) :=
  Config.step fun p a w stage ↦ perform rt id p w a stage

def start (db : Database) : Config (World π) π Stage :=
  ⟨⟨db, none, 0, []⟩, fun _ ↦ .idle none⟩

end Polling

end Moligate.Channels
