import Mathlib.Data.List.Dedup
import Moligate.Channels.Model
import Moligate.Foundation.Call

namespace Moligate.Channels

open Foundation Strings

abbrev Index := String → Option (String → List ℤ)

def Index.channels (index : Index) (group model : String) : List ℤ :=
  match index group with
  | none => []
  | some models => models model

structure Cache where
  group2model2channels : Index
  channelsIDM : Table Channel.id
  channel2advancedCustomConfig : ℤ → Option AdvancedCustomConfig

variable (rt : Runtime)

def entriesOf (ch : Channel) : List (String × String × ℤ) :=
  (split ch.group ",").flatMap fun group ↦
    (split ch.models ",").map fun model ↦ (group, model, ch.id)

def entries (channels : List Channel) : List (String × String × ℤ) :=
  (channels.filter fun ch ↦ ch.status = channelStatusEnabled).flatMap entriesOf

/-- The append to the list of a group and a model, which panics for a group that has no map. -/
def Index.append (index : Index) (entry : String × String × ℤ) : Option Index :=
  (index entry.1).map fun models ↦
    Function.update index entry.1
      (some (Function.update models entry.2.1 (models entry.2.1 ++ [entry.2.2])))

def appendAll : Index → List (String × String × ℤ) → Option Index
  | index, [] => some index
  | index, entry :: rest => (index.append entry).bind fun index ↦ appendAll index rest

def emptyIndex (abilities : List Ability) : Index := fun group ↦
  if abilities.any fun a ↦ a.group = group then some fun _ ↦ [] else none

def sortByPriority (channels : Table Channel.id) (index : Index) : Index := fun group ↦
  (index group).map fun models model ↦ rt.sortSlice
    (fun i j ↦ ((channels.find i).map Channel.getPriority).getD 0 >
      ((channels.find j).map Channel.getPriority).getD 0) (models model)

/-- The cached channel of a row: a polling channel goes on with the cursor of the old cache. -/
def cachedChannel (old : Table Channel.id) (row : Channel) : Channel :=
  let ch := row.ofRow
  if !ch.channelInfo.isMultiKey then ch
  else
    let ch := { ch with keys := ch.getKeys rt }
    match old.find ch.id with
    | none => ch
    | some oldChannel =>
      if ch.channelInfo.multiKeyMode = .polling ∧ oldChannel.channelInfo.isMultiKey ∧
          oldChannel.channelInfo.multiKeyMode = .polling then
        { ch with channelInfo := { ch.channelInfo with
            multiKeyPollingIndex := oldChannel.channelInfo.multiKeyPollingIndex } }
      else ch

theorem cachedChannel_id (old : Table Channel.id) (row : Channel) :
    (cachedChannel rt old row).id = row.id := by
  simp only [cachedChannel]
  repeat' split
  all_goals rfl

theorem cachedChannel_status (old : Table Channel.id) (row : Channel) :
    (cachedChannel rt old row).status = row.status := by
  simp only [cachedChannel]
  repeat' split
  all_goals rfl

/-- `InitChannelCache` with the memory cache on; `none` when it panics. -/
def initChannelCache (old : Table Channel.id) (db : Database) : Option Cache :=
  (appendAll (emptyIndex db.abilities.rows) (entries db.channels.rows)).map fun index ↦
    { group2model2channels := sortByPriority rt db.channels index
      channelsIDM := db.channels.update (cachedChannel rt old) (cachedChannel_id rt old)
      channel2advancedCustomConfig := fun id ↦
        (db.channels.find id).bind fun ch ↦
          if ch.type = channelTypeAdvancedCustom then ch.advancedCustom else none }

section

variable (cache : Cache)

/-- `CacheUpdateChannelStatus` with the memory cache on: a disabled channel leaves each list once. -/
def cacheUpdateChannelStatus (id status : ℤ) : Cache :=
  { cache with
    channelsIDM := cache.channelsIDM.update
      (fun ch ↦ if ch.id = id then { ch with status := status } else ch)
      fun ch ↦ by split <;> rfl
    group2model2channels :=
      if status ≠ channelStatusEnabled then fun group ↦
        (cache.group2model2channels group).map fun models model ↦ (models model).erase id
      else cache.group2model2channels }

def updateCachedStatus (u : StatusUpdate) : Option Cache :=
  match cache.channelsIDM.find u.channelId with
  | none => none
  | some ch =>
    if ch.channelInfo.isMultiKey then
      let ch' := handlerMultiKeyUpdate rt ch u
      let cache := { cache with channelsIDM := cache.channelsIDM.save ch' }
      some (if ch.status ≠ ch'.status then cacheUpdateChannelStatus cache u.channelId ch'.status
        else cache)
    else if ch.status = u.status then none
    else some (cacheUpdateChannelStatus cache u.channelId u.status)

end

structure State where
  db : Database
  cache : Cache

def updateChannelStatus (u : StatusUpdate) (fails : Failures) (s : State) : State × Bool :=
  match updateCachedStatus rt s.cache u with
  | none => (s, false)
  | some cache =>
    let stored := updateStoredStatus rt u fails s.db
    ({ db := stored.1, cache := cache }, stored.2)

variable (cache : Cache)

def filterChannelsByRequestPathAndModel (channels : List ℤ) (requestPath model : String) : List ℤ :=
  if requestPath = "" then channels
  else channels.filter fun id ↦
    match cache.channelsIDM.find id with
    | none => true
    | some ch => ch.type ≠ channelTypeAdvancedCustom ||
        (cache.channel2advancedCustomConfig id).any fun config ↦
          config.supportsPathForModel rt requestPath model

def handleThinkingBudgetModel (name start wildcard : String) : String :=
  if hasPrefix name start && contains name "-thinking-" then wildcard else name

def formatMatchingModelName (name : String) : String :=
  let name :=
    if hasPrefix name "gemini-2.5-flash-lite" then
      handleThinkingBudgetModel name "gemini-2.5-flash-lite" "gemini-2.5-flash-lite-thinking-*"
    else if hasPrefix name "gemini-2.5-flash" then
      handleThinkingBudgetModel name "gemini-2.5-flash" "gemini-2.5-flash-thinking-*"
    else if hasPrefix name "gemini-2.5-pro" then
      handleThinkingBudgetModel name "gemini-2.5-pro" "gemini-2.5-pro-thinking-*"
    else name
  let name := if hasPrefix name "gpt-4-gizmo" then "gpt-4-gizmo-*" else name
  if hasPrefix name "gpt-4o-gizmo" then "gpt-4o-gizmo-*" else name

def candidates (group model requestPath : String) : List ℤ :=
  let channelsOf := cache.group2model2channels.channels group
  let channels := filterChannelsByRequestPathAndModel rt cache (channelsOf model) requestPath model
  if channels = [] then
    filterChannelsByRequestPathAndModel rt cache (channelsOf (formatMatchingModelName model))
      requestPath model
  else channels

def Cache.lookup (id : ℤ) : Call String Channel :=
  .required s!"数据库一致性错误，渠道# {id} 不存在，请联系管理员修复" (cache.channelsIDM.find id)

/-- The loops over the candidates, which end at the first id without a channel. -/
def Cache.lookupAll : List ℤ → Call String (List Channel)
  | [] => pure []
  | id :: ids => do
      let ch ← cache.lookup id
      let rest ← Cache.lookupAll ids
      pure (ch :: rest)

def sortedUniquePriorities (channels : List Channel) : List ℤ :=
  ((channels.map Channel.getPriority).dedup).insertionSort (· ≥ ·)

/-- `sortedUniquePriorities[retry]` after the clamp; `none` is the panic of a negative index. -/
def targetPriority (priorities : List ℤ) (retry : ℤ) : Option ℤ :=
  let retry : ℤ := if retry ≥ priorities.length then priorities.length - 1 else retry
  if retry < 0 then none else priorities[retry.toNat]?

def int (x : ℤ) : ℤ := Int.bmod x (2 ^ 64)

def sumWeight : List Channel → ℤ → ℤ
  | [], sum => sum
  | ch :: rest, sum => sumWeight rest (int (sum + ch.getWeight))

structure Smoothing where
  (factor adjustment totalWeight : ℤ)

def smoothing (targets : List Channel) : Smoothing :=
  let sum := sumWeight targets 0
  if sum = 0 then ⟨1, 100, int (targets.length * 100)⟩
  else if sum.tdiv targets.length < 10 then ⟨100, 0, int (sum * 100)⟩
  else ⟨1, 0, sum⟩

def pickByWeight (s : Smoothing) : List Channel → ℤ → Option Channel
  | [], _ => none
  | ch :: rest, randomWeight =>
    let left := int (randomWeight - int (int (ch.getWeight * s.factor) + s.adjustment))
    if left < 0 then some ch else pickByWeight s rest left

/-- `GetRandomSatisfiedChannel` with the memory cache on. The random value is the residue of
`random`; `rand.Intn` panics unless its bound is positive. -/
def getRandomSatisfiedChannel (group model : String) (retry : ℤ) (requestPath : String)
    (random : ℤ) : Call String (Option Channel) :=
  match candidates rt cache group model requestPath with
  | [] => pure none
  | [id] => do
      let ch ← cache.lookup id
      pure (some ch)
  | ids => do
      let channels ← cache.lookupAll ids
      let priority ← .ofOption (targetPriority (sortedUniquePriorities channels) retry)
      let targets := channels.filter fun ch ↦ ch.getPriority = priority
      .check s!"no channel found, group: {group}, model: {model}, priority: {priority}"
        (targets ≠ [])
      let s := smoothing targets
      if s.totalWeight ≤ 0 then .diverges
      else do
        let ch ← .required "channel not found" (pickByWeight s targets (random % s.totalWeight))
        pure (some ch)

end Moligate.Channels
