import Moligate.Channels.Operations
import Moligate.Channels.Routing
import Moligate.Foundation.Threads

namespace Moligate.Channels.Rebuild

open Foundation Option List Strings

inductive Write where
  | insert (ch : Channel) (newId : ℤ)
  | update (v : ChannelValues)
  | delete (id : ℤ)
  | batchDeleteChannels (ids : List ℤ)

inductive Stage where
  | idle
  -- `Insert`
  | create (row : Channel)
  | addAbilities (chunks : List (List Ability))
  -- `Update`
  | prepare (v : ChannelValues)
  | updateRow (v : ChannelValues)
  | reload (v : ChannelValues)
  | updateAbilities (ch : Channel)
  -- `Delete`
  | deleteRow (id : ℤ)
  | deleteAbilities (id : ℤ)
  -- `BatchDeleteChannels`
  | deleteBatch (ids : List ℤ)
  -- `InitChannelCache`
  | findChannels
  | findAbilities (channels : Table Channel.id)
  | build (channels : Table Channel.id) (abilities : Table Ability.key)

inductive Action where
  | write (call : Write)
  | initChannelCache | next

/-- The database and the cache. Besides, whether a goroutine has panicked, and the caches that were
built, each with the channels that were read for it. -/
structure World where
  db : Database
  cache : Cache
  panicked : Bool
  built : List (Table Channel.id × Cache)

section

variable (rt : Runtime) (w : World)

def Write.start : Write → Stage
  | .insert ch newId => .create { ch.withDefaults with id := if ch.id = 0 then newId else ch.id }
  | .update v => .prepare v
  | .delete id => .deleteRow id
  | .batchDeleteChannels ids => .deleteBatch ids

def abilityChunkSize : ℕ := 50

def create (row : Channel) : World × Stage :=
  match w.db.channels.create row with
  | none => (w, .idle)
  | some channels => ({ w with db := { w.db with channels := channels } },
      .addAbilities (row.abilities.toChunks abilityChunkSize))

def addAbilities : List (List Ability) → World × Stage
  | [] => (w, .idle)
  | chunk :: rest => ({ w with db := { w.db with
      abilities := w.db.abilities.createMissing chunk } }, .addAbilities rest)

def updateRow (v : ChannelValues) : World × Stage :=
  if v.id = 0 then (w, .idle) else ({ w with db := w.db.updateRow v }, .reload v)

def deleteRow (id : ℤ) : World × Stage :=
  if id = 0 then (w, .idle)
  else ({ w with db := { w.db with channels := w.db.channels.filter fun ch ↦ ch.id ≠ id } },
    .deleteAbilities id)

def build (channels : Table Channel.id) (abilities : Table Ability.key) : World × Stage :=
  match initChannelCache rt w.cache.channelsIDM ⟨channels, abilities⟩ with
  | none => ({ w with panicked := true }, .idle)
  | some cache => ({ w with cache := cache, built := (channels, cache) :: w.built }, .idle)

def next : Stage → Option (World × Stage)
  | .idle => none
  | .create row => some (create w row)
  | .addAbilities chunks => some (addAbilities w chunks)
  | .prepare v => some (w, .updateRow (v.prepared w.db rt))
  | .updateRow v => some (updateRow w v)
  | .reload v => some (w, .updateAbilities ((w.db.channels.find v.id).getD v.channel))
  | .updateAbilities ch => some ({ w with db := Channels.updateAbilities w.db ch }, .idle)
  | .deleteRow id => some (deleteRow w id)
  | .deleteAbilities id => some ({ w with db := Channels.deleteAbilities w.db id }, .idle)
  | .deleteBatch ids => some ({ w with db := w.db.batchDeleteChannels ids }, .idle)
  | .findChannels => some (w, .findAbilities w.db.channels)
  | .findAbilities channels => some (w, .build channels w.db.abilities)
  | .build channels abilities => some (build rt w channels abilities)

def perform (a : Action) (stage : Stage) : Option (World × Stage) :=
  match a, stage with
  | .write call, .idle => some (w, call.start)
  | .initChannelCache, .idle => some (w, .findChannels)
  | .next, stage => next rt w stage
  | _, _ => none

end

variable {π : Type} [DecidableEq π]

def System.step (rt : Runtime) : Config World π Stage → π × Action → Option (Config World π Stage) :=
  Config.step fun _ a w stage ↦ perform rt w a stage

def start (db : Database) (cache : Cache) : Config World π Stage :=
  ⟨⟨db, cache, false, []⟩, fun _ ↦ .idle⟩

section

def priorityOf (channels : Table Channel.id) (id : ℤ) : ℤ :=
  ((channels.find id).map Channel.getPriority).getD 0

/-- What `sort.Slice` promises, for a comparison by rank. -/
def SortsByRank (rt : Runtime) : Prop :=
  ∀ (rank : ℤ → ℤ) (ids : List ℤ),
    (rt.sortSlice (fun i j ↦ rank i > rank j) ids).Pairwise fun i j ↦ rank j ≤ rank i

structure Indexes (channels : Table Channel.id) (index : Index) : Prop where
  members : ∀ group model id, id ∈ index.channels group model ↔
    ∃ ch ∈ channels.rows, ch.id = id ∧ ch.status = channelStatusEnabled ∧
      group ∈ split ch.group "," ∧ model ∈ split ch.models ","
  sorted : ∀ group model,
    (index.channels group model).Pairwise fun i j ↦ priorityOf channels j ≤ priorityOf channels i

def covers (channels : Table Channel.id) (abilities : Table Ability.key) : Bool :=
  channels.rows.all fun ch ↦ ch.status ≠ channelStatusEnabled ||
    (split ch.group ",").all fun group ↦ abilities.rows.any fun a ↦ a.group = group

variable {rt : Runtime} {old channels : Table Channel.id} {abilities : Table Ability.key}

theorem covers_iff : covers channels abilities = true ↔ ∀ ch ∈ channels.rows,
    ch.status = channelStatusEnabled → ∀ group ∈ split ch.group ",",
      ∃ a ∈ abilities.rows, a.group = group := by
  simp [covers, or_iff_not_imp_left]

theorem mem_idsOf_entries {rows : List Channel} {group model : String} {id : ℤ} :
    id ∈ idsOf group model (entries rows) ↔ ∃ ch ∈ rows, ch.id = id ∧
      ch.status = channelStatusEnabled ∧ group ∈ split ch.group "," ∧
        model ∈ split ch.models "," := by
  rw [← count_pos_iff, count_idsOf, count_pos_iff, entries]
  simp only [List.mem_flatMap, List.mem_filter, decide_eq_true_eq, entriesOf, List.mem_map,
    Prod.mk.injEq]
  constructor
  · rintro ⟨ch, ⟨hch, hstatus⟩, g, hg, m, hm, rfl, rfl, rfl⟩
    exact ⟨ch, hch, rfl, hstatus, hg, hm⟩
  · rintro ⟨ch, hch, rfl, hstatus, hg, hm⟩
    exact ⟨ch, ⟨hch, hstatus⟩, group, hg, model, hm, rfl, rfl, rfl⟩

theorem append_groups {index index' : Index} {e : String × String × ℤ}
    (h : index.append e = some index') (group : String) :
    (index' group).isSome = (index group).isSome := by
  obtain ⟨models, hmodels, rfl⟩ := map_eq_some_iff.1 h
  by_cases hgroup : group = e.1
  · subst hgroup
    rw [Function.update_self, hmodels, isSome_some, isSome_some]
  · rw [Function.update_of_ne hgroup]

theorem appendAll_of_groups {index : Index} {es : List (String × String × ℤ)}
    (h : ∀ e ∈ es, (index e.1).isSome) : ∃ index', appendAll index es = some index' := by
  induction es generalizing index with
  | nil => exact ⟨index, rfl⟩
  | cons e es ih =>
    obtain ⟨next, hnext⟩ : ∃ next, index.append e = some next := by
      obtain ⟨models, hmodels⟩ := isSome_iff_exists.1 (h e mem_cons_self)
      rw [Index.append, hmodels]
      exact ⟨_, rfl⟩
    have hgroups : ∀ e' ∈ es, (next e'.1).isSome := by
      intro e' he'
      rw [append_groups hnext]
      exact h e' (mem_cons_of_mem _ he')
    obtain ⟨index', hindex'⟩ := ih hgroups
    exact ⟨index', by rw [appendAll, hnext, bind_some, hindex']⟩

theorem initChannelCache_of_covers (h : covers channels abilities = true) :
    ∃ cache, initChannelCache rt old ⟨channels, abilities⟩ = some cache := by
  have hgroups : ∀ e ∈ entries channels.rows, (emptyIndex abilities.rows e.1).isSome := by
    intro e he
    obtain ⟨ch, hch, he⟩ := mem_flatMap.1 he
    obtain ⟨hmem, hstatus⟩ := mem_filter.1 hch
    obtain ⟨group, hgroup, he⟩ := mem_flatMap.1 he
    obtain ⟨model, -, rfl⟩ := mem_map.1 he
    obtain ⟨a, ha, rfl⟩ := covers_iff.1 h ch hmem (of_decide_eq_true hstatus) group hgroup
    rw [emptyIndex, if_pos (any_eq_true.2 ⟨a, ha, decide_eq_true rfl⟩), isSome_some]
  obtain ⟨index, hindex⟩ := appendAll_of_groups hgroups
  rw [initChannelCache, hindex]
  exact ⟨_, rfl⟩

theorem initChannelCache_indexes (hsort : SortsByRank rt) {cache : Cache}
    (h : initChannelCache rt old ⟨channels, abilities⟩ = some cache) :
    Indexes channels cache.group2model2channels := by
  constructor
  · intro group model id
    exact (initChannelCache_perm h group model).mem_iff.trans mem_idsOf_entries
  · intro group model
    obtain ⟨index, -, rfl⟩ := map_eq_some_iff.1 h
    cases hgroup : index group with
    | none => simp [Index.channels, sortByPriority, hgroup]
    | some models =>
      simp only [Index.channels, sortByPriority, hgroup, map_some]
      exact hsort (priorityOf channels) (models model)

variable {w : World} {stage : Stage} {out : World × Stage}

/-- When the abilities are read, every group of an enabled channel that was read has one. -/
def readsCovered (a : Action) (w : World) (stage : Stage) : Bool :=
  match a, stage with
  | .next, .findAbilities channels => covers channels w.db.abilities
  | _, _ => true

/-- No rebuild has panicked, and those that are done have indexed the channels that they read. -/
structure Sound (w : World) : Prop where
  running : w.panicked = false
  built : ∀ entry ∈ w.built, Indexes entry.1 entry.2.group2model2channels

def Stage.Holds : Stage → Prop
  | .build channels abilities => covers channels abilities = true
  | _ => True

abbrev Safe (p : π) (w : World) (out : World × Stage) : Prop :=
  Config.Safe Sound (fun _ _ stage ↦ stage.Holds) (fun _ _ _ ↦ True) p w out

variable {p : π}

omit [DecidableEq π] in
theorem Sound.stays (h : Sound w) (db : Database) {stage : Stage} (hstage : stage.Holds) :
    Safe p w ({ w with db := db }, stage) :=
  ⟨{ h with }, hstage, trivial⟩

omit [DecidableEq π] in
theorem safe_next (hsort : SortsByRank rt) (h : Sound w) (hstage : stage.Holds)
    (hreads : readsCovered .next w stage = true) (hout : next rt w stage = some out) :
    Safe p w out := by
  cases stage with
  | idle => cases hout
  | create | addAbilities | updateRow | deleteRow =>
    cases hout
    simp only [create, addAbilities, updateRow, deleteRow]
    split
    · exact h.stays w.db trivial
    · exact h.stays _ trivial
  | prepare v | reload v | findChannels => exact some.inj hout ▸ h.stays w.db trivial
  | updateAbilities ch | deleteAbilities id | deleteBatch ids =>
    exact some.inj hout ▸ h.stays _ trivial
  | findAbilities channels => exact some.inj hout ▸ h.stays w.db hreads
  | build channels abilities =>
    obtain ⟨cache, hcache⟩ :=
      @initChannelCache_of_covers rt w.cache.channelsIDM channels abilities hstage
    cases hout
    rw [build, hcache]
    refine ⟨⟨h.running, fun entry hentry ↦ ?_⟩, trivial, trivial⟩
    rcases mem_cons.1 hentry with rfl | hentry
    · exact initChannelCache_indexes hsort hcache
    · exact h.built entry hentry

omit [DecidableEq π] in
theorem safe_perform {a : Action} (hsort : SortsByRank rt) (h : Sound w) (hstage : stage.Holds)
    (hreads : readsCovered a w stage = true) (hout : perform rt w a stage = some out) :
    Safe p w out := by
  cases a with
  | write call =>
    cases stage with
    | idle => cases call <;> exact some.inj hout ▸ h.stays w.db trivial
    | _ => cases hout
  | initChannelCache =>
    cases stage with
    | idle => exact some.inj hout ▸ h.stays w.db trivial
    | _ => cases hout
  | next => exact safe_next hsort h hstage hreads hout

end

/-- A rebuild never panics, and it indexes the enabled channels that it read, when each of their
groups has an ability at the time the abilities are read. -/
theorem rebuild_never_panics {rt : Runtime} (hsort : SortsByRank rt) (db : Database) (cache : Cache)
    {run : List (π × Action)} {c : Config World π Stage}
    (hguard : Guarded (System.step rt)
      (fun c a ↦ readsCovered a.2 c.shared (c.thread a.1) = true) (start db cache) run)
    (hrun : exec (System.step rt) (start db cache) run = some c) :
    c.shared.panicked = false ∧
      ∀ entry ∈ c.shared.built, Indexes entry.1 entry.2.group2model2channels := by
  have hstart : (start db cache : Config World π Stage).Holds Sound (fun _ _ stage ↦ stage.Holds) :=
    ⟨⟨rfl, fun entry hentry ↦ absurd hentry not_mem_nil⟩, fun _ ↦ trivial⟩
  obtain ⟨hsound, -⟩ := Config.exec_safe (fun _ _ _ _ _ ↦ safe_perform hsort)
    (fun _ _ _ _ _ _ hstage _ ↦ hstage) hstart hguard hrun
  exact ⟨hsound.running, hsound.built⟩

namespace Example

open RoutingExample

theorem runtime_sorts : SortsByRank runtime := by
  intro rank ids
  let r (i j : ℤ) : Prop := (!decide (rank j > rank i)) = true
  have hr (i j : ℤ) : r i j ↔ rank j ≤ rank i := by simp [r]
  have htotal : Std.Total r := ⟨fun i j ↦ by
    rw [hr, hr]
    exact le_total _ _⟩
  have htrans : IsTrans ℤ r := ⟨fun i j k hij hjk ↦ by
    rw [hr] at hij hjk ⊢
    exact le_trans hjk hij⟩
  exact (pairwise_insertionSort r ids).imp fun {i j} hij ↦ (hr i j).1 hij

def db : Database where
  channels := ⟨[channel "gpt-4"], by simp⟩
  abilities := ⟨[⟨"default", "gpt-4", 1, true, some 0, 0, none⟩], by simp⟩

def cache : Cache := ⟨fun _ ↦ none, ∅, fun _ ↦ none⟩

def go (p : ℕ) : ℕ × Action := (p, .next)

def insertThenRebuild : List (ℕ × Action) :=
  [(0, .write (.insert { channel "gpt-4" with id := 0, group := "vip" } 2)), go 0, go 0, go 0,
    (1, .initChannelCache), go 1, go 1, go 1]

/-- The only channel is deleted between the two reads. -/
def deleteBetween : List (ℕ × Action) :=
  [(1, .initChannelCache), go 1, (0, .write (.delete 1)), go 0, go 0, go 1, go 1]

def panics (run : List (ℕ × Action)) : Option Bool :=
  (exec (System.step runtime) (start db cache) run).map fun c ↦ c.shared.panicked

end Example

open Example

theorem rebuild_never_panics_after_insert :
    ∃ c, exec (System.step RoutingExample.runtime) (start db cache) insertThenRebuild = some c ∧
      c.shared.panicked = false ∧
        ∀ entry ∈ c.shared.built, Indexes entry.1 entry.2.group2model2channels := by
  obtain ⟨c, hrun, -⟩ := map_eq_some_iff.1
    (show panics insertThenRebuild = some false by decide +kernel)
  exact ⟨c, hrun, rebuild_never_panics runtime_sorts db cache (by decide +kernel) hrun⟩

/-- The channel that was read lists a group that no ability has any more: the append to the missing
map panics. -/
theorem rebuild_panics : panics deleteBetween = some true := by
  decide +kernel

end Moligate.Channels.Rebuild
