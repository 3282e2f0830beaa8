import Moligate.Channels.Weighted

namespace Moligate.Channels

open Foundation List Nat Ability

/-- How the database orders rows `weight DESC`; rows of one weight come in any order. -/
structure WeightOrder where
  sort : List Ability → List Ability
  perm : ∀ abilities, (sort abilities).Perm abilities
  descending : ∀ abilities, (sort abilities).Pairwise fun a b ↦ b.weight ≤ a.weight

section

variable (rt : Runtime) (order : WeightOrder) (db : Database)
  (group model : String) (retry : ℤ) (requestPath : String)

def enabledAbilities : List Ability :=
  db.abilities.rows.filter fun a ↦ a.group = group && a.model = model && a.enabled

/-- `getPriority`. A `NULL` cannot be scanned into an `int`. -/
def getPriority : Call String ℤ := do
  let abilities := enabledAbilities db group model
  .check "sql: Scan error on column index 0, name \"priority\": converting NULL to int is unsupported"
    (abilities.all fun a ↦ a.priority.isSome)
  let priorities := (abilities.filterMap priority).dedup.insertionSort (· ≥ ·)
  .check "数据库一致性被破坏" (!priorities.isEmpty)
  .ofOption <| if retry ≥ priorities.length then priorities.getLast?
    else if retry < 0 then none else priorities[retry.toNat]?

def maxPriority : Option ℤ := ((enabledAbilities db group model).filterMap priority).max?

def queryPriority : Call String (Option ℤ) :=
  if retry ≠ 0 then some <$> getPriority db group model retry
  else pure (maxPriority db group model)

def getChannelQuery : Call String (List Ability) := do
  let priority ← queryPriority db group model retry
  pure ((enabledAbilities db group model).filter fun a ↦ priority.isSome && a.priority = priority)

/-- A channel of the type is kept for its routes; one that is not in the table is kept. -/
def filterAbilitiesByRequestPathAndModel (abilities : List Ability) : List Ability :=
  if requestPath = "" then abilities
  else abilities.filter fun a ↦
    match db.channels.find a.channelId with
    | none => true
    | some ch => ch.type ≠ channelTypeAdvancedCustom ||
        ch.advancedCustom.any fun config ↦ config.supportsPathForModel rt requestPath model

def abilityCandidates : Call String (List Ability) := do
  let abilities ← getChannelQuery db group model retry
  pure (filterAbilitiesByRequestPathAndModel rt db model requestPath (order.sort abilities))

def weightSum (abilities : List Ability) : ℕ :=
  abilities.foldl (fun sum a ↦ (sum + (a.weight + 10)) % 2 ^ 64) 0

def pickAbility : List Ability → ℤ → Option Ability
  | [], _ => none
  | a :: rest, weight =>
    let left := int (weight - int (int a.weight + 10))
    if left ≤ 0 then some a else pickAbility rest left

/-- `GetChannel`: the id that is selected, with its row. Without a selection the id is zero;
`rand.Intn` panics unless its bound is positive. -/
def getChannel (random : ℤ) : Call String (Option (ℤ × Option Channel)) := do
  let abilities ← abilityCandidates rt order db group model retry requestPath
  if abilities = [] then pure none
  else
    let bound := int (weightSum abilities)
    if bound ≤ 0 then .diverges
    else
      let id := ((pickAbility abilities (random % bound)).map channelId).getD 0
      pure (some (id, db.channels.find id))

def selectedId : Call String (Option (ℤ × Option Channel)) → Option ℤ
  | .ok (some (id, _)) => some id
  | _ => none

end

section

def Ability.share (a : Ability) : ℕ := a.weight + 10

variable {abilities : List Ability}

theorem weightSum_eq (h : sumWeights share abilities < 2 ^ 63) :
    weightSum abilities = sumWeights share abilities := by
  have hfold (l : List Ability) (sum : ℕ) (hsum : sum + sumWeights share l < 2 ^ 63) :
      l.foldl (fun sum a ↦ (sum + (a.weight + 10)) % 2 ^ 64) sum = sum + sumWeights share l := by
    induction l generalizing sum with
    | nil => rfl
    | cons a l ih =>
      have hshare : a.share = a.weight + 10 := rfl
      rw [sumWeights_cons] at hsum
      have hmod : (sum + (a.weight + 10)) % 2 ^ 64 = sum + a.share := mod_eq_of_lt (by omega)
      rw [foldl_cons, hmod, ih _ (by omega), sumWeights_cons, add_assoc]
  have hsum := hfold abilities 0 (by omega)
  rwa [zero_add] at hsum

theorem int_share {a : Ability} (h : a.share < 2 ^ 63) : int (int a.weight + 10) = a.share := by
  have hshare : a.share = a.weight + 10 := rfl
  rw [int_eq (x := a.weight) (by omega) (by omega), int_eq (by omega) (by omega), hshare, cast_add]
  rfl

theorem pickAbility_zero {a : Ability} (rest : List Ability) (h : a.share < 2 ^ 63) :
    pickAbility (a :: rest) 0 = some a := by
  have hleft : int (0 - int (int a.weight + 10)) ≤ 0 := by
    rw [int_share h, int_eq (by omega) (by omega)]
    omega
  simp only [pickAbility, if_pos hleft]

/-- The loop stops one value late: past zero it finds what the value before it should have found. -/
theorem pickAbility_succ (h : sumWeights share abilities < 2 ^ 63) {x : ℕ} (hx : x + 1 < 2 ^ 63) :
    pickAbility abilities (x + 1 : ℕ) = weightedPick share abilities x := by
  induction abilities generalizing x with
  | nil => rfl
  | cons a rest ih =>
    rw [sumWeights_cons] at h
    have hleft : int ((x + 1 : ℕ) - int (int a.weight + 10)) = (x + 1 : ℕ) - a.share := by
      rw [int_share (by omega), int_eq (by omega) (by omega)]
    simp only [pickAbility, hleft, weightedPick]
    by_cases hlt : x < a.share
    · rw [if_pos (by omega), if_pos hlt]
    · have hrest : ((x + 1 : ℕ) - a.share : ℤ) = (x - a.share + 1 : ℕ) := by omega
      rw [if_neg (by omega), if_neg hlt, hrest]
      exact ih (by omega) (by omega)

theorem exists_pickAbility (hfits : sumWeights share abilities < 2 ^ 63) {r : ℕ}
    (hr : r < sumWeights share abilities) : ∃ b, pickAbility abilities r = some b := by
  cases r with
  | zero =>
    cases abilities with
    | nil => simp at hr
    | cons b rest =>
      rw [sumWeights_cons] at hfits
      exact ⟨b, pickAbility_zero rest (by omega)⟩
  | succ x =>
    obtain ⟨b, -, hpick⟩ := exists_weightedPick (lt_of_succ_lt hr)
    exact ⟨b, (pickAbility_succ hfits (by omega)).trans hpick⟩

variable {before after : List Ability} {a : Ability}
  (hids : ((before ++ a :: after).map channelId).Nodup)
  (hfits : sumWeights share (before ++ a :: after) < 2 ^ 63)

include hids in
theorem channelId_ne : (∀ b ∈ before, b.channelId ≠ a.channelId) ∧
    ∀ c ∈ after, c.channelId ≠ a.channelId := by
  rw [map_append, map_cons, nodup_append, nodup_cons] at hids
  obtain ⟨-, ⟨hafter, -⟩, hdisjoint⟩ := hids
  constructor
  · intro b hb
    exact hdisjoint _ (mem_map_of_mem hb) _ mem_cons_self
  · intro c hc heq
    exact hafter (heq ▸ mem_map_of_mem hc)

include hids hfits in
theorem pickAbility_first :
    (pickAbility (before ++ a :: after) 0).any (·.channelId = a.channelId) ↔ before = [] := by
  cases before with
  | nil =>
    rw [nil_append, sumWeights_cons] at hfits
    rw [nil_append, pickAbility_zero after (by omega)]
    simp
  | cons b before =>
    rw [cons_append, sumWeights_cons] at hfits
    rw [cons_append, pickAbility_zero _ (by omega)]
    simpa using (channelId_ne hids).1 b mem_cons_self

include hids in
theorem weightedPick_final :
    (weightedPick share (before ++ a :: after)
      (sumWeights share (before ++ a :: after) - 1)).any (·.channelId = a.channelId) ↔
        after = [] := by
  have hshare (b : Ability) : 0 < b.share := succ_pos _
  rcases eq_nil_or_concat after with rfl | ⟨init, c, rfl⟩
  · rw [weightedPick_last before (hshare a)]
    simp
  · rw [concat_eq_append] at hids ⊢
    have hlast : before ++ a :: (init ++ [c]) = (before ++ a :: init) ++ [c] := by simp
    rw [hlast, weightedPick_last _ (hshare c)]
    have hne := (channelId_ne hids).2 c (by simp)
    simpa using hne

include hids hfits in
/-- The first ability has a value more than its share, and the last one a value less. -/
theorem count_pickAbility :
    count (fun r : ℕ ↦ (pickAbility (before ++ a :: after) r).any (·.channelId = a.channelId))
        (sumWeights share (before ++ a :: after)) + (if after = [] then 1 else 0) =
      a.share + if before = [] then 1 else 0 := by
  have ha : a ∈ before ++ a :: after := mem_append_right before mem_cons_self
  have htotal := count_weightedPick (w := share)
    (fun b : Ability ↦ b.channelId = a.channelId) (before ++ a :: after)
  rw [sumWeights_filter_key hids ha] at htotal
  have hfirst := pickAbility_first hids hfits
  have hfinal := weightedPick_final hids
  obtain ⟨n, hn⟩ : ∃ n, sumWeights share (before ++ a :: after) = n + 1 := by
    refine exists_eq_succ_of_ne_zero ?_
    rw [sumWeights_append, sumWeights_cons, share]
    omega
  rw [hn, count_succ] at htotal
  rw [hn, Nat.add_sub_cancel] at hfinal
  have hshift : count (fun r : ℕ ↦ (pickAbility (before ++ a :: after) (r + 1 : ℕ)).any
        (·.channelId = a.channelId)) n =
      count (fun r ↦ (weightedPick share (before ++ a :: after) r).any
        (·.channelId = a.channelId)) n := by
    refine count_congr fun r hr ↦ ?_
    rw [pickAbility_succ hfits (by omega)]
  rw [hn, count_succ', hshift]
  simp only [cast_zero, hfirst]
  simp only [hfinal] at htotal
  omega

end

section

variable {rt : Runtime} {order : WeightOrder} {db : Database} {group model : String} {retry : ℤ}
  {requestPath : String} {abilities : List Ability}

theorem enabledAbilities_nodup : ((enabledAbilities db group model).map channelId).Nodup := by
  have hkeys : ((enabledAbilities db group model).map key).Nodup :=
    db.abilities.nodup.sublist (filter_sublist.map key)
  refine List.Nodup.of_map (fun id ↦ (group, model, id)) ?_
  rw [map_map]
  refine (map_congr_left fun a ha ↦ ?_) ▸ hkeys
  have hcolumns := (mem_filter.1 ha).2
  simp only [Bool.and_eq_true, decide_eq_true_eq] at hcolumns
  rw [key, hcolumns.1.1, hcolumns.1.2, Function.comp_apply]

theorem abilityCandidates_nodup
    (h : abilityCandidates rt order db group model retry requestPath = .ok abilities) :
    (abilities.map channelId).Nodup := by
  obtain ⟨rows, hrows, h⟩ := Call.bind_eq_ok.1 h
  cases h
  obtain ⟨priority, -, hrows⟩ := Call.bind_eq_ok.1 hrows
  cases hrows
  have hsorted := (order.perm ((enabledAbilities db group model).filter fun a ↦
    priority.isSome && decide (a.priority = priority))).map channelId
  have hnodup := hsorted.nodup_iff.2 (enabledAbilities_nodup.sublist (filter_sublist.map channelId))
  rw [filterAbilitiesByRequestPathAndModel]
  split
  · exact hnodup
  · exact hnodup.sublist (filter_sublist.map channelId)

theorem selectedId_getChannel
    (h : abilityCandidates rt order db group model retry requestPath = .ok abilities)
    (hfits : sumWeights share abilities < 2 ^ 63) {r : ℕ} (hr : r < sumWeights share abilities) :
    selectedId (getChannel rt order db group model retry requestPath r) =
      some (((pickAbility abilities r).map channelId).getD 0) := by
  have hne : abilities ≠ [] := by
    rintro rfl
    simp at hr
  have hbound : int (weightSum abilities) = (sumWeights share abilities : ℕ) := by
    rw [weightSum_eq hfits, int_eq (by omega) (by omega)]
  rw [getChannel, h, Call.ok_bind, if_neg hne, hbound, if_neg (by omega),
    Int.emod_eq_of_lt (by omega) (by omega)]
  rfl

end

namespace DatabaseExample

def order : WeightOrder where
  sort abilities := abilities.insertionSort fun a b ↦ b.weight ≤ a.weight
  perm _ := List.perm_insertionSort _ _
  descending abilities := by
    have htotal : Std.Total fun a b : Ability ↦ b.weight ≤ a.weight := ⟨fun a b ↦ le_total _ _⟩
    have htrans : IsTrans Ability fun a b ↦ b.weight ≤ a.weight :=
      ⟨fun _ _ _ hab hbc ↦ le_trans hbc hab⟩
    exact List.pairwise_insertionSort _ _

def ability (id : ℤ) (weight : ℕ) : Ability := ⟨"default", "gpt-4", id, true, some 0, weight, none⟩

def database : Database where
  channels := ∅
  abilities := ⟨[ability 1 5, ability 2 0, ability 3 0], by decide⟩

def share (id : ℤ) : ℕ :=
  count (fun r : ℕ ↦ selectedId (getChannel RoutingExample.runtime order database "default"
    "gpt-4" 0 "" r) = some id) 35

end DatabaseExample

open DatabaseExample

end Moligate.Channels
