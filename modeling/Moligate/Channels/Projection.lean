import Moligate.Channels.Operations
import Moligate.Channels.Polling

namespace Moligate.Channels

open Foundation Derivation List Table TagEdit Strings Polling

variable {rt : Runtime} {db : Database} {ch row : Channel} {a : Ability} {g : Ability → Ability}

@[mk_iff]
structure Projects (ch : Channel) (a : Ability) : Prop where
  group : a.group ∈ split ch.group ","
  model : a.model ∈ split ch.models ","
  channelId : a.channelId = ch.id
  enabled : a.enabled = decide (ch.status = channelStatusEnabled)
  priority : a.priority = some ch.getPriority
  weight : a.weight = ch.weight.getD 0 % 2 ^ 64
  tag : a.tag = ch.tag

def projection : Derivation Channel.id Ability where
  owner := Ability.channelId
  Derives := Projects
  owner_eq h := h.channelId

abbrev Database.Agrees (db : Database) : Prop := projection.Agrees db.channels db.abilities

/-- No two pairs of a group and a model share a key of `abilitySet`. -/
def Channel.unambiguous (ch : Channel) : Bool :=
  ch.pairs.all fun p ↦ ch.pairs.all fun q ↦ pairKey p ≠ pairKey q ∨ p = q

theorem toNat_bmod_emod (n m : ℕ) : (Int.bmod n m % m).toNat = n % m := by
  rw [Int.bmod_emod]
  exact Int.toNat_natCast _

theorem abilityWeight_eq (ch : Channel) : ch.abilityWeight = ch.weight.getD 0 % 2 ^ 64 := by
  have h := toNat_bmod_emod (ch.weight.getD 0) (2 ^ 64)
  rw [← h]
  unfold Channel.abilityWeight
  rfl

theorem projects_ability {group model : String} (hgroup : group ∈ split ch.group ",")
    (hmodel : model ∈ split ch.models ",") : Projects ch (ch.ability group model) :=
  ⟨hgroup, hmodel, rfl, rfl, rfl, abilityWeight_eq ch, rfl⟩

theorem Projects.eq_ability (h : Projects ch a) : a = ch.ability a.group a.model := by
  obtain ⟨-, -, hid, henabled, hpriority, hweight, htag⟩ := h
  cases a
  simp only at hid henabled hpriority hweight htag
  simp [Channel.ability, hid, henabled, hpriority, hweight, htag, abilityWeight_eq,
    Channel.getPriority]

theorem mem_pairs {pair : String × String} : pair ∈ ch.pairs ↔
    pair.1 ∈ split ch.group "," ∧ pair.2 ∈ split ch.models "," := by
  obtain ⟨group, model⟩ := pair
  simp only [Channel.pairs, mem_flatMap, mem_map, Prod.mk.injEq]
  constructor
  · rintro ⟨m, hm, g, hg, rfl, rfl⟩
    exact ⟨hg, hm⟩
  · rintro ⟨hg, hm⟩
    exact ⟨model, hm, group, hg, rfl, rfl⟩

theorem projects_of_mem_abilities (h : a ∈ ch.abilities) : Projects ch a := by
  obtain ⟨pair, hpair, rfl⟩ := mem_map.1 h
  obtain ⟨hgroup, hmodel⟩ := mem_pairs.1 (of_mem_keepFirst hpair).1
  exact projects_ability hgroup hmodel

theorem mem_abilities (hch : ch.unambiguous = true) : a ∈ ch.abilities ↔ Projects ch a := by
  refine ⟨projects_of_mem_abilities, fun h ↦ ?_⟩
  have hinj : ∀ p ∈ ch.pairs, ∀ q ∈ ch.pairs, pairKey p = pairKey q → p = q := by
    intro p hp q hq hkey
    have := all_eq_true.1 (all_eq_true.1 hch p hp) q hq
    exact (of_decide_eq_true this).resolve_left (not_not_intro hkey)
  refine mem_map.2 ⟨(a.group, a.model), ?_, h.eq_ability.symm⟩
  exact mem_keepFirst_of_injOn hinj (mem_pairs.2 ⟨h.group, h.model⟩) not_mem_nil

theorem nodup_abilities : (ch.abilities.map Ability.key).Nodup := by
  refine List.Nodup.of_map (fun k : String × String × ℤ ↦ pairKey (k.1, k.2.1)) ?_
  rw [Channel.abilities, map_map, map_map]
  exact nodup_map_keepFirst

theorem projects_change {f : Channel → Channel}
    (hgroup : (f ch).group = ch.group) (hmodels : (f ch).models = ch.models)
    (hability : ∀ group model, (f ch).ability group model = g (ch.ability group model)) (a' : Ability) :
    Projects (f ch) a' ↔ ∃ a, Projects ch a ∧ g a = a' := by
  constructor
  · intro h
    refine ⟨ch.ability a'.group a'.model, projects_ability (hgroup ▸ h.group) (hmodels ▸ h.model), ?_⟩
    rw [← hability]
    exact h.eq_ability.symm
  · rintro ⟨a, h, rfl⟩
    rw [h.eq_ability, ← hability]
    exact projects_ability (hgroup ▸ h.group) (hmodels ▸ h.model)

section

variable {k : ℤ} {chs : List Channel}

theorem mem_addAbilities (hfresh : ∀ a ∈ db.abilities.rows, a.channelId ≠ ch.id) :
    a ∈ (addAbilities db ch).abilities.rows ↔ a ∈ db.abilities.rows ∨ a ∈ ch.abilities := by
  refine mem_createMissing (fun a ha ↦ ?_) nodup_abilities
  rw [Option.eq_none_iff_forall_ne_some]
  intro a' ha'
  have hid : a'.channelId = a.channelId := congrArg (fun k ↦ k.2.2) (key_of_find ha')
  exact hfresh a' (find_mem ha') (hid.trans (projects_of_mem_abilities ha).channelId)

theorem mem_deleteAbilities {id : ℤ} : a ∈ (deleteAbilities db id).abilities.rows ↔
    a ∈ db.abilities.rows ∧ a.channelId ≠ id := by
  simp [deleteAbilities, Table.filter]

theorem mem_updateAbilities : a ∈ (updateAbilities db ch).abilities.rows ↔
    (a ∈ db.abilities.rows ∧ a.channelId ≠ ch.id) ∨ a ∈ ch.abilities := by
  rw [updateAbilities, mem_addAbilities fun a ha ↦ (mem_deleteAbilities.1 ha).2, mem_deleteAbilities]

theorem agreesAt_updateAbilities_self (hch : ch.unambiguous = true)
    (hfind : db.channels.find ch.id = some ch) :
    projection.AgreesAt (updateAbilities db ch).channels (updateAbilities db ch).abilities ch.id := by
  intro a ha
  have hch' : ∀ r, db.channels.find ch.id = some r ↔ r = ch := by
    intro r
    rw [hfind, Option.some.injEq, eq_comm]
  change a ∈ _ ↔ ∃ r, db.channels.find ch.id = some r ∧ Projects r a
  simp only [mem_updateAbilities, mem_abilities hch, hch', exists_eq_left]
  exact or_iff_right fun h ↦ h.2 ha

theorem agreesAt_updateAbilities_of_ne (hk : k ≠ ch.id)
    (h : projection.AgreesAt db.channels db.abilities k) :
    projection.AgreesAt (updateAbilities db ch).channels (updateAbilities db ch).abilities k := by
  intro a ha
  rw [mem_updateAbilities]
  change _ ↔ ∃ r, db.channels.find k = some r ∧ Projects r a
  rw [← show _ ↔ ∃ r, db.channels.find k = some r ∧ Projects r a from h a ha]
  have hid : a.channelId ≠ ch.id := fun h ↦ hk (ha.symm.trans h)
  have hnot : a ∉ ch.abilities := fun h ↦ hid (projects_of_mem_abilities h).channelId
  simp [hid, hnot]

theorem agreesAt_foldl_updateAbilities (hunamb : ∀ ch ∈ chs, ch.unambiguous = true)
    (hrows : ∀ ch ∈ chs, ch ∈ db.channels.rows)
    (h : (∃ ch ∈ chs, ch.id = k) ∨ projection.AgreesAt db.channels db.abilities k) :
    projection.AgreesAt (chs.foldl updateAbilities db).channels
      (chs.foldl updateAbilities db).abilities k := by
  induction chs generalizing db with
  | nil => exact h.resolve_left (by simp)
  | cons ch chs ih =>
    have hself := agreesAt_updateAbilities_self (hunamb ch mem_cons_self)
      (find_of_mem (hrows ch mem_cons_self))
    rw [foldl_cons]
    refine ih (fun c hc ↦ hunamb c (mem_cons_of_mem ch hc))
      (fun c hc ↦ hrows c (mem_cons_of_mem ch hc)) ?_
    by_cases hk : k = ch.id
    · exact .inr (hk ▸ hself)
    · refine h.imp (fun ⟨c, hc, hck⟩ ↦ ?_) (agreesAt_updateAbilities_of_ne hk)
      refine ⟨c, (mem_cons.1 hc).resolve_left fun h ↦ hk ?_, hck⟩
      rw [← hck, h]

end

section

structure SameColumns (ch ch' : Channel) : Prop where
  id : ch'.id = ch.id
  group : ch'.group = ch.group
  models : ch'.models = ch.models
  priority : ch'.priority = ch.priority
  weight : ch'.weight = ch.weight
  tag : ch'.tag = ch.tag

theorem SameColumns.ability {ch ch' : Channel} (h : SameColumns ch ch') (group model : String) :
    ch'.ability group model = { ch.ability group model with
      enabled := decide (ch'.status = channelStatusEnabled) } := by
  simp [Channel.ability, abilityWeight_eq, h.id, h.priority, h.weight, h.tag]

theorem SameColumns.agrees {ch ch' : Channel} (h : SameColumns ch ch') (status shouldUpdate : Bool)
    (hfind : db.channels.find ch'.id = some ch)
    (hupdate : if shouldUpdate then status = decide (ch'.status = channelStatusEnabled)
      else ch'.status = ch.status) (hdb : db.Agrees) :
    projection.Agrees (db.channels.save ch') (if shouldUpdate then
      updateAbilityStatus db.abilities ch'.id status else db.abilities) := by
  have hchange (g : Ability → Ability)
      (hg : ∀ group model, ch'.ability group model = g (ch.ability group model)) (a' : Ability) :
      Projects ch' a' ↔ ∃ a, Projects ch a ∧ g a = a' :=
    projects_change (f := fun _ ↦ ch') h.group h.models hg a'
  cases shouldUpdate with
  | true =>
    refine Agrees.save (fun a ↦ ?_) hfind hdb (fun a ha ↦ if_neg ha) (hchange _ fun group model ↦ ?_)
    · split <;> rfl
    · have hown : (ch.ability group model).channelId = ch'.id := h.id.symm
      rw [h.ability, if_pos hown, hupdate]
  | false =>
    have hability (group model : String) : ch'.ability group model = ch.ability group model := by
      rw [h.ability, hupdate]
      rfl
    have hid : projection.Agrees (db.channels.save ch')
        (db.abilities.update (fun a ↦ a) fun _ ↦ rfl) :=
      Agrees.save _ hfind hdb (fun _ _ ↦ rfl) (hchange _ hability)
    simpa [update] using hid

theorem hasEnabledMultiKey_of_enabled {keys : List String} {statusList : ℕ → Option ℤ} {i : ℕ}
    (hi : i < keys.length) (hnone : statusList i = none) :
    hasEnabledMultiKey keys statusList = true := by
  refine any_eq_true.2 ⟨i, mem_range.2 hi, ?_⟩
  rw [hnone]

variable {u : StatusUpdate} {tag : String} {f : Channel → Channel} {v : ChannelValues}

theorem handlerMultiKeyUpdate_status (h : (handlerMultiKeyUpdate rt ch u).status ≠ ch.status) :
    (handlerMultiKeyUpdate rt ch u).status = channelStatusEnabled ↔
      u.status = channelStatusEnabled := by
  simp only [handlerMultiKeyUpdate] at h ⊢
  split at h
  next hkeys => rw [if_pos hkeys]
  rename_i hkeys
  rw [if_neg hkeys]
  split at h
  · split at h
    · exact absurd rfl h
    next hkey =>
      rw [if_neg hkey]
      rfl
  next i hi =>
    split at h
    next hall =>
      rw [if_pos hall]
      refine iff_of_false (by simp [Channel.setStatus, channelStatusAutoDisabled,
        channelStatusEnabled]) fun hu ↦ ?_
      obtain ⟨hlt, -⟩ := findIdx?_eq_some_iff_getElem.1 hi
      rw [hasEnabledMultiKey_of_enabled hlt] at hall
      · exact absurd hall (by decide)
      · rw [ChannelInfo.setKeyStatus, if_pos hu]
        exact Function.update_self ..
    next hall =>
      rw [if_neg hall]
      split at h
      next hu =>
        rw [if_pos hu]
        exact iff_of_true rfl hu
      · exact absurd rfl h

theorem updated_same (rt : Runtime) (u : StatusUpdate) (row : Channel) :
    SameColumns row (updated rt u row.ofRow) := by
  rw [updated]
  split
  · obtain ⟨status, otherInfo, channelInfo, heq⟩ := handlerMultiKeyUpdate_eq rt row.ofRow u
    rw [heq]
    exact ⟨rfl, rfl, rfl, rfl, rfl, rfl⟩
  · exact ⟨rfl, rfl, rfl, rfl, rfl, rfl⟩

theorem agrees_updateStoredStatus (hu : u.channelId ≠ 0) (h : db.Agrees) :
    (updateStoredStatus rt u {} db).1.Agrees := by
  simp only [updateStoredStatus, Bool.false_eq_true, if_false]
  cases hfind : db.channels.find u.channelId with
  | none => exact h
  | some row =>
    dsimp only
    split
    · exact h
    have hsame := updated_same rt u row
    have hid : (updated rt u row.ofRow).id = u.channelId :=
      hsame.id.trans (key_of_find hfind)
    rw [← hid] at hfind hu
    have hagrees := hsame.agrees (decide (u.status = channelStatusEnabled))
      (!row.ofRow.channelInfo.isMultiKey ||
        decide (row.ofRow.status ≠ (updated rt u row.ofRow).status)) hfind ?_ h
    · rw [hid] at hagrees
      rw [Bool.not_false, Bool.and_true, ← updated, Bool.false_or, decide_eq_false hu]
      exact hagrees
    · split
      next hchanged =>
        rw [updated] at hchanged ⊢
        split
        next hmulti =>
          rw [if_pos hmulti, hmulti, Bool.not_true, Bool.false_or, decide_eq_true_eq] at hchanged
          exact decide_eq_decide.2 (handlerMultiKeyUpdate_status (Ne.symm hchanged)).symm
        · rfl
      next hkept =>
        rw [Bool.or_eq_true, not_or, decide_eq_true_eq, not_not] at hkept
        exact hkept.2.symm

theorem agrees_insert {newId : ℤ} (hch : ch.withDefaults.unambiguous = true) (h : db.Agrees) :
    (db.insert ch newId).Agrees := by
  simp only [Database.insert]
  generalize hrow : { ch.withDefaults with id := if ch.id = 0 then newId else ch.id } = row
  have hrow' : row.unambiguous = true := hrow ▸ hch
  split
  · exact h
  rename_i channels hcreate
  have hfree : ∀ a ∈ db.abilities.rows, a.channelId ≠ row.id := by
    intro a ha hid
    obtain ⟨r, hr, hra⟩ := (h a).1 ha
    have hnone := create_isSome.1 (hcreate ▸ rfl : (db.channels.create row).isSome = true)
    have hfind := find_of_mem hr
    rw [← hra.channelId, hid, hnone] at hfind
    cases hfind
  intro a
  refine (mem_addAbilities hfree).trans ?_
  rw [mem_abilities hrow']
  change _ ↔ ∃ r ∈ channels.rows, Projects r a
  rw [rows_create hcreate, exists_mem_cons_iff, or_comm]
  exact or_congr_right (h a)

theorem prepared_id (v : ChannelValues) : (v.prepared db rt).id = v.id := by
  simp only [ChannelValues.prepared]
  split
  · rfl
  · split <;> rfl

theorem agrees_updateRow (hfind : db.channels.find v.id = some row)
    (hrow : (row.updates v).unambiguous = true) (h : db.Agrees) :
    (updateAbilities (db.updateRow v)
      (((db.updateRow v).channels.find v.id).getD v.channel)).Agrees := by
  have hid : row.id = v.id := key_of_find hfind
  have hfind' : (db.updateRow v).channels.find v.id = some (row.updates v) := by
    rw [Database.updateRow, find_update, hfind, Option.map_some, if_pos hid]
  rw [hfind', Option.getD_some]
  refine agrees_iff.2 fun k ↦ ?_
  by_cases hk : k = (row.updates v).id
  · have hid' : v.id = (row.updates v).id := hid.symm
    rw [hk]
    exact agreesAt_updateAbilities_self hrow (hid' ▸ hfind')
  refine agreesAt_updateAbilities_of_ne hk (AgreesAt.congr ?_ (agrees_iff.1 h k))
  refine find_update_of_eq (fun r ↦ by split <;> rfl) fun r hr ↦ if_neg fun hr' ↦ hk ?_
  exact (key_of_find hr).symm.trans (hr'.trans hid.symm)

theorem agrees_update (hfind : db.channels.find v.id = some row)
    (hrow : (row.updates v).unambiguous = true) (h : db.Agrees) : (db.update rt v).Agrees := by
  rw [Database.update]
  split
  · exact h
  have hfind' : db.channels.find (v.prepared db rt).id = some row := by
    rw [prepared_id]
    exact hfind
  refine agrees_updateRow hfind' (.trans ?_ hrow) h
  simp only [ChannelValues.prepared]
  repeat' split
  all_goals rfl

theorem agrees_delete {id : ℤ} (h : db.Agrees) : (db.delete id).Agrees := by
  rw [Database.delete]
  split
  · exact h
  · refine Agrees.filter h fun r a ha ↦ ?_
    rw [ha.channelId]

theorem agrees_updateByTag (hf : ∀ ch, (f ch).id = ch.id)
    (hg : ∀ a, (g a).key = a.key) (h : db.Agrees)
    (hfg : ∀ ch ∈ db.channels.rows, ch.tag = some tag → (f ch).group = ch.group ∧
      (f ch).models = ch.models ∧ ∀ group model, (f ch).ability group model = g (ch.ability group model)) :
    projection.Agrees (updateChannelsByTag db.channels tag f hf)
      (updateAbilitiesByTag db.abilities tag g hg) := by
  refine Agrees.update (fun ch ↦ ?_) (fun a ↦ ?_) h fun ch hch a' ↦ ?_
  · split
    · exact hf ch
    · rfl
  · split
    · exact hg a
    · rfl
  by_cases htag : ch.tag = some tag
  · obtain ⟨hgroup, hmodels, hability⟩ := hfg ch hch htag
    rw [if_pos htag]
    refine projects_change hgroup hmodels (fun group model ↦ ?_) a'
    have htag' : (ch.ability group model).tag = some tag := htag
    rw [if_pos htag', hability]
  · rw [if_neg htag]
    refine projects_change (f := fun ch ↦ ch) rfl rfl (fun group model ↦ ?_) a'
    have htag' : ¬ (ch.ability group model).tag = some tag := htag
    rw [if_neg htag']

theorem agrees_setStatusByTag (status : ℤ) (enabled : Bool)
    (hstatus : enabled = decide (status = channelStatusEnabled)) (h : db.Agrees) :
    projection.Agrees
      (updateChannelsByTag db.channels tag (fun ch ↦ { ch with status := status }) fun _ ↦ rfl)
      (updateAbilitiesByTag db.abilities tag (fun a ↦ { a with enabled := enabled }) fun _ ↦ rfl) := by
  refine agrees_updateByTag _ _ h fun ch _ _ ↦ ⟨rfl, rfl, fun group model ↦ ?_⟩
  have hsame : SameColumns ch { ch with status := status } := ⟨rfl, rfl, rfl, rfl, rfl, rfl⟩
  rw [hsame.ability, hstatus]

def TagEdit.edited (e : TagEdit) (ch : Channel) : Channel :=
  if ch.tag = some e.tag then e.channel ch else ch

/-- What an edit needs of a row: pairs that can be told apart when the abilities are created again,
and otherwise no weight that is set to zero. -/
def TagEdit.faithful (e : TagEdit) (ch : Channel) : Bool :=
  if e.shouldReCreateAbilities then
    (e.edited ch).tag ≠ some e.updatedTag || (e.edited ch).unambiguous
  else ch.tag ≠ some e.tag || e.weight ≠ some 0 || ch.abilityWeight = 0

section

variable {e : TagEdit}

theorem channel_tag (htag : ch.tag = some e.tag) : (e.channel ch).tag = some e.updatedTag := by
  rw [channel, updatedTag]
  cases hnew : e.newTag with
  | none => simpa using htag
  | some tag =>
    by_cases heq : tag = e.tag
    · simp [heq, htag]
    · simp [heq]

theorem getD_filter_ne_empty {value : Option String} {s : String}
    (h : value.any (· ≠ "") = false) : (value.filter (· ≠ "")).getD s = s := by
  cases value with
  | none => rfl
  | some v =>
    have hv : v = "" := by simpa using h
    simp [hv, Option.filter]

theorem channel_ability (hnot : e.shouldReCreateAbilities = false) (htag : ch.tag = some e.tag)
    (hch : e.faithful ch = true) (group model : String) :
    (e.channel ch).ability group model = e.ability (ch.ability group model) := by
  have htag' : (e.channel ch).tag = e.newTag.or ch.tag := by
    rw [channel_tag htag, htag, updatedTag]
    cases e.newTag <;> rfl
  have hpriority : some ((e.priority.or ch.priority).getD 0) =
      e.priority.or (some (ch.priority.getD 0)) := by
    cases e.priority <;> rfl
  have hweight : (e.channel ch).abilityWeight = (e.ability (ch.ability group model)).weight := by
    rw [abilityWeight_eq, channel, ability]
    rw [faithful, if_neg (by simp [hnot])] at hch
    cases hw : e.weight with
    | none => exact (abilityWeight_eq ch).symm
    | some w =>
      by_cases hzero : w = 0
      · have hch' : ch.abilityWeight = 0 := by simpa [htag, hw, hzero] using hch
        simp [hzero, Channel.ability, hch']
      · simp only [Option.map_some, Option.some_or, Option.getD_some, if_neg hzero]
        exact Nat.mod_eq_of_lt w.toNat_lt
  rw [Channel.ability, hweight, htag']
  exact congrArg (fun p ↦ (⟨group, model, ch.id, _, p, _, _⟩ : Ability)) hpriority

theorem agrees_editChannelByTag (hrows : ∀ ch ∈ db.channels.rows, e.faithful ch = true)
    (h : db.Agrees) : (db.editChannelByTag e).Agrees := by
  rw [Database.editChannelByTag]
  split
  next hcreate =>
    refine agrees_iff.2 fun k ↦ agreesAt_foldl_updateAbilities ?_ ?_ ?_
    · intro ch hch
      obtain ⟨hmem, htag⟩ := mem_filter.1 hch
      obtain ⟨r, hr, rfl⟩ := (mem_update _).1 hmem
      have hr' := hrows r hr
      rw [faithful, if_pos hcreate, Bool.or_eq_true] at hr'
      refine hr'.resolve_left fun hne ↦ ?_
      exact of_decide_eq_true hne (of_decide_eq_true htag)
    · exact fun ch hch ↦ mem_of_mem_filter hch
    · -- a row that is edited has the new tag, so that the loop reaches it
      by_cases hk : ∃ row, db.channels.find k = some row ∧ row.tag = some e.tag
      · obtain ⟨row, hfind, htag⟩ := hk
        have hid : row.id = k := key_of_find hfind
        refine .inl ⟨e.channel row, mem_filter.2 ⟨?_, ?_⟩, hid⟩
        · exact mem_map.2 ⟨row, find_mem hfind, if_pos htag⟩
        · exact decide_eq_true (channel_tag htag)
      · refine .inr (AgreesAt.congr ?_ (agrees_iff.1 h k))
        refine find_update_of_eq (fun row ↦ ?_) fun row hfind ↦
          if_neg fun htag ↦ hk ⟨row, hfind, htag⟩
        split
        · exact e.channel_id row
        · rfl
  next hnot =>
    rw [Bool.not_eq_true] at hnot
    have hnot' := hnot
    refine agrees_updateByTag e.channel_id e.ability_key h fun ch hch htag ↦ ?_
    rw [shouldReCreateAbilities, Bool.or_eq_false_iff] at hnot'
    exact ⟨getD_filter_ne_empty hnot'.2, getD_filter_ne_empty hnot'.1,
      channel_ability hnot htag (hrows ch hch)⟩

end

theorem agrees_batchSetChannelTag {ids : List ℤ} {tag : Option String}
    (hrows : ∀ ch ∈ db.channels.rows, ch.id ∈ ids → ch.tag = tag ∧ ch.unambiguous = true)
    (h : db.Agrees) : (db.batchSetChannelTag ids tag).Agrees := by
  have hkey (ch : Channel) : (if ch.id ∈ ids then { ch with tag := tag } else ch).id = ch.id := by
    split <;> rfl
  have hsame : ∀ ch ∈ db.channels.rows, (if ch.id ∈ ids then { ch with tag := tag } else ch) = ch := by
    intro ch hch
    split
    next hid => rw [← (hrows ch hch hid).1]
    · rfl
  refine agrees_iff.2 fun k ↦ agreesAt_foldl_updateAbilities ?_ ?_ (.inr ?_)
  · intro ch hch
    obtain ⟨hmem, hid⟩ := mem_filter.1 hch
    exact (hrows ch hmem (of_decide_eq_true hid)).2
  · intro ch hch
    have hmem := mem_of_mem_filter hch
    exact mem_map.2 ⟨ch, hmem, hsame ch hmem⟩
  · refine AgreesAt.congr ?_ (agrees_iff.1 h k)
    exact find_update_of_eq hkey fun row hfind ↦ hsame row (find_mem hfind)

/-- A statement that deletes channels but no abilities, when it matches no row. -/
theorem agrees_filter_channels {p : Channel → Bool} (hp : ∀ ch ∈ db.channels.rows, p ch = true)
    (h : db.Agrees) : projection.Agrees (db.channels.filter p) db.abilities := by
  have hrows : (db.channels.filter p).rows = db.channels.rows := filter_eq_self.2 hp
  intro a
  rw [h a, hrows]

end

def Operation.faithful (db : Database) : Operation → Bool
  | .insert ch _ => ch.withDefaults.unambiguous
  | .update v => v.id = 0 || (db.channels.find v.id).any fun row ↦ (row.updates v).unambiguous
  | .updateChannelStatus u _ => u.channelId ≠ 0
  | .editChannelByTag e => db.channels.rows.all e.faithful
  | .batchSetChannelTag ids tag => db.channels.rows.all fun ch ↦
      ch.id ∉ ids || (ch.tag = tag && ch.unambiguous)
  | .deleteDisabledChannel => db.channels.rows.all fun ch ↦
      !(ch.status = channelStatusAutoDisabled || ch.status = channelStatusManuallyDisabled)
  | .deleteChannelByStatus status => db.channels.rows.all fun ch ↦ ch.status ≠ status
  | _ => true

open Operation

theorem agrees_run {op : Operation} (hop : op.faithful db = true) (h : db.Agrees) :
    (op.run rt db).Agrees := by
  cases op with
  | insert ch newId => exact agrees_insert hop h
  | update v =>
    rcases Bool.or_eq_true_iff.1 hop with hzero | hrow
    · rw [run, Database.update, if_pos (of_decide_eq_true hzero)]
      exact h
    · obtain ⟨row, hfind, hrow⟩ := (Option.any_eq_true _ _).1 hrow
      exact agrees_update hfind hrow h
  | delete id => exact agrees_delete h
  | batchDeleteChannels ids => exact Agrees.filter h fun r a ha ↦ by rw [ha.channelId]
  | updateChannelStatus u cache =>
    have hstored : (updateStoredStatus rt u {} db).1.Agrees :=
      agrees_updateStoredStatus (of_decide_eq_true hop) h
    cases cache with
    | none => exact hstored
    | some cache =>
      rw [run, Database.updateStatus]
      split
      · exact hstored
      · exact h
  | enableChannelByTag tag => exact agrees_setStatusByTag channelStatusEnabled true rfl h
  | disableChannelByTag tag => exact agrees_setStatusByTag channelStatusManuallyDisabled false rfl h
  | editChannelByTag e => exact agrees_editChannelByTag (all_eq_true.1 hop) h
  | batchSetChannelTag ids tag =>
    refine agrees_batchSetChannelTag (fun ch hch hid ↦ ?_) h
    have hrow := all_eq_true.1 hop ch hch
    simpa [hid] using hrow
  | deleteDisabledChannel | deleteChannelByStatus =>
    exact agrees_filter_channels (all_eq_true.1 hop) h

/-- From tables that agree, every sequence of such calls leads to tables that agree. The key of the
abilities makes it one row for each pair. -/
theorem abilities_are_projection (rt : Runtime) {db db' : Database} {ops : List Operation}
    (hstart : db.Agrees) (hguard : Guarded (Operation.step rt) (fun db op ↦ op.faithful db = true) db ops)
    (hrun : exec (Operation.step rt) db ops = some db') :
    ∀ a, a ∈ db'.abilities.rows ↔ ∃ ch ∈ db'.channels.rows, Projects ch a := by
  have hstep (db : Database) (op : Operation) (db' : Database) (h : db.Agrees)
      (hop : op.faithful db = true) (hdb' : Operation.step rt db op = some db') : db'.Agrees := by
    cases hdb'
    exact agrees_run hop h
  exact exec_invariant hstep hstart hguard hrun

namespace ProjectionExample

def runtime : Runtime where
  trimSpace s := s
  matchString _ := none
  unmarshalArray _ := none
  sortSlice _ ids := ids
  sortSlice_perm _ ids := List.Perm.refl ids

def channel (models group : String) : Channel where
  id := 0
  type := 1
  key := "sk"
  status := channelStatusEnabled
  weight := some 5
  models := models
  group := group
  priority := none
  tag := some "a"
  otherInfo := ⟨none, none⟩
  channelInfo := ⟨false, fun _ ↦ none, fun _ ↦ none, fun _ ↦ none, 0, .unset⟩
  advancedCustom := none
  keys := []

def values (id status : ℤ) : ChannelValues :=
  ⟨id, 0, "", status, none, "gpt-4", "vip", none, none, none, none, none⟩

def edit (weight : UInt64) : Operation :=
  .editChannelByTag ⟨"a", none, none, none, none, some weight⟩

structure Columns where
  (id status : ℤ)
  weight : Option ℕ
  tag : Option String
  deriving DecidableEq

structure Outcome where
  channels : List Columns
  abilities : List Ability
  deriving DecidableEq

def outcome (ops : List Operation) : Option Outcome :=
  (exec (Operation.step runtime) ⟨∅, ∅⟩ ops).map fun db ↦
    ⟨db.channels.rows.map fun ch ↦ ⟨ch.id, ch.status, ch.weight, ch.tag⟩, db.abilities.rows⟩

end ProjectionExample

open ProjectionExample

/-- A channel that is edited and disabled. -/
theorem abilities_are_projection_edited :
    ∃ db, exec (Operation.step runtime) ⟨∅, ∅⟩
        [.insert (channel "gpt-4" "vip") 1, edit 7, .disableChannelByTag "a"] = some db ∧
      (∀ a, a ∈ db.abilities.rows ↔ ∃ ch ∈ db.channels.rows, Projects ch a) ∧
      db.abilities.rows = [⟨"vip", "gpt-4", 1, false, some 0, 7, some "a"⟩] := by
  obtain ⟨db, hrun, h⟩ := Option.map_eq_some_iff.1
    (show outcome [.insert (channel "gpt-4" "vip") 1, edit 7, .disableChannelByTag "a"] =
        some ⟨[⟨1, 2, some 7, some "a"⟩], [⟨"vip", "gpt-4", 1, false, some 0, 7, some "a"⟩]⟩ by
      decide +kernel)
  refine ⟨db, hrun, ?_, congrArg Outcome.abilities h⟩
  exact abilities_are_projection runtime (fun a ↦ ⟨fun ha ↦ absurd ha not_mem_nil,
    fun ⟨ch, hch, _⟩ ↦ absurd hch not_mem_nil⟩) (by decide +kernel) hrun

/-- The abilities of deleted channels stay, those of a channel that is tagged keep the old tag, a
weight of zero does not reach them, the update of a channel that is not there creates some, and two
pairs with one key get one row. -/
theorem abilities_not_projection :
    outcome [.insert (channel "gpt-4" "vip") 1, .disableChannelByTag "a", .deleteDisabledChannel] =
        some ⟨[], [⟨"vip", "gpt-4", 1, false, some 0, 5, some "a"⟩]⟩ ∧
      outcome [.insert (channel "gpt-4" "vip") 1, .deleteChannelByStatus channelStatusEnabled] =
        some ⟨[], [⟨"vip", "gpt-4", 1, true, some 0, 5, some "a"⟩]⟩ ∧
      outcome [.insert (channel "gpt-4" "vip") 1, .batchSetChannelTag [1] (some "b")] =
        some ⟨[⟨1, 1, some 5, some "b"⟩], [⟨"vip", "gpt-4", 1, true, some 0, 5, some "a"⟩]⟩ ∧
      outcome [.insert (channel "gpt-4" "vip") 1, edit 0] =
        some ⟨[⟨1, 1, some 0, some "a"⟩], [⟨"vip", "gpt-4", 1, true, some 0, 5, some "a"⟩]⟩ ∧
      outcome [.update (values 7 channelStatusEnabled)] =
        some ⟨[], [⟨"vip", "gpt-4", 7, true, some 0, 0, none⟩]⟩ ∧
      outcome [.insert (channel "c,b|c" "a,a|b") 1] =
        some ⟨[⟨1, 1, some 5, some "a"⟩], [⟨"a|b", "b|c", 1, true, some 0, 5, some "a"⟩,
          ⟨"a|b", "c", 1, true, some 0, 5, some "a"⟩, ⟨"a", "c", 1, true, some 0, 5, some "a"⟩]⟩ := by
  decide +kernel

end Moligate.Channels
