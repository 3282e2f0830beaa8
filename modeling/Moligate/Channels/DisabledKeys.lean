import Moligate.Channels.Polling

namespace Moligate.Channels.Polling

open Foundation Option

variable {rt : Runtime} {id : ℤ} {ch stored : Channel} {u : StatusUpdate} {db : Database} {k : ℕ}

section

def KeyDisabled (ch : Channel) (k : ℕ) : Prop :=
  keyStatus ch.channelInfo.multiKeyStatusList k ≠ channelStatusEnabled

theorem marks_iff : marks db id k = true ↔
    ∃ row, db.channels.find id = some row ∧ KeyDisabled row k := by
  rw [marks, any_eq_true]
  simp [KeyDisabled]

variable {info : ChannelInfo}

theorem setKeyStatus_statusList {keyIndex : ℕ} :
    (info.setKeyStatus keyIndex u).multiKeyStatusList =
      Function.update info.multiKeyStatusList keyIndex
        (if u.status = channelStatusEnabled then none else some u.status) := by
  rw [ChannelInfo.setKeyStatus]
  split <;> rfl

theorem handlerMultiKeyUpdate_info :
    (handlerMultiKeyUpdate rt stored u).channelInfo =
      match (stored.getKeys rt).findIdx? (· = u.usingKey) with
      | none => stored.channelInfo
      | some keyIndex => stored.channelInfo.setKeyStatus keyIndex u := by
  rw [handlerMultiKeyUpdate]
  by_cases hkeys : stored.getKeys rt = []
  · simp only [hkeys, if_true]
    rfl
  · simp only [hkeys, if_false]
    cases (stored.getKeys rt).findIdx? (· = u.usingKey) with
    | none | some => simp [apply_ite Channel.channelInfo, Channel.setStatus]

theorem updated_isMultiKey :
    (updated rt u stored).channelInfo.isMultiKey = stored.channelInfo.isMultiKey := by
  rw [updated]
  split
  · rw [handlerMultiKeyUpdate_info]
    split
    · rfl
    · rw [ChannelInfo.setKeyStatus]
      split <;> rfl
  · rfl

theorem updated_keyDisabled (hmulti : stored.channelInfo.isMultiKey = true) :
    KeyDisabled (updated rt u stored) k ↔
      if keyIndex rt u stored = some k then u.status ≠ channelStatusEnabled
      else KeyDisabled stored k := by
  rw [KeyDisabled, updated, if_pos hmulti, handlerMultiKeyUpdate_info, keyIndex, if_pos hmulti]
  cases (stored.getKeys rt).findIdx? (· = u.usingKey) with
  | none => simp [KeyDisabled]
  | some j =>
    rw [setKeyStatus_statusList, keyStatus]
    by_cases hk : j = k
    · subst hk
      by_cases hstatus : u.status = channelStatusEnabled <;> simp [hstatus]
    · rw [Function.update_of_ne (Ne.symm hk), if_neg (by simpa using hk)]
      rfl

end

section

variable {π : Type} {p : π} {w w' : World π} {stage : Stage} {out : World π × Stage}

def Kept (id : ℤ) (w : World π) : Prop := ∀ k ∈ w.disabled, marks w.db id k = true

/-- A copy that no later save has overtaken knows the disabled keys. -/
def Copy (w : World π) (ch : Channel) (seen : ℕ) : Prop :=
  seen ≤ w.saves ∧ (seen = w.saves → ∀ k ∈ w.disabled, KeyDisabled ch k)

def Stage.Holds (p : π) (w : World π) : Stage → Prop
  | .idle _ | .update _ => True
  | .request ch seen => Copy w ch seen
  | .pick ch seen | .saveInfo ch seen _ => w.lock = some p ∧ Copy w ch seen
  | .saveStatus _ stored => w.lock = some p ∧ ∀ k ∈ w.disabled, KeyDisabled stored k
  | .load _ | .saveAbilities _ _ | .unlock _ => w.lock = some p

structure Keeps (p : π) (w w' : World π) : Prop where
  saves : w.saves ≤ w'.saves
  same : w'.saves = w.saves → w'.disabled ⊆ w.disabled
  locked : ∀ q ≠ p, w.lock = some q → w'.lock = some q ∧ w'.disabled ⊆ w.disabled

abbrev Safe (id : ℤ) (p : π) (w : World π) (out : World π × Stage) : Prop :=
  Config.Safe (Kept id) Stage.Holds Keeps p w out

variable {seen : ℕ} {fails : Bool}

theorem Copy.stable (h : Copy w ch seen) (hsaves : w.saves ≤ w'.saves)
    (hsame : w'.saves = w.saves → w'.disabled ⊆ w.disabled) : Copy w' ch seen := by
  refine ⟨Nat.le_trans h.1 hsaves, fun hseen k hk ↦ ?_⟩
  have heq : w'.saves = w.saves := Nat.le_antisymm (hseen ▸ h.1) hsaves
  exact h.2 (hseen.trans heq) k (hsame heq hk)

theorem Stage.Holds.stable {q : π} (h : stage.Holds q w) (hsaves : w.saves ≤ w'.saves)
    (hsame : w'.saves = w.saves → w'.disabled ⊆ w.disabled)
    (hlocked : w.lock = some q → w'.lock = some q ∧ w'.disabled ⊆ w.disabled) :
    stage.Holds q w' := by
  cases stage with
  | idle _ | update _ => trivial
  | request ch seen => exact Copy.stable h hsaves hsame
  | pick ch seen | saveInfo ch seen _ =>
    exact ⟨(hlocked h.1).1, h.2.stable hsaves hsame⟩
  | saveStatus u stored =>
    exact ⟨(hlocked h.1).1, fun k hk ↦ h.2 k ((hlocked h.1).2 hk)⟩
  | load _ | saveAbilities _ _ | unlock _ => exact (hlocked h).1

theorem Safe.quiet (hw : Kept id w') (hlock : w'.lock = w.lock) (hsaves : w'.saves = w.saves)
    (hdisabled : w'.disabled ⊆ w.disabled) (h : stage.Holds p w') : Safe id p w (w', stage) :=
  ⟨hw, h, Nat.le_of_eq hsaves.symm, fun _ ↦ hdisabled, fun _ _ hq ↦ ⟨hlock.trans hq, hdisabled⟩⟩

theorem holds_pick {random : ℕ} (hlock : w.lock = some p) (h : Copy w ch seen) :
    (pick rt id w ch seen random fails).Holds p w := by
  simp only [pick]
  split
  · exact hlock
  split
  iterate 2 exact hlock
  · split
    · exact hlock
    · refine ⟨hlock, h.1, fun hseen k hk ↦ ?_⟩
      simp only [KeyDisabled, Channel.poll]
      split <;> exact h.2 hseen k hk

/-- A copy of the row that is written back has all the disabled keys, unless a status was saved
after it was read. -/
theorem kept_saveInfo (fails : Bool) (hw : Kept id w) (h : Copy w ch seen)
    (hseen : seen = w.saves) : Kept id (saveInfo id w ch fails) := by
  rw [saveInfo]
  split
  · exact hw
  intro k hk
  obtain ⟨row, hrow, -⟩ := marks_iff.1 (hw k hk)
  refine marks_iff.2 ⟨{ row with channelInfo := ch.channelInfo }, ?_, h.2 hseen k hk⟩
  rw [setInfo, Table.find_update, hrow, map_some, if_pos (Table.key_of_find hrow)]

/-- The row that a request writes back was loaded after the last status was saved. -/
def upToDate (a : Action) (w : World π) (stage : Stage) : Bool :=
  match a, stage with
  | .next _ _, .saveInfo _ seen _ => seen = w.saves
  | _, _ => true

variable (hw : Kept id w)
include hw

theorem Safe.stay (h : stage.Holds p w) : Safe id p w (w, stage) :=
  .quiet hw rfl rfl (fun _ hk ↦ hk) h

theorem safe_acquire (hout : acquire p w stage = some out)
    (h : stage.Holds p { w with lock := some p }) : Safe id p w out := by
  rw [acquire] at hout
  split at hout
  next hfree =>
    cases hout
    refine ⟨hw, h, Nat.le.refl, fun _ _ hk ↦ hk, fun q _ hq ↦ ?_⟩
    rw [hq] at hfree
    cases hfree
  · cases hout

theorem holds_load (hlock : w.lock = some p) : (load id w u fails).Holds p w := by
  rw [load]
  split
  · exact hlock
  rename_i row hrow
  split
  · exact hlock
  refine ⟨hlock, fun k hk ↦ ?_⟩
  obtain ⟨row', hfind, hmarked⟩ := marks_iff.1 (hw k hk)
  split at hrow
  · cases hrow
  · obtain rfl := some.inj (hfind.symm.trans hrow)
    exact hmarked

theorem kept_setStatusState (hstored : ∀ k ∈ w.disabled, KeyDisabled stored k) {row : Channel}
    (hrow : w.db.channels.find id = some row)
    (hk : k ∈ afterSave w.disabled (keyIndex rt u stored) u.status) :
    marks (setStatusState w.db id (updated rt u stored)) id k = true := by
  refine marks_iff.2 ⟨_, by rw [setStatusState, Table.find_update, hrow, map_some,
    if_pos (Table.key_of_find hrow)], ?_⟩
  rw [updated_isMultiKey]
  by_cases hmulti : stored.channelInfo.isMultiKey = true
  · rw [KeyDisabled, if_pos hmulti]
    refine (updated_keyDisabled hmulti).2 ?_
    cases hkey : keyIndex rt u stored with
    | none =>
      rw [hkey] at hk
      exact hstored k hk
    | some j =>
      rw [hkey, afterSave] at hk
      by_cases hj : j = k
      · rw [if_pos (by rw [hj])]
        intro hstatus
        rw [if_pos hstatus, List.mem_filter] at hk
        exact absurd hj.symm (by simpa using hk.2)
      · rw [if_neg (by simpa using hj)]
        split at hk
        · exact hstored k (List.mem_of_mem_filter hk)
        · exact hstored k ((List.mem_cons.1 hk).resolve_left (Ne.symm hj))
  · rw [KeyDisabled, if_neg hmulti]
    rw [keyIndex, if_neg hmulti] at hk
    obtain ⟨row', hrow', hmarked⟩ := marks_iff.1 (hw k hk)
    obtain rfl := some.inj (hrow.symm.trans hrow')
    exact hmarked

theorem safe_saveStatus (h : (Stage.saveStatus u stored).Holds p w) :
    Safe id p w (saveStatus rt id w u stored fails) := by
  obtain ⟨hlock, hstored⟩ := h
  have hothers (w' : World π) (hw' : Kept id w') (hlock' : w'.lock = w.lock)
      (hsaves : w'.saves = w.saves + 1) (stage : Stage) (hstage : stage.Holds p w') :
      Safe id p w (w', stage) := by
    have hne : w'.saves ≠ w.saves := by omega
    have hle : w.saves ≤ w'.saves := by omega
    refine ⟨hw', hstage, hle, fun heq ↦ absurd heq hne, fun q hq hown ↦ ?_⟩
    exact absurd (some.inj (hown.symm.trans hlock)) hq
  simp only [saveStatus]
  by_cases hsaved : (!(fails || decide ((updated rt u stored).id = 0))) = true
  · have hkept : Kept id { w with
        db := setStatusState w.db id (updated rt u stored)
        saves := w.saves + 1
        disabled := if (w.db.channels.find id).isSome then
          afterSave w.disabled (keyIndex rt u stored) u.status else w.disabled } := by
      intro k hk
      cases hrow : w.db.channels.find id with
      | none =>
        rw [hrow] at hk
        obtain ⟨row, hrow', -⟩ := marks_iff.1 (hw k hk)
        cases hrow.symm.trans hrow'
      | some row =>
        rw [hrow] at hk
        exact kept_setStatusState hw hstored hrow hk
    split <;> exact hothers _ hkept rfl rfl _ hlock
  · split <;> exact .stay hw hlock

theorem safe_next {random : ℕ} (h : stage.Holds p w)
    (hseen : upToDate (.next random fails) w stage = true)
    (hout : next rt id p w random fails stage = some out) : Safe id p w out := by
  cases stage with
  | idle _ => cases hout
  | request ch seen =>
    rw [next, request] at hout
    split at hout
    · exact some.inj hout ▸ .stay hw trivial
    · split at hout
      · exact some.inj hout ▸ .stay hw trivial
      · exact safe_acquire hw hout ⟨rfl, h⟩
  | pick ch seen => exact some.inj hout ▸ .stay hw (holds_pick h.1 h.2)
  | saveInfo ch seen idx =>
    cases hout
    have hkept := kept_saveInfo fails hw h.2 (of_decide_eq_true hseen)
    rw [saveInfo] at hkept ⊢
    split
    · exact .stay hw h.1
    next hwritten =>
      rw [if_neg hwritten] at hkept
      exact .quiet hkept rfl rfl (fun _ hk ↦ hk) h.1
  | update u => exact safe_acquire hw hout rfl
  | load u => exact some.inj hout ▸ .stay hw (holds_load hw h)
  | saveStatus u stored => exact some.inj hout ▸ safe_saveStatus hw h
  | saveAbilities u saved =>
    cases hout
    rw [saveAbilities]
    split
    · exact .stay hw h
    · exact .quiet hw rfl rfl (fun _ hk ↦ hk) h
  | unlock reply =>
    cases hout
    refine ⟨hw, trivial, Nat.le.refl, fun _ _ hk ↦ hk, fun q hq hown ↦ ?_⟩
    exact absurd (some.inj (hown.symm.trans h)) hq

theorem safe_perform {a : Action} (h : stage.Holds p w) (hseen : upToDate a w stage = true)
    (hout : perform rt id p w a stage = some out) : Safe id p w out := by
  cases a with
  | loadChannel =>
    rw [perform] at hout
    split at hout
    · obtain ⟨row, hrow, rfl⟩ := map_eq_some_iff.1 hout
      refine .stay hw ⟨Nat.le.refl, fun _ k hk ↦ ?_⟩
      obtain ⟨row', hrow', hmarked⟩ := marks_iff.1 (hw k hk)
      obtain rfl := some.inj (hrow.symm.trans hrow')
      exact hmarked
    · cases hout
  | updateChannelStatus u =>
    rw [perform] at hout
    split at hout
    · exact some.inj hout ▸ .stay hw trivial
    · cases hout
  | edit db =>
    cases hout
    have hsub : w.disabled.filter (marks db id) ⊆ w.disabled :=
      fun k hk ↦ List.mem_of_mem_filter hk
    refine .quiet (fun k hk ↦ (List.mem_filter.1 hk).2) rfl rfl hsub ?_
    exact h.stable Nat.le.refl (fun _ ↦ hsub) fun hlock ↦ ⟨hlock, hsub⟩
  | next random fails => exact safe_next hw h hseen hout

end

/-- A key that `UpdateChannelStatus` has disabled stays disabled in the row, in every run in which
the rows that requests write back are up to date. -/
theorem disabled_key_kept {π : Type} [DecidableEq π] (rt : Runtime) (id : ℤ) (db : Database)
    {run : List (π × Action)} {c : Config (World π) π Stage}
    (hguard : Guarded (System.step rt id)
      (fun c a ↦ upToDate a.2 c.shared (c.thread a.1) = true) (start db) run)
    (hrun : exec (System.step rt id) (start db) run = some c) :
    ∀ k ∈ c.shared.disabled, marks c.shared.db id k = true := by
  have hstart : (start db : Config (World π) π Stage).Holds (Kept id) Stage.Holds :=
    ⟨fun k hk ↦ absurd hk List.not_mem_nil, fun _ ↦ trivial⟩
  exact (Config.exec_safe (R := Keeps)
    (fun _ _ _ _ _ hw hstage hseen h ↦ safe_perform hw hstage hseen h)
    (fun _ q _ _ _ hpq hstage hkeeps ↦
      hstage.stable hkeeps.saves hkeeps.same (hkeeps.locked q hpq.symm)) hstart hguard hrun).1

namespace Example

def runtime : Runtime where
  trimSpace s := s
  matchString _ := none
  unmarshalArray _ := none
  sortSlice _ ids := ids
  sortSlice_perm _ ids := List.Perm.refl ids

def channel : Channel where
  id := 1
  type := 1
  key := "sk-a\nsk-b"
  status := channelStatusEnabled
  weight := none
  models := "gpt-4"
  group := "default"
  priority := none
  tag := none
  otherInfo := ⟨none, none⟩
  channelInfo := ⟨true, fun _ ↦ none, fun _ ↦ none, fun _ ↦ none, 0, .polling⟩
  advancedCustom := none
  keys := []

def database : Database where
  channels := ⟨[channel], by simp⟩
  abilities := ⟨[], by simp⟩

def go (p : ℕ) : ℕ × Action := (p, .next 0 false)

def poll (p : ℕ) : List (ℕ × Action) := [go p, go p, go p, go p]

def disable (p : ℕ) : List (ℕ × Action) :=
  [(p, .updateChannelStatus ⟨1, "sk-a", channelStatusAutoDisabled, "invalid key", 0⟩), go p, go p,
    go p, go p]

def outcome (run : List (ℕ × Action)) : Option (List ℕ × Bool) :=
  (exec (System.step runtime 1) (start database) run).map fun c ↦
    (c.shared.disabled, marks c.shared.db 1 0)

end Example

open Example

/-- The request that loads the row after the key was disabled polls the other key. -/
theorem disabled_key_kept_later_load :
    ∃ c, exec (System.step runtime 1) (start database) (disable 0 ++ (1, .loadChannel) :: poll 1) =
        some c ∧ c.shared.disabled = [0] ∧ marks c.shared.db 1 0 = true := by
  obtain ⟨c, hrun, h⟩ := map_eq_some_iff.1
    (show outcome (disable 0 ++ (1, .loadChannel) :: poll 1) = some ([0], true) by decide +kernel)
  have hdisabled : c.shared.disabled = [0] := congrArg Prod.fst h
  refine ⟨c, hrun, hdisabled, disabled_key_kept runtime 1 database (by decide +kernel) hrun 0 ?_⟩
  rw [hdisabled]
  exact List.mem_singleton_self 0

/-- The request loads the row before the lock and writes its key statuses back under it: the key is
enabled again. -/
theorem disabled_key_lost :
    outcome ((1, .loadChannel) :: disable 0 ++ poll 1) = some ([0], false) := by
  decide +kernel

end Moligate.Channels.Polling
