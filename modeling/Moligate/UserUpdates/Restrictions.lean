import Moligate.UserUpdates.Model

namespace Moligate.UserUpdates

open Foundation Strings Option Rows List

section

inductive Column
  | role | status | group
  | binding (b : Binding)

inductive Value
  | number (n : ℤ)
  | text (s : String)
  deriving DecidableEq

def Column.zero : Column → Value
  | .role | .status => .number 0
  | .group | .binding _ => .text ""

def User.column (u : User) : Column → Value
  | .role => .number u.role
  | .status => .number u.status
  | .group => .text u.group
  | .binding b => .text (u.binding b)

def User.account (u : User) : User := { u with affCode := "", authVersion := 0 }

def asks (lower : String → String) : Request → Column → Option Value
  | .emailBind email, .binding .email =>
    some (.text (normalizeEmail lower (normalizeEmail lower email)))
  | .clearBinding b, .binding b' => if b' = b then some (.text "") else none
  | .updateUserBindColumn b value, .binding b' => if b' = b then some (.text value) else none
  | .createUserSubscriptionFromPlan upgradeGroup, .group => some (.text (trimSpace upgradeGroup))
  | .manageUser _ .disable, .status => some (.number userStatusDisabled)
  | .manageUser _ .enable, .status => some (.number userStatusEnabled)
  | .manageUser _ .promote, .role => some (.number roleAdminUser)
  | .manageUser _ .demote, .role => some (.number roleCommonUser)
  | _, _ => none

variable {lower : String → String} {u v seen user : User} {r : Request} {c : Column}
  {action : ManageAction} {myRole : ℤ}

theorem column_of_account (h : u.account = v.account) (c : Column) : u.column c = v.column c := by
  have hc : u.account.column c = v.account.column c := by rw [h]
  cases c with
  | binding b => cases b <;> exact hc
  | _ => exact hc

theorem number_nonZero (x y : ℤ) :
    Value.number (nonZero 0 x y) = nonZero (.number 0) (.number x) (.number y) := by
  simp only [nonZero, Value.number.injEq]
  split <;> rfl

theorem text_nonZero (x y : String) :
    Value.text (nonZero "" x y) = nonZero (.text "") (.text x) (.text y) := by
  simp only [nonZero, Value.text.injEq]
  split <;> rfl

theorem updates_column (user current : User) (c : Column) :
    (updates user current).column c = nonZero c.zero (user.column c) (current.column c) := by
  cases c with
  | role | status => exact number_nonZero _ _
  | group => exact text_nonZero _ _
  | binding b => cases b <;> exact text_nonZero _ _

theorem setBinding_column (u : User) (value : String) (b : Binding) (c : Column) :
    (u.setBinding value b).column c =
      (asks lower (.updateUserBindColumn b value) c).getD (u.column c) := by
  cases c with
  | binding b' => cases b <;> cases b' <;> rfl
  | _ => cases b <;> rfl

theorem manage_column (h : manage myRole action seen = some user)
    (c : Column) : user.column c = (asks lower (.manageUser myRole action) c).getD (seen.column c) := by
  unfold manage at h
  split at h
  · cases h
  cases action <;> simp only [ite_none_left_eq_some, some.injEq] at h
  case enable =>
    subst h
    cases c with
    | binding b => cases b <;> rfl
    | _ => rfl
  all_goals
    obtain ⟨-, rfl⟩ := h
    cases c with
    | binding b => cases b <;> rfl
    | _ => rfl

theorem prepare_column (h : prepare lower seen r = some user) (c : Column) :
    user.column c = (asks lower r c).getD (seen.column c) := by
  cases r with
  | emailBind email =>
    cases h
    cases c with
    | binding b => cases b <;> rfl
    | _ => rfl
  | getAffCode code =>
    simp only [prepare, ite_none_right_eq_some, some.injEq] at h
    obtain ⟨-, rfl⟩ := h
    cases c with
    | binding b => cases b <;> rfl
    | _ => rfl
  | manageUser myRole action => exact manage_column h c
  | clearBinding | updateUserBindColumn | createUserSubscriptionFromPlan => cases h

inductive Single : Request → Prop
  | clear (b : Binding) : Single (.clearBinding b)
  | bind (b : Binding) (value : String) : Single (.updateUserBindColumn b value)
  | upgrade (upgradeGroup : String) : Single (.createUserSubscriptionFromPlan upgradeGroup)

theorem assign_column (hr : Single r) (u : User) (c : Column) :
    (assign u r).column c = (asks lower r c).getD (u.column c) := by
  cases hr with
  | clear b =>
    have hasks : asks lower (.clearBinding b) c = asks lower (.updateUserBindColumn b "") c := by
      cases c <;> rfl
    rw [hasks]
    exact setBinding_column u "" b c
  | bind b value => exact setBinding_column u value b c
  | upgrade upgradeGroup =>
    cases c with
    | binding b => cases b <;> rfl
    | _ => rfl

theorem ne_zero_of_manage {x : Value}
    (h : asks lower (.manageUser myRole action) c = some x) : x ≠ c.zero := by
  cases action <;> cases c <;> cases h <;> decide

variable (lower)

structure Sound (r : Request) (before after : User) : Prop where
  frame : ∀ c, asks lower r c = none → after.column c = before.column c
  asked : ∀ c x, asks lower r c = some x →
    after.column c = x ∨ after.column c = before.column c
  managed : ∀ myRole action c x, r = .manageUser myRole action → asks lower r c = some x →
    after.column c = x
  cleared : ∀ b, r = .clearBinding b → after.binding b = ""

variable {τ : Type} [DecidableEq τ]

structure Invariant (u : User) (db : Db τ) : Prop where
  leads : Leads u db.log db.committed
  sound : ∀ e ∈ db.log, Sound lower e.op e.before e.after

def Stage.Holds (t : τ) (db : Db τ) : Stage → Prop
  | .idle => db.user.own t () = none
  | .load _ => db.user.own t () = none
  | .current r seen user => db.user.own t () = none ∧ prepare lower seen r = some user
  | .bump r seen user => db.user.own t () = none ∧ prepare lower seen r = some user
  | .updates r seen user => (∀ u, db.user.own t () = some u → u.account = db.committed.account) ∧
      prepare lower seen r = some user
  | .group r _ => db.user.own t () = none ∧ ∃ g, r = .createUserSubscriptionFromPlan g
  | .assign r => db.user.own t () = none ∧ Single r
  | .commit r => (db.user.own t () = none ∧ ∃ g, r = .createUserSubscriptionFromPlan g) ∨
      ∃ u, db.user.own t () = some u ∧ Sound lower r db.committed u

/-- The row that is written back has the columns that the call has loaded. -/
def Unchanged (t : τ) (a : Action) (db : Db τ) (stage : Stage) : Prop :=
  match a, stage with
  | .next, .updates _ seen _ => (db.read t).account = seen.account
  | _, _ => True

end

section

variable {lower : String → String} {r : Request} {seen user u v : User}

theorem sound_updates (hprepare : prepare lower seen r = some user) (hu : u.account = v.account)
    (hseen : u.account = seen.account) : Sound lower r v (updates user u) := by
  have hcolumn (c : Column) : (updates user u).column c =
      nonZero c.zero ((asks lower r c).getD (v.column c)) (v.column c) := by
    rw [updates_column, prepare_column hprepare c, ← column_of_account hseen c,
      column_of_account hu c]
  refine ⟨fun c hc ↦ ?_, fun c x hx ↦ ?_, fun myRole action c x hr hx ↦ ?_, fun b hr ↦ ?_⟩
  · rw [hcolumn, hc]
    simp [nonZero]
  · rw [hcolumn, hx]
    rw [nonZero]
    split
    · exact .inr rfl
    · exact .inl rfl
  · rw [hcolumn, hx]
    exact if_neg (ne_zero_of_manage (hr ▸ hx))
  · rw [hr] at hprepare
    cases hprepare

theorem sound_assign (hr : Single r) (u : User) : Sound lower r u (assign u r) := by
  have hcolumn (c : Column) : (assign u r).column c = (asks lower r c).getD (u.column c) :=
    assign_column hr u c
  refine ⟨fun c hc ↦ ?_, fun c x hx ↦ .inl ?_, fun myRole action c x h hx ↦ ?_, fun b h ↦ ?_⟩
  · rw [hcolumn, hc]
    rfl
  · rw [hcolumn, hx]
    rfl
  · rw [h] at hr
    cases hr
  · subst h
    cases b <;> rfl

variable {τ : Type} [DecidableEq τ] {t t' : τ} {db db' : Db τ} {u₀ : User} {stage : Stage}
  {out : Db τ × Stage}

def Keeps (t : τ) (db db' : Db τ) : Prop := ∀ t' ≠ t, db.user.Spares t' db'.user

theorem Stage.Holds.spared (h : stage.Holds lower t db) (hs : db.user.Spares t db'.user) :
    stage.Holds lower t db' := by
  have hown := hs.own ()
  have hcommitted (u : User) (hu : db.user.own t () = some u) : db'.committed = db.committed :=
    hs.locked () (ne_none_iff_exists'.2 ⟨u, hu⟩)
  cases stage with
  | idle | load => exact hown.trans h
  | current | bump | group | assign => exact ⟨hown.trans h.1, h.2⟩
  | updates r seen user =>
    refine ⟨fun u hu ↦ ?_, h.2⟩
    rw [hown] at hu
    rw [hcommitted u hu]
    exact h.1 u hu
  | commit r =>
    rcases h with ⟨hnone, hr⟩ | ⟨u, hu, hsound⟩
    · exact .inl ⟨hown.trans hnone, hr⟩
    · refine .inr ⟨u, hown.trans hu, ?_⟩
      rwa [hcommitted u hu]

theorem read_of_unlocked (h : db.user.own t () = none) : db.read t = db.committed :=
  read_of_not_own h

theorem Invariant.commit (hI : Invariant lower u₀ db) (h : Sound lower r db.committed (db.read t)) :
    Invariant lower u₀ (db.commit t r) := by
  refine ⟨hI.leads.cons, fun e he ↦ ?_⟩
  rcases mem_cons.1 he with rfl | he
  · exact h
  · exact hI.sound e he

abbrev SafeStep (lower : String → String) (u₀ : User) (t : τ) (db : Db τ) (out : Db τ × Stage) :
    Prop :=
  Config.Safe (Invariant lower u₀) (fun t db stage ↦ Stage.Holds lower t db stage) Keeps t db out

theorem safe_stay (hI : Invariant lower u₀ db) (h : stage.Holds lower t db) :
    SafeStep lower u₀ t db (db, stage) :=
  ⟨hI, h, fun _ _ ↦ Rows.Spares.refl⟩

theorem safe_writes {f : User → User} (hI : Invariant lower u₀ db)
    (hout : writes t db f stage = some out)
    (h : stage.Holds lower t (db.write t (f (db.read t)))) : SafeStep lower u₀ t db out := by
  obtain ⟨hfree, hout⟩ := ite_none_right_eq_some.1 hout
  cases hout
  exact ⟨{ hI with }, h, fun _ ht ↦
    ⟨fun _ ↦ own_write_other hfree ht, fun _ _ ↦ rfl⟩⟩

theorem safe_next (hI : Invariant lower u₀ db) (hL : stage.Holds lower t db)
    (hG : Unchanged t .next db stage) (hout : next lower t db stage = some out) :
    SafeStep lower u₀ t db out := by
  cases stage with
  | idle => cases hout
  | load r =>
    rw [next] at hout
    split at hout <;> cases hout
    · exact safe_stay hI hL
    next hprepare => exact safe_stay hI ⟨hL, hprepare⟩
  | current r seen user =>
    cases hout
    refine safe_stay hI ?_
    split
    · exact hL
    · exact ⟨fun u hu ↦ by simp [hL.1] at hu, hL.2⟩
  | bump r seen user =>
    -- only the version of the row is new, which is none of the columns
    refine safe_writes hI hout ⟨fun u hu ↦ ?_, hL.2⟩
    obtain rfl := some.inj (own_write_self.symm.trans hu)
    rw [read_of_unlocked hL.1]
    rfl
  | updates r seen user =>
    have haccount : (db.read t).account = db.committed.account := by
      cases hown : db.user.own t () with
      | none => rw [read_of_unlocked hown]
      | some u => rw [Db.read, read_of_own hown, hL.1 u hown]
    exact safe_writes hI hout (.inr ⟨_, own_write_self, sound_updates hL.2 haccount hG⟩)
  | group r g =>
    cases hout
    refine safe_stay hI ?_
    obtain ⟨hnone, g, rfl⟩ := hL
    split
    · exact .inl ⟨hnone, g, rfl⟩
    · exact ⟨hnone, .upgrade g⟩
  | assign r =>
    have hwrites : writes t db (assign · r) (.commit r) = some out := hout
    refine safe_writes hI hwrites (.inr ⟨_, own_write_self, ?_⟩)
    rw [read_of_unlocked hL.1]
    exact sound_assign hL.2 _
  | commit r =>
    cases hout
    refine ⟨hI.commit ?_, own_commit_self, fun _ ht ↦ spares_commit ht⟩
    rcases hL with ⟨hnone, g, rfl⟩ | ⟨u, hu, hsound⟩
    · rw [read_of_unlocked hnone]
      exact ⟨fun _ _ ↦ rfl, fun _ _ _ ↦ .inr rfl, by simp, by simp⟩
    · rwa [Db.read, read_of_own hu]

theorem begin_holds (h : db.user.own t () = none) (r : Request) : (begin r).Holds lower t db := by
  cases r with
  | clearBinding b => exact ⟨h, .clear b⟩
  | updateUserBindColumn b value =>
    rw [begin]
    split
    · exact ⟨h, .bind b value⟩
    · exact h
  | createUserSubscriptionFromPlan g =>
    rw [begin]
    split
    · exact h
    · exact ⟨h, g, rfl⟩
  | _ => exact h

theorem safe_perform {a : Action} (hI : Invariant lower u₀ db) (hL : stage.Holds lower t db)
    (hG : Unchanged t a db stage) (hout : perform lower t a db stage = some out) :
    SafeStep lower u₀ t db out := by
  cases a with
  | call r =>
    obtain ⟨rfl, hout⟩ := ite_none_right_eq_some.1 hout
    cases hout
    exact safe_stay hI (begin_holds hL r)
  | next => exact safe_next hI hL hG hout
  | fail =>
    obtain ⟨-, hout⟩ := ite_none_left_eq_some.1 hout
    cases hout
    exact ⟨{ hI with }, own_rollback_self, fun _ ht ↦
      ⟨fun _ ↦ own_rollback_other ht, fun _ _ ↦ rfl⟩⟩

end

variable {lower : String → String} {τ : Type} {db : Db τ} {u₀ : User}
  {later earlier : List (Change Request User)} {e : Change Request User} {c : Column}

theorem Invariant.stays (hI : Invariant lower u₀ db) (hlog : db.log = later ++ e :: earlier)
    (hlater : ∀ x ∈ later, ∀ y, asks lower x.op c = some y → y = e.after.column c) :
    db.committed.column c = e.after.column c := by
  have hleads : Leads u₀ (later ++ e :: earlier) db.committed := hlog ▸ hI.leads
  refine hleads.keeps (Q := fun u ↦ u.column c = e.after.column c) rfl fun x hx hbefore ↦ ?_
  have hsound : Sound lower x.op x.before x.after :=
    hI.sound x (hlog ▸ mem_append_left _ hx)
  cases hasks : asks lower x.op c with
  | none => rw [hsound.frame c hasks, hbefore]
  | some y =>
    rcases hsound.asked c y hasks with hy | hy
    · rw [hy, hlater x hx y hasks]
    · rw [hy, hbefore]

theorem Invariant.stays_managed {myRole : ℤ} {action : ManageAction} {y : Value}
    (hI : Invariant lower u₀ db) (hlog : db.log = later ++ e :: earlier)
    (hop : e.op = .manageUser myRole action) (hasks : asks lower e.op c = some y)
    (hlater : ∀ x ∈ later, ∀ z, asks lower x.op c = some z → z = y) :
    db.committed.column c = y := by
  have hsound : Sound lower e.op e.before e.after :=
    hI.sound e (hlog ▸ mem_append_right _ mem_cons_self)
  have hafter := hsound.managed myRole action c y hop hasks
  rw [hI.stays hlog (hafter ▸ hlater), hafter]

variable {z : Value} {r : Request}

theorem asks_status (hr : ∀ myRole, r ≠ .manageUser myRole .enable)
    (h : asks lower r .status = some z) : z = .number userStatusDisabled := by
  cases r with
  | manageUser myRole action =>
    cases action with
    | disable => exact (some.inj h).symm
    | enable => exact absurd rfl (hr myRole)
    | promote | demote => cases h
  | _ => cases h

theorem asks_role (hr : ∀ myRole, r ≠ .manageUser myRole .promote)
    (h : asks lower r .role = some z) : z = .number roleCommonUser := by
  cases r with
  | manageUser myRole action =>
    cases action with
    | disable | enable => cases h
    | promote => exact absurd rfl (hr myRole)
    | demote => exact (some.inj h).symm
  | _ => cases h

def Binds : Request → Binding → Prop
  | .emailBind _, b => b = .email
  | .updateUserBindColumn b' _, b => b = b'
  | _, _ => False

theorem asks_binding {b : Binding} (hr : ¬ Binds r b)
    (h : asks lower r (.binding b) = some z) : z = .text "" := by
  cases r with
  | emailBind email =>
    cases b with
    | email => exact absurd rfl hr
    | _ => cases h
  | updateUserBindColumn b' value =>
    obtain ⟨hb, -⟩ := ite_none_right_eq_some.1 h
    exact absurd hb hr
  | clearBinding b' => exact (some.inj (ite_none_right_eq_some.1 h).2).symm
  | manageUser myRole action => cases action <;> cases h
  | getAffCode | createUserSubscriptionFromPlan => cases h

structure Preserved (lower : String → String) (u₀ : User) (db : Db τ) : Prop where
  leads : Leads u₀ db.log db.committed
  frame : ∀ e ∈ db.log, ∀ c, asks lower e.op c = none → e.after.column c = e.before.column c
  stays : ∀ later e earlier c, db.log = later ++ e :: earlier →
    (∀ x ∈ later, asks lower x.op c = none) → db.committed.column c = e.after.column c
  disabled : ∀ later e earlier myRole, db.log = later ++ e :: earlier →
    e.op = .manageUser myRole .disable →
      (∀ x ∈ later, ∀ role, x.op ≠ .manageUser role .enable) →
        db.committed.status = userStatusDisabled
  demoted : ∀ later e earlier myRole, db.log = later ++ e :: earlier →
    e.op = .manageUser myRole .demote →
      (∀ x ∈ later, ∀ role, x.op ≠ .manageUser role .promote) →
        db.committed.role = roleCommonUser
  cleared : ∀ later e earlier b, db.log = later ++ e :: earlier → e.op = .clearBinding b →
    (∀ x ∈ later, ¬ Binds x.op b) → db.committed.binding b = ""

theorem Invariant.preserved (hI : Invariant lower u₀ db) : Preserved lower u₀ db := by
  refine ⟨hI.leads, fun e he c hc ↦ (hI.sound e he).frame c hc,
    fun later e earlier c hlog hlater ↦ ?_, fun later e earlier myRole hlog hop hlater ↦ ?_,
    fun later e earlier myRole hlog hop hlater ↦ ?_, fun later e earlier b hlog hop hlater ↦ ?_⟩
  · refine hI.stays hlog fun x hx y hy ↦ ?_
    rw [hlater x hx] at hy
    cases hy
  · have hstatus := hI.stays_managed (c := .status) hlog hop (by rw [hop]; rfl)
      fun x hx z hz ↦ asks_status (hlater x hx) hz
    exact Value.number.inj hstatus
  · have hrole := hI.stays_managed (c := .role) hlog hop (by rw [hop]; rfl)
      fun x hx z hz ↦ asks_role (hlater x hx) hz
    exact Value.number.inj hrole
  · have hsound := hI.sound e (hlog ▸ mem_append_right _ mem_cons_self)
    have hafter : e.after.column (.binding b) = .text "" := congrArg _ (hsound.cleared b hop)
    have hbinding := hI.stays (c := .binding b) hlog fun x hx y hy ↦
      (asks_binding (hlater x hx) hy).trans hafter.symm
    exact Value.text.inj (hbinding.trans hafter)

/-- In every run in which no call writes back columns that have changed since it loaded them, a
call changes only the columns that it is asked to change, and restrictions stay. -/
theorem restrictions_survive [DecidableEq τ] (lower : String → String) (u : User)
    (actions : List (τ × Action)) (c : Config (Db τ) τ Stage)
    (hg : Guarded (step lower) (fun c a ↦ Unchanged a.1 a.2 c.shared (c.thread a.1)) (start u)
      actions)
    (hrun : exec (step lower) (start u) actions = some c) : Preserved lower u c.shared := by
  have hstart : Config.Holds (Invariant lower u) (fun t db stage ↦ Stage.Holds lower t db stage)
      (start u : Config (Db τ) τ Stage) :=
    ⟨⟨rfl, fun _ he ↦ (nomatch he)⟩, fun _ ↦ rfl⟩
  have hend := Config.exec_safe (R := Keeps) (fun _ _ _ _ _ ↦ safe_perform)
    (fun _ q _ _ _ hpq hL hR ↦ hL.spared (hR q hpq.symm)) hstart hg hrun
  exact hend.1.preserved

instance (t : τ) [DecidableEq τ] (a : Action) (db : Db τ) (stage : Stage) :
    Decidable (Unchanged t a db stage) := by
  unfold Unchanged
  split <;> infer_instance

def plainUser : User where
  role := roleCommonUser
  status := userStatusEnabled
  group := "default"
  email := ""
  gitHubId := ""
  discordId := ""
  oidcId := ""
  weChatId := ""
  telegramId := ""
  linuxDOId := ""
  affCode := "abcd"
  authVersion := 1

def disableSteps : List (Bool × Action) :=
  [(false, .call (.manageUser roleRootUser .disable)), (false, .next), (false, .next),
    (false, .next), (false, .next), (false, .next)]

def bindSteps : List (Bool × Action) :=
  [(true, .call (.emailBind "a@b.c")), (true, .next), (true, .next), (true, .next), (true, .next)]

theorem restrictions_survive_binding :
    ∃ c, exec (step id) (start plainUser) (disableSteps ++ bindSteps) = some c ∧
      c.shared.log.map Change.op =
        [.emailBind "a@b.c", .manageUser roleRootUser .disable] ∧
      Preserved id plainUser c.shared := by
  have hlog : (exec (step id) (start plainUser) (disableSteps ++ bindSteps)).map
      (fun c ↦ c.shared.log.map Change.op) =
        some [.emailBind "a@b.c", .manageUser roleRootUser .disable] := by decide +kernel
  obtain ⟨c, hrun, hops⟩ := map_eq_some_iff.1 hlog
  exact ⟨c, hrun, hops, restrictions_survive id plainUser _ c (by decide +kernel) hrun⟩

/-- The account is disabled after another call has loaded the row: that call, which is asked for
an email address only, enables the account again. -/
theorem email_bind_enables_disabled_user :
    asks id (.emailBind "a@b.c") .status = none ∧
      (exec (step id) (start plainUser)
        (bindSteps.take 2 ++ disableSteps ++ bindSteps.drop 2 ++ [(true, .next)])).map
        (fun c ↦ (c.shared.committed.status,
          c.shared.log.map fun e ↦ (e.op, e.before.status, e.after.status))) =
        some (userStatusEnabled,
          [(.emailBind "a@b.c", userStatusDisabled, userStatusEnabled),
            (.manageUser roleRootUser .disable, userStatusEnabled, userStatusDisabled)]) := by
  refine ⟨rfl, ?_⟩
  decide +kernel

end Moligate.UserUpdates
