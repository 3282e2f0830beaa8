import Moligate.Tasks.Moves

namespace Moligate.Tasks

open Foundation System

def Db.TerminalAt (db : Db) (i : ℤ) : Prop :=
  ∃ row, db.rows i = some row ∧ row.status.isTerminal = true

variable {rt : Runtime} {db db' : Db} {a : Action} {g g' : Goroutine} {i : ℤ} {row : Task}

theorem rows_save_self {task : Task} : (db.save task).rows task.id = some task :=
  Function.update_self _ _ _

theorem rows_save_of_ne {task : Task} (h : i ≠ task.id) : (db.save task).rows i = db.rows i :=
  Function.update_of_ne h _ _

theorem rows_updateQuota {quota : ℤ} (hrow : db.rows i = some row) :
    (db.updateQuota i quota).rows i = some { row with quota } := by
  rw [Db.updateQuota, hrow, ← db.keyed i row hrow]
  exact rows_save_self

theorem rows_updateQuota_of_ne {j quota : ℤ} (h : i ≠ j) :
    (db.updateQuota j quota).rows i = db.rows i := by
  rw [Db.updateQuota]
  split
  · rfl
  next row hrow =>
    apply rows_save_of_ne
    rwa [db.keyed j row hrow]

theorem rows_advance_of_ne {b : Bill} {accepted : Bool} (h : i ≠ b.task.id) :
    (b.advance accepted db).1.rows i = db.rows i := by
  unfold Bill.advance
  split
  · split <;> rfl
  · split <;> rfl
  · exact rows_updateQuota_of_ne h

theorem rows_advance {b : Bill} {accepted : Bool} (hrow : db.rows i = some row) :
    ∃ row', (b.advance accepted db).1.rows i = some row' ∧ row'.status = row.status ∧
      (row'.quota = row.quota ∨ b.task.id = i) := by
  by_cases hi : i = b.task.id
  · unfold Bill.advance
    split
    · split <;> exact ⟨row, hrow, rfl, .inl rfl⟩
    · refine ⟨row, ?_, rfl, .inl rfl⟩
      split <;> exact hrow
    · subst hi
      exact ⟨_, rows_updateQuota hrow, rfl, .inr rfl⟩
  · exact ⟨row, (rows_advance_of_ne hi).trans hrow, rfl, .inl rfl⟩

theorem Move.terminal_row (hm : Move a db g db' g')
    (hbulk : i ∈ g.job.bulkIds a → ∀ row ∈ db.rows i, row.status ≠ .success)
    (hrow : db.rows i = some row) (hterminal : row.status.isTerminal = true) :
    ∃ row', db'.rows i = some row' ∧ row'.status = row.status ∧
      (row'.quota = row.quota ∨ ∃ b, g.bill = some b ∧ b.task.id = i) := by
  cases hm with
  | rest => exact ⟨row, hrow, rfl, .inl rfl⟩
  | turn copy turn job' _ _ hlive outcome =>
    refine ⟨row, ?_, rfl, .inl rfl⟩
    cases outcome with
    | kept => exact hrow
    | written row₀ copy' bill hrow₀ hstatus hid =>
      -- the row that is written is as little terminal as the copy
      rw [rows_save_of_ne ?_, hrow]
      rintro rfl
      rw [hid, hrow₀, Option.some.injEq] at hrow
      rw [← hrow, hstatus, hlive] at hterminal
      cases hterminal
  | fail reason =>
    by_cases hi : i ∈ g.job.bulkIds a
    · have hfailure : row.status = .failure := by
        have := hbulk hi row hrow
        simpa [TaskStatus.isTerminal, this] using hterminal
      exact ⟨row.fail reason, by simp [Db.taskBulkUpdateByID, if_pos hi, hrow],
        hfailure.symm, .inl rfl⟩
    · exact ⟨row, by simp [Db.taskBulkUpdateByID, if_neg hi, hrow], rfl, .inl rfl⟩
  | bill b accepted job' hb =>
    obtain ⟨row', hrow', hstatus, hquota⟩ := @rows_advance db i row b accepted hrow
    exact ⟨row', hrow', hstatus, hquota.imp_right fun hi ↦ ⟨b, hb, hi⟩⟩

theorem Move.bill_origin {b' : Bill} (hm : Move a db g db' g') (hb' : g'.bill = some b') :
    (∃ b, g.bill = some b ∧ b'.task = b.task ∧ b'.actual = b.actual) ∨
      b'.step = .funding ∧ ¬ db.TerminalAt b'.task.id ∧ db'.TerminalAt b'.task.id := by
  cases hm with
  | rest | fail => cases hb'
  | turn copy turn job' _ _ hlive outcome =>
    cases outcome with
    | kept => cases hb'
    | written row₀ copy' bill hrow₀ hstatus hid hopens =>
      obtain ⟨htask, hstep, hkind⟩ := hopens b' hb'
      have hterminal := (hopens b' hb').isTerminal
      refine .inr ⟨hstep, ?_, ?_⟩
      · rintro ⟨row, hrow, ht⟩
        rw [htask, hid, hrow₀, Option.some.injEq] at hrow
        rw [← hrow, hstatus, hlive] at ht
        cases ht
      · rw [htask]
        exact ⟨copy', rows_save_self, hterminal⟩
  | bill b accepted job' hb => exact .inl ⟨b, hb, advance_task hb'⟩

/-- The guard of a run: answers are only written over copies that are not terminal, and bulk
updates only over rows that are not successful. -/
def Fresh (rt : Runtime) (c : System) (a : ℕ × Action) : Prop :=
  (c.thread a.1).job.LiveCopy rt a.2 ∧
    ∀ id ∈ (c.thread a.1).job.bulkIds a.2, ∀ row ∈ c.shared.rows id, row.status ≠ .success

instance {c : System} {a : ℕ × Action} : Decidable (Fresh rt c a) := by
  unfold Fresh
  infer_instance

def System.start (db : Db) : System := ⟨db, fun _ ↦ ⟨.idle, none⟩⟩

def OpenedAtEnd (rt : Runtime) (c : System) (run : List (ℕ × Action)) (p : ℕ) (b : Bill) : Prop :=
  ∃ before a after d d', run = before ++ (p, a) :: after ∧
    exec (step rt) c before = some d ∧ step rt d (p, a) = some d' ∧
    ¬ d.shared.TerminalAt b.task.id ∧ d'.shared.TerminalAt b.task.id ∧
    (d'.thread p).bill = some { b with step := .funding }

section

variable {c d d' : System} {run : List (ℕ × Action)} {p : ℕ} {b : Bill} {x : ℕ × Action}

theorem OpenedAtEnd.snoc (h : OpenedAtEnd rt c run p b) (x : ℕ × Action) :
    OpenedAtEnd rt c (run ++ [x]) p b := by
  obtain ⟨before, a, after, d, d', rfl, hd⟩ := h
  exact ⟨before, a, after ++ [x], d, d', by simp, hd⟩

theorem step_move (hlive : (d.thread x.1).job.LiveCopy rt x.2) (h : step rt d x = some d') :
    Move x.2 d.shared (d.thread x.1) d'.shared (d'.thread x.1) ∧
      ∀ q ≠ x.1, d'.thread q = d.thread q := by
  obtain ⟨hperform, hothers⟩ := Config.step_eq_some h
  exact ⟨perform_move hlive hperform, hothers⟩

theorem bills_opened (hg : Guarded (step rt) (Fresh rt) (System.start db) run)
    (hrun : exec (step rt) (System.start db) run = some d) (hb : (d.thread p).bill = some b) :
    OpenedAtEnd rt (System.start db) run p b := by
  refine exec_history (P := fun run d ↦ ∀ p b, (d.thread p).bill = some b →
    OpenedAtEnd rt (System.start db) run p b) ?_ ?_ hg hrun p b hb
  · intro p b hb
    cases hb
  · intro run x t u hrun ih hf hstep p b hb
    obtain ⟨hmove, hothers⟩ := step_move hf.1 hstep
    by_cases hp : p = x.1
    · subst hp
      rcases hmove.bill_origin hb with ⟨b₀, hb₀, htask, hactual⟩ | ⟨hfunding, hlive, hterminal⟩
      · have := (ih x.1 b₀ hb₀).snoc x
        rwa [OpenedAtEnd, ← htask, ← hactual] at this
      · exact ⟨run, x.2, [], t, u, rfl, hrun, hstep, hlive, hterminal, by rw [hb, ← hfunding]⟩
    · rw [hothers p hp] at hb
      exact (ih p b hb).snoc x

theorem status_kept {ok : System → ℕ × Action → Prop} {as : List (ℕ × Action)} {s : TaskStatus}
    (hok : ∀ d x, ok d x → (d.thread x.1).job.LiveCopy rt x.2 ∧
      (i ∈ (d.thread x.1).job.bulkIds x.2 → ∀ row ∈ d.shared.rows i, row.status ≠ .success))
    (hs : s.isTerminal = true) (hrow : ∃ row, c.shared.rows i = some row ∧ row.status = s)
    (hg : Guarded (step rt) ok c as) (hrun : exec (step rt) c as = some d) :
    ∃ row, d.shared.rows i = some row ∧ row.status = s := by
  refine exec_invariant (I := fun c ↦ ∃ row, c.shared.rows i = some row ∧ row.status = s) ?_ hrow
    hg hrun
  rintro t x u ⟨row, htrow, hstatus⟩ hf hstep
  obtain ⟨hlive, hbulk⟩ := hok t x hf
  obtain ⟨row', hrow', hstatus', _⟩ :=
    (step_move hlive hstep).1.terminal_row hbulk htrow (hstatus ▸ hs)
  exact ⟨row', hrow', hstatus'.trans hstatus⟩

end

/-- In every interleaving in which answers are only written over copies that are not terminal, and
bulk updates only over rows that are not successful, a terminal row keeps its status, and only the
settlement or refund of the step that made it terminal changes its quota. -/
theorem terminal_absorbing {c₁ c₂ c₃ : System} {before after : List (ℕ × Action)} {p : ℕ}
    (hg : Guarded (step rt) (Fresh rt) (System.start db) (before ++ after ++ [(p, a)]))
    (h₁ : exec (step rt) (System.start db) before = some c₁)
    (h₂ : exec (step rt) c₁ after = some c₂) (h₃ : step rt c₂ (p, a) = some c₃)
    (hrow : c₁.shared.rows i = some row) (hterminal : row.status.isTerminal = true) :
    ∃ row₂ row₃, c₂.shared.rows i = some row₂ ∧ c₃.shared.rows i = some row₃ ∧
      row₂.status = row.status ∧ row₃.status = row.status ∧
      (row₃.quota = row₂.quota ∨ ∃ b, (c₂.thread p).bill = some b ∧ b.task.id = i ∧
        OpenedAtEnd rt (System.start db) (before ++ after) p b) := by
  have hrun : exec (step rt) (System.start db) (before ++ after) = some c₂ :=
    exec_append.2 ⟨c₁, h₁, h₂⟩
  have hf : Fresh rt c₂ (p, a) := (hg.right hrun).1
  obtain ⟨row₂, hrow₂, hstatus₂⟩ :=
    status_kept (fun _ _ hf ↦ ⟨hf.1, hf.2 i⟩) hterminal ⟨row, hrow, rfl⟩ (hg.left.right h₁) h₂
  obtain ⟨row₃, hrow₃, hstatus₃, hquota⟩ :=
    (step_move hf.1 h₃).1.terminal_row (hf.2 i) hrow₂ (hstatus₂ ▸ hterminal)
  refine ⟨row₂, row₃, hrow₂, hrow₃, hstatus₂, hstatus₃.trans hstatus₂, hquota.imp_right ?_⟩
  rintro ⟨b, hb, hi⟩
  exact ⟨b, hb, hi, bills_opened hg.left hrun hb⟩

namespace Example

def runtime : Runtime := ⟨true, (· == ·), "server"⟩

def task (platform : TaskPlatform) : Task where
  id := 1
  taskId := "task_1"
  upstreamId := "up_1"
  platform := platform
  status := .inProgress
  progress := "30%"
  quota := 500
  submitTime := 1800000000

def database (t : Task) : Db where
  rows id := if id = t.id then some t else none
  keyed id row h := by
    rw [Option.ite_none_right_eq_some, Option.some.injEq] at h
    rw [h.1, h.2]
  ledger := []

def payOff (p : ℕ) : List (ℕ × Action) := List.replicate 3 (p, .bill true)

def sunoItem (status : TaskStatus) (failReason : String) : Action :=
  .sunoItem "up_1" { status := some status, failReason, submitTime := 1800000000 }

/-- A poller loads the task, and then the sweep times it out. -/
def timedOut : List (ℕ × Action) :=
  [(0, .startPolling .suno [1]), (1, .startSweep 1900000000 [1]), (1, .timeOut 1900000000 60)]

def billing (c : System) : Option (TaskStatus × ℤ) × List Entry :=
  ((c.shared.rows 1).map fun t ↦ (t.status, t.quota), c.shared.ledger)

def refunds : List Entry := [⟨1, .refund, .funding, 500⟩, ⟨1, .refund, .token, 500⟩]

end Example

open Example in
/-- One Suno response mentions the task twice: its failure is refunded, and then it succeeds. -/
theorem suno_revives_failed_task :
    (exec (step runtime) (.start (database (task .suno)))
      ([(0, .startPolling .suno [1]), (0, sunoItem .failure "boom")] ++ payOff 0)).map billing =
      some (some (.failure, 0), refunds) ∧
    (exec (step runtime) (.start (database (task .suno)))
      ([(0, .startPolling .suno [1]), (0, sunoItem .failure "boom")] ++ payOff 0 ++
        [(0, sunoItem .success "")])).map billing =
      some (some (.success, 0), refunds) := by
  decide +kernel

open Example in
/-- The sweep times the task out while a poller holds an unfinished copy of it. -/
theorem terminal_absorbing_race :
    ∃ c₁ c₂ c₃ row₃,
      exec (step runtime) (.start (database (task .suno))) timedOut = some c₁ ∧
      exec (step runtime) c₁ [(0, sunoItem .success ""), (1, .bill true), (1, .bill true)] =
        some c₂ ∧
      step runtime c₂ (1, .bill true) = some c₃ ∧
      c₃.shared.rows 1 = some row₃ ∧ row₃.status = .failure := by
  obtain ⟨c₃, h₃⟩ : ∃ c₃, exec (step runtime) (.start (database (task .suno)))
        (timedOut ++ [(0, sunoItem .success ""), (1, .bill true), (1, .bill true)] ++
          [(1, .bill true)]) = some c₃ :=
    Option.isSome_iff_exists.1 (by decide +kernel)
  obtain ⟨c₂, h₂, h₃⟩ := exec_append.1 h₃
  obtain ⟨c₁, h₁, h₂⟩ := exec_append.1 h₂
  obtain ⟨c₃, h₃, _⟩ := exec_cons.1 h₃
  have hrow : (exec (step runtime) (.start (database (task .suno))) timedOut).bind
      (fun c ↦ c.shared.rows 1) = some (timeOut 1900000000 60 (task .suno)) := by decide +kernel
  rw [h₁, Option.bind_some] at hrow
  obtain ⟨_, row₃, _, hrow₃, _, hstatus, _⟩ :=
    terminal_absorbing (by decide +kernel) h₁ h₂ h₃ hrow rfl
  exact ⟨c₁, c₂, c₃, row₃, h₁, h₂, h₃, hrow₃, hstatus⟩

end Moligate.Tasks
