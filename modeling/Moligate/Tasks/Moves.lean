import Moligate.Tasks.Polling

namespace Moligate.Tasks

open Foundation Option TaskInfo SunoItem Function List

variable {rt : Runtime} {db db' : Db} {copy copy' row : Task} {a : Action} {g g' : Goroutine}

theorem not_isTerminal {s : TaskStatus} (h : s.isTerminal = false) :
    s ≠ .failure ∧ s ≠ .success := by
  simpa [TaskStatus.isTerminal] using h

structure SameCharge (copy copy' : Task) : Prop where
  quota : copy'.quota = copy.quota
  funding : copy'.funding = copy.funding
  hasToken : copy'.hasToken = copy.hasToken
  legacy : copy'.isLegacy = false

structure Bill.Opens (b : Bill) (copy : Task) : Prop where
  task : b.task = copy
  step : b.step = .funding
  kind : b.actual = none ∧ copy.status = .failure ∨ b.actual.isSome ∧ copy.status = .success

variable {b : Bill} {actual : ℤ}

theorem Bill.Opens.isTerminal (h : b.Opens copy) : copy.status.isTerminal = true := by
  rcases h.kind with ⟨_, hs⟩ | ⟨_, hs⟩ <;> simp [hs, TaskStatus.isTerminal]

theorem refundTaskQuota_opens (hs : copy.status = .failure) (h : refundTaskQuota copy = some b) :
    b.Opens copy := by
  rw [refundTaskQuota, ite_none_left_eq_some, some.injEq] at h
  obtain ⟨_, rfl⟩ := h
  exact ⟨rfl, rfl, .inl ⟨rfl, hs⟩⟩

theorem billOnComplete_opens (h : billOnComplete copy actual = some b) : b.Opens copy := by
  rw [billOnComplete] at h
  split at h
  next hs =>
    rw [settleTaskBillingOnComplete, recalculateTaskQuota, ite_none_left_eq_some,
      ite_none_left_eq_some, some.injEq] at h
    obtain ⟨_, _, rfl⟩ := h
    exact ⟨rfl, rfl, .inr ⟨rfl, hs⟩⟩
  next hs => exact refundTaskQuota_opens hs h
  · cases h

theorem billOnComplete_eq_none (hs : copy.status.isTerminal = false) :
    billOnComplete copy actual = none := by
  obtain ⟨hf, hs⟩ := not_isTerminal hs
  rw [billOnComplete]
  split <;> first | contradiction | rfl

/-- What an update of a copy that is not terminal does. Where `careful` holds, a failure that is
written is refunded. -/
inductive Outcome (careful : Prop) (db : Db) (copy : Task) : Turn → Prop
  | kept (copy' : Task) (id : copy'.id = copy.id)
      (charge : careful → copy.isLegacy = false → SameCharge copy copy') :
      Outcome careful db copy ⟨db, copy', none⟩
  | written (row copy' : Task) (bill : Option Bill) (row_eq : db.rows copy.id = some row)
      (status : row.status = copy.status) (id : copy'.id = copy.id)
      (opens : ∀ b, bill = some b → b.Opens copy')
      (charge : careful → copy.isLegacy = false → SameCharge copy copy')
      (refund : careful → copy.isLegacy = false → copy'.status = .failure →
        bill = refundTaskQuota copy') :
      Outcome careful db copy ⟨db.save copy', copy', bill⟩

theorem updateWithStatus_cases (rt : Runtime) (db : Db) (copy : Task) (s : TaskStatus) :
    db.updateWithStatus rt copy s = (db, false) ∨ ∃ row, db.rows copy.id = some row ∧
      row.status = s ∧
      db.updateWithStatus rt copy s = (db.save copy, rt.reportsMatched || row ≠ copy) := by
  rw [Db.updateWithStatus]
  split
  · exact .inl rfl
  next row hrow =>
    split
    next hs => exact .inr ⟨row, hrow, hs, rfl⟩
    · exact .inl rfl

variable {careful : Prop}

theorem outcome_of_update {bill : Bool → Option Bill} (hlive : copy.status.isTerminal = false)
    (hid : copy'.id = copy.id) (hlost : bill false = none)
    (hopens : ∀ b, bill true = some b → b.Opens copy')
    (hcharge : careful → copy.isLegacy = false → SameCharge copy copy')
    (hrefund : careful → copy.isLegacy = false → copy'.status = .failure →
      bill true = refundTaskQuota copy') :
    Outcome careful db copy
      ⟨(db.updateWithStatus rt copy' copy.status).1, copy',
        bill (db.updateWithStatus rt copy' copy.status).2⟩ := by
  rcases updateWithStatus_cases rt db copy' copy.status with heq | ⟨row, hrow, hs, heq⟩
  · rw [heq, hlost]
    exact .kept copy' hid hcharge
  · rw [heq]
    rw [hid] at hrow
    cases hwon : rt.reportsMatched || decide (row ≠ copy') with
    | true => exact .written row copy' _ hrow hs hid hopens hcharge hrefund
    | false =>
      -- nothing was changed, so that the copy is as little terminal as the row
      have hrow' : row = copy' := by simpa using (Bool.or_eq_false_iff.1 hwon).2
      rw [hlost]
      refine .written row copy' _ hrow hs hid (by simp) hcharge fun _ _ hf ↦ ?_
      rw [← hrow', hs] at hf
      exact absurd hf (not_isTerminal hlive).1

theorem sweepTask_outcome (now minutes : ℤ) (hlive : copy.status.isTerminal = false) :
    Outcome careful db copy (sweepTask rt now minutes copy db) := by
  have charge (h : copy.isLegacy = false) : SameCharge copy (timeOut now minutes copy) :=
    ⟨by simp [timeOut, h], rfl, rfl, h⟩
  refine @outcome_of_update rt db copy (timeOut now minutes copy) careful
    (fun won ↦ if won && !copy.isLegacy then refundTaskQuota (timeOut now minutes copy) else none)
    hlive rfl rfl ?_ (fun _ h ↦ charge h) fun _ h _ ↦ by simp [h]
  intro b hb
  rw [ite_none_right_eq_some] at hb
  exact refundTaskQuota_opens rfl hb.2

section

variable {item : SunoItem}

theorem SunoItem.apply_status : (item.apply copy).status = .failure ↔
    item.isFailure copy = true := by
  simp only [apply]
  split
  next h => simp [h]
  next h =>
    simp only [isFailure, Bool.or_eq_true, decide_eq_true_eq, not_or] at h
    simp [h.2, isFailure, h.1]

theorem SunoItem.apply_charge (hitem : isLegacyTime item.submitTime = false)
    (hlegacy : copy.isLegacy = false) : SameCharge copy (item.apply copy) := by
  refine ⟨rfl, rfl, rfl, ?_⟩
  simp only [apply, Task.isLegacy]
  split
  · exact hitem
  · exact hlegacy

theorem updateSunoTask_outcome (hlive : copy.status.isTerminal = false) :
    Outcome (isLegacyTime item.submitTime = false) db copy (updateSunoTask rt item copy db) := by
  unfold updateSunoTask
  split
  · refine @outcome_of_update rt db copy (item.apply copy) _
      (fun won ↦ if won && item.isFailure copy && copy.status ≠ .failure then
        refundTaskQuota (item.apply copy) else none)
      hlive rfl rfl ?_ apply_charge fun _ _ hf ↦ ?_
    · intro b hb
      rw [ite_none_right_eq_some, Bool.and_eq_true, Bool.and_eq_true] at hb
      exact refundTaskQuota_opens (apply_status.2 hb.1.1.2) hb.2
    · simp [apply_status.1 hf, (not_isTerminal hlive).1]
  · exact .kept copy rfl fun _ h ↦ ⟨rfl, rfl, rfl, h⟩

end

section

variable {info : TaskInfo} {now actual : ℤ}

theorem TaskInfo.apply_id (h : info.apply rt now copy = some copy') : copy'.id = copy.id := by
  unfold apply at h
  split at h <;> cases h <;> rfl

theorem TaskInfo.apply_charge (h : info.apply rt now copy = some copy')
    (hlegacy : copy.isLegacy = false) : SameCharge copy copy' := by
  unfold apply at h
  split at h <;> cases h <;> exact ⟨rfl, rfl, rfl, hlegacy⟩

theorem persistVideoTask_outcome (hlive : copy.status.isTerminal = false) (hid : copy'.id = copy.id)
    (hcharge : careful → copy.isLegacy = false → SameCharge copy copy') :
    Outcome careful db copy (persistVideoTask rt actual copy copy' db) := by
  unfold persistVideoTask
  by_cases ht : copy'.status.isTerminal = true
  · have hne : copy.status ≠ copy'.status := by
      rintro heq
      rw [heq, ht] at hlive
      cases hlive
    simp only [ht, hne, ne_eq, not_false_eq_true, decide_true, Bool.and_self, if_true]
    exact @outcome_of_update rt db copy copy' careful
      (fun won ↦ if won then billOnComplete copy' actual else none) hlive hid rfl
      (fun b hb ↦ billOnComplete_opens hb) hcharge fun _ _ hf ↦ by
        rw [if_pos rfl, billOnComplete, hf]
  · rw [Bool.not_eq_true] at ht
    simp only [ht, Bool.false_and, Bool.false_eq_true, if_false, billOnComplete_eq_none ht]
    split
    · exact @outcome_of_update rt db copy copy' careful (fun _ ↦ none) hlive hid rfl
        (fun b hb ↦ nomatch hb) hcharge fun _ _ hf ↦ absurd hf (not_isTerminal ht).1
    · exact .kept copy' hid hcharge

theorem updateVideoSingleTask_outcome {answer : Option VideoAnswer}
    (hlive : copy.status.isTerminal = false) :
    Outcome careful db copy (updateVideoSingleTask rt now answer actual copy db) := by
  unfold updateVideoSingleTask
  split
  · exact .kept copy rfl fun _ h ↦ ⟨rfl, rfl, rfl, h⟩
  split
  · exact .kept _ rfl fun _ h ↦ ⟨rfl, rfl, rfl, h⟩
  split
  · exact .kept _ rfl fun _ h ↦ ⟨rfl, rfl, rfl, h⟩
  next h =>
    have hid := apply_id h
    refine persistVideoTask_outcome hlive hid fun _ hlegacy ↦ ?_
    obtain ⟨hquota, hfunding, htoken, hlegacy'⟩ := apply_charge h hlegacy
    exact ⟨hquota, hfunding, htoken, hlegacy'⟩

end

variable {answer : Option TaskInfo} {taskM : Memory} {upstreamId : String} {platform : TaskPlatform}
  {nulls : List ℤ} {t u : Task}

theorem tryRealtimeFetch_outcome (hlive : copy.status.isTerminal = false) :
    Outcome (answer.bind status ≠ some .failure) db copy (tryRealtimeFetch rt answer copy db) := by
  unfold tryRealtimeFetch
  split
  · exact .kept copy rfl fun _ h ↦ ⟨rfl, rfl, rfl, h⟩
  rename_i info
  split
  · exact .kept _ rfl fun _ h ↦ ⟨rfl, rfl, rfl, h⟩
  refine @outcome_of_update rt db copy _ _ (fun _ ↦ none) hlive rfl rfl
    (fun b hb ↦ nomatch hb) (fun _ h ↦ ⟨rfl, rfl, rfl, h⟩) fun hs _ hf ↦ ?_
  cases hinfo : info.status with
  | none =>
    simp only [applyRealtime, hinfo, getD_none] at hf
    exact absurd hf (not_isTerminal hlive).1
  | some s =>
    simp only [applyRealtime, hinfo, getD_some] at hf
    exact absurd (by simp [hinfo, hf]) hs

theorem advance_task {b b' : Bill} {accepted : Bool} (h : (b.advance accepted db).2 = some b') :
    b'.task = b.task ∧ b'.actual = b.actual := by
  unfold Bill.advance at h
  split at h
  · split at h <;> cases h
    exact ⟨rfl, rfl⟩
  · cases h
    exact ⟨rfl, rfl⟩
  · cases h

def Job.Holds (job : Job) (t : Task) : Prop :=
  match job with
  | .idle => False
  | .sweep todo => ∃ u ∈ todo, u.1 = t
  | .poll _ _ taskM => ∃ upstreamId, taskM upstreamId = some t
  | .realtime task => task = t

def Job.bulkIds (a : Action) (job : Job) : List ℤ :=
  match a, job with
  | .failNullTasks, .poll _ nulls _ => nulls
  | .failChannel _ upstreamIds, .poll _ _ taskM => (upstreamIds.filterMap taskM).map Task.id
  | _, _ => []

def Job.LiveCopy (rt : Runtime) (a : Action) (job : Job) : Prop :=
  match a, job with
  | .sunoItem upstreamId item, .poll _ _ taskM =>
    ∀ t ∈ taskM upstreamId, taskNeedsUpdate rt t item = true → t.status.isTerminal = false
  | .videoAnswer upstreamId _ _ _, .poll _ _ taskM =>
    ∀ t ∈ taskM upstreamId, t.status.isTerminal = false
  | .realtimeAnswer (some info), .realtime t =>
    sameSnapshot t (info.applyRealtime rt t) = false → t.status.isTerminal = false
  | _, _ => True

instance : Decidable (Job.LiveCopy rt a g.job) := by
  unfold Job.LiveCopy
  split <;> infer_instance

/-- A failure that the action writes is refunded, now and by a later timeout: a realtime answer
reports none, and Suno does not move the task to the time before the cutoff. -/
def Action.Careful (a : Action) : Prop :=
  match a with
  | .sunoItem _ item => isLegacyTime item.submitTime = false
  | .realtimeAnswer answer => answer.bind status ≠ some .failure
  | _ => True

instance : Decidable a.Careful := by
  unfold Action.Careful
  split <;> infer_instance

inductive Move (a : Action) (db : Db) (g : Goroutine) : Db → Goroutine → Prop
  | rest (job' : Job) (idle : g.bill = none)
      (holds : ∀ t, job'.Holds t → g.job.Holds t ∨ db.rows t.id = some t) :
      Move a db g db ⟨job', none⟩
  | turn (copy : Task) (turn : Turn) (job' : Job) (idle : g.bill = none)
      (holds_copy : g.job.Holds copy) (live : copy.status.isTerminal = false)
      (outcome : Outcome a.Careful db copy turn)
      (holds : ∀ t, job'.Holds t → g.job.Holds t ∨ t = turn.copy) :
      Move a db g turn.db ⟨job', turn.bill⟩
  | fail (reason : Option String) (job' : Job) (idle : g.bill = none)
      (holds : ∀ t, job'.Holds t → g.job.Holds t) :
      Move a db g (db.taskBulkUpdateByID (g.job.bulkIds a) reason) ⟨job', none⟩
  | bill (b : Bill) (accepted : Bool) (job' : Job) (bill_eq : g.bill = some b)
      (holds : ∀ t, job'.Holds t → g.job.Holds t ∨ t = b.cleared) :
      Move a db g (b.advance accepted db).1 ⟨job', (b.advance accepted db).2⟩

theorem selectUnfinished_eq {cond : Task → Bool} {ids : List ℤ} {t : UnfinishedTask}
    (h : t ∈ db.selectUnfinished cond ids) : db.rows t.1.id = some t.1 := by
  simp only [Db.selectUnfinished, mem_filterMap, bind_eq_some_iff,
    dite_none_right_eq_some, ite_none_right_eq_some, some.injEq] at h
  obtain ⟨id, _, row, hrow, _, _, rfl⟩ := h
  rwa [db.keyed id row hrow]

theorem foldl_insert_mem {tasks : List Task} {t : Task}
    (h : tasks.foldl Memory.insert taskM upstreamId = some t) :
    t ∈ tasks ∨ taskM upstreamId = some t := by
  induction tasks generalizing taskM with
  | nil => exact .inr h
  | cons task tasks ih =>
    rcases ih h with hmem | heq
    · exact .inl (mem_cons_of_mem _ hmem)
    unfold Memory.insert at heq
    split at heq
    · exact .inr heq
    by_cases hu : upstreamId = task.upstreamId
    · rw [hu, update_self, some.injEq] at heq
      exact .inl (heq ▸ mem_cons_self)
    · rw [update_of_ne hu] at heq
      exact .inr heq

theorem holds_update (h : (Job.poll platform nulls (update taskM upstreamId (some u))).Holds t) :
    (Job.poll platform nulls taskM).Holds t ∨ t = u := by
  obtain ⟨v, hv⟩ := h
  by_cases hvu : v = upstreamId
  · rw [hvu, update_self, some.injEq] at hv
    exact .inr hv.symm
  · rw [update_of_ne hvu] at hv
    exact .inl ⟨v, hv⟩

theorem memory_update_move {turn : Task → Db → Turn}
    (hidle : g.bill = none) (hjob : g.job = .poll platform nulls taskM)
    (hturn : ∀ t, taskM upstreamId = some t → turn t db = ⟨db, t, none⟩ ∨
      t.status.isTerminal = false ∧ Outcome a.Careful db t (turn t db))
    (h : taskM.update platform nulls upstreamId db turn = (db', g')) : Move a db g db' g' := by
  unfold Memory.update at h
  split at h
  · cases h
    exact .rest _ hidle fun t ht ↦ .inl (hjob ▸ ht)
  rename_i t ht
  cases h
  have hcopy : g.job.Holds t := by
    rw [hjob]
    exact ⟨upstreamId, ht⟩
  rcases hturn t ht with heq | ⟨hlive, houtcome⟩
  · rw [heq]
    refine .rest _ hidle fun u hu ↦ ?_
    rcases holds_update hu with hu | rfl
    · exact .inl (hjob ▸ hu)
    · exact .inl hcopy
  · exact .turn t (turn t db) _ hidle hcopy hlive houtcome fun u hu ↦ by
      rw [hjob]
      exact holds_update hu

theorem tryRealtimeFetch_terminal {task : Task}
    (hlive : (Job.realtime task).LiveCopy rt (.realtimeAnswer answer))
    (hterminal : ¬ task.status.isTerminal = false) :
    (tryRealtimeFetch rt answer task db).db = db ∧
      (tryRealtimeFetch rt answer task db).bill = none := by
  cases answer with
  | none => exact ⟨rfl, rfl⟩
  | some info =>
    have hsame : sameSnapshot task (info.applyRealtime rt task) = true :=
      Bool.not_eq_false _ ▸ fun hsame ↦ hterminal (hlive hsame)
    rw [tryRealtimeFetch, hsame]
    exact ⟨rfl, rfl⟩

theorem job_perform_move (hidle : g.bill = none) (hlive : g.job.LiveCopy rt a)
    (h : g.job.perform rt a db = some (db', g')) : Move a db g db' g' := by
  unfold Job.perform at h
  split at h
  · cases h
    exact .rest _ hidle fun t ⟨u, hu, ht⟩ ↦ .inr (ht ▸ selectUnfinished_eq hu)
  · cases h
    refine .rest _ hidle fun t ⟨u, hu⟩ ↦ .inr ?_
    obtain hmem | ⟨⟨⟩⟩ := foldl_insert_mem hu
    obtain ⟨task, htask, rfl⟩ := mem_map.1 hmem
    exact selectUnfinished_eq htask
  · obtain ⟨row, hrow, hout⟩ := map_eq_some_iff.1 h
    cases hout
    refine .rest _ hidle fun t ht ↦ .inr ?_
    obtain rfl : row = t := ht
    rwa [db.keyed _ row hrow]
  next now minutes task todo hjob =>
    cases h
    have hterminal : task.1.status.isTerminal = false := by
      have := task.2
      simp only [Task.isUnfinished, Bool.and_eq_true, Bool.not_eq_true'] at this
      exact this.2
    refine .turn task.1 (sweepTask rt now minutes task.1 db) _ hidle ?_ hterminal
      (sweepTask_outcome now minutes hterminal) fun t ht ↦ .inl ?_
    · rw [hjob]
      exact ⟨task, mem_cons_self, rfl⟩
    · obtain ⟨u, hu, hut⟩ := ht
      rw [hjob]
      exact ⟨u, mem_cons_of_mem _ hu, hut⟩
  next platform nulls taskM hjob =>
    cases h
    have hids : g.job.bulkIds .failNullTasks = nulls := by rw [hjob]; rfl
    rw [← hids]
    exact .fail none _ hidle fun t ht ↦ hjob ▸ ht
  next channelId upstreamIds platform nulls taskM hjob =>
    cases h
    have hids : g.job.bulkIds (.failChannel channelId upstreamIds) =
      (upstreamIds.filterMap taskM).map Task.id := by rw [hjob]; rfl
    rw [← hids]
    exact .fail _ _ hidle fun t ht ↦ hjob ▸ ht
  next upstreamId item nulls taskM hjob =>
    simp only [Job.LiveCopy, hjob] at hlive
    refine memory_update_move hidle hjob (fun t ht ↦ ?_) (some.inj h)
    cases hneeds : taskNeedsUpdate rt t item with
    | false => exact .inl (by rw [updateSunoTask, hneeds]; rfl)
    | true => exact .inr ⟨hlive t ht hneeds, updateSunoTask_outcome (hlive t ht hneeds)⟩
  next upstreamId now answer actual name nulls taskM hjob =>
    simp only [Job.LiveCopy, hjob] at hlive
    refine memory_update_move hidle hjob (fun t ht ↦ .inr ?_) (some.inj h)
    exact ⟨hlive t ht, updateVideoSingleTask_outcome (hlive t ht)⟩
  next answer task hjob =>
    cases h
    have hcopy : g.job.Holds task := hjob ▸ rfl
    by_cases hterminal : task.status.isTerminal = false
    · exact .turn task (tryRealtimeFetch rt answer task db) .idle hidle hcopy hterminal
        (tryRealtimeFetch_outcome hterminal) fun t ht ↦ ht.elim
    · rw [hjob] at hlive
      obtain ⟨hdb, hbill⟩ := @tryRealtimeFetch_terminal rt db _ _ hlive hterminal
      rw [hdb, hbill]
      exact .rest .idle hidle fun t ht ↦ ht.elim
  · cases h
    exact .rest _ hidle fun t ht ↦ ht.elim
  · cases h

theorem perform_move {p : ℕ} (hlive : g.job.LiveCopy rt a)
    (h : perform rt p a db g = some (db', g')) : Move a db g db' g' := by
  unfold perform at h
  split at h
  next hidle => exact job_perform_move hidle hlive h
  next b accepted hb =>
    cases h
    refine .bill b accepted _ hb fun t ht ↦ ?_
    split at ht
    · obtain ⟨job, bill⟩ := g
      cases job with
      | poll platform nulls taskM => exact holds_update ht
      | idle | sweep | realtime => exact .inl ht
    · exact .inl ht
  · cases h

end Moligate.Tasks
