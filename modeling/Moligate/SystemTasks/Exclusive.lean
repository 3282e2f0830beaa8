import Moligate.SystemTasks.Model

namespace Moligate.SystemTasks

open Foundation Option List SystemTaskStatus System Table

/-- What a statement may do to a task: an ended task stays as it is, and no task gets back to the
pending ones. -/
structure Moves (t t' : SystemTask) : Prop where
  taskID : t'.taskID = t.taskID
  type : t'.type = t.type
  key : (t.activeKey = if t.status.isActive then some t.type else none) →
    t'.activeKey = if t'.status.isActive then some t'.type else none
  ended : t.status.isActive = false → t' = t
  pending : t'.status = .pending → t.status = .pending

theorem Moves.refl {t : SystemTask} : Moves t t := ⟨rfl, rfl, id, fun _ ↦ rfl, id⟩

theorem Moves.active {t t' : SystemTask} (h : Moves t t') (h' : t'.status.isActive = true) :
    t.status.isActive = true := by
  by_contra hended
  rw [Bool.not_eq_true] at hended
  rw [h.ended hended, hended] at h'
  cases h'

structure Invariant (w : World) : Prop where
  key : ∀ t ∈ w.tasks.rows, t.activeKey = if t.status.isActive then some t.type else none
  alone : ∀ t ∈ w.tasks.rows, ∀ t' ∈ w.tasks.rows, t.status.isActive = true →
    t'.status.isActive = true → t.type = t'.type → t = t'
  locks : ∀ l ∈ w.locks.rows, ∃ t ∈ w.tasks.rows, t.taskID = l.taskID ∧ t.type = l.type
  claimed : w.claimed.Nodup ∧
    ∀ x ∈ w.claimed, ∃ t ∈ w.tasks.rows, t.taskID = x ∧ t.status ≠ .pending
  finished : w.finished.Nodup ∧
    ∀ x ∈ w.finished, ∃ t ∈ w.tasks.rows, t.taskID = x ∧ t.status.isActive = false
  leaseExpired : ∀ x ∈ w.leaseExpired, ∃ t ∈ w.tasks.rows, t.taskID = x ∧ t.status = .failed

def Known (w : World) (taskID taskType : String) : Prop :=
  ∃ t ∈ w.tasks.rows, t.taskID = taskID ∧ t.type = taskType

def Stage.Holds {π : Type} (_ : π) (w : World) : Stage → Prop
  | .claimInsert args _ task | .claimLook args _ task | .claimTake args _ task _ =>
    Known w task.taskID args.taskType
  | .finish args _ => args.status.isActive = false
  | _ => True

def Keeps {π : Type} (_ : π) (w w' : World) : Prop :=
  ∀ taskID taskType, Known w taskID taskType → Known w' taskID taskType

theorem Stage.Holds.stable {π : Type} {p q : π} {w w' : World} {stage : Stage}
    (h : stage.Holds q w) (hkeeps : Keeps p w w') : stage.Holds q w' := by
  cases stage with
  | claimInsert args now task | claimLook args now task | claimTake args now task existing =>
    exact hkeeps _ _ h
  | finish args now => exact h
  | _ => trivial

abbrev Safe {π : Type} (p : π) (w : World) (out : World × Stage) : Prop :=
  Config.Safe Invariant Stage.Holds Keeps p w out

section

variable {w : World} {cond : SystemTask → Bool} {set : SystemTask → SystemTask}

variable {t t' : SystemTask} {x : String} {P : SystemTask → Prop}

theorem mem_updateTasks :
    t' ∈ (w.updateTasks cond set).tasks.rows ↔ ∃ t ∈ w.tasks.rows, updateRow cond set t = t' :=
  mem_update (taskID_updateRow cond set)

theorem mem_affected : x ∈ w.affected cond ↔ ∃ t ∈ w.tasks.rows, cond t = true ∧ t.taskID = x := by
  simp [World.affected, and_assoc]

variable (hset : ∀ t, cond t = true → Moves t (set t))
include hset

theorem moves_updateRow (t : SystemTask) : Moves t (updateRow cond set t) := by
  rw [updateRow]
  split
  next h =>
    have hmoves := hset t h
    have hrow : { set t with taskID := t.taskID } = set t := by rw [← hmoves.taskID]
    rw [hrow]
    exact hmoves
  · exact .refl

theorem known_updateTasks {taskID taskType : String} (h : Known w taskID taskType) :
    Known (w.updateTasks cond set) taskID taskType := by
  obtain ⟨t, ht, hid, htype⟩ := h
  have hmoves := moves_updateRow hset t
  exact ⟨_, mem_updateTasks.2 ⟨t, ht, rfl⟩, hmoves.taskID.trans hid, hmoves.type.trans htype⟩

theorem kept_updateTasks (hP : ∀ t t', Moves t t' → P t → P t')
    (h : ∃ t ∈ w.tasks.rows, t.taskID = x ∧ P t) :
    ∃ t ∈ (w.updateTasks cond set).tasks.rows, t.taskID = x ∧ P t := by
  obtain ⟨t, ht, hid, hPt⟩ := h
  have hmoves := moves_updateRow hset t
  exact ⟨_, mem_updateTasks.2 ⟨t, ht, rfl⟩, hmoves.taskID.trans hid, hP t _ hmoves hPt⟩

omit hset in
theorem Moves.inactive (h : Moves t t') (ht : t.status.isActive = false) :
    t'.status.isActive = false := h.ended ht ▸ ht

omit hset in
theorem Moves.failed (h : Moves t t') (ht : t.status = .failed) : t'.status = .failed := by
  rw [h.ended (by rw [ht]; rfl)]
  exact ht

omit hset in
theorem Invariant.updateTasks (hw : Invariant w) (hset : ∀ t, cond t = true → Moves t (set t)) :
    Invariant (w.updateTasks cond set) where
  key t' ht' := by
    obtain ⟨t, ht, rfl⟩ := mem_updateTasks.1 ht'
    exact (moves_updateRow hset t).key (hw.key t ht)
  alone t₁' h₁' t₂' h₂' ha₁ ha₂ htype := by
    obtain ⟨t₁, h₁, rfl⟩ := mem_updateTasks.1 h₁'
    obtain ⟨t₂, h₂, rfl⟩ := mem_updateTasks.1 h₂'
    have hm₁ := moves_updateRow hset t₁
    have hm₂ := moves_updateRow hset t₂
    rw [hw.alone t₁ h₁ t₂ h₂ (hm₁.active ha₁) (hm₂.active ha₂)
      (hm₁.type.symm.trans (htype.trans hm₂.type))]
  locks l hl := known_updateTasks hset (hw.locks l hl)
  claimed := ⟨hw.claimed.1, fun x hx ↦
    kept_updateTasks hset (fun _ _ hm ht ht' ↦ ht (hm.pending ht')) (hw.claimed.2 x hx)⟩
  finished := ⟨hw.finished.1, fun x hx ↦
    kept_updateTasks hset (fun _ _ ↦ Moves.inactive) (hw.finished.2 x hx)⟩
  leaseExpired x hx := kept_updateTasks hset (fun _ _ ↦ Moves.failed) (hw.leaseExpired x hx)

theorem affected_updateTasks (hP : ∀ t, cond t = true → P (set t)) (hx : x ∈ w.affected cond) :
    ∃ t ∈ (w.updateTasks cond set).tasks.rows, t.taskID = x ∧ P t := by
  obtain ⟨t, ht, hcond, rfl⟩ := mem_affected.1 hx
  have hrow : updateRow cond set t = set t := by
    rw [updateRow, if_pos hcond, ← (hset t hcond).taskID]
  exact ⟨set t, mem_updateTasks.2 ⟨t, ht, hrow⟩, (hset t hcond).taskID, hP t hcond⟩

end

section

variable {w w' : World} {args : ClaimArgs} {task : SystemTask} {now : ℤ}

variable {t : SystemTask} {taskID lockedBy : String}

theorem moves_running {status : SystemTaskStatus} {result error : String}
    (ht : t.status = .running) (hstatus : status.isActive = false) (at' : ℤ) :
    Moves t { t with status, activeKey := none, result, error, updatedAt := at' } where
  taskID := rfl
  type := rfl
  key _ := by simp [hstatus]
  ended h := by simp [ht, isActive] at h
  pending h := by
    have h : status = .pending := h
    rw [h] at hstatus
    cases hstatus

theorem invariant_markLeaseExpired (hw : Invariant w) (taskID : String) :
    Invariant (markSystemTaskLeaseExpired w taskID) ∧
      ∀ x y, Known w x y → Known (markSystemTaskLeaseExpired w taskID) x y := by
  let cond (t : SystemTask) : Bool := t.taskID = taskID && t.status = .running
  have hset (t : SystemTask) (h : cond t = true) : Moves t
      { t with
        status := .failed
        activeKey := none
        error := "task lease expired"
        updatedAt := w.clock } := by
    have hrunning : t.taskID = taskID ∧ t.status = .running := by simpa [cond] using h
    exact moves_running hrunning.2 rfl w.clock
  have hupdated := hw.updateTasks hset
  refine ⟨{ hupdated with leaseExpired := fun x hx ↦ ?_ }, fun _ _ ↦ known_updateTasks hset⟩
  rcases mem_append.1 hx with hx | hx
  · exact hupdated.leaseExpired x hx
  · exact affected_updateTasks hset (fun _ _ ↦ rfl) hx

theorem nodup_append_affected {xs : List String} {cond : SystemTask → Bool} (hxs : xs.Nodup)
    (h : ∀ x ∈ xs, ∃ t ∈ w.tasks.rows, t.taskID = x ∧ cond t = false) :
    (xs ++ w.affected cond).Nodup := by
  refine nodup_append.2 ⟨hxs, w.tasks.nodup.sublist (filter_sublist.map _), fun x hx y hy hxy ↦ ?_⟩
  subst hxy
  obtain ⟨t, ht, hid, hcond⟩ := h x hx
  obtain ⟨t', ht', hcond', hid'⟩ := mem_affected.1 hy
  rw [inj_on_of_nodup_map w.tasks.nodup ht' ht (hid'.trans hid.symm), hcond] at hcond'
  cases hcond'

theorem isClaimable_iff :
    isClaimable args t = true ↔ t.id = args.id ∧ t.type = args.taskType ∧ t.status = .pending := by
  simp [isClaimable, and_assoc]

theorem invariant_runTask (hw : Invariant w) :
    Invariant (runTask w args now) ∧ ∀ x y, Known w x y → Known (runTask w args now) x y := by
  have hset (t : SystemTask) (h : isClaimable args t = true) : Moves t
      { t with status := .running, lockedBy := args.runnerID, updatedAt := now } := by
    have hpending := (isClaimable_iff.1 h).2.2
    refine ⟨rfl, rfl, fun hkey ↦ ?_, fun hended ↦ ?_, fun h ↦ by cases h⟩
    · simpa [hpending, isActive] using hkey
    · simp [hpending, isActive] at hended
  have hupdated := hw.updateTasks hset
  refine ⟨⟨hupdated.key, hupdated.alone, hupdated.locks, ⟨?_, fun x hx ↦ ?_⟩, hupdated.finished,
    hupdated.leaseExpired⟩, fun _ _ ↦ known_updateTasks hset⟩
  · refine nodup_append_affected hw.claimed.1 fun x hx ↦ ?_
    obtain ⟨t, ht, hid, hstatus⟩ := hw.claimed.2 x hx
    exact ⟨t, ht, hid, Bool.eq_false_iff.2 fun h ↦ hstatus (isClaimable_iff.1 h).2.2⟩
  · rcases mem_append.1 hx with hx | hx
    · exact hupdated.claimed.2 x hx
    · exact affected_updateTasks hset (fun _ _ h ↦ by cases h) hx

theorem canWrite_iff :
    canWrite w taskID lockedBy now t = true ↔
      t.taskID = taskID ∧ t.status = .running ∧ t.lockedBy = lockedBy ∧
        ∃ l ∈ w.locks.rows, l.taskID = t.taskID ∧ l.lockedBy = lockedBy ∧ now ≤ l.lockedUntil := by
  simp [canWrite, and_assoc]

variable (hw : Invariant w)
include hw

theorem invariant_writeState {state : String} :
    Invariant (writeState w taskID lockedBy state now) ∧
      ∀ x y, Known w x y → Known (writeState w taskID lockedBy state now) x y := by
  have hset (t : SystemTask) (h : canWrite w taskID lockedBy now t = true) :
      Moves t { t with state, updatedAt := now } := by
    refine ⟨rfl, rfl, id, fun hended ↦ ?_, id⟩
    simp [(canWrite_iff.1 h).2.1, isActive] at hended
  exact ⟨hw.updateTasks hset, fun _ _ ↦ known_updateTasks hset⟩

theorem invariant_finishTask {args : FinishArgs} (hstatus : args.status.isActive = false) :
    Invariant (finishTask w args now) ∧ ∀ x y, Known w x y → Known (finishTask w args now) x y := by
  have hset (t : SystemTask) (h : canWrite w args.taskID args.lockedBy now t = true) : Moves t
      { t with
        status := args.status
        activeKey := none
        result := args.result
        error := args.errorMessage
        updatedAt := now } := moves_running (canWrite_iff.1 h).2.1 hstatus now
  have hupdated := hw.updateTasks hset
  refine ⟨⟨hupdated.key, hupdated.alone, hupdated.locks, hupdated.claimed, ⟨?_, fun x hx ↦ ?_⟩,
    hupdated.leaseExpired⟩, fun _ _ ↦ known_updateTasks hset⟩
  · refine nodup_append_affected hw.finished.1 fun x hx ↦ ?_
    obtain ⟨t, ht, hid, hended⟩ := hw.finished.2 x hx
    refine ⟨t, ht, hid, Bool.eq_false_iff.2 fun h ↦ ?_⟩
    simp [(canWrite_iff.1 h).2.1, isActive] at hended
  · rcases mem_append.1 hx with hx | hx
    · exact hupdated.finished.2 x hx
    · exact affected_updateTasks hset (fun _ _ ↦ hstatus) hx

theorem Invariant.withLocks {locks : Table SystemTaskLock.type}
    (h : ∀ l ∈ locks.rows, Known w l.taskID l.type) : Invariant { w with locks } :=
  { hw with locks := h }

theorem Invariant.filterLocks (keep : SystemTaskLock → Bool) :
    Invariant { w with locks := w.locks.filter keep } :=
  hw.withLocks fun l hl ↦ hw.locks l (mem_of_mem_filter hl)

theorem invariant_renewLock {lockUntil : ℤ} :
    Invariant (renewLock w taskID lockedBy lockUntil now) := by
  refine hw.withLocks fun l hl ↦ ?_
  obtain ⟨l₀, hl₀, rfl⟩ := (mem_update _).1 hl
  exact hw.locks l₀ hl₀

theorem invariant_insertLock (hknown : Known w task.taskID args.taskType)
    (h : insertLock w args now task = some w') : Invariant w' ∧ w'.tasks = w.tasks := by
  obtain ⟨locks, hlocks, rfl⟩ := map_eq_some_iff.1 h
  refine ⟨hw.withLocks fun l hl ↦ ?_, rfl⟩
  rw [rows_create hlocks] at hl
  rcases mem_cons.1 hl with rfl | hl
  · exact hknown
  · exact hw.locks l hl

theorem invariant_takeLock (hknown : Known w task.taskID args.taskType)
    (h : takeLock w args now task = some w') : Invariant w' ∧ w'.tasks = w.tasks := by
  rw [takeLock] at h
  split at h
  · cases h
  rename_i lock hlock
  split at h
  · cases h
    refine ⟨hw.withLocks fun l hl ↦ ?_, rfl⟩
    obtain ⟨l₀, hl₀, rfl⟩ := mem_map.1 hl
    split
    · exact (key_of_find hlock :) ▸ hknown
    · exact hw.locks l₀ hl₀
  · cases h

theorem invariant_create {taskType payload state : String}
    (h : createSystemTask w taskID taskType payload state = some w') :
    Invariant w' ∧ ∀ x y, Known w x y → Known w' x y := by
  rw [createSystemTask] at h
  split at h
  · cases h
  rename_i hactive
  obtain ⟨tasks, htasks, rfl⟩ := map_eq_some_iff.1 h
  have hrows := rows_create htasks
  have hold {P : SystemTask → Prop} (h : ∃ t ∈ w.tasks.rows, P t) : ∃ t ∈ tasks.rows, P t := by
    obtain ⟨t, ht, hP⟩ := h
    exact ⟨t, hrows ▸ mem_cons_of_mem _ ht, hP⟩
  -- an active task of the type would have taken the key
  have hfree (t : SystemTask) (ht : t ∈ w.tasks.rows) (ha : t.status.isActive = true) :
      t.type ≠ taskType := by
    rintro rfl
    refine hactive (any_eq_true.2 ⟨t, ht, ?_⟩)
    simp [hw.key t ht, ha]
  refine ⟨⟨fun t ht ↦ ?_, fun t ht t' ht' ha ha' htype ↦ ?_, fun l hl ↦ hold (hw.locks l hl),
    ⟨hw.claimed.1, fun x hx ↦ hold (hw.claimed.2 x hx)⟩,
    ⟨hw.finished.1, fun x hx ↦ hold (hw.finished.2 x hx)⟩,
    fun x hx ↦ hold (hw.leaseExpired x hx)⟩, fun _ _ h ↦ hold h⟩
  · rw [hrows] at ht
    rcases mem_cons.1 ht with rfl | ht
    · rfl
    · exact hw.key t ht
  · rw [hrows] at ht ht'
    rcases mem_cons.1 ht with rfl | ht <;> rcases mem_cons.1 ht' with rfl | ht'
    · rfl
    · exact absurd htype.symm (hfree t' ht' ha')
    · exact absurd htype (hfree t ht ha)
    · exact hw.alone t ht t' ht' ha ha' htype

end

section

variable {π : Type} {p : π} {w : World} {stage : Stage} {out : World × Stage} {newTaskID : String}
  {w' : World} {a : Action}

theorem Safe.moved (hw' : Invariant w' ∧ ∀ x y, Known w x y → Known w' x y)
    (h : stage.Holds p w') : Safe p w (w', stage) :=
  ⟨hw'.1, h, hw'.2⟩

theorem Safe.locked (hw' : Invariant w') (htasks : w'.tasks = w.tasks)
    (h : stage.Holds p w') : Safe p w (w', stage) :=
  ⟨hw', h, fun x y hknown ↦ by rwa [Known, htasks]⟩

theorem holds_staleNext {now : ℤ} {locks : List SystemTaskLock} :
    (staleNext now locks).Holds p w := by
  cases locks with
  | nil | cons => trivial

/-- A task is finished with a status that is neither pending nor running. -/
def Action.sound : Action → Bool
  | .finishSystemTask args => !args.status.isActive
  | _ => true

theorem holds_begin (ha : a.sound = true) (h : begin w a = some stage) : stage.Holds p w := by
  cases a with
  | finishSystemTask args =>
    cases h
    have hstatus : args.status.isActive = false := by simpa [Action.sound] using ha
    exact hstatus
  | next _ _ | tick _ => cases h
  | _ =>
    cases h
    trivial

variable (hw : Invariant w)
include hw

theorem Safe.stay (h : stage.Holds p w) : Safe p w (w, stage) :=
  ⟨hw, h, fun _ _ hknown ↦ hknown⟩

theorem safe_fails (h : stage.Holds p w) (hout : next w newTaskID true stage = some out) :
    Safe p w out := by
  cases stage with
  | idle | done _ => cases hout
  | claimInsert args now task =>
    cases hout
    exact .stay hw h
  | _ =>
    cases hout
    exact .stay hw trivial

theorem safe_next {fails : Bool} (h : stage.Holds p w)
    (hout : next w newTaskID fails stage = some out) : Safe p w out := by
  cases fails
  case true => exact safe_fails hw h hout
  cases stage with
  | idle | done _ => cases hout
  | create taskType payload state =>
    rw [next] at hout
    split at hout
    · exact some.inj hout ▸ .stay hw trivial
    next w' hcreate =>
      cases hout
      exact .moved (invariant_create hw hcreate) trivial
  | claimFind args now =>
    rw [next, if_neg Bool.false_ne_true] at hout
    split at hout
    · exact some.inj hout ▸ .stay hw trivial
    next task htask =>
      have hclaim := isClaimable_iff.1 (find?_some htask)
      exact some.inj hout ▸ .stay hw ⟨task, mem_of_find?_eq_some htask, rfl, hclaim.2.1⟩
  | claimInsert args now task =>
    rw [next] at hout
    split at hout
    · exact some.inj hout ▸ .stay hw h
    next w' hinsert =>
      cases hout
      obtain ⟨hw', htasks⟩ := invariant_insertLock hw h hinsert
      exact .locked hw' htasks trivial
  | claimLook args now task =>
    rw [next, if_neg Bool.false_ne_true] at hout
    split at hout
    · exact some.inj hout ▸ .stay hw trivial
    · split at hout
      · exact some.inj hout ▸ .stay hw trivial
      · exact some.inj hout ▸ .stay hw h
  | claimTake args now task existing =>
    rw [next, if_neg Bool.false_ne_true] at hout
    split at hout
    · exact some.inj hout ▸ .stay hw trivial
    next w' htake =>
      obtain ⟨hw', htasks⟩ := invariant_takeLock hw h htake
      split at hout <;> exact some.inj hout ▸ .locked hw' htasks trivial
  | claimExpire args now task expiredTaskID =>
    cases hout
    exact .moved (invariant_markLeaseExpired hw expiredTaskID) trivial
  | claimRun | update | finish =>
    rw [next, if_neg Bool.false_ne_true] at hout
    split at hout
    · exact some.inj hout ▸ .stay hw trivial
    · refine some.inj hout ▸ .moved ?_ trivial
      first | exact invariant_runTask hw | exact invariant_writeState hw |
        exact invariant_finishTask hw h
  | claimRelease | release =>
    cases hout
    exact .locked (hw.filterLocks _) rfl trivial
  | claimRead args =>
    rw [next] at hout
    split at hout <;> exact some.inj hout ▸ .stay hw trivial
  | renew taskID lockedBy lockUntil now =>
    rw [next, if_neg Bool.false_ne_true] at hout
    split at hout
    · exact some.inj hout ▸ .locked (invariant_renewLock hw) rfl trivial
    · exact some.inj hout ▸ .stay hw trivial
  | staleFind now =>
    cases hout
    exact .stay hw holds_staleNext
  | staleMark now lock rest =>
    cases hout
    exact .moved (invariant_markLeaseExpired hw lock.taskID) trivial
  | staleDelete now lock rest =>
    cases hout
    exact .locked (hw.filterLocks _) rfl holds_staleNext

theorem safe_perform (h : stage.Holds p w) (ha : a.sound = true)
    (hout : perform p a w stage = some out) : Safe p w out := by
  unfold perform at hout
  split at hout
  next seconds =>
    cases hout
    have hkeeps : Keeps p w { w with clock := w.clock + seconds } := fun _ _ hknown ↦ hknown
    exact ⟨{ hw with }, h.stable hkeeps, hkeeps⟩
  · exact safe_next hw h hout
  · split_ifs at hout
    obtain ⟨stage', hbegin, rfl⟩ := map_eq_some_iff.1 hout
    exact .stay hw (holds_begin ha hbegin)

/-- A lock names a task of its own type, so the lock of the type decides who may write. -/
theorem writer_unique {t t' : SystemTask} {r r' : String} {n n' : ℤ} (ht : t ∈ w.tasks.rows)
    (ht' : t' ∈ w.tasks.rows) (htype : t.type = t'.type) (h : canWrite w t.taskID r n t = true)
    (h' : canWrite w t'.taskID r' n' t' = true) : r = r' := by
  obtain ⟨-, -, -, l, hl, hid, hby, -⟩ := canWrite_iff.1 h
  obtain ⟨-, -, -, l', hl', hid', hby', -⟩ := canWrite_iff.1 h'
  have hltype (t : SystemTask) (ht : t ∈ w.tasks.rows) (l : SystemTaskLock)
      (hl : l ∈ w.locks.rows) (hid : l.taskID = t.taskID) : l.type = t.type := by
    obtain ⟨t₀, ht₀, hid₀, htype₀⟩ := hw.locks l hl
    rw [← htype₀, inj_on_of_nodup_map w.tasks.nodup ht₀ ht (hid₀.trans hid)]
  have hlocks : l = l' := inj_on_of_nodup_map w.locks.nodup hl hl' <| by
    rw [hltype t ht l hl hid, hltype t' ht' l' hl' hid', htype]
  rw [← hby, ← hby', hlocks]

end

def start {π : Type} (clock : ℤ) : Config World π Stage :=
  ⟨⟨∅, ∅, clock, 1, [], [], []⟩, fun _ ↦ .idle⟩

/-- Whatever the interleaving, the runners write to the tasks of a type one at a time, every task is
claimed and finished at most once, a task that lost its lease stays failed, and the active key is
there exactly for the one pending or running task of its type. -/
theorem lease_exclusive {π : Type} [DecidableEq π] {clock : ℤ} {run : List (π × Action)}
    {c : Config World π Stage} (hsound : ∀ a ∈ run, a.2.sound = true)
    (hrun : exec step (start clock) run = some c) :
    (∀ t ∈ c.shared.tasks.rows, ∀ t' ∈ c.shared.tasks.rows, t.type = t'.type → ∀ r r' n n',
        canWrite c.shared t.taskID r n t = true → canWrite c.shared t'.taskID r' n' t' = true →
          r = r') ∧
      c.shared.claimed.Nodup ∧ c.shared.finished.Nodup ∧
      (∀ x ∈ c.shared.leaseExpired, ∃ t ∈ c.shared.tasks.rows,
        t.taskID = x ∧ t.status = .failed) ∧
      (∀ t ∈ c.shared.tasks.rows, t.activeKey.isSome = t.status.isActive) ∧
      ∀ t ∈ c.shared.tasks.rows, ∀ t' ∈ c.shared.tasks.rows, t.status.isActive = true →
        t'.status.isActive = true → t.type = t'.type → t = t' := by
  have hstart : (start clock : Config World π Stage).Holds Invariant Stage.Holds := by
    refine ⟨⟨?_, ?_, ?_, ⟨nodup_nil, ?_⟩, ⟨nodup_nil, ?_⟩, ?_⟩, fun _ ↦ trivial⟩
    all_goals exact fun _ h ↦ absurd h not_mem_nil
  have hguard : Guarded step (fun _ (a : π × Action) ↦ a.2.sound = true) (start clock) run :=
    guarded_of_forall hsound
  obtain ⟨hw, -⟩ := Config.exec_safe (R := Keeps) (fun _ _ _ _ _ ↦ safe_perform)
    (fun _ _ _ _ _ _ hstage ↦ hstage.stable) hstart hguard hrun
  refine ⟨fun t ht t' ht' htype r r' n n' ↦ writer_unique hw ht ht' htype, hw.claimed.1,
    hw.finished.1, hw.leaseExpired, fun t ht ↦ ?_, hw.alone⟩
  rw [hw.key t ht]
  cases t.status.isActive <;> rfl

namespace Example

def go (p : ℕ) : ℕ × Action := (p, .next "T1" false)

def finish (taskID runner : String) (status : SystemTaskStatus) : Action :=
  .finishSystemTask ⟨taskID, runner, status, "", ""⟩

/-- Runner `A` claims the task and loses its lease; its late finish and the claim of `B` come after
the clean-up. -/
def lostLease : List (ℕ × Action) :=
  [(0, .createSystemTask "cleanup" "" ""), go 0,
    (1, .claimSystemTask ⟨1, "cleanup", "A", 110⟩), go 1, go 1, go 1, go 1,
    (0, .tick 20), (2, .expireStaleSystemTaskLocks 120), go 2, go 2, go 2,
    (1, finish "T1" "A" .succeeded), go 1, (3, .claimSystemTask ⟨1, "cleanup", "B", 150⟩), go 3]

/-- A finish to pending, which makes the task claimable again and leaves its type without an active
key. -/
def reopened : List (ℕ × Action) :=
  [(0, .createSystemTask "cleanup" "" ""), go 0,
    (1, .claimSystemTask ⟨1, "cleanup", "A", 110⟩), go 1, go 1, go 1, go 1,
    (1, finish "T1" "A" .pending), go 1, go 1,
    (0, .createSystemTask "cleanup" "" ""), (0, .next "T2" false),
    (2, .claimSystemTask ⟨1, "cleanup", "B", 120⟩), go 2, go 2, go 2]

def outcome (w : World) : List (SystemTaskStatus × Option String) × List String × List String :=
  (w.tasks.rows.map fun t ↦ (t.status, t.activeKey), w.claimed, w.leaseExpired)

end Example

open Example in
theorem lease_exclusive_lost :
    ∃ c, exec step (start 100) lostLease = some c ∧
      outcome c.shared = ([(.failed, none)], ["T1"], ["T1"]) ∧ c.shared.claimed.Nodup := by
  obtain ⟨c, hrun, h⟩ := map_eq_some_iff.1
    (show (exec step (start 100) lostLease).map (fun c ↦ outcome c.shared) =
        some ([(.failed, none)], ["T1"], ["T1"]) by
      decide +kernel)
  exact ⟨c, hrun, h, (lease_exclusive (by decide +kernel) hrun).2.1⟩

open Example in
/-- `FinishSystemTask` writes the status of its caller: with pending the task is claimed twice, and
two tasks of one type are active. -/
theorem claimed_twice_after_reopening :
    (exec step (start 100) reopened).map (fun c ↦ outcome c.shared) =
      some ([(.pending, some "cleanup"), (.running, none)], ["T1", "T1"], []) := by
  decide +kernel

end Moligate.SystemTasks
