import Moligate.Foundation.Table
import Moligate.Foundation.Threads

namespace Moligate.SystemTasks

open Foundation

inductive SystemTaskStatus where
  | pending | running | succeeded | failed
  | other (name : String)
  deriving DecidableEq

def SystemTaskStatus.isActive : SystemTaskStatus → Bool
  | .pending | .running => true
  | _ => false

structure SystemTask where
  id : ℤ
  (taskID type : String)
  status : SystemTaskStatus
  activeKey : Option String
  (payload state result error lockedBy : String)
  (createdAt updatedAt : ℤ)
  deriving DecidableEq

structure SystemTaskLock where
  (type taskID lockedBy : String)
  (lockedUntil updatedAt : ℤ)
  deriving DecidableEq

inductive SystemTaskError where
  | lockLost | duplicateKey | recordNotFound | database
  deriving DecidableEq

def SystemTaskError.message : SystemTaskError → String
  | lockLost => "system task lock lost"
  | duplicateKey => "duplicate key"
  | recordNotFound => "record not found"
  | database => "database error"

inductive Answer where
  | none
  | task (t : SystemTask)
  deriving DecidableEq

structure ClaimArgs where
  id : ℤ
  (taskType runnerID : String)
  lockUntil : ℤ
  deriving DecidableEq

structure FinishArgs where
  (taskID lockedBy : String)
  status : SystemTaskStatus
  (result errorMessage : String)
  deriving DecidableEq

/-- The next statement of a call, with what it has read; every statement commits by itself. -/
inductive Stage where
  | idle
  | create (taskType payload state : String)
  | claimFind (args : ClaimArgs) (now : ℤ)
  | claimInsert (args : ClaimArgs) (now : ℤ) (task : SystemTask)
  | claimLook (args : ClaimArgs) (now : ℤ) (task : SystemTask)
  | claimTake (args : ClaimArgs) (now : ℤ) (task : SystemTask) (existing : SystemTaskLock)
  | claimExpire (args : ClaimArgs) (now : ℤ) (task : SystemTask) (expiredTaskID : String)
  | claimRun (args : ClaimArgs) (now : ℤ) (task : SystemTask)
  | claimRelease (args : ClaimArgs) (task : SystemTask) (result : Except SystemTaskError Answer)
  | claimRead (args : ClaimArgs)
  | update (taskID lockedBy state : String) (now : ℤ)
  | renew (taskID lockedBy : String) (lockUntil now : ℤ)
  | finish (args : FinishArgs) (now : ℤ)
  | release (taskID lockedBy : String)
  | staleFind (now : ℤ)
  | staleMark (now : ℤ) (lock : SystemTaskLock) (rest : List SystemTaskLock)
  | staleDelete (now : ℤ) (lock : SystemTaskLock) (rest : List SystemTaskLock)
  | done (result : Except SystemTaskError Answer)

/-- The tables and the clock; the task ids of every claim, every finish and every task that was
failed for its lease. -/
structure World where
  tasks : Table SystemTask.taskID
  locks : Table SystemTaskLock.type
  (clock nextId : ℤ)
  (claimed finished leaseExpired : List String)

inductive Action where
  | createSystemTask (taskType payload state : String)
  | claimSystemTask (args : ClaimArgs)
  | updateSystemTaskState (taskID lockedBy state : String)
  | renewSystemTaskLock (taskID lockedBy : String) (lockUntil : ℤ)
  | finishSystemTask (args : FinishArgs)
  | releaseSystemTaskLock (taskID lockedBy : String)
  | expireStaleSystemTaskLocks (now : ℤ)
  | next (newTaskID : String) (fails : Bool)
  | tick (seconds : ℕ)

section

variable (w : World)

def World.affected (cond : SystemTask → Bool) : List String :=
  (w.tasks.rows.filter cond).map SystemTask.taskID

def updateRow (cond : SystemTask → Bool) (set : SystemTask → SystemTask) (t : SystemTask) :
    SystemTask :=
  if cond t then { set t with taskID := t.taskID } else t

theorem taskID_updateRow (cond : SystemTask → Bool) (set : SystemTask → SystemTask)
    (t : SystemTask) : (updateRow cond set t).taskID = t.taskID := by
  rw [updateRow]
  split <;> rfl

def World.updateTasks (cond : SystemTask → Bool) (set : SystemTask → SystemTask) : World :=
  { w with tasks := w.tasks.update (updateRow cond set) (taskID_updateRow cond set) }

def createSystemTask (taskID taskType payload state : String) : Option World :=
  if w.tasks.rows.any (·.activeKey = some taskType) then none
  else
    (w.tasks.create
      { id := w.nextId
        taskID
        type := taskType
        status := .pending
        activeKey := some taskType
        payload
        state
        result := ""
        error := ""
        lockedBy := ""
        createdAt := w.clock
        updatedAt := w.clock }).map fun tasks ↦ { w with tasks, nextId := w.nextId + 1 }

def isClaimable (args : ClaimArgs) (t : SystemTask) : Bool :=
  t.id = args.id && t.type = args.taskType && t.status = .pending

def insertLock (args : ClaimArgs) (now : ℤ) (task : SystemTask) : Option World :=
  (w.locks.create
    { type := args.taskType
      taskID := task.taskID
      lockedBy := args.runnerID
      lockedUntil := args.lockUntil
      updatedAt := now }).map fun locks ↦ { w with locks }

def takeLock (args : ClaimArgs) (now : ℤ) (task : SystemTask) : Option World :=
  match w.locks.find args.taskType with
  | none => none
  | some lock =>
    if lock.lockedUntil < now then
      some { w with
        locks := w.locks.save
          { lock with
            taskID := task.taskID
            lockedBy := args.runnerID
            lockedUntil := args.lockUntil
            updatedAt := now } }
    else none

def markSystemTaskLeaseExpired (taskID : String) : World :=
  let cond (t : SystemTask) : Bool := t.taskID = taskID && t.status = .running
  { w.updateTasks cond fun t ↦
      { t with
        status := .failed
        activeKey := none
        error := "task lease expired"
        updatedAt := w.clock } with
    leaseExpired := w.leaseExpired ++ w.affected cond }

def runTask (args : ClaimArgs) (now : ℤ) : World :=
  { w.updateTasks (isClaimable args) fun t ↦
      { t with status := .running, lockedBy := args.runnerID, updatedAt := now } with
    claimed := w.claimed ++ w.affected (isClaimable args) }

/-- The condition of every write of a runner: the task runs under its name, and the lock of the
task is its own and has not expired. -/
def canWrite (taskID lockedBy : String) (now : ℤ) (t : SystemTask) : Bool :=
  t.taskID = taskID && t.status = .running && t.lockedBy = lockedBy &&
    w.locks.rows.any fun l ↦ l.taskID = t.taskID && l.lockedBy = lockedBy && now ≤ l.lockedUntil

def writeState (taskID lockedBy state : String) (now : ℤ) : World :=
  w.updateTasks (canWrite w taskID lockedBy now) fun t ↦ { t with state, updatedAt := now }

def finishTask (args : FinishArgs) (now : ℤ) : World :=
  { w.updateTasks (canWrite w args.taskID args.lockedBy now) fun t ↦
      { t with
        status := args.status
        activeKey := none
        result := args.result
        error := args.errorMessage
        updatedAt := now } with
    finished := w.finished ++ w.affected (canWrite w args.taskID args.lockedBy now) }

def isRenewable (taskID lockedBy : String) (now : ℤ) (l : SystemTaskLock) : Bool :=
  l.taskID = taskID && l.lockedBy = lockedBy && now ≤ l.lockedUntil

def renewLock (taskID lockedBy : String) (lockUntil now : ℤ) : World :=
  { w with
    locks := w.locks.update
      (fun l ↦
        { l with
          lockedUntil := if isRenewable taskID lockedBy now l then lockUntil else l.lockedUntil
          updatedAt := if isRenewable taskID lockedBy now l then now else l.updatedAt })
      fun _ ↦ rfl }

def releaseSystemTaskLock (taskID lockedBy : String) : World :=
  { w with locks := w.locks.filter fun l ↦ !(l.taskID = taskID && l.lockedBy = lockedBy) }

def deleteStaleLock (now : ℤ) (lock : SystemTaskLock) : World :=
  { w with
    locks := w.locks.filter fun l ↦
      !(l.type = lock.type && l.taskID = lock.taskID && l.lockedBy = lock.lockedBy &&
        l.lockedUntil < now) }

end

def staleNext (now : ℤ) : List SystemTaskLock → Stage
  | [] => .done (.ok .none)
  | lock :: rest => .staleMark now lock rest

def next (w : World) (newTaskID : String) (fails : Bool) : Stage → Option (World × Stage)
  | .create taskType payload state =>
    match if fails then none else createSystemTask w newTaskID taskType payload state with
    | none => some (w, .done (.error .duplicateKey))
    | some w' => some (w', .done (.ok ((w'.tasks.find newTaskID).elim .none .task)))
  | .claimFind args now =>
    if fails then some (w, .done (.error .database))
    else
      match w.tasks.rows.find? (isClaimable args) with
      | none => some (w, .done (.ok .none))
      | some task => some (w, .claimInsert args now task)
  | .claimInsert args now task =>
    match if fails then none else insertLock w args now task with
    | none => some (w, .claimLook args now task)
    | some w' => some (w', .claimRun args now task)
  | .claimLook args now task =>
    if fails then some (w, .done (.error .database))
    else
      match w.locks.find args.taskType with
      | none => some (w, .done (.ok .none))
      | some existing =>
        if now ≤ existing.lockedUntil then some (w, .done (.ok .none))
        else some (w, .claimTake args now task existing)
  | .claimTake args now task existing =>
    if fails then some (w, .done (.error .database))
    else
      match takeLock w args now task with
      | none => some (w, .done (.ok .none))
      | some w' =>
        if existing.taskID ≠ "" ∧ existing.taskID ≠ task.taskID then
          some (w', .claimExpire args now task existing.taskID)
        else some (w', .claimRun args now task)
  | .claimExpire args now task expiredTaskID =>
    if fails then some (w, .claimRelease args task (.error .database))
    else some (markSystemTaskLeaseExpired w expiredTaskID, .claimRun args now task)
  | .claimRun args now task =>
    if fails then some (w, .claimRelease args task (.error .database))
    else if w.affected (isClaimable args) = [] then
      some (w, .claimRelease args task (.ok .none))
    else some (runTask w args now, .claimRead args)
  | .claimRelease args task result =>
    some (if fails then w else releaseSystemTaskLock w task.taskID args.runnerID, .done result)
  | .claimRead args =>
    match if fails then none else w.tasks.rows.find? (·.id = args.id) with
    | none => some (w, .done (.error .recordNotFound))
    | some task => some (w, .done (.ok (.task task)))
  | .update taskID lockedBy state now =>
    if fails then some (w, .done (.error .database))
    else if w.affected (canWrite w taskID lockedBy now) = [] then
      some (w, .done (.error .lockLost))
    else some (writeState w taskID lockedBy state now, .done (.ok .none))
  | .renew taskID lockedBy lockUntil now =>
    if fails then some (w, .done (.error .database))
    else if w.locks.rows.any (isRenewable taskID lockedBy now) then
      some (renewLock w taskID lockedBy lockUntil now, .done (.ok .none))
    else some (w, .done (.error .lockLost))
  | .finish args now =>
    if fails then some (w, .done (.error .database))
    else if w.affected (canWrite w args.taskID args.lockedBy now) = [] then
      some (w, .done (.error .lockLost))
    else some (finishTask w args now, .release args.taskID args.lockedBy)
  | .release taskID lockedBy =>
    if fails then some (w, .done (.error .database))
    else some (releaseSystemTaskLock w taskID lockedBy, .done (.ok .none))
  | .staleFind now =>
    if fails then some (w, .done (.error .database))
    else some (w, staleNext now (w.locks.rows.filter fun l ↦ l.lockedUntil < now))
  | .staleMark now lock rest =>
    if fails then some (w, .done (.error .database))
    else some (markSystemTaskLeaseExpired w lock.taskID, .staleDelete now lock rest)
  | .staleDelete now lock rest =>
    if fails then some (w, .done (.error .database))
    else some (deleteStaleLock w now lock, staleNext now rest)
  | .idle | .done _ => none

def begin (w : World) : Action → Option Stage
  | .createSystemTask taskType payload state => some (.create taskType payload state)
  | .claimSystemTask args => some (.claimFind args w.clock)
  | .updateSystemTaskState taskID lockedBy state => some (.update taskID lockedBy state w.clock)
  | .renewSystemTaskLock taskID lockedBy lockUntil =>
    some (.renew taskID lockedBy lockUntil w.clock)
  | .finishSystemTask args => some (.finish args w.clock)
  | .releaseSystemTaskLock taskID lockedBy => some (.release taskID lockedBy)
  | .expireStaleSystemTaskLocks now => some (.staleFind now)
  | .next _ _ | .tick _ => none

def Stage.isFree : Stage → Bool
  | .idle | .done _ => true
  | _ => false

def perform {π : Type} (_ : π) (a : Action) (w : World) (stage : Stage) : Option (World × Stage) :=
  match a with
  | .tick seconds => some ({ w with clock := w.clock + seconds }, stage)
  | .next newTaskID fails => next w newTaskID fails stage
  | a => if stage.isFree then (begin w a).map fun stage ↦ (w, stage) else none

def System.step {π : Type} [DecidableEq π] :
    Config World π Stage → π × Action → Option (Config World π Stage) :=
  Config.step perform

end Moligate.SystemTasks
