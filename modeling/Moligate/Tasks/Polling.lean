import Moligate.Tasks.Model

namespace Moligate.Tasks

open Foundation

structure Turn where
  db : Db
  copy : Task
  bill : Option Bill

def timeOut (now minutes : ℤ) (task : Task) : Task :=
  { task with
    status := .failure
    progress := "100%"
    finishTime := now
    failReason :=
      if task.isLegacy then "任务超时（旧系统遗留任务，不进行退款，请联系管理员）"
      else s!"任务超时（{minutes}分钟）"
    quota := if task.isLegacy then 0 else task.quota }

def sweepTask (rt : Runtime) (now minutes : ℤ) (task : Task) (db : Db) : Turn :=
  let update := db.updateWithStatus rt (timeOut now minutes task) task.status
  { db := update.1
    copy := timeOut now minutes task
    bill :=
      if update.2 && !task.isLegacy then refundTaskQuota (timeOut now minutes task) else none }

structure SunoItem where
  status : Option TaskStatus
  failReason : String := ""
  submitTime : ℤ := 0
  startTime : ℤ := 0
  finishTime : ℤ := 0
  data : String := ""

def taskNeedsUpdate (rt : Runtime) (task : Task) (item : SunoItem) : Bool :=
  task.submitTime ≠ item.submitTime || task.startTime ≠ item.startTime ||
    task.finishTime ≠ item.finishTime || some task.status ≠ item.status ||
    task.failReason ≠ item.failReason || (task.status.isTerminal && task.progress ≠ "100%") ||
    !rt.sameData task.data item.data

def SunoItem.isFailure (item : SunoItem) (task : Task) : Bool :=
  item.failReason ≠ "" || item.status.getD task.status = .failure

def SunoItem.apply (item : SunoItem) (task : Task) : Task :=
  { task with
    status := if item.isFailure task then .failure else item.status.getD task.status
    failReason := if item.failReason ≠ "" then item.failReason else task.failReason
    submitTime := if item.submitTime ≠ 0 then item.submitTime else task.submitTime
    startTime := if item.startTime ≠ 0 then item.startTime else task.startTime
    finishTime := if item.finishTime ≠ 0 then item.finishTime else task.finishTime
    progress :=
      if item.isFailure task || item.status = some .success then "100%" else task.progress
    data := item.data }

def updateSunoTask (rt : Runtime) (item : SunoItem) (task : Task) (db : Db) : Turn :=
  if taskNeedsUpdate rt task item then
    let update := db.updateWithStatus rt (item.apply task) task.status
    { db := update.1
      copy := item.apply task
      bill :=
        if update.2 && item.isFailure task && task.status ≠ .failure then
          refundTaskQuota (item.apply task)
        else none }
  else ⟨db, task, none⟩

inductive ErrorBody where
  | unreadable | rateLimited | error | unrecognized
  deriving DecidableEq

structure TaskInfo where
  -- a status that is absent is the empty text
  status : Option TaskStatus
  progress : String := ""
  reason : String := ""
  url : String := ""
  deriving DecidableEq

def failTaskInfo (reason : String) : TaskInfo := { status := some .failure, reason }

structure VideoAnswer where
  body : String
  info : TaskInfo
  errorBody : ErrorBody := .unreadable

def VideoAnswer.taskResult (answer : VideoAnswer) : Option TaskInfo :=
  if answer.info.status = none then
    match answer.errorBody with
    | .unreadable => some answer.info
    | .rateLimited => none
    | .error => some (failTaskInfo "upstream returned error")
    | .unrecognized => some (failTaskInfo "upstream returned unrecognized message")
  else some answer.info

def buildProxyURL (rt : Runtime) (taskId : String) : String :=
  s!"{rt.serverAddress}/v1/videos/{taskId}/content"

def isDataURL (url : String) : Bool := "data:".toList.isPrefixOf url.toList

def progressOr (progress default : String) : String := if progress ≠ "" then progress else default

def timeOr (time now : ℤ) : ℤ := if time = 0 then now else time

def TaskInfo.apply (rt : Runtime) (now : ℤ) (info : TaskInfo) (task : Task) : Option Task :=
  match info.status with
  | some .submitted =>
    some { task with status := .submitted, progress := progressOr info.progress "10%" }
  | some .queued => some { task with status := .queued, progress := progressOr info.progress "20%" }
  | some .inProgress =>
    some { task with
      status := .inProgress
      progress := progressOr info.progress "30%"
      startTime := timeOr task.startTime now }
  | some .success =>
    some { task with
      status := .success
      progress := progressOr info.progress "100%"
      finishTime := timeOr task.finishTime now
      resultURL :=
        if isDataURL info.url then buildProxyURL rt task.taskId
        else if info.url ≠ "" then info.url
        else buildProxyURL rt task.taskId }
  | some .failure =>
    some { task with
      status := .failure
      progress := "100%"
      finishTime := timeOr task.finishTime now
      failReason := info.reason }
  | _ => none

def sameSnapshot (s t : Task) : Bool :=
  s.status = t.status && s.progress = t.progress && s.startTime = t.startTime &&
    s.finishTime = t.finishTime && s.failReason = t.failReason && s.resultURL = t.resultURL &&
    s.data = t.data

def billOnComplete (task : Task) (actual : ℤ) : Option Bill :=
  match task.status with
  | .success => settleTaskBillingOnComplete task actual
  | .failure => refundTaskQuota task
  | _ => none

def persistVideoTask (rt : Runtime) (actual : ℤ) (snap task : Task) (db : Db) : Turn :=
  let update := db.updateWithStatus rt task snap.status
  if task.status.isTerminal && snap.status ≠ task.status then
    ⟨update.1, task, if update.2 then billOnComplete task actual else none⟩
  else if !sameSnapshot snap task then ⟨update.1, task, billOnComplete task actual⟩
  else ⟨db, task, billOnComplete task actual⟩

def updateVideoSingleTask (rt : Runtime) (now : ℤ) (answer : Option VideoAnswer) (actual : ℤ)
    (task : Task) (db : Db) : Turn :=
  match answer with
  | none => ⟨db, task, none⟩
  | some answer =>
    match answer.taskResult with
    | none => ⟨db, { task with data := answer.body }, none⟩
    | some info =>
      match info.apply rt now { task with data := answer.body } with
      | none =>
        ⟨db, { task with data := answer.body, status := info.status.getD (.other "") }, none⟩
      | some task' => persistVideoTask rt actual task task' db

def TaskInfo.applyRealtime (rt : Runtime) (info : TaskInfo) (task : Task) : Task :=
  { task with
    status := info.status.getD task.status
    progress := progressOr info.progress task.progress
    resultURL :=
      if isDataURL info.url then task.resultURL
      else if info.url ≠ "" then info.url
      else if info.status.getD task.status = .success then buildProxyURL rt task.taskId
      else task.resultURL }

def tryRealtimeFetch (rt : Runtime) (answer : Option TaskInfo) (task : Task) (db : Db) : Turn :=
  match answer with
  | none => ⟨db, task, none⟩
  | some info =>
    if sameSnapshot task (info.applyRealtime rt task) then
      ⟨db, info.applyRealtime rt task, none⟩
    else
      ⟨(db.updateWithStatus rt (info.applyRealtime rt task) task.status).1,
        info.applyRealtime rt task, none⟩

abbrev Memory := String → Option Task

/-- What a goroutine is busy with. The channels of one pass have different upstream ids, so that
their goroutines share no copy. -/
inductive Job where
  | idle
  | sweep (todo : List UnfinishedTask)
  | poll (platform : TaskPlatform) (nullTaskIds : List ℤ) (taskM : Memory)
  | realtime (task : Task)

structure Goroutine where
  job : Job
  bill : Option Bill

inductive Action where
  | startSweep (cutoff : ℤ) (ids : List ℤ)
  | startPolling (platform : TaskPlatform) (ids : List ℤ)
  | startRealtime (id : ℤ)
  | timeOut (now minutes : ℤ)
  | failNullTasks
  | failChannel (channelId : ℤ) (upstreamIds : List String)
  | sunoItem (upstreamId : String) (item : SunoItem)
  | videoAnswer (upstreamId : String) (now : ℤ) (answer : Option VideoAnswer) (actual : ℤ)
  | realtimeAnswer (answer : Option TaskInfo)
  | bill (accepted : Bool)
  | finish

def Memory.insert (taskM : Memory) (task : Task) : Memory :=
  if task.upstreamId = "" then taskM else Function.update taskM task.upstreamId (some task)

def collectTasks (tasks : List Task) : Memory := tasks.foldl Memory.insert fun _ ↦ none

def nullTaskIds (tasks : List Task) : List ℤ :=
  (tasks.filter fun task ↦ task.upstreamId = "").map Task.id

def channelFailReason (platform : TaskPlatform) (channelId : ℤ) : String :=
  match platform with
  | .suno => s!"获取渠道信息失败，请联系管理员，渠道ID：{channelId}"
  | _ => s!"Failed to get video provider info, ID: {channelId}"

def Memory.update (taskM : Memory) (platform : TaskPlatform) (nulls : List ℤ) (upstreamId : String)
    (db : Db) (turn : Task → Db → Turn) : Db × Goroutine :=
  match taskM upstreamId with
  | none => (db, ⟨.poll platform nulls taskM, none⟩)
  | some task =>
    ((turn task db).db,
      ⟨.poll platform nulls (Function.update taskM upstreamId (some (turn task db).copy)),
        (turn task db).bill⟩)

def Job.perform (rt : Runtime) (a : Action) (db : Db) (job : Job) : Option (Db × Goroutine) :=
  match a, job with
  | .startSweep cutoff ids, .idle =>
    some (db, ⟨.sweep (db.selectUnfinished (fun t ↦ t.submitTime < cutoff) ids), none⟩)
  | .startPolling platform ids, .idle =>
    let tasks := (db.selectUnfinished (fun t ↦ t.platform = platform) ids).map Subtype.val
    some (db, ⟨.poll platform (nullTaskIds tasks) (collectTasks tasks), none⟩)
  | .startRealtime id, .idle => (db.rows id).map fun row ↦ (db, ⟨.realtime row, none⟩)
  | .timeOut now minutes, .sweep (task :: todo) =>
    let turn := sweepTask rt now minutes task.1 db
    some (turn.db, ⟨.sweep todo, turn.bill⟩)
  | .failNullTasks, .poll platform nulls taskM =>
    some (db.taskBulkUpdateByID nulls none, ⟨.poll platform [] taskM, none⟩)
  | .failChannel channelId upstreamIds, .poll platform nulls taskM =>
    let failedIds := (upstreamIds.filterMap taskM).map Task.id
    some (db.taskBulkUpdateByID failedIds (some (channelFailReason platform channelId)),
      ⟨.poll platform nulls taskM, none⟩)
  | .sunoItem upstreamId item, .poll .suno nulls taskM =>
    some (taskM.update .suno nulls upstreamId db (updateSunoTask rt item))
  | .videoAnswer upstreamId now answer actual, .poll (.video name) nulls taskM =>
    some (taskM.update (.video name) nulls upstreamId db
      (updateVideoSingleTask rt now answer actual))
  | .realtimeAnswer answer, .realtime task =>
    let turn := tryRealtimeFetch rt answer task db
    some (turn.db, ⟨.idle, turn.bill⟩)
  | .finish, _ => some (db, ⟨.idle, none⟩)
  | _, _ => none

def Job.remember (job : Job) (task : Task) : Job :=
  match job with
  | .poll platform nulls taskM =>
    .poll platform nulls (Function.update taskM task.upstreamId (some task))
  | job => job

/-- One step of a goroutine; a bill is worked off before the goroutine goes on. -/
def perform (rt : Runtime) (_ : ℕ) (a : Action) (db : Db) (g : Goroutine) :
    Option (Db × Goroutine) :=
  match g.bill, a with
  | none, a => g.job.perform rt a db
  | some b, .bill accepted =>
    let out := b.advance accepted db
    some (out.1, ⟨if b.step = .clear then g.job.remember b.cleared else g.job, out.2⟩)
  | some _, _ => none

abbrev System := Config Db ℕ Goroutine

def System.step (rt : Runtime) : System → ℕ × Action → Option System := Config.step (perform rt)

end Moligate.Tasks
