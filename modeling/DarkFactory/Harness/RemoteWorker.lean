import DarkFactory.Harness.Markers
import DarkFactory.Lib.Table

/-!
# DarkFactory.Harness.RemoteWorker

`JobManager` of `core/harness/remote_worker.py`: the requests that reach it, its worker thread and the
watchdog of a run, as threads that take turns.

* Every read and every write of a field of a job that another thread may touch is a step of its own.
  `_set_status` is a `SettingStatus`: its guard, then one field at a time, then the status.
* What a thread meets outside (git, the child process, an exception) comes with its step.
* Log text, process handles and the persisted records are left out. A new id is one that no job has.
-/

namespace DarkFactory
namespace Harness
namespace RemoteWorker

def ERROR_CODE_JOB_LOST_ON_WORKER : String := "job_lost_on_worker"
def ERROR_CODE_WORKER_RESTARTED : String := "worker_restarted"
def ERROR_CODE_WORKER_INTERNAL : String := "worker_internal_error"
def ERROR_CODE_WORKER_SETUP : String := "worker_setup_failed"
def ERROR_CODE_WORKER_SIGNAL_KILLED : String := "worker_signal_killed"

inductive JobStatus where
  | queued | running | done | failed | cancelled
deriving DecidableEq

def JobStatus.isTerminal : JobStatus → Bool
  | .done | .failed | .cancelled => true
  | .queued | .running => false

structure HarnessJob where
  jobId : String
  candidateSha : String
  treeSha : String
  quick : Bool
  includeHoldout : Bool
  requestingHost : String
  refName : String
  clientDispatchKey : String := ""
  status : JobStatus := .queued
  resultJson : Option HarnessResult := none
  returncode : Option Int := none
  error : Option String := none
  errorCode : Option String := none
  cancelRequested : Bool := false
  interrupted : Bool := false
  stalledReason : Option String := none
deriving DecidableEq

namespace HarnessJob

def isTerminal (job : HarnessJob) : Bool := job.status.isTerminal

/-- `status in ("queued", "running")`. -/
def isActive (job : HarnessJob) : Bool := !job.isTerminal

/-- The command line of the run, before it is wrapped for signals and priority. -/
def command (job : HarnessJob) : List String :=
  ["core/harness/runner.py", "--quick", "--local"] ++ if job.includeHoldout then ["--holdout"] else []

end HarnessJob

/-- A field that `_set_status` sets next to the status. -/
inductive Field where
  | resultJson (r : Option HarnessResult)
  | returncode (n : Int)
  | error (e : String)
  | errorCode (c : String)
deriving DecidableEq

inductive Assignment where
  | status (s : JobStatus)
  | field (f : Field)
  | cancelRequested
  | interrupted
  | stalledReason (r : String)
deriving DecidableEq

def HarnessJob.setField (job : HarnessJob) : Field → HarnessJob
  | .resultJson r => { job with resultJson := r }
  | .returncode n => { job with returncode := some n }
  | .error e => { job with error := some e }
  | .errorCode c => { job with errorCode := some c }

def HarnessJob.assign (job : HarnessJob) : Assignment → HarnessJob
  | .status s => { job with status := s }
  | .field f => job.setField f
  | .cancelRequested => { job with cancelRequested := true }
  | .interrupted => { job with interrupted := true }
  | .stalledReason r => { job with stalledReason := some r }

theorem HarnessJob.assign_jobId (w : Assignment) (job : HarnessJob) : (job.assign w).jobId = job.jobId := by
  cases w with
  | field f => cases f <;> rfl
  | _ => rfl

abbrev Jobs := Table HarnessJob.jobId

def Jobs.assign (jobs : Jobs) (jobId : String) (w : Assignment) : Jobs :=
  jobs.update (fun job => decide (job.jobId = jobId)) (fun job => job.assign w) (HarnessJob.assign_jobId w)

/-- A `_set_status` call that has not returned, to one of the `allowed` statuses. -/
structure SettingStatus (allowed : JobStatus → Bool) where
  jobId : String
  fields : List Field
  status : JobStatus
  isAllowed : allowed status = true
  /-- The guard at its head has been passed. -/
  guarded : Bool := false
deriving DecidableEq

abbrev Closing := SettingStatus JobStatus.isTerminal

def JobStatus.isRunning (s : JobStatus) : Bool := decide (s = .running)

abbrev Starting := SettingStatus JobStatus.isRunning

namespace SettingStatus

variable {allowed : JobStatus → Bool}

def next (p : SettingStatus allowed) : Assignment :=
  match p.fields with
  | [] => .status p.status
  | f :: _ => .field f

/-- One step of the call: the jobs after it, and the call unless it returns. -/
def step (p : SettingStatus allowed) (jobs : Jobs) : Jobs × Option (SettingStatus allowed) :=
  if p.guarded then
    (jobs.assign p.jobId p.next, match p.fields with
      | [] => none
      | _ :: rest => some { p with fields := rest })
  else if (jobs.get? p.jobId).any fun job => job.interrupted && job.isTerminal then (jobs, none)
  else (jobs, some { p with guarded := true })

end SettingStatus

/-- `_set_status(job, "failed", error=..., error_code=...)`. -/
def failure (jobId error errorCode : String) : Closing :=
  ⟨jobId, [.error error, .errorCode errorCode], .failed, rfl, false⟩

/-- `_set_status(job, "cancelled", ...)`. -/
def cancellation (jobId : String) (fields : List Field) : Closing :=
  ⟨jobId, fields, .cancelled, rfl, false⟩

/-- What `submit` reads of the metadata. -/
structure Metadata where
  candidateSha : String := ""
  clientDispatchKey : String := ""
  treeSha : String := ""
  quick : Bool := true
  includeHoldout : Bool := false
  requestingHost : String := "unknown"
deriving DecidableEq

/-- `re.fullmatch(r"[0-9a-f]{7,64}", sha)`. -/
def isSha (sha : String) : Bool :=
  decide (7 ≤ sha.length) && decide (sha.length ≤ 64) &&
    sha.toList.all fun c => "0123456789abcdef".toList.contains c

/-- The metadata with its commit and its key as `submit` normalizes them. -/
def Metadata.normalized (m : Metadata) : Metadata :=
  { m with
    candidateSha := Text.asciiLower (Text.strip m.candidateSha)
    clientDispatchKey := String.ofList ((Text.strip m.clientDispatchKey).toList.take 200) }

def Metadata.refName (m : Metadata) : String := "refs/darkfac/validate/" ++ m.candidateSha

def Metadata.job (m : Metadata) (jobId : String) : HarnessJob where
  jobId := jobId
  candidateSha := m.candidateSha
  treeSha := m.treeSha
  quick := m.quick
  includeHoldout := m.includeHoldout
  requestingHost := m.requestingHost
  refName := m.refName
  clientDispatchKey := m.clientDispatchKey

def liveJobForKey (jobs : Jobs) (key : String) : Option HarnessJob :=
  if key = "" then none
  else jobs.rows.find? fun job => decide (job.clientDispatchKey = key) && job.isActive

inductive Response where
  /-- 400 and 409. -/
  | refused (statusCode : Nat)
  | submitted (jobId : String) (deduplicated : Bool)
  /-- The answer of `cancel`. -/
  | cancelled (found : Bool)
  /-- `mark_interrupted` has returned. -/
  | interrupted
deriving DecidableEq

inductive Request where
  | absent
  /-- `submit`, about to fetch the bundle into the ref. -/
  | fetching (m : Metadata)
  /-- `submit`, about to register the job. -/
  | registering (m : Metadata)
  /-- `submit`, about to put the registered job in the queue. -/
  | queueing (jobId : String)
  /-- `cancel`, about to read the status. -/
  | cancelling (jobId : String)
  | cancelSetting (p : Closing)
  /-- `mark_interrupted`, with the jobs it has still to close. -/
  | interrupting (message : String) (active : List String)
  | interruptSetting (message : String) (p : Closing) (active : List String)
  | returned (r : Response)
deriving DecidableEq

inductive Call where
  | submit (m : Metadata)
  | cancel (jobId : String)
  | markInterrupted (reason : String)
deriving DecidableEq

structure RequestEvent where
  /-- One of the two fetches of the bundle succeeded. -/
  fetched : Bool := true
  /-- `uuid.uuid4().hex`. -/
  uuid : String := ""
deriving DecidableEq

/-- Where `_run_job` stands inside its `try`. -/
inductive Phase where
  /-- `git worktree add`. -/
  | adding
  /-- The child process is started and waited for. -/
  | waiting
  /-- `if job.interrupted`. -/
  | exited
  /-- `_lost_underfoot_reason`. -/
  | checkingLost
  /-- `job.interrupted = True` of a lost run. -/
  | markingLost (reason : String)
  /-- `if job.stalled_reason is not None`. -/
  | checkingStall
  /-- `if job.cancel_requested`. -/
  | checkingCancel
  /-- The verdict of the run. -/
  | judging
deriving DecidableEq

inductive WorkerPc where
  /-- `queue.get`. -/
  | idle
  /-- The id is taken; `closed`: its job was terminal then. -/
  | picked (jobId : String) (closed : Bool)
  /-- Cancelled before the run. -/
  | skipping (p : Closing)
  /-- `_run_job` sets `running`. -/
  | starting (p : Starting)
  | inTry (phase : Phase) (jobId : String)
  /-- The `_set_status` that ends a run. -/
  | closing (p : Closing)
  /-- The `finally` block. -/
  | cleaning (jobId : String)
  /-- The handler of the worker loop. -/
  | failing (p : Closing)
deriving DecidableEq

structure WorkerEvent where
  /-- An exception raised inside the `try` or the `finally` of the run. -/
  raised : Option String := none
  /-- `git worktree add` succeeded, or why not. -/
  added : Except String Unit := .ok ()
  /-- `_lost_underfoot_reason`. -/
  lostReason : Option String := none
  returncode : Int := 0
  /-- `_extract_harness_result` on the log. -/
  result : Option HarnessResult := none
  /-- `classify_signal_kill`. -/
  killReason : Option String := none
  /-- `git update-ref -d` deleted the ref. -/
  refDeleted : Bool := true

structure JobManager where
  jobs : Jobs
  queue : List String := []
  /-- The refs of the repository. -/
  refs : List String := []
  /-- The jobs whose worktree was created. -/
  created : List String := []
  worker : WorkerPc := .idle
  requests : Nat → Request := fun _ => .absent

/-- A manager as `__init__` leaves it: every job it recovered is closed. -/
def JobManager.init (recovered : {jobs : Jobs // ∀ job, job ∈ jobs → job.isTerminal = true})
    (refs : List String) : JobManager :=
  { jobs := recovered.1, refs := refs }

namespace JobManager

def setRequest (s : JobManager) (t : Nat) (r : Request) : JobManager :=
  { s with requests := fun t' => if t' = t then r else s.requests t' }

def start (s : JobManager) (t : Nat) (c : Call) : JobManager :=
  match c with
  | .submit m =>
    let m := m.normalized
    if !isSha m.candidateSha then s.setRequest t (.returned (.refused 400))
    else
      match liveJobForKey s.jobs m.clientDispatchKey with
      | some existing => s.setRequest t (.returned (.submitted existing.jobId true))
      | none => s.setRequest t (.fetching m)
  | .cancel jobId =>
    match s.jobs.get? jobId with
    | none => s.setRequest t (.returned (.cancelled false))
    | some _ =>
      { s with jobs := s.jobs.assign jobId .cancelRequested }.setRequest t (.cancelling jobId)
  | .markInterrupted reason =>
    s.setRequest t (.interrupting
      ("worker restarting (" ++ reason ++ "); the test run was interrupted and has no verdict")
      ((s.jobs.select HarnessJob.isActive).map HarnessJob.jobId))

def advance (s : JobManager) (t : Nat) (e : RequestEvent) : JobManager :=
  match s.requests t with
  | .absent | .returned _ => s
  | .fetching m =>
    if e.fetched then
      { s with refs := m.refName :: s.refs }.setRequest t (.registering m)
    else s.setRequest t (.returned (.refused 409))
  | .registering m =>
    match liveJobForKey s.jobs m.clientDispatchKey with
    | some existing => s.setRequest t (.returned (.submitted existing.jobId true))
    | none =>
      match s.jobs.insert? (m.job e.uuid) with
      | some jobs => { s with jobs := jobs }.setRequest t (.queueing e.uuid)
      | none => s
  | .queueing jobId =>
    { s with queue := s.queue ++ [jobId] }.setRequest t (.returned (.submitted jobId false))
  | .cancelling jobId =>
    if (s.jobs.get? jobId).any fun job => decide (job.status = .queued) then
      s.setRequest t (.cancelSetting (cancellation jobId []))
    else s.setRequest t (.returned (.cancelled true))
  | .cancelSetting p =>
    let next := p.step s.jobs
    { s with jobs := next.1 }.setRequest t
      (match next.2 with
        | some p => .cancelSetting p
        | none => .returned (.cancelled true))
  | .interrupting message active =>
    match active with
    | [] => s.setRequest t (.returned .interrupted)
    | jobId :: rest =>
      { s with jobs := s.jobs.assign jobId .interrupted }.setRequest t
        (.interruptSetting message
          ⟨jobId, [.errorCode ERROR_CODE_WORKER_RESTARTED, .error message], .failed, rfl, false⟩ rest)
  | .interruptSetting message p rest =>
    let next := p.step s.jobs
    { s with jobs := next.1 }.setRequest t
      (match next.2 with
        | some p => .interruptSetting message p rest
        | none => .interrupting message rest)

/-- A step of a `_set_status` of the worker, and where the worker goes when it returns. -/
def settingStep {allowed : JobStatus → Bool} (s : JobManager) (p : SettingStatus allowed)
    (on : SettingStatus allowed → WorkerPc) (returned : WorkerPc) : JobManager :=
  let next := p.step s.jobs
  { s with jobs := next.1, worker := (next.2.map on).getD returned }

def verdictStatus (e : WorkerEvent) : JobStatus :=
  if e.returncode = 0 ∧ e.result.isSome then .done else .failed

theorem verdictStatus_isTerminal (e : WorkerEvent) : (verdictStatus e).isTerminal = true := by
  unfold verdictStatus
  split <;> rfl

/-- The verdict of a run that was neither interrupted, lost, stalled nor cancelled. -/
def verdict (jobId : String) (e : WorkerEvent) : Closing :=
  match e.killReason with
  | some reason =>
    ⟨jobId, [.returncode e.returncode, .error reason, .errorCode ERROR_CODE_WORKER_SIGNAL_KILLED],
      .failed, rfl, false⟩
  | none =>
    ⟨jobId, [.returncode e.returncode, .resultJson e.result], verdictStatus e, verdictStatus_isTerminal e, false⟩

/-- A step inside the `try` of `_run_job`, when nothing is raised. -/
def tryStep (s : JobManager) (phase : Phase) (job : HarnessJob) (e : WorkerEvent) : JobManager :=
  let jobId := job.jobId
  match phase with
  | .adding =>
    match e.added with
    | .ok () =>
      if s.refs.contains job.refName then
        { s with created := jobId :: s.created, worker := .inTry .waiting jobId }
      else s
    | .error stderr =>
      { s with
        worker := .closing (failure jobId ("git worktree add failed: " ++ stderr) ERROR_CODE_WORKER_SETUP) }
  | .waiting => { s with worker := .inTry .exited jobId }
  | .exited =>
    { s with worker := if job.interrupted then .cleaning jobId else .inTry .checkingLost jobId }
  | .checkingLost =>
    match e.lostReason with
    | some reason => { s with worker := .inTry (.markingLost reason) jobId }
    | none => { s with worker := .inTry .checkingStall jobId }
  | .markingLost reason =>
    { s with
      jobs := s.jobs.assign jobId .interrupted
      worker := .closing (failure jobId reason ERROR_CODE_WORKER_RESTARTED) }
  | .checkingStall =>
    match job.stalledReason with
    | some reason =>
      { s with worker := .closing (failure jobId reason ERROR_CODE_JOB_LOST_ON_WORKER) }
    | none => { s with worker := .inTry .checkingCancel jobId }
  | .checkingCancel =>
    if job.cancelRequested then
      { s with worker := .closing (cancellation jobId [.returncode e.returncode]) }
    else { s with worker := .inTry .judging jobId }
  | .judging => { s with worker := .closing (verdict jobId e) }

def work (s : JobManager) (e : WorkerEvent) : JobManager :=
  match s.worker with
  | .idle =>
    match s.queue with
    | [] => s
    | jobId :: rest =>
      { s with
        queue := rest
        worker := .picked jobId ((s.jobs.get? jobId).any HarnessJob.isTerminal) }
  | .picked jobId _ =>
    match s.jobs.get? jobId with
    | none => { s with worker := .idle }
    | some job =>
      { s with
        worker :=
          if job.cancelRequested then .skipping (cancellation jobId [])
          else .starting ⟨jobId, [], .running, rfl, false⟩ }
  | .skipping p => s.settingStep p .skipping .idle
  | .starting p => s.settingStep p .starting (.inTry .adding p.jobId)
  | .inTry phase jobId =>
    match s.jobs.get? jobId with
    | none => s
    | some job =>
      match e.raised with
      | some exc =>
        { s with worker := .closing (failure jobId exc ERROR_CODE_WORKER_INTERNAL) }
      | none => s.tryStep phase job e
  | .closing p => s.settingStep p .closing (.cleaning p.jobId)
  | .cleaning jobId =>
    let refs :=
      match s.jobs.get? jobId with
      | some job => if e.refDeleted then s.refs.filter fun r => decide (r ≠ job.refName) else s.refs
      | none => s.refs
    { s with
      refs := refs
      worker :=
        match e.raised with
        | some exc => .failing (failure jobId exc ERROR_CODE_WORKER_INTERNAL)
        | none => .idle }
  | .failing p => s.settingStep p .failing .idle

end JobManager

inductive Act where
  /-- A request comes in. -/
  | start (t : Nat) (c : Call)
  /-- A request goes on. -/
  | advance (t : Nat) (e : RequestEvent)
  /-- The worker thread goes on. -/
  | work (e : WorkerEvent)
  /-- The watchdog of the waiting run declares it stalled. -/
  | stall (reason : String)
  /-- A status poll. -/
  | poll (jobId : String)

def step (s : JobManager) : Act → JobManager
  | .start t c =>
    match s.requests t with
    | .absent => s.start t c
    | _ => s
  | .advance t e => s.advance t e
  | .work e => s.work e
  | .stall reason =>
    match s.worker with
    | .inTry .adding _ => s
    | .inTry _ jobId => { s with jobs := s.jobs.assign jobId (.stalledReason reason) }
    | _ => s
  | .poll _ => s

end RemoteWorker
end Harness
end DarkFactory
