import DarkFactory.Harness.CachedRun
import DarkFactory.Harness.RemoteWorker

/-!
# DarkFactory.Harness.RemoteDispatch

`maybe_dispatch_remote` of `core/harness/remote_dispatch.py`: any number of calls, with the workers they
submit to and the verdicts all of them share.

* A worker is a `JobManager`. The runner that it starts for a job is a `Child`, of which the log holds the
  result when the worker judges the run.
* One hash stands for one configuration file.
* A poll that gives up and a worker that went away are both `lost`; what follows comes with the move.
* A verdict keeps whether its execution was a `--quick` one. No function reads it.
-/

namespace DarkFactory
namespace Harness
namespace RemoteDispatch

open RemoteWorker (HarnessJob JobManager Jobs Metadata RequestEvent WorkerEvent Response isSha liveJobForKey)
open CachedRun (Health)

def INFRASTRUCTURE_ERROR_CODES : List String :=
  ["worker_restarted", "worker_internal_error", "worker_setup_failed", "worker_signal_killed", "job_lost_on_worker"]

/-- What `_run_with_cache` passes on. -/
structure Call where
  process : Process
  configHash : String
  quick : Bool
  includeHoldout : Bool
  cacheLookupEnabled : Bool := true

structure Setting where
  /-- The full profile of the file with that hash. -/
  config : String → HarnessConfig
  call : Nat → Call

def Setting.selectedNames (c : Setting) (configHash : String) (quick includeHoldout : Bool) : List String :=
  ((c.config configHash).selectedSteps quick includeHoldout).map HarnessStepConfig.name

def Setting.stepNames (c : Setting) (call : Call) : List String :=
  c.selectedNames call.configHash call.quick call.includeHoldout

/-- A worker that is up, and `tree_hash` when the call turned to it. -/
structure Target where
  url : String
  health : Health
  treeHash : Option String
deriving DecidableEq

def Setting.workerKey (c : Setting) (call : Call) (w : Target) : Option CacheKey :=
  if call.cacheLookupEnabled then
    w.treeHash.map fun treeHash =>
      computeCacheKey call.process.platform treeHash call.configHash (c.stepNames call) call.quick
        call.includeHoldout (some (orDefault w.health.platformFamily "windows")) w.health.pythonVersion
  else none

def Call.clientDispatchKey (call : Call) (candidateSha : String) : String :=
  candidateSha ++ ":" ++ call.configHash

def Call.metadata (call : Call) (w : Target) (candidateSha : String) : Metadata where
  candidateSha := candidateSha
  clientDispatchKey := call.clientDispatchKey candidateSha
  treeSha := w.treeHash.getD ""
  quick := call.quick
  includeHoldout := call.includeHoldout
  requestingHost := call.process.host

abbrev Outcomes := List (Option (List String) × StepOutcome)

/-- The loop of `execute`; none when it is killed in between. -/
def runLoop (p : Process) : List HarnessStepConfig → Outcomes → Option (List StepExecution)
  | [], _ => some []
  | _ :: _, [] => none
  | step :: rest, (files, o) :: more =>
    let execution := (p.runStep none step files o).execution
    if execution.passed then (runLoop p rest more).map fun executions => execution :: executions
    else some [execution]

/-- The result that `execute` prints for the candidate. -/
def executeResult (p : Process) (candidateSha configHash : String) (steps : List HarnessStepConfig)
    (outcomes : Outcomes) : Option HarnessResult :=
  if steps.isEmpty then none
  else (runLoop p steps outcomes).map fun executions => harnessResult candidateSha configHash steps executions

inductive Child where
  /-- Its log holds no result. -/
  | silent
  | executed (p : Process) (candidateSha configHash : String) (outcomes : Outcomes)
  /-- It finds a verdict in its own cache. -/
  | replayed (p : Process) (candidateSha treeHash configHash : String) (online : Bool)

def commandQuick (job : HarnessJob) : Bool := job.command.contains "--quick"

def commandHoldout (job : HarnessJob) : Bool := job.command.contains "--holdout"

def childResult (c : Setting) (store : VerdictStore Bool) (job : HarnessJob) : Child → Option HarnessResult
  | .silent => none
  | .executed p candidateSha configHash outcomes =>
    executeResult p candidateSha configHash
      ((c.config configHash).selectedSteps (commandQuick job) (commandHoldout job)) outcomes
  | .replayed p candidateSha treeHash configHash online =>
    let key := computeCacheKey p.platform treeHash configHash
      (c.selectedNames configHash (commandQuick job) (commandHoldout job)) (commandQuick job)
      (commandHoldout job) none none
    (store.getVerdict p.host key online).1.map fun hit => cacheHitResult candidateSha hit.record.result

/-- A run of `_run_with_cache` that executes its steps where it is, on any host. -/
structure LocalRun where
  process : Process
  candidateSha : String
  treeHash : String
  configHash : String
  quick : Bool
  includeHoldout : Bool
  outcomes : Outcomes

def LocalRun.key (c : Setting) (run : LocalRun) : CacheKey :=
  computeCacheKey run.process.platform run.treeHash run.configHash
    (c.selectedNames run.configHash run.quick run.includeHoldout) run.quick run.includeHoldout none none

def LocalRun.result (c : Setting) (run : LocalRun) : Option HarnessResult :=
  executeResult run.process run.candidateSha run.configHash
    ((c.config run.configHash).selectedSteps run.quick run.includeHoldout) run.outcomes

inductive Pc where
  /-- About to take the next worker. -/
  | choosing
  /-- `get_verdict(worker_key)`. -/
  | lookingUp (w : Target) (key : CacheKey)
  /-- `emit_cache_hit`. -/
  | replaying (hit : Verdict Bool)
  /-- `_local_candidate_sha`. -/
  | binding (w : Target)
  /-- `_dispatch_one_job`, about to submit. -/
  | dispatching (w : Target) (candidateSha : String)
  /-- `_submit_job`, the `request` that the worker is answering. -/
  | submitting (w : Target) (candidateSha : String) (request : Nat)
  /-- `_stream_job`. -/
  | streaming (w : Target) (candidateSha jobId : String)
  /-- With none, nothing was resolved remotely. -/
  | returned (result : Option Bool)
deriving DecidableEq

/-- What `_dispatch_with_restart_retry` does about a lost job. -/
inductive Retry where
  | resume | resubmit | giveUp
deriving DecidableEq

structure Event where
  worker : Option Target := none
  /-- The commit that git names. -/
  candidateSha : Option String := none
  online : Bool := true
  /-- The id of a new request. -/
  request : Nat := 0
  /-- `_create_bundle` succeeds. -/
  bundled : Bool := true
  lost : Bool := false
  retry : Retry := .giveUp

structure State where
  workers : String → JobManager
  store : VerdictStore Bool := {}
  pcs : Nat → Pc := fun _ => .choosing

inductive Finalized where
  /-- `_WorkerUnavailable`. -/
  | lost
  /-- With the result, when it is a pass. -/
  | resolved (passed : Option HarnessResult)
deriving DecidableEq

def finalizeRemoteResult (job : HarnessJob) (candidateSha configHash : String) : Finalized :=
  if job.status ≠ .done ∧ job.status ≠ .failed then .lost
  else if job.status = .failed ∧ job.errorCode.any INFRASTRUCTURE_ERROR_CODES.contains then .lost
  else
    match job.resultJson with
    | none => .lost
    | some result =>
      if result.candidateSha ≠ candidateSha then .resolved none
      else if result.configHash ≠ configHash then .resolved none
      else .resolved (if result.success then some result else none)

def afterLost (jobs : Jobs) (w : Target) (candidateSha jobId : String) : Retry → Pc
  | .resume =>
    if (jobs.get? jobId).any HarnessJob.isActive then .streaming w candidateSha jobId
    else .dispatching w candidateSha
  | .resubmit => .dispatching w candidateSha
  | .giveUp => .choosing

def remoteRecord (call : Call) (key : CacheKey) (w : Target) (result : HarnessResult) : Record :=
  { buildRecord call.process.platform call.process.host key.treeSha result.candidateSha call.configHash
      result with
    host := w.health.hostname
    osFamily := key.platformFamily
    pyVersion := key.pythonVersion }

namespace State

def setPc (s : State) (t : Nat) (pc : Pc) : State :=
  { s with pcs := fun t' => if t' = t then pc else s.pcs t' }

def setWorker (s : State) (url : String) (m : JobManager) : State :=
  { s with workers := fun url' => if url' = url then m else s.workers url' }

def writeStore (s : State) (host : String) (w : Option (Write Bool)) : State :=
  match w with
  | some w => { s with store := s.store.write host w }
  | none => s

def finish (c : Setting) (s : State) (t : Nat) (w : Target) (candidateSha : String) (job : HarnessJob)
    (e : Event) : State :=
  let call := c.call t
  match finalizeRemoteResult job candidateSha call.configHash with
  | .lost => s.setPc t (afterLost (s.workers w.url).jobs w candidateSha job.jobId e.retry)
  | .resolved none => s.setPc t (.returned (some false))
  | .resolved (some result) =>
    (s.setPc t (.returned (some true))).writeStore call.process.host
      ((c.workerKey call w).map fun key =>
        .store key ⟨remoteRecord call key w result, commandQuick job⟩ e.online)

def client (c : Setting) (s : State) (t : Nat) (e : Event) : State :=
  let call := c.call t
  match s.pcs t with
  | .choosing =>
    match e.worker with
    | none => s.setPc t (.returned none)
    | some w =>
      match c.workerKey call w with
      | some key => s.setPc t (.lookingUp w key)
      | none => s.setPc t (.binding w)
  | .lookingUp w key =>
    let found := s.store.getVerdict call.process.host key e.online
    match found.1 with
    | some hit => (s.setPc t (.replaying hit)).writeStore call.process.host found.2
    | none => s.setPc t (.binding w)
  | .replaying _ => s.setPc t (.returned (some e.candidateSha.isSome))
  | .binding w =>
    match e.candidateSha with
    | some candidateSha => s.setPc t (.dispatching w candidateSha)
    | none => s.setPc t (.returned none)
  | .dispatching w candidateSha =>
    if e.bundled then
      match (s.workers w.url).requests e.request with
      | .absent =>
        (s.setWorker w.url ((s.workers w.url).start e.request
          (.submit (call.metadata w candidateSha)))).setPc t (.submitting w candidateSha e.request)
      | _ => s
    else s.setPc t .choosing
  | .submitting w candidateSha request =>
    match (s.workers w.url).requests request with
    | .returned (.submitted jobId _) => s.setPc t (.streaming w candidateSha jobId)
    | .returned _ =>
      -- With a full bundle when the worker lacks commits.
      s.setPc t (if e.retry = .resubmit then .dispatching w candidateSha else .choosing)
    | _ => if e.lost then s.setPc t (.returned none) else s
  | .streaming w candidateSha jobId =>
    match (s.workers w.url).jobs.get? jobId with
    | some job =>
      if e.lost then s.setPc t (afterLost (s.workers w.url).jobs w candidateSha jobId e.retry)
      else if job.isTerminal then s.finish c t w candidateSha job e
      else s
    | none => s.setPc t (afterLost (s.workers w.url).jobs w candidateSha jobId e.retry)
  | .returned _ => s

def work (c : Setting) (s : State) (url : String) (e : WorkerEvent) (child : Child) : State :=
  let m := s.workers url
  let result :=
    match m.worker with
    | .inTry .judging jobId => (m.jobs.get? jobId).bind fun job => childResult c s.store job child
    | _ => none
  s.setWorker url (m.work { e with result := result })

end State

def recovered (job : HarnessJob) : HarnessJob :=
  if job.isTerminal then job
  else { job with status := .failed, errorCode := some RemoteWorker.ERROR_CODE_WORKER_RESTARTED }

theorem recovered_jobId (job : HarnessJob) : (recovered job).jobId = job.jobId := by
  unfold recovered
  split <;> rfl

theorem recovered_isTerminal (job : HarnessJob) : (recovered job).isTerminal = true := by
  unfold recovered
  split
  · assumption
  · rfl

def recoveredJobs (jobs : Jobs) : Jobs := jobs.update (fun _ => true) recovered recovered_jobId

theorem recoveredJobs_isTerminal {jobs : Jobs} {job : HarnessJob} (h : job ∈ recoveredJobs jobs) :
    job.isTerminal = true := by
  obtain ⟨old, -, rfl⟩ := Table.mem_update.mp h
  exact recovered_isTerminal old

/-- A new process of the worker; the requests that were open are never answered. -/
def restarted (m : JobManager) : JobManager :=
  { JobManager.init ⟨recoveredJobs m.jobs, fun _ h => recoveredJobs_isTerminal h⟩ m.refs with
    requests := fun n =>
      match m.requests n with
      | .absent => .absent
      | .returned r => .returned r
      | _ => .returned (.refused 503) }

inductive Act where
  | client (t : Nat) (e : Event)
  /-- The worker thread goes on, with what its child has printed. -/
  | work (url : String) (e : WorkerEvent) (child : Child)
  /-- Any other step of a worker, and any other request to it. -/
  | worker (url : String) (a : RemoteWorker.Act)
  | restart (url : String)
  /-- A run elsewhere stores its pass. -/
  | localRun (run : LocalRun) (online : Bool)
  | forget (host : String) (key : CacheKey)

def step (c : Setting) (s : State) : Act → State
  | .client t e => s.client c t e
  | .work url e child => s.work c url e child
  | .worker _ (.work _) => s
  | .worker url a => s.setWorker url (RemoteWorker.step (s.workers url) a)
  | .restart url => s.setWorker url (restarted (s.workers url))
  | .localRun run online =>
    match run.result c with
    | some result =>
      if result.success then
        s.writeStore run.process.host (some (.store (run.key c)
          ⟨buildRecord run.process.platform run.process.host run.treeHash run.candidateSha run.configHash
            result, run.quick⟩ online))
      else s
    | none => s
  | .forget host key => { s with store := s.store.setLocal host key none }

/-- New workers, an empty cache and no call begun. -/
def State.init : State := { workers := fun _ => JobManager.init ⟨Table.empty, fun _ h => absurd h Table.not_mem_empty⟩ [] }

end RemoteDispatch
end Harness
end DarkFactory
