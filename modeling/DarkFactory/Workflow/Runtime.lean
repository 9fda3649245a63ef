import DarkFactory.Lib.Table
import DarkFactory.Python.Sort
import DarkFactory.Python.Text
import DarkFactory.Workflow.Contracts

/-!
# DarkFactory.Workflow.Runtime

`WorkflowRuntime` of `core/workflow/runtime.py` on its SQLite database.

* A method is one `BEGIN IMMEDIATE` transaction: it returns and commits, or raises and rolls back.
* `now` is what the clock says in the call. The id of a lease is the fresh one that the call draws.
* `UNIQUE (dedupe_key)` of `jobs` is checked by the `SELECT` before the `INSERT`; the other keys are those
  of the tables.
-/

namespace DarkFactory
namespace Workflow

inductive RuntimeError where
  /-- `ValueError` of an argument. -/
  | value (message : String)
  /-- `LOCAL_RUNTIME_DELIVERY_FORBIDDEN`. -/
  | deliveryForbidden
  | illegalTransition (current target : WorkflowState)
  | runNotFound (runId : String)
  | jobNotFound (jobId : String)
  | leaseNotFound (leaseId : String)
  | eventNotFound (dedupeKey : String)
  | runIdentity (runId : String)
  | projectMismatch
  | jobDedupeReused
  | eventDedupeReused (dedupeKey : String)
  | keyConflict (operationKey : String)
  | replayConflict (leaseId : String)
  | outcomeConflict
  | leaseOwnership (leaseId : String)
  | leaseStatus (leaseId : String) (status : LeaseStatus)
  | leaseExpired (leaseId : String)
  /-- `sqlite3.IntegrityError`. -/
  | integrity
deriving DecidableEq

structure Db where
  runs : Table Run.runId := Table.empty
  jobs : Table Job.jobId := Table.empty
  leases : Table Lease.leaseId := Table.empty
  outbox : Table Event.dedupeKey := Table.empty
  operations : Table Operation.key := Table.empty

namespace Db

def insertEvent (db : Db) (e : Event) : Except RuntimeError Db :=
  match db.outbox.get? e.dedupeKey with
  | some old =>
    if old.runId ≠ e.runId ∨ old.eventType ≠ e.eventType ∨ old.payload ≠ e.payload then
      .error (.eventDedupeReused e.dedupeKey)
    else .ok db
  | none => .ok { db with outbox := db.outbox.insertIgnore e }

def recordOperation (db : Db) (op : Operation) : Except RuntimeError Db :=
  match db.operations.insert? op with
  | some operations => .ok { db with operations := operations }
  | none => .error .integrity

def setRun (db : Db) (runId : String) (f : Run → Run) (h : ∀ r, (f r).runId = r.runId := by intro _; rfl) : Db :=
  { db with runs := db.runs.update (fun r => decide (r.runId = runId)) f h }

def setJob (db : Db) (jobId : String) (f : Job → Job) (h : ∀ j, (f j).jobId = j.jobId := by intro _; rfl) : Db :=
  { db with jobs := db.jobs.update (fun j => decide (j.jobId = jobId)) f h }

def setLease (db : Db) (leaseId : String) (f : Lease → Lease)
    (h : ∀ l, (f l).leaseId = l.leaseId := by intro _; rfl) : Db :=
  { db with leases := db.leases.update (fun l => decide (l.leaseId = leaseId)) f h }

/-- `_set_job_status`. -/
def withStatus (status : JobStatus) (now : Time) (error : Option String) (j : Job) : Job :=
  { j with status := status, lastError := error, updatedAt := now }

/-- What an `UPDATE` of a job that loses its lease sets. -/
def withoutLease (status : JobStatus) (readyAt : Option Time) (error : Option String) (now : Time) (j : Job) : Job :=
  { j with
    status := status
    readyAt := readyAt
    leaseId := none
    owner := none
    lastError := error
    updatedAt := now }

/-- `budget_reserved = MAX(0, budget_reserved - ?)`. -/
def unreserve (cost : Rat) (now : Time) (r : Run) : Run :=
  { r with budgetReserved := max 0 (r.budgetReserved - cost), updatedAt := now }

/-- What the `UPDATE` of a run whose job is claimed sets. -/
def reserve (cost : Rat) (now : Time) (r : Run) : Run :=
  { r with budgetReserved := r.budgetReserved + cost, updatedAt := now }

/-- What the `UPDATE` of a run whose job is completed sets. -/
def spend (cost charged : Rat) (now : Time) (r : Run) : Run :=
  { unreserve cost now r with budgetSpent := r.budgetSpent + charged }

def withState (state : WorkflowState) (now : Time) (r : Run) : Run := { r with state := state, updatedAt := now }

/-- What the `UPDATE` of a run that is cancelled sets. -/
def withoutReserve (now : Time) (r : Run) : Run :=
  { r with state := .cancelled, budgetReserved := 0, updatedAt := now }

def closed (status : LeaseStatus) (now : Time) (outcome : Option JobOutcome) (l : Lease) : Lease :=
  { l with status := status, completedAt := some now, outcome := outcome.or l.outcome }

def registerRun (db : Db) (runId projectId : String) (initialState : WorkflowState) (budgetCeiling : Rat)
    (now : Time) : Except RuntimeError (Run × Db) :=
  if Text.strip runId = "" ∨ Text.strip projectId = "" then
    .error (.value "run_id and project_id are required")
  else if budgetCeiling < 0 then .error (.value "budget ceiling must not be negative")
  else if initialState = .delivered then .error .deliveryForbidden
  else
    match db.runs.get? runId with
    | some r =>
      if r.state = .delivered then .error .deliveryForbidden
      else if r.projectId ≠ projectId ∨ r.budgetCeiling ≠ budgetCeiling then .error (.runIdentity runId)
      else .ok (r, db)
    | none =>
      let r : Run := { runId, projectId, state := initialState, budgetCeiling, createdAt := now, updatedAt := now }
      .ok (r, { db with runs := db.runs.insertIgnore r })

/-- The operation key of a transition without an idempotency key. -/
def defaultKey (runId : String) (current target : WorkflowState) : String :=
  "run:" ++ runId ++ ":" ++ current.value ++ ":" ++ target.value

/-- `idempotency_key or f"run:{run_id}:{current}:{target}"`. -/
def operationKey (idempotencyKey : Option String) (runId : String) (current target : WorkflowState) : String :=
  match idempotencyKey with
  | some key => if key = "" then defaultKey runId current target else key
  | none => defaultKey runId current target

def transitionRun (db : Db) (runId : String) (target : WorkflowState) (idempotencyKey : Option String)
    (now : Time) : Except RuntimeError (Run × Db) :=
  if target = .delivered then .error .deliveryForbidden
  else
    match db.runs.get? runId with
    | none => .error (.runNotFound runId)
    | some r =>
      if r.state = .delivered then .error .deliveryForbidden
      else
        let key := operationKey idempotencyKey runId r.state target
        match db.operations.get? key with
        | some op =>
          match op.transitionResult runId target with
          | some result => .ok (result, db)
          | none => .error (.keyConflict key)
        | none =>
          if r.state = target then .ok (r, db)
          else if target ∉ r.state.allowed then .error (.illegalTransition r.state target)
          else do
            let db ← db.insertEvent {
              dedupeKey := key
              runId := runId
              eventType := "run.transitioned"
              payload := .transitioned r.state target
              createdAt := now }
            let updated := withState target now r
            let db := db.setRun runId (withState target now)
            let db ← db.recordOperation {
              key := key
              subject := runId
              body := .runTransition runId target updated
              createdAt := now }
            return (updated, db)

def enqueueJob (db : Db) (spec : JobSpec) (now : Time) : Except RuntimeError (Job × Db) :=
  match db.runs.get? spec.runId with
  | none => .error (.runNotFound spec.runId)
  | some r =>
    if r.projectId ≠ spec.projectId then .error .projectMismatch
    else
      match db.jobs.rows.find? fun j => decide (j.spec.effectiveDedupeKey = spec.effectiveDedupeKey) with
      | some j => if j.spec = spec then .ok (j, db) else .error .jobDedupeReused
      | none =>
        let j : Job := { spec, readyAt := some (spec.readyAt.getD now), createdAt := now, updatedAt := now }
        match db.jobs.insert? j with
        | none => .error .integrity
        | some jobs => do
          let db ← { db with jobs := jobs }.insertEvent {
            dedupeKey := "job:" ++ spec.jobId ++ ":queued"
            runId := spec.runId
            eventType := "job.queued"
            payload := .queued spec.jobId spec.stage
            createdAt := now }
          return (j, db)

def isExpired (now : Time) (l : Lease) : Bool := decide (l.status = .active ∧ l.expiresAt ≤ now)

def expiredJob (retryDelay now : Time) (j : Job) : Job :=
  if j.mayRetry then
    withoutLease .retryScheduled (some (now + retryDelay)) (some "lease expired; retry scheduled") now j
  else withoutLease .failed none (some "lease expired after maximum attempts") now j

theorem expiredJob_spec (retryDelay now : Time) (j : Job) : (expiredJob retryDelay now j).spec = j.spec := by
  unfold expiredJob
  split <;> rfl

/-- The loop of `_reconcile_unlocked` on one lease. -/
def expireLease (retryDelay now : Time) (db : Db) (l : Lease) : Except RuntimeError Db :=
  match db.jobs.get? l.jobId with
  | none => .ok db
  | some j =>
    let db := db.setLease l.leaseId (closed .expired now none)
    let db := db.setRun l.runId (unreserve j.spec.estimatedCost now)
    let db := db.setJob j.jobId (expiredJob retryDelay now) fun j => by
      rw [Job.jobId, expiredJob_spec, Job.jobId]
    db.insertEvent {
      dedupeKey := "lease:" ++ l.leaseId ++ ":expired"
      runId := j.spec.runId
      eventType := if j.mayRetry then "job.retry_scheduled" else "job.failed"
      payload := .expired j.jobId l.leaseId j.attempt
      createdAt := now }

def isDue (now : Time) (j : Job) : Bool :=
  decide (j.status = .retryScheduled) && j.readyAt.any fun readyAt => decide (readyAt ≤ now)

/-- `_reconcile_unlocked`. -/
def reconcile (db : Db) (retryDelay now : Time) : Except RuntimeError (ReconciliationReport × Db) := do
  let expired := sortAsc (fun l => toLex (l.expiresAt, l.leaseId)) (db.leases.select (isExpired now))
  let jobs := expired.filterMap fun l => db.jobs.get? l.jobId
  let db ← expired.foldlM (expireLease retryDelay now) db
  let due := db.jobs.select (isDue now)
  let report : ReconciliationReport :=
    ⟨expired.length, (jobs.filter Job.mayRetry).length, (jobs.filter fun j => !j.mayRetry).length, due.length⟩
  return (report, { db with jobs := db.jobs.update (isDue now) (withStatus .ready now none) })

/-- `_eligible_jobs`. -/
def isEligible (now : Time) (j : Job) : Bool :=
  decide (j.status = .ready ∨ j.status = .waitingBudget) && j.readyAt.all fun readyAt => decide (readyAt ≤ now)

def isClaimed (j : Job) : Bool := decide (j.status = .claimed)

def dependenciesSucceeded (db : Db) (dependsOn : List String) : Bool :=
  dependsOn.all fun jobId => (db.jobs.get? jobId).any fun j => decide (j.status = .succeeded)

/-- `_active_by_project` of a project. -/
def activeByProject (db : Db) (projectId : String) : Nat :=
  (db.jobs.select fun j => isClaimed j && decide (j.spec.projectId = projectId)).length

/-- `_active_by_stage` of a stage. -/
def activeByStage (db : Db) (stage : String) : Nat :=
  (db.jobs.select fun j => isClaimed j && decide (j.spec.stage = stage)).length

def activeConflicts (db : Db) : List String := (db.jobs.select isClaimed).flatMap fun j => j.spec.conflictKeys

/-- The tests of `claim_next` before the one of the budget. -/
def isOpen (limits : String → Option Nat) (db : Db) (j : Job) : Bool :=
  (limits j.spec.stage).all (fun limit => decide (db.activeByStage j.spec.stage < limit)) &&
    !j.spec.conflictKeys.any (fun key => decide (key ∈ db.activeConflicts)) &&
    db.dependenciesSucceeded j.spec.dependsOn &&
    (db.runs.get? j.spec.runId).any fun r => r.state.isDispatchable

/-- `1e-9`. -/
def tolerance : Rat := 1 / 1000000000

def isAffordable (db : Db) (j : Job) : Bool :=
  (db.runs.get? j.spec.runId).any fun r =>
    decide (¬ r.budgetCeiling - r.budgetReserved - r.budgetSpent + tolerance < j.spec.estimatedCost)

/-- A job waits for budget, unless it does already. -/
def awaitBudget (now : Time) (db : Db) (j : Job) : Except RuntimeError Db :=
  if j.status = .waitingBudget then .ok db
  else
    (db.setJob j.jobId (withStatus .waitingBudget now (some "budget unavailable"))).insertEvent {
      dedupeKey := "job:" ++ j.jobId ++ ":waiting-budget"
      runId := j.spec.runId
      eventType := "job.waiting_budget"
      payload := .waitingBudget j.jobId j.spec.estimatedCost
      createdAt := now }

def rank (db : Db) (j : Job) : Nat ×ₗ Int ×ₗ Int ×ₗ String :=
  toLex (db.activeByProject j.spec.projectId, toLex (-(j.spec.priority : Int), toLex (j.createdAt, j.jobId)))

/-- What the `UPDATE` of a job that is claimed sets. -/
def claimedBy (leaseId workerId : String) (now : Time) (j : Job) : Job :=
  { j with
    status := .claimed
    attempt := j.attempt + 1
    leaseId := some leaseId
    owner := some workerId
    updatedAt := now }

def claim (db : Db) (j : Job) (workerId : String) (leaseTime now : Time) (leaseId : String) :
    Except RuntimeError (Lease × Db) :=
  let l : Lease := {
    leaseId := leaseId
    jobId := j.jobId
    runId := j.spec.runId
    workerId := workerId
    stage := j.spec.stage
    attempt := j.attempt + 1
    acquiredAt := now
    expiresAt := now + leaseTime }
  if db.leases.any fun l => decide (l.jobId = j.jobId ∧ l.status = .active) then .error .integrity
  else
    match db.leases.insert? l with
    | none => .error .integrity
    | some leases => do
      let db := { db with leases := leases }
      let db := db.setJob j.jobId (claimedBy leaseId workerId now)
      let db := db.setRun j.spec.runId (reserve j.spec.estimatedCost now)
      let db ← db.insertEvent {
        dedupeKey := "job:" ++ j.jobId ++ ":attempt:" ++ toString (j.attempt + 1) ++ ":claimed"
        runId := j.spec.runId
        eventType := "job.claimed"
        payload := .claimed j.jobId leaseId workerId
        createdAt := now }
      return (l, db)

/-- What the loop over the candidates writes, a status `waiting_budget` and its event, none of its tests
reads. -/
def claimNext (limits : String → Option Nat) (db : Db) (workerId : String) (leaseTime retryDelay now : Time)
    (leaseId : String) : Except RuntimeError (Option Lease × Db) :=
  if Text.strip workerId = "" then .error (.value "worker_id is required")
  else if leaseTime ≤ 0 then .error (.value "lease_seconds must be positive")
  else do
    let (_, db) ← db.reconcile retryDelay now
    let candidates := sortAsc (fun j => toLex (j.createdAt, j.jobId)) (db.jobs.select (isEligible now))
    let tested := candidates.filter (db.isOpen limits)
    let waiting ← (tested.filter fun j => !db.isAffordable j).foldlM (awaitBudget now) db
    match (sortAsc db.rank (tested.filter db.isAffordable)).head? with
    | none => return (none, waiting)
    | some j => do
      let (l, db) ← waiting.claim j workerId leaseTime now leaseId
      return (some l, db)

def completionKey (leaseId : String) : String := "lease:" ++ leaseId ++ ":complete"

/-- `error.strip() if error and error.strip() else None`. -/
def normalizedError (error : Option String) : Option String :=
  (error.map Text.strip).filter fun text => decide (text ≠ "")

def nextStatus (outcome : JobOutcome) (retryDelay now : Time) (j : Job) : JobStatus × Option Time :=
  match outcome with
  | .succeeded => (.succeeded, none)
  | .cancelled => (.cancelled, none)
  | .failed => if j.mayRetry then (.retryScheduled, some (now + retryDelay)) else (.failed, none)

def completedJob (completion : Completion) (retryDelay now : Time) (j : Job) : Job :=
  withoutLease (nextStatus completion.outcome retryDelay now j).1 (nextStatus completion.outcome retryDelay now j).2
    completion.error now j

def completionEvents (db : Db) (j : Job) (completion : Completion) (now : Time) : Except RuntimeError Db := do
  let attempt := "job:" ++ j.jobId ++ ":attempt:" ++ toString j.attempt
  let db ← db.insertEvent {
    dedupeKey := attempt ++ ":" ++ completion.outcome.value
    runId := j.spec.runId
    eventType := "job." ++ completion.outcome.value
    payload := .outcome j.jobId completion.leaseId j.attempt completion.error
    createdAt := now }
  match j.spec.successorEvent with
  | none => return db
  | some successor =>
    if completion.outcome = .succeeded ∧ successor ≠ "" then
      db.insertEvent {
        dedupeKey := attempt ++ ":successor"
        runId := j.spec.runId
        eventType := successor
        payload := .successor j.jobId j.spec.runId
        createdAt := now }
    else return db

def finishLease (db : Db) (l : Lease) (j : Job) (completion : Completion) (retryDelay now : Time) :
    Except RuntimeError (Job × Db) :=
  match db.runs.get? l.runId with
  | none => .error (.runNotFound l.runId)
  | some _ => do
    let db := db.setRun l.runId (spend j.spec.estimatedCost completion.chargedCost now)
    let db := db.setLease l.leaseId (closed .completed now (some completion.outcome))
    let db := db.setJob j.jobId (completedJob completion retryDelay now)
    let db ← db.completionEvents j completion now
    let result := completedJob completion retryDelay now j
    let db ← db.recordOperation {
      key := completionKey l.leaseId
      subject := j.jobId
      body := .jobCompletion completion result
      createdAt := now }
    return (result, db)

def completeJob (db : Db) (leaseId workerId : String) (outcome : JobOutcome) (actualCost : Option Rat)
    (error : Option String) (retryDelay now : Time) : Except RuntimeError (Job × Db) :=
  if actualCost.any fun cost => decide (cost < 0) then .error (.value "actual_cost must not be negative")
  else
    match db.leases.get? leaseId with
    | none => .error (.leaseNotFound leaseId)
    | some l =>
      if l.workerId ≠ workerId then .error (.leaseOwnership leaseId)
      else
        match db.jobs.get? l.jobId with
        | none => .error (.jobNotFound l.jobId)
        | some j =>
          let completion : Completion :=
            ⟨leaseId, workerId, outcome, actualCost, actualCost.getD j.spec.estimatedCost, normalizedError error⟩
          match db.operations.get? (completionKey leaseId) with
          | some op =>
            match op.completionResult l.jobId completion with
            | some result => .ok (result, db)
            | none => .error (.replayConflict leaseId)
          | none =>
            if l.status = .completed then
              if l.outcome ≠ some outcome then .error .outcomeConflict
              else do
                let db ← db.recordOperation {
                  key := completionKey leaseId
                  subject := l.jobId
                  body := .jobCompletion completion j
                  createdAt := l.completedAt.getD l.expiresAt }
                return (j, db)
            else if l.status ≠ .active then .error (.leaseStatus leaseId l.status)
            else if l.expiresAt ≤ now then
              -- the reconciliation before the exception is rolled back with it
              .error (.leaseExpired leaseId)
            else db.finishLease l j completion retryDelay now

def isActiveOf (jobs : List Job) (l : Lease) : Bool :=
  decide (l.status = .active) && jobs.any fun j => decide (j.jobId = l.jobId)

def isOpenOf (runId : String) (j : Job) : Bool :=
  decide (j.spec.runId = runId ∧ j.status ≠ .succeeded ∧ j.status ≠ .failed ∧ j.status ≠ .cancelled)

def cancelRun (db : Db) (runId reason : String) (now : Time) : Except RuntimeError (Run × Db) :=
  match db.runs.get? runId with
  | none => .error (.runNotFound runId)
  | some r =>
    if r.state = .delivered then .error .deliveryForbidden
    else if r.state.isTerminal then .ok (r, db)
    else if .cancelled ∉ r.state.allowed then .error (.illegalTransition r.state .cancelled)
    else do
      let active := db.jobs.select fun j => decide (j.spec.runId = runId) && isClaimed j
      let leases := db.leases.update (isActiveOf active) (closed .cancelled now none)
      let jobs := db.jobs.update (isOpenOf runId) fun j => withoutLease .cancelled j.readyAt (some reason) now j
      let db := { db with leases := leases, jobs := jobs }
      let cancelled := withoutReserve now r
      let db := db.setRun runId (withoutReserve now)
      let db ← db.insertEvent {
        dedupeKey := "run:" ++ runId ++ ":cancelled"
        runId := runId
        eventType := "run.cancelled"
        payload := .cancelled reason
        createdAt := now }
      return (cancelled, db)

def cancelled (db : Db) (runId reason : String) (now : Time) : Db :=
  { db with
    leases := db.leases.update (isActiveOf (db.jobs.select fun j => decide (j.spec.runId = runId) && isClaimed j))
      (closed .cancelled now none)
    jobs := db.jobs.update (isOpenOf runId) fun j => withoutLease .cancelled j.readyAt (some reason) now j
  }.setRun runId (withoutReserve now)

def ackEvent (db : Db) (dedupeKey : String) (now : Time) : Except RuntimeError (Event × Db) :=
  match db.outbox.get? dedupeKey with
  | none => .error (.eventNotFound dedupeKey)
  | some e =>
    let acked : Event := if e.status = .pending then { e with status := .acked, ackedAt := some now } else e
    .ok (acked, { db with
      outbox := db.outbox.update (fun e => decide (e.dedupeKey = dedupeKey ∧ e.status = .pending))
        fun e => { e with status := .acked, ackedAt := some now } })

end Db

inductive Call where
  | registerRun (runId projectId : String) (initialState : WorkflowState) (budgetCeiling : Rat)
  | transitionRun (runId : String) (target : WorkflowState) (idempotencyKey : Option String)
  | enqueueJob (spec : JobSpec)
  | claimNext (workerId : String) (leaseTime : Time) (leaseId : String)
  | completeJob (leaseId workerId : String) (outcome : JobOutcome) (actualCost : Option Rat)
      (error : Option String)
  | reconcile
  | cancelRun (runId reason : String)
  | ackEvent (dedupeKey : String)

inductive Answer where
  | run (r : Run)
  | job (j : Job)
  | lease (l : Option Lease)
  | report (r : ReconciliationReport)
  | event (e : Event)

structure Act where
  call : Call
  now : Time
  retryDelay : Time := 30000000

def Db.answer (limits : String → Option Nat) (db : Db) (a : Act) : Except RuntimeError (Answer × Db) :=
  match a.call with
  | .registerRun runId projectId initialState budgetCeiling =>
    (db.registerRun runId projectId initialState budgetCeiling a.now).map fun p => (.run p.1, p.2)
  | .transitionRun runId target idempotencyKey =>
    (db.transitionRun runId target idempotencyKey a.now).map fun p => (.run p.1, p.2)
  | .enqueueJob spec => (db.enqueueJob spec a.now).map fun p => (.job p.1, p.2)
  | .claimNext workerId leaseTime leaseId =>
    (db.claimNext limits workerId leaseTime a.retryDelay a.now leaseId).map fun p => (.lease p.1, p.2)
  | .completeJob leaseId workerId outcome actualCost error =>
    (db.completeJob leaseId workerId outcome actualCost error a.retryDelay a.now).map fun p => (.job p.1, p.2)
  | .reconcile => (db.reconcile a.retryDelay a.now).map fun p => (.report p.1, p.2)
  | .cancelRun runId reason => (db.cancelRun runId reason a.now).map fun p => (.run p.1, p.2)
  | .ackEvent dedupeKey => (db.ackEvent dedupeKey a.now).map fun p => (.event p.1, p.2)

/-- A call that raises leaves what is committed. -/
def step (limits : String → Option Nat) (db : Db) (a : Act) : Db :=
  match db.answer limits a with
  | .ok (_, db') => db'
  | .error _ => db

end Workflow
end DarkFactory
