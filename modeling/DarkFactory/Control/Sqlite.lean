import Mathlib.Data.List.Sort
import DarkFactory.Control.Store

/-!
# DarkFactory.Control.Sqlite

`SQLiteControlStore`: intake, claims and the job life cycle. Each public method is one
`BEGIN IMMEDIATE` transaction, so a method is a function of the whole state. `Except.error` is an
exception raised after a rollback: the state is the one before the call. `datetime.now`, `uuid4` and
the process environment are arguments (`now`, the `ids`, `Env`).

Rows are read in insertion order, which is what `fetchone` and `fetchall` without `ORDER BY` give;
`ORDER BY created_at` sorts them stably by the text of `created_at`.
-/

namespace DarkFactory
namespace Control
namespace Sqlite

def integrityError (table : String) : Raised :=
  { cls := .integrityError, message := "constraint failed: " ++ table }

def stale (message : String) : Raised := { cls := .staleLeaseError, message := message }

def unboundNowComp : Raised :=
  { cls := .unboundLocalError
    message := "cannot access local variable 'now_comp' where it is not associated with a value" }

/-- The branch of the naive/aware alignment that leaves `now_comp` unassigned. -/
def leavesUnbound (expires now : DateTime) : Bool :=
  expires.utcoffset.isNone && now.utcoffset.isSome

structure IntakeIds where
  demand : String
  run : String
  job : String
deriving DecidableEq

def receiptOf (r : IntakeRow) : IntakeReceipt where
  demandId := r.demandId
  demandVersion := r.demandVersion
  runId := if r.mode = .autonomous then r.runId else none
  initialJobId := if r.mode = .autonomous then r.initialJobId else none
  mode := r.mode
  committedAt := r.committedAt

/-- The `runs` row of a new intake. -/
def intakeRun (command : IntakeCommand) (runId demandId : String) (now : DateTime) : Run where
  runId := runId
  projectId := command.projectId
  demandId := demandId
  demandVersion := "1.0"
  mode := command.mode
  status := match command.mode with
    | .autonomous => .active
    | .documentary => .completed
  planDigest := command.payload.digest
  createdAt := now
  updatedAt := now
  completedAt := match command.mode with
    | .autonomous => none
    | .documentary => some now

/-- The initial `grill` job of an autonomous intake. -/
def initialJob (command : IntakeCommand) (runId : String) (now : DateTime) : Job where
  key := ⟨runId, command.payload.ticketId.getD command.projectId, "1.0", "grill", 0⟩
  status := .pending
  role := "grill_engine"
  requiredCapabilities := []
  createdAt := now
  updatedAt := now
  readyAt := some now

/-- The `intake_commands` row of a new intake. -/
def intakeRow (command : IntakeCommand) (demandId : String) (runId initialJobId : Option String)
    (now : DateTime) : IntakeRow where
  channel := command.channel
  externalId := command.externalId
  projectId := command.projectId
  payloadDigest := command.payload.digest
  payload := command.payload.text
  mode := command.mode
  policyRef := command.policyRef
  demandId := demandId
  demandVersion := "1.0"
  runId := runId
  initialJobId := initialJobId
  committedAt := now

def accept (command : IntakeCommand) (ids : IntakeIds) (now : DateTime) (s : Store) :
    Except Raised (IntakeReceipt × Store) :=
  match s.intakeCommands.get? (command.channel, command.externalId) with
  | some existing =>
    if existing.payloadDigest ≠ command.payload.digest then
      .error
        { cls := .idempotencyConflict
          message := "Command with channel='" ++ command.channel ++ "' and external_id='" ++
            command.externalId ++ "' already accepted with different payload digest." }
    else .ok (receiptOf existing, s)
  | none =>
    let demandId := "dem-" ++ ids.demand
    match command.mode with
    | .autonomous =>
      let runId := "run-" ++ ids.run
      let row := intakeRow command demandId (some runId) (some ("job-" ++ ids.job)) now
      match s.insertRun (intakeRun command runId demandId now) with
      | none => .error (integrityError "runs")
      | some runs =>
        match s.jobs.insert? (initialJob command runId now) with
        | none => .error (integrityError "jobs")
        | some jobs =>
          match s.intakeCommands.insert? row with
          | none => .error (integrityError "intake_commands")
          | some intakeCommands =>
            .ok (receiptOf row,
              { s with
                runs := runs
                jobs := jobs
                intakeCommands := intakeCommands
                outbox := s.outbox ++
                  [{ eventType := "intake_accepted"
                     aggregateId := runId
                     payload := .intakeAccepted runId command.projectId demandId "grill"
                     createdAt := now }] })
    | .documentary =>
      let row := intakeRow command demandId none none now
      match s.insertRun (intakeRun command ("doc-" ++ demandId) demandId now) with
      | none => .error (integrityError "runs")
      | some runs =>
        match s.intakeCommands.insert? row with
        | none => .error (integrityError "intake_commands")
        | some intakeCommands =>
          .ok (receiptOf row, { s with runs := runs, intakeCommands := intakeCommands })

structure ClaimIds where
  lease : String
  reservation : String
deriving DecidableEq

def isReadyEnough (createdAt now : DateTime) (readyAgeSec : Rat) : Bool :=
  decide (readyAgeSec ≤ (now.since createdAt : Rat) / 1000000)

/-- The `not_before` gate of a pending row; a text that does not parse gates nothing. -/
def postponed (env : Env) (now : DateTime) (row : Job) : Bool :=
  match row.notBefore with
  | none => false
  | some text =>
    if text = "" then false
    else
      match env.fromisoformat text with
      | none => false
      | some notBefore => now.lt notBefore

/-- The live reservation a claim on `runId` is subordinated to. -/
def liveReservation (s : Store) (runId : String) : Option FleetReservation :=
  (s.fleetReservations.select fun r => decide (r.runId = runId) && r.status.isLive).head?

/-- Host affinity: the two names contain one another, in either direction. -/
def hostMatches (env : Env) (hostId worker : String) : Bool :=
  Text.contains (env.lower hostId) (env.lower worker) ||
    Text.contains (env.lower worker) (env.lower hostId)

/-- The row passes the capability and `not_before` filters of the claim loop. -/
def offerable (env : Env) (capabilities : List String) (now : DateTime) (row : Job) : Bool :=
  row.requiredCapabilities.all (fun c => capabilities.contains c) && !postponed env now row

/-- What the claim loop decides about one pending row: `none` is `continue`; otherwise the row is
chosen, under the reservation it matched, if any. -/
def claimable (env : Env) (worker : String) (capabilities : List String) (now : DateTime)
    (readyAgeSec : Rat) (s : Store) (row : Job) : Option (Option String) :=
  if !offerable env capabilities now row then none
  else
    match liveReservation s row.key.runId with
    | some r =>
      if r.expiresAt.le now then none
      else if !hostMatches env r.hostId worker then none
      else some (some r.reservationId)
    | none =>
      if env.fleetManagedEnabled then none
      else if decide (0 < readyAgeSec) &&
          !isReadyEnough (row.readyAt.getD row.createdAt) now readyAgeSec then none
      else some none

/-- `SELECT ... FROM jobs WHERE status = 'pending' ORDER BY created_at ASC`. -/
def pendingByCreation (s : Store) : List Job :=
  (s.jobs.select fun j => decide (j.status = .pending)).insertionSort
    fun a b => a.createdAt.textLe b.createdAt = true

def readReservation (env : Env) (capabilities : List String) (now : DateTime) (s : Store)
    (row : Job) : Option FleetReservation :=
  if offerable env capabilities now row then liveReservation s row.key.runId else none

/-- The row the claim loop breaks at. `bound` says that `now_comp` was assigned at an earlier row;
it then keeps the value `now`, which the branch that leaves it unassigned goes on to read. -/
def chosenRow (env : Env) (worker : String) (capabilities : List String) (now : DateTime)
    (readyAgeSec : Rat) (s : Store) : Bool → List Job → Except Raised (Option (Job × Option String))
  | _, [] => .ok none
  | bound, row :: rows =>
    match readReservation env capabilities now s row with
    | some r =>
      if !bound && leavesUnbound r.expiresAt now then .error unboundNowComp
      else
        match claimable env worker capabilities now readyAgeSec s row with
        | some matched => .ok (some (row, matched))
        | none => chosenRow env worker capabilities now readyAgeSec s true rows
    | none =>
      match claimable env worker capabilities now readyAgeSec s row with
      | some matched => .ok (some (row, matched))
      | none => chosenRow env worker capabilities now readyAgeSec s bound rows

/-- `UPDATE jobs SET status = 'running', ...` of a claim. -/
def leaseJobs (s : Store) (row : Job) (leaseId : String) (now : DateTime) : Table Job.key :=
  s.jobs.update (fun j => decide (j.key = row.key) && decide (j.fencingToken = row.fencingToken))
    fun j =>
      { j with
        status := .running
        fencingToken := row.fencingToken + 1
        currentLeaseId := some leaseId
        startedAt := some now
        updatedAt := now }

def renewMatched (s : Store) (matched : Option String) (now expiresAt : DateTime) :
    Table FleetReservation.reservationId :=
  match matched with
  | none => s.fleetReservations
  | some id =>
    s.fleetReservations.update (fun r => decide (r.reservationId = id) && r.isActive) fun r =>
      { r with heartbeatAt := now, expiresAt := expiresAt }

/-- The `claims` row of a claim on `row`. -/
def claimRow (env : Env) (worker : String) (now : DateTime) (ids : ClaimIds) (row : Job)
    (matched : Option String) : ClaimRow where
  leaseId := "lease-" ++ ids.lease
  jobKey := row.key
  owner := worker
  fencingToken := row.fencingToken + 1
  reservationId := matched.getD ("res-" ++ ids.reservation)
  routeRef := "default"
  acquiredAt := now
  expiresAt := now.addSeconds env.leaseDurationSec
  status := .active

/-- The claim a worker receives for a `claims` row. -/
def claimOf (c : ClaimRow) : Claim where
  jobKey := c.jobKey
  leaseId := c.leaseId
  owner := c.owner
  fencingToken := c.fencingToken
  acquiredAt := some c.acquiredAt
  expiresAt := c.expiresAt
  reservationId := c.reservationId
  routeRef := c.routeRef

/-- The state a claim on `row` leaves; `claims` is the table with the new row. -/
def claimed (env : Env) (now : DateTime) (ids : ClaimIds) (row : Job)
    (matched : Option String) (claims : Table ClaimRow.leaseId) (s : Store) : Store :=
  { s with
    jobs := leaseJobs s row ("lease-" ++ ids.lease) now
    claims := claims
    fleetReservations := renewMatched s matched now (now.addSeconds env.leaseDurationSec) }

-- The `rowcount != 1` branch of the source is not reachable here: the row was read in the same
-- transaction, with the token the UPDATE asks for.
def claim (env : Env) (worker : String) (capabilities : List String) (now : DateTime)
    (readyAgeSec : Rat) (ids : ClaimIds) (s : Store) : Except Raised (Option Claim × Store) :=
  match chosenRow env worker capabilities now readyAgeSec s false (pendingByCreation s) with
  | .error e => .error e
  | .ok none => .ok (none, s)
  | .ok (some (row, matched)) =>
    match s.insertClaim (claimRow env worker now ids row matched) with
    | none => .error (integrityError "claims")
    | some claims =>
      .ok (some (claimOf (claimRow env worker now ids row matched)), claimed env now ids row matched claims s)

def heartbeat (env : Env) (claim : Claim) (now : DateTime) (s : Store) : Except Raised (Claim × Store) :=
  match s.claims.get? claim.leaseId with
  | none => .error (stale ("Lease '" ++ claim.leaseId ++ "' is not active in store."))
  | some row =>
    if row.status ≠ .active then
      .error (stale ("Lease '" ++ claim.leaseId ++ "' is not active in store."))
    else if row.expiresAt.le now then
      .error (stale ("Lease '" ++ claim.leaseId ++ "' expired at " ++ row.expiresAt.isoformat ++ "."))
    else
      match s.jobs.get? claim.jobKey with
      | none => .error (stale ("Job '" ++ claim.jobKey.canonicalKey ++ "' not found."))
      | some job =>
        if job.fencingToken ≠ claim.fencingToken ∨ job.currentLeaseId ≠ some claim.leaseId then
          .error (stale ("Fencing token mismatch for job: job=" ++ toString job.fencingToken ++
            ", claim=" ++ toString claim.fencingToken))
        else
          match if claim.fleetBound then s.fleetReservations.get? claim.reservationId else none with
          | some r =>
            if r.status.isLive && leavesUnbound r.expiresAt now then .error unboundNowComp
            else if !r.status.isLive || r.expiresAt.le now then
              .error (stale ("Fleet cycle reservation '" ++ claim.reservationId ++
                "' is no longer active (" ++ r.status.text ++ ")."))
            else beat
          | none => beat
where
  beat : Except Raised (Claim × Store) :=
    let expiresAt := now.addSeconds env.leaseDurationSec
    .ok ({ claim with expiresAt := expiresAt },
      { s with
        claims := s.claims.update
          (fun c => decide (c.leaseId = claim.leaseId) &&
            decide (c.fencingToken = claim.fencingToken) && decide (c.status = .active))
          fun c => { c with expiresAt := expiresAt }
        jobs := s.jobs.update
          (fun j => decide (j.key = claim.jobKey) && decide (j.fencingToken = claim.fencingToken))
          fun j => { j with updatedAt := now } })

/-- The error of a finish whose lease is not active: `_raise_if_cycle_reservation_inactive` names
the cycle fence when that is the cause. -/
def inactiveLease (claim : Claim) (s : Store) : Raised :=
  match if claim.fleetBound then s.fleetReservations.get? claim.reservationId else none with
  | some r =>
    if !r.status.isLive then
      stale ("Fleet cycle reservation '" ++ claim.reservationId ++ "' is no longer active (" ++
        r.status.text ++ "). Old owner cannot publish.")
    else stale ("Lease '" ++ claim.leaseId ++ "' is not active.")
  | none => stale ("Lease '" ++ claim.leaseId ++ "' is not active.")

/-- `_check_finish_reservation_fence`: a fleet claim publishes only while its reservation is live
and unexpired. -/
def checkFinishReservationFence (claim : Claim) (now : DateTime) (s : Store) : Except Raised Unit :=
  if claim.fleetBound then
    match s.fleetReservations.get? claim.reservationId with
    | none =>
      .error (stale ("Fleet cycle reservation '" ++ claim.reservationId ++
        "' is missing. Old owner cannot publish."))
    | some r =>
      if !r.status.isLive || r.expiresAt.le now then
        .error (stale ("Fleet cycle reservation '" ++ claim.reservationId ++
          "' is no longer active (" ++ r.status.text ++ "). Old owner cannot publish."))
      else .ok ()
  else .ok ()

/-- The checks of `finish`, in their order; the result is the job row they read. -/
def finishGuard (claim : Claim) (result : StageResult) (now : DateTime) (s : Store) : Except Raised Job :=
  if result.outcome = .success ∧ result.outputRefs = [] then
    .error
      { cls := .invalidResultError
        message := "outcome='success' requires non-empty output_refs" }
  else
    match s.claims.get? claim.leaseId with
    | none => .error (inactiveLease claim s)
    | some row =>
      if row.status ≠ .active then .error (inactiveLease claim s)
      else if row.expiresAt.le now then
        .error (stale ("Lease '" ++ claim.leaseId ++ "' has expired at " ++ row.expiresAt.isoformat ++ "."))
      else
        match checkFinishReservationFence claim now s with
        | .error e => .error e
        | .ok () =>
          match s.jobs.get? claim.jobKey with
          | none => .error (stale "Job not found.")
          | some job =>
            if job.fencingToken ≠ claim.fencingToken ∨ job.currentLeaseId ≠ some claim.leaseId then
              .error (stale ("Fencing token mismatch on finish: job=" ++
                toString job.fencingToken ++ ", claim=" ++ toString claim.fencingToken))
            else .ok job

/-- `text or default`. -/
def orText (text : Option String) (fallback : String) : String :=
  match text with
  | none => fallback
  | some t => if t = "" then fallback else t

/-- The UPDATE of `jobs` each outcome makes; `causeCode` is already normalized. -/
def finishedJob (result : StageResult) (causeCode : Option String) (now : DateTime) (j : Job) : Job :=
  match result.outcome with
  | .success =>
    { j with
      status := .succeeded
      causeCode := causeCode
      actualCost := j.actualCost + result.actualCost
      outputRefs := result.outputRefs
      evidenceRefs := result.evidenceRefs
      finishedAt := some now
      updatedAt := now
      currentLeaseId := none }
  | .retry =>
    if j.retryCount < j.maxRetries then
      { j with
        status := .pending
        retryCount := j.retryCount + 1
        causeCode := causeCode
        currentLeaseId := none
        updatedAt := now }
    else
      { j with
        status := .failed
        causeCode := some (orText causeCode "MAX_RETRIES_EXCEEDED")
        finishedAt := some now
        updatedAt := now
        currentLeaseId := none }
  | .failed | .cancelled =>
    { j with
      status := result.outcome.dbStatus
      causeCode := causeCode
      finishedAt := some now
      updatedAt := now
      currentLeaseId := none }
  | .replan | .waitingDependency | .waitingHuman =>
    { j with
      status := result.outcome.dbStatus
      causeCode := causeCode
      updatedAt := now
      currentLeaseId := none }

/-- An unsuccessful stage keeps its evidence refs; empty ones never clobber a value. -/
def keepEvidence (result : StageResult) (j : Job) : Job :=
  if result.outcome ≠ .success ∧ result.evidenceRefs ≠ [] then
    { j with evidenceRefs := result.evidenceRefs }
  else j

def finishRow (env : Env) (result : StageResult) (now : DateTime) (j : Job) : Job :=
  keepEvidence result (finishedJob result (normalizeCauseCode env result.causeCode) now j)

theorem finishRow_key (env : Env) (result : StageResult) (now : DateTime) (j : Job) :
    (finishRow env result now j).key = j.key := by
  unfold finishRow keepEvidence finishedJob
  cases result.outcome <;> simp only <;> repeat' split
  all_goals rfl

/-- The tables after the UPDATEs of `jobs` and `claims`. -/
def finishTables (env : Env) (claim : Claim) (result : StageResult) (now : DateTime) (s : Store) : Store :=
  { s with
    jobs := s.jobs.update
      (fun j => decide (j.key = claim.jobKey) && decide (j.fencingToken = claim.fencingToken))
      (finishRow env result now) (finishRow_key env result now)
    claims := s.claims.update (fun c => decide (c.leaseId = claim.leaseId)) fun c =>
      { c with status := .released } }

/-- What a finish writes once its checks have passed. Only `success` emits an event and, when no
job of the run is open any more, closes the run. -/
def finishApply (env : Env) (claim : Claim) (result : StageResult) (now : DateTime) (s : Store) : Store :=
  let s' := finishTables env claim result now s
  match result.outcome with
  | .success =>
    let jk := claim.jobKey
    let s' :=
      { s' with
        outbox := s'.outbox ++
          [{ eventType := "job_finished"
             aggregateId := jk.runId
             payload := .jobFinished jk.runId jk.ticketId jk.stage jk.iteration result.outcome
               result.outputRefs
             createdAt := now }] }
    if s'.openJobs jk.runId = [] then s'.closeRun jk.runId .completed now else s'
  | _ => s'

def finish (env : Env) (claim : Claim) (result : StageResult) (now : DateTime) (s : Store) : Except Raised Store :=
  match finishGuard claim result now s with
  | .error e => .error e
  | .ok _ => .ok (finishApply env claim result now s)

structure Repair where
  action : String
  jobKey : JobKey
  leaseId : String
deriving DecidableEq

/-- `cursor` is echoed back and `next_cursor` is always `None`. -/
structure ReconcilePage where
  visitedProjects : List String
  repairedKeys : List Repair
  cycleId : String
deriving DecidableEq

def requeuedJob (now : DateTime) (j : Job) : Job :=
  if j.retryCount < j.maxRetries then
    { j with
      status := .pending
      fencingToken := j.fencingToken + 1
      currentLeaseId := none
      retryCount := j.retryCount + 1
      causeCode := some "LEASE_EXPIRED"
      updatedAt := now }
  else
    { j with
      status := .failed
      fencingToken := j.fencingToken + 1
      currentLeaseId := none
      causeCode := some "MAX_RETRIES_EXCEEDED"
      finishedAt := some now
      updatedAt := now }

theorem requeuedJob_key (now : DateTime) (j : Job) : (requeuedJob now j).key = j.key := by
  unfold requeuedJob
  split <;> rfl

def reconcileClaim (cycleId : String) (now : DateTime) (acc : Store × List Repair) (c : ClaimRow) :
    Store × List Repair :=
  let s : Store := { acc.1 with
    claims := acc.1.claims.update (fun d => decide (d.leaseId = c.leaseId)) fun d =>
      { d with status := .expired } }
  match s.jobs.get? c.jobKey with
  | none => (s, acc.2)
  | some job =>
    if job.fencingToken = c.fencingToken then
      let action := if job.retryCount < job.maxRetries then "requeued_job" else "failed_job"
      ({ s with
          jobs := s.jobs.update (fun j => decide (j.key = c.jobKey)) (requeuedJob now)
            (requeuedJob_key now)
          reconciliationLedger := s.reconciliationLedger ++
            [{ cycleId := cycleId
               actionType := action
               targetKey := .job c.jobKey
               recordedAt := now }] },
        acc.2 ++ [{ action := action, jobKey := c.jobKey, leaseId := c.leaseId }])
    else (s, acc.2)

/-- The claims a sweep takes. The column admits no `'draining'`, so the `IN` asks for active ones. -/
def expiredClaims (s : Store) (now : DateTime) : List ClaimRow :=
  s.claims.select fun c => decide (c.status = .active) && c.expiresAt.textLe now

/-- `SELECT DISTINCT project_id FROM runs WHERE status = 'active'`. -/
def visitedProjects (s : Store) : List String :=
  ((s.runs.select fun r => decide (r.status = .active)).map Run.projectId).eraseDups

def reconcile (now : DateTime) (limit : Nat) (cycle : String) (s : Store) : ReconcilePage × Store :=
  let cycleId := "cycle-" ++ cycle
  let swept := ((expiredClaims s now).take limit).foldl (reconcileClaim cycleId now) (s, [])
  ({ visitedProjects := visitedProjects swept.1, repairedKeys := swept.2, cycleId := cycleId },
    swept.1)

/-- The UPDATEs of `runs` a resume makes: a route outage starts the wall-clock budget afresh, and a
completed run is active again. -/
def reopenRun (s : Store) (runId : String) (resetBudget : Bool) (now : DateTime) : Table Run.runId :=
  let runs : Table Run.runId :=
    s.runs.update (fun r => decide (r.runId = runId) && resetBudget) fun r =>
      { r with budgetResetAt := some now }
  runs.update (fun r => decide (r.runId = runId) && decide (r.status = .completed)) fun r =>
    { r with status := .active, completedAt := none, updatedAt := now }

def resumeJob (key : JobKey) (now : DateTime) (s : Store) : Bool × Store :=
  match s.jobs.get? key with
  | none => (false, s)
  | some parked =>
    if !parked.status.isWaiting then (false, s)
    else
      let resetBudget := Text.startsWith (parked.causeCode.getD "") "no_route_available"
      (true,
        { s with
          jobs := s.jobs.update (fun j => decide (j.key = key) && j.status.isWaiting) fun j =>
            { j with status := .pending, readyAt := some now, notBefore := none, updatedAt := now }
          runs := reopenRun s key.runId resetBudget now })

/-- The reply dictionary of `cancel_run`. -/
inductive CancelReply where
  | notFound (error : String)
  | ok (jobsCancelled : Nat) (message : String)
deriving DecidableEq

def cancelledJob (reason : String) (now : DateTime) (j : Job) : Job :=
  { j with
    status := .cancelled
    causeCode := some reason
    finishedAt := some now
    updatedAt := now
    currentLeaseId := none }

theorem cancelledJob_key (reason : String) (now : DateTime) (j : Job) :
    (cancelledJob reason now j).key = j.key := rfl

def cancelRun (runId reason actor : String) (now : DateTime) (s : Store) : CancelReply × Store :=
  match s.runs.get? runId with
  | none => (.notFound ("run not found: " ++ runId), s)
  | some _ =>
    let jobsCancelled := (s.openJobs runId).length
    let s' : Store :=
      { s with
        jobs := s.jobs.update (fun j => decide (j.key.runId = runId) && j.status.isOpen)
          (cancelledJob reason now) (cancelledJob_key reason now)
        claims := s.claims.update
          (fun c => decide (c.jobKey.runId = runId) && decide (c.status = .active)) fun c =>
          { c with status := .released }
        fleetReservations := s.fleetReservations.update
          (fun r => decide (r.runId = runId) && r.status.isLive) fun r =>
          { r with status := .cancelled, heartbeatAt := now } }
    let s' := s'.closeRun runId .cancelled now
    (.ok jobsCancelled ("Run " ++ runId ++ " cancelado com sucesso (" ++ toString jobsCancelled ++
        " jobs cancelados)."),
      { s' with
        outbox := s'.outbox ++
          [{ eventType := "run_cancelled"
             aggregateId := runId
             payload := .runCancelled reason actor jobsCancelled
             targetSystem := "audit"
             createdAt := now }] })

/-- `clock` is `datetime.now(UTC)`, read when `observed_at` is empty. -/
def recordOperation (operation : ExternalOperation) (claim : Claim) (clock : DateTime) (s : Store) :
    Except Raised Store :=
  match s.claims.get? claim.leaseId with
  | none => .error (stale ("Lease '" ++ claim.leaseId ++ "' is not active."))
  | some row =>
    if row.status ≠ .active then .error (stale ("Lease '" ++ claim.leaseId ++ "' is not active."))
    else if row.fencingToken ≠ claim.fencingToken then
      .error (stale "Fencing token mismatch on claim.")
    else
      match s.jobs.get? claim.jobKey with
      | none => .error (stale "Job not found.")
      | some job =>
        if job.fencingToken ≠ claim.fencingToken ∨ job.currentLeaseId ≠ some claim.leaseId then
          .error (stale "Job fencing token mismatch.")
        else
          match if claim.fleetBound then s.fleetReservations.get? claim.reservationId else none with
          | some r =>
            if !r.status.isLive || r.expiresAt.lt (operation.observedAt.getD clock) then
              .error (stale ("Fleet cycle reservation '" ++ claim.reservationId ++
                "' is no longer active (" ++ r.status.text ++
                "). Old owner cannot record operation."))
            else .ok record
          | none => .ok record
where
  record : Store :=
    let row := { operation with claimLeaseId := some claim.leaseId, fencingToken := claim.fencingToken }
    { s with
      externalOperations := (s.externalOperations.insertIgnore row).update
        (fun o => decide (o.operationKey = operation.operationKey)) fun o =>
        { row with operationKey := o.operationKey } }

end Sqlite
end Control
end DarkFactory
