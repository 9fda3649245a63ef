import DarkFactory.Lib.Table
import DarkFactory.Control.Contracts

/-!
# DarkFactory.Control.Store

The logical state of the control store: the tables of `_init_db`, with the columns the modelled
statements read or write. Both backends work on this state.

Primary keys are part of the tables (`Table`). The other constraints of the schema are checked
where a statement can break them: `UNIQUE (job key, fencing_token)` of `claims` (`insertClaim`),
`UNIQUE (project_id, demand_id, demand_version)` of `runs` (`insertRun`) and the two partial unique
indexes of `fleet_reservations` (`reservationClash`).
-/

namespace DarkFactory
namespace Control

inductive RunStatus where
  | active | completed | failed | cancelled
deriving DecidableEq

inductive JobStatus where
  | pending | running | succeeded | retry | replan | waitingDependency | waitingHuman | cancelled
  | failed
deriving DecidableEq

def RUN_OPEN_JOB_STATUSES : List JobStatus :=
  [.pending, .running, .waitingHuman, .waitingDependency]

def JobStatus.isOpen (s : JobStatus) : Bool := RUN_OPEN_JOB_STATUSES.contains s

/-- `status IN ('waiting_human', 'waiting_dependency')`. -/
def JobStatus.isWaiting (s : JobStatus) : Bool :=
  [JobStatus.waitingHuman, .waitingDependency].contains s

theorem JobStatus.open_of_waiting {s : JobStatus} (h : s.isWaiting = true) : s.isOpen = true := by
  cases s <;> first | rfl | exact absurd h (by decide)

theorem JobStatus.ne_running_of_waiting {s : JobStatus} (h : s.isWaiting = true) : s ≠ .running := by
  rintro rfl
  exact absurd h (by decide)

theorem JobStatus.ne_running_of_closed {s : JobStatus} (h : s.isOpen = false) : s ≠ .running := by
  rintro rfl
  exact absurd h (by decide)

/-- `'succeeded' if outcome == 'success' else outcome`. -/
def Outcome.dbStatus : Outcome → JobStatus
  | .success => .succeeded
  | .retry => .retry
  | .replan => .replan
  | .waitingDependency => .waitingDependency
  | .waitingHuman => .waitingHuman
  | .cancelled => .cancelled
  | .failed => .failed

theorem Outcome.dbStatus_ne_running (o : Outcome) : o.dbStatus ≠ .running := by
  cases o <;> decide

theorem Outcome.dbStatus_ne_pending (o : Outcome) : o.dbStatus ≠ .pending := by
  cases o <;> decide

inductive ClaimStatus where
  | active | released | expired | stolen
deriving DecidableEq

inductive ReservationStatus where
  | active | released | expired | stolen | draining | completed | failed | cancelled
deriving DecidableEq

/-- `status IN ('active', 'draining')`. -/
def ReservationStatus.isLive (s : ReservationStatus) : Bool := [.active, .draining].contains s

/-- The statuses a release answers again without a change. -/
def ReservationStatus.isReleased (s : ReservationStatus) : Bool :=
  [ReservationStatus.released, .completed, .failed, .cancelled].contains s

/-- The texts the `CHECK` of `fleet_reservations.status` admits. -/
def ReservationStatus.ofString? : String → Option ReservationStatus
  | "active" => some .active
  | "released" => some .released
  | "expired" => some .expired
  | "stolen" => some .stolen
  | "draining" => some .draining
  | "completed" => some .completed
  | "failed" => some .failed
  | "cancelled" => some .cancelled
  | _ => none

def ReservationStatus.text : ReservationStatus → String
  | .active => "active"
  | .released => "released"
  | .expired => "expired"
  | .stolen => "stolen"
  | .draining => "draining"
  | .completed => "completed"
  | .failed => "failed"
  | .cancelled => "cancelled"

structure Run where
  runId : String
  projectId : String
  demandId : String
  demandVersion : String
  mode : Mode
  status : RunStatus
  planDigest : String
  createdAt : DateTime
  updatedAt : DateTime
  completedAt : Option DateTime := none
  budgetResetAt : Option DateTime := none
deriving DecidableEq

structure Job where
  key : JobKey
  status : JobStatus
  role : String
  requiredCapabilities : List String
  fencingToken : Nat := 0
  currentLeaseId : Option String := none
  retryCount : Nat := 0
  maxRetries : Nat := 3
  causeCode : Option String := none
  actualCost : Rat := 0
  outputRefs : List String := []
  evidenceRefs : List String := []
  createdAt : DateTime
  updatedAt : DateTime
  startedAt : Option DateTime := none
  finishedAt : Option DateTime := none
  notBefore : Option String := none
  readyAt : Option DateTime := none
deriving DecidableEq

structure ClaimRow where
  leaseId : String
  jobKey : JobKey
  owner : String
  fencingToken : Nat
  reservationId : String
  routeRef : String
  acquiredAt : DateTime
  expiresAt : DateTime
  status : ClaimStatus
deriving DecidableEq

structure FleetReservation where
  reservationId : String
  projectId : String
  ticketId : String
  runId : String
  hostId : String
  status : ReservationStatus
  fencingToken : Nat := 1
  acquiredAt : DateTime
  heartbeatAt : DateTime
  expiresAt : DateTime
  metadata : List (String × String) := []
deriving DecidableEq

def FleetReservation.isActive (r : FleetReservation) : Bool := r.status = .active

inductive OutboxPayload where
  | intakeAccepted (runId projectId demandId stage : String)
  | jobFinished (runId ticketId stage : String) (iteration : Nat) (outcome : Outcome)
      (outputRefs : List String)
  | runCancelled (reason actor : String) (jobsCancelled : Nat)
  | stageMaterialized (runId ticketId sourceJob : String) (outcome : Outcome)
      (successors : List String)
deriving DecidableEq

structure OutboxRow where
  eventType : String
  aggregateType : String := "run"
  aggregateId : String
  payload : OutboxPayload
  targetSystem : String := "cloud_dbos"
  createdAt : DateTime
deriving DecidableEq

inductive LedgerTarget where
  | job (key : JobKey)
  | reservation (reservationId ticketId hostId : String)
deriving DecidableEq

structure LedgerRow where
  cycleId : String
  actionType : String
  targetKey : LedgerTarget
  reason : String := "lease_expired"
  recordedAt : DateTime
deriving DecidableEq

structure IntakeRow where
  channel : String
  externalId : String
  projectId : String
  payloadDigest : String
  payload : String
  mode : Mode
  policyRef : String
  demandId : String
  demandVersion : String
  runId : Option String
  initialJobId : Option String
  committedAt : DateTime
deriving DecidableEq

def IntakeRow.command (r : IntakeRow) : String × String := (r.channel, r.externalId)

structure Store where
  runs : Table Run.runId
  jobs : Table Job.key
  claims : Table ClaimRow.leaseId
  outbox : List OutboxRow
  externalOperations : Table ExternalOperation.operationKey
  reconciliationLedger : List LedgerRow
  intakeCommands : Table IntakeRow.command
  fleetReservations : Table FleetReservation.reservationId

namespace Store

/-- The database `_init_db` leaves. -/
def empty : Store where
  runs := .empty
  jobs := .empty
  claims := .empty
  outbox := []
  externalOperations := .empty
  reconciliationLedger := []
  intakeCommands := .empty
  fleetReservations := .empty

/-- `SELECT ... FROM jobs WHERE run_id = ? AND status IN (RUN_OPEN_JOB_STATUSES)`. -/
def openJobs (s : Store) (runId : String) : List Job :=
  s.jobs.select fun j => decide (j.key.runId = runId) && j.status.isOpen

theorem openJobs_eq_nil {s : Store} {runId : String} :
    s.openJobs runId = [] ↔ ∀ j, j ∈ s.jobs → j.key.runId = runId → j.status.isOpen = false := by
  rw [openJobs, List.eq_nil_iff_forall_not_mem]
  simp only [Table.mem_select, Bool.and_eq_true, decide_eq_true_eq, not_and, Bool.not_eq_true]

/-- `INSERT INTO runs`; `none` when the primary key or the demand version is taken. -/
def insertRun (s : Store) (r : Run) : Option (Table Run.runId) :=
  if s.runs.any fun q => decide (q.projectId = r.projectId) && decide (q.demandId = r.demandId) &&
      decide (q.demandVersion = r.demandVersion) then none
  else s.runs.insert? r

/-- `INSERT INTO claims`; `none` when the lease id or (job key, fencing token) is taken. -/
def insertClaim (s : Store) (c : ClaimRow) : Option (Table ClaimRow.leaseId) :=
  if s.claims.any fun d => decide (d.jobKey = c.jobKey) && decide (d.fencingToken = c.fencingToken)
  then none
  else s.claims.insert? c

/-- Making `r` active breaks one of the two partial unique indexes. -/
def reservationClash (s : Store) (r : FleetReservation) : Bool :=
  s.fleetReservations.any fun q => decide (q.reservationId ≠ r.reservationId) && q.isActive &&
    (decide (q.hostId = r.hostId) ||
      (decide (q.projectId = r.projectId) && decide (q.ticketId = r.ticketId)))

def closedRun (status : RunStatus) (now : DateTime) (r : Run) : Run :=
  { r with status := status, completedAt := some now, updatedAt := now }

theorem closedRun_runId (status : RunStatus) (now : DateTime) (r : Run) :
    (closedRun status now r).runId = r.runId := rfl

/-- `UPDATE runs SET status, completed_at = now, updated_at = now WHERE run_id = ?`. -/
def closeRun (s : Store) (runId : String) (status : RunStatus) (now : DateTime) : Store :=
  { s with
    runs := s.runs.update (fun r => decide (r.runId = runId)) (closedRun status now)
      (closedRun_runId status now) }

theorem mem_closeRun {s : Store} {runId : String} {status : RunStatus} {now : DateTime} {r' : Run} :
    r' ∈ (s.closeRun runId status now).runs ↔
      ∃ r, r ∈ s.runs ∧ r' = if r.runId = runId then closedRun status now r else r := by
  show r' ∈ Table.update s.runs _ _ (closedRun_runId status now) ↔ _
  rw [Table.mem_update]
  simp only [decide_eq_true_eq, eq_comm (b := r')]

end Store

end Control
end DarkFactory
