import DarkFactory.Control.Sqlite

/-!
# DarkFactory.Control.Fleet

`SQLiteControlStore`: fleet cycle reservations. A reservation binds the cycle of one ticket to one
host; while it lives, the stages of its run are claimed under it.

`heartbeatReservation` is the one operation that commits and then raises: it answers with an
`Except` next to the state it leaves.
-/

namespace DarkFactory
namespace Control
namespace Sqlite

def fleetRequeued (now : DateTime) (j : Job) : Job :=
  { j with
    status := .pending
    causeCode := some "FLEET_RESERVATION_EXPIRED"
    fencingToken := j.fencingToken + 1
    currentLeaseId := none
    startedAt := none
    updatedAt := now }

theorem fleetRequeued_key (now : DateTime) (j : Job) : (fleetRequeued now j).key = j.key := rfl

def releasedClaim (c : ClaimRow) : ClaimRow := { c with status := .released }

theorem releasedClaim_leaseId (c : ClaimRow) : (releasedClaim c).leaseId = c.leaseId := rfl

def requeueExpiredFleetRun (runId : String) (now : DateTime) (s : Store) : Store :=
  { s with
    jobs := s.jobs.update (fun j => decide (j.key.runId = runId) && decide (j.status = .running))
      (fleetRequeued now) (fleetRequeued_key now)
    claims := s.claims.update
      (fun c => decide (c.jobKey.runId = runId) && decide (c.status = .active))
      releasedClaim releasedClaim_leaseId }

/-- `status IN ('active', 'draining') AND expires_at <= ?`. -/
def isExpiring (now : DateTime) (r : FleetReservation) : Bool :=
  r.status.isLive && r.expiresAt.textLe now

def expired (r : FleetReservation) : FleetReservation := { r with status := .expired }

theorem expired_id (r : FleetReservation) : (expired r).reservationId = r.reservationId := rfl

def expireFleetReservations (now : DateTime) (s : Store) : Store :=
  let expiringRuns := (s.fleetReservations.select (isExpiring now)).map FleetReservation.runId
  let s' : Store := { s with
    fleetReservations := s.fleetReservations.update (isExpiring now) expired expired_id }
  expiringRuns.foldl (fun s runId => requeueExpiredFleetRun runId now s) s'

structure CycleRequest where
  projectId : String
  ticketId : String
  runId : String
  hostId : String
  leaseDurationSec : Int := 45
  maxFleetSlots : Int := 3
  metadata : List (String × String) := []
deriving DecidableEq

def ticketAlreadyActive (request : CycleRequest) (r : FleetReservation) : Raised where
  cls := .ticketAlreadyActiveError
  message := "Ticket '" ++ request.ticketId ++ "' in project '" ++ request.projectId ++
    "' already has active reservation '" ++ r.reservationId ++ "' on host '" ++ r.hostId ++ "'."
  existingExecution :=
    [("reservation_id", r.reservationId), ("project_id", r.projectId), ("ticket_id", r.ticketId),
      ("run_id", r.runId), ("host_id", r.hostId)]

def newReservation (request : CycleRequest) (id : String) (now : DateTime) : FleetReservation where
  reservationId := "fres-" ++ id
  projectId := request.projectId
  ticketId := request.ticketId
  runId := request.runId
  hostId := request.hostId
  status := .active
  acquiredAt := now
  heartbeatAt := now
  expiresAt := now.addSeconds request.leaseDurationSec
  metadata := request.metadata

def activeForTicket (s : Store) (projectId ticketId : String) : Option FleetReservation :=
  (s.fleetReservations.select fun r =>
    decide (r.projectId = projectId) && decide (r.ticketId = ticketId) && r.isActive).head?

def activeForHost (s : Store) (hostId : String) : Option FleetReservation :=
  (s.fleetReservations.select fun r => decide (r.hostId = hostId) && r.isActive).head?

def activeCount (s : Store) : Nat :=
  (s.fleetReservations.select FleetReservation.isActive).length

-- The insert can break neither partial index: the rows it would clash with were looked up just
-- before, in the same transaction.
def reserveCycle (request : CycleRequest) (id : String) (now : DateTime) (s : Store) :
    Except Raised (FleetReservation × Store) :=
  let s' := expireFleetReservations now s
  match activeForTicket s' request.projectId request.ticketId with
  | some r =>
    if r.runId = request.runId ∧ r.hostId = request.hostId then .ok (r, s')
    else .error (ticketAlreadyActive request r)
  | none =>
    match activeForHost s' request.hostId with
    | some r =>
      .error
        { cls := .hostBusyError
          message := "Host '" ++ request.hostId ++ "' already has active reservation '" ++
            r.reservationId ++ "' for ticket '" ++ r.ticketId ++ "'." }
    | none =>
      if request.maxFleetSlots ≤ activeCount s' then
        .error
          { cls := .fleetCapacityExceededError
            message := "Fleet capacity ceiling of " ++ toString request.maxFleetSlots ++
              " active cycles reached (currently " ++ toString (activeCount s') ++ " active)." }
      else
        match s'.fleetReservations.insert? (newReservation request id now) with
        | none =>
          .error
            { cls := .reservationConflictError
              message := "Fleet reservation integrity conflict: " ++
                "UNIQUE constraint failed: fleet_reservations.reservation_id" }
        | some fleetReservations =>
          .ok (newReservation request id now, { s' with fleetReservations := fleetReservations })

/-- `UPDATE fleet_reservations SET ... WHERE reservation_id = ?`. -/
def setReservation (reservationId : String) (f : FleetReservation → FleetReservation) (s : Store)
    (h : ∀ r, (f r).reservationId = r.reservationId := by intro _; rfl) : Store :=
  { s with
    fleetReservations := s.fleetReservations.update
      (fun r => decide (r.reservationId = reservationId)) f h }

/-- A heartbeat that finds its reservation expired commits the expiry before it raises. -/
def heartbeatReservation (env : Env) (reservationId : String) (fencingToken : Nat)
    (now : DateTime) (leaseDurationSec : Option Int) (s : Store) :
    Except Raised FleetReservation × Store :=
  match s.fleetReservations.get? reservationId with
  | none => (.error (stale ("Reservation '" ++ reservationId ++ "' not found.")), s)
  | some row =>
    if !row.status.isLive then
      (.error (stale ("Reservation '" ++ reservationId ++ "' is in non-active status '" ++
        row.status.text ++ "'.")), s)
    else if row.fencingToken ≠ fencingToken then
      (.error (stale ("Fencing token mismatch on heartbeat: token=" ++ toString fencingToken ++
        ", active=" ++ toString row.fencingToken ++ ".")), s)
    else if leavesUnbound row.expiresAt now then (.error unboundNowComp, s)
    else if row.expiresAt.le now then
      (.error (stale ("Reservation '" ++ reservationId ++ "' expired at " ++ row.expiresAt.isoformat ++ ".")),
        requeueExpiredFleetRun row.runId now
          (setReservation reservationId expired s expired_id))
    else
      let expiresAt := now.addSeconds (leaseDurationSec.getD env.leaseDurationSec)
      (.ok { row with heartbeatAt := now, expiresAt := expiresAt },
        setReservation reservationId
          (fun r => { r with heartbeatAt := now, expiresAt := expiresAt }) s)

/-- `now` is the argument, or `datetime.now(UTC)` when it is not given. -/
def releaseReservation (reservationId : String) (fencingToken : Nat) (status : String)
    (now : DateTime) (s : Store) : Except Raised (FleetReservation × Store) :=
  match s.fleetReservations.get? reservationId with
  | none => .error (stale ("Reservation '" ++ reservationId ++ "' not found."))
  | some row =>
    if row.fencingToken ≠ fencingToken then
      .error (stale ("Fencing token mismatch on release: token=" ++ toString fencingToken ++
        ", active=" ++ toString row.fencingToken ++ "."))
    else if row.status.isReleased then .ok (row, s)
    else if row.status = .expired then
      .error (stale ("Reservation '" ++ reservationId ++ "' has already expired and cannot be released."))
    else
      match ReservationStatus.ofString? status with
      | none => .error (integrityError "fleet_reservations")
      | some status =>
        let released := { row with status := status, heartbeatAt := now }
        if decide (status = .active) && s.reservationClash released then
          .error (integrityError "fleet_reservations")
        else
          .ok (released, setReservation reservationId
              (fun r => { r with status := status, heartbeatAt := now }) s)

/-- `meta[key] = value`. -/
def setItem (key value : String) : List (String × String) → List (String × String)
  | [] => [(key, value)]
  | (k, v) :: rest => if k = key then (k, value) :: rest else (k, v) :: setItem key value rest

def drainHost (hostId reason : String) (s : Store) : Nat × Store :=
  let onHost := fun r : FleetReservation => decide (r.hostId = hostId) && r.isActive
  ((s.fleetReservations.select onHost).length,
    { s with
      fleetReservations := s.fleetReservations.update onHost fun r =>
        { r with status := .draining, metadata := setItem "drain_reason" reason r.metadata } })

/-- `run_id IN (SELECT run_id FROM jobs WHERE status = 'waiting_dependency' OR ...)`: the run waits
on a dependency or has a job that became pending no longer than the grace period ago. -/
def runBetweenStages (s : Store) (cutoff : DateTime) (runId : String) : Bool :=
  s.jobs.any fun j => decide (j.key.runId = runId) &&
    (decide (j.status = .waitingDependency) ||
      (decide (j.status = .pending) && cutoff.textLe j.updatedAt))

def isRenewable (s : Store) (now cutoff : DateTime) (r : FleetReservation) : Bool :=
  r.isActive && now.textLe r.expiresAt && runBetweenStages s cutoff r.runId

def renewOpenRunReservations (env : Env) (now : DateTime) (pendingGraceSec : Int) (s : Store) : Nat × Store :=
  let renewable := isRenewable s now (now.addSeconds (-pendingGraceSec))
  ((s.fleetReservations.select renewable).length,
    { s with
      fleetReservations := s.fleetReservations.update renewable fun r =>
        { r with heartbeatAt := now, expiresAt := now.addSeconds env.leaseDurationSec } })

def expireReservation (now : DateTime) (cycle : String) (s : Store) (r : FleetReservation) : Store :=
  let s' := requeueExpiredFleetRun r.runId now
    (setReservation r.reservationId expired s expired_id)
  { s' with
    reconciliationLedger := s'.reconciliationLedger ++
      [{ cycleId := "recon-" ++ cycle
         actionType := "expire_fleet_reservation"
         targetKey := .reservation r.reservationId r.ticketId r.hostId
         recordedAt := now }] }

/-- `cycles` are the uuids drawn, one for each expired row. -/
def reconcileFleetReservations (now : DateTime) (cycles : Nat → String) (s : Store) :
    List FleetReservation × Store :=
  let rows := s.fleetReservations.select (isExpiring now)
  (rows, rows.zipIdx.foldl (fun s p => expireReservation now (cycles p.2) s p.1) s)

end Sqlite
end Control
end DarkFactory
