import Mathlib.Data.Rat.Floor
import DarkFactory.Control.Fleet

/-!
# DarkFactory.Control.Postgres

`PostgresControlStore`: claims, the job life cycle and the fleet reservations, on the logical state
that it shares with `SQLiteControlStore`. A method is one transaction; under one serial order no row is
locked, so `SKIP LOCKED` skips none.

* times are `TIMESTAMPTZ`: SQL compares instants. `not_before` is one, too, the text of which is read
  by `fromisoformat`.
* `jobs.actual_cost` is `NUMERIC(10, 4)`; the other columns are as wide as their values.
* an exception that is no `ControlError` leaves as `StoreUnavailableError`.

Statements and helper methods that both stores spell alike are those of `Sqlite`.
-/

namespace DarkFactory
namespace Control
namespace Postgres

open Sqlite (stale)

def unavailable (method text : String) : Raised :=
  { cls := .storeUnavailableError
    message := "PostgreSQL " ++ method ++ " failed: " ++ text }

/-- What a `NUMERIC(10, 4)` column stores: four decimals, halves away from zero, and six digits before
the point. -/
def numeric (q : Rat) : Option Rat :=
  let units : Int := if 0 ≤ q then ⌊q * 10000 + 1 / 2⌋ else -⌊-q * 10000 + 1 / 2⌋
  if units.natAbs < 10 ^ 10 then some (units / 10000) else none

def str (d : DateTime) : String := d.isoformat.map fun c => if c = 'T' then ' ' else c

def postponed (env : Env) (nowUtc : DateTime) (row : Job) : Bool :=
  match row.notBefore.bind env.fromisoformat with
  | none => false
  | some notBefore => nowUtc.lt notBefore

/-- What the claim loop decides about one row: `none` is `continue`. -/
def claimable (env : Env) (worker : String) (capabilities : List String) (nowUtc : DateTime)
    (readyAgeSec : Rat) (s : Store) (row : Job) : Option (Option String) :=
  if !row.requiredCapabilities.all fun c => capabilities.contains c then none
  else if postponed env nowUtc row then none
  else
    match Sqlite.liveReservation s row.key.runId with
    | some r =>
      let resHost := env.lower r.hostId
      let workerLower := env.lower worker
      if r.expiresAt.le nowUtc then none
      else if !Text.contains resHost workerLower && !Text.contains workerLower resHost then none
      else some (some r.reservationId)
    | none =>
      if env.fleetManagedEnabled then none
      else if decide (0 < readyAgeSec) &&
          !Sqlite.isReadyEnough (row.readyAt.getD row.createdAt) nowUtc readyAgeSec then none
      else some none

/-- `SELECT ... FROM jobs WHERE status = 'pending' ORDER BY created_at ASC FOR UPDATE SKIP LOCKED`. -/
def pendingByCreation (s : Store) : List Job :=
  (s.jobs.select fun j => decide (j.status = .pending)).insertionSort
    fun a b => a.createdAt.le b.createdAt = true

def chosenRow (env : Env) (worker : String) (capabilities : List String) (nowUtc : DateTime)
    (readyAgeSec : Rat) (s : Store) : List Job → Option (Job × Option String)
  | [] => none
  | row :: rows =>
    match claimable env worker capabilities nowUtc readyAgeSec s row with
    | some matched => some (row, matched)
    | none => chosenRow env worker capabilities nowUtc readyAgeSec s rows

def claim (env : Env) (worker : String) (capabilities : List String) (now : DateTime)
    (readyAgeSec : Rat) (ids : Sqlite.ClaimIds) (s : Store) :
    Except Raised (Option Claim × Store) :=
  let nowUtc := now.astimezoneUtc
  match chosenRow env worker capabilities nowUtc readyAgeSec s (pendingByCreation s) with
  | none => .ok (none, s)
  | some (row, matched) =>
    match s.insertClaim (Sqlite.claimRow env worker nowUtc ids row matched) with
    | none => .error (unavailable "claim" "duplicate key value violates unique constraint")
    | some claims =>
      .ok (some (Sqlite.claimOf (Sqlite.claimRow env worker nowUtc ids row matched)),
        Sqlite.claimed env nowUtc ids row matched claims s)

def beatenClaim (expiresAt : DateTime) (c : ClaimRow) : ClaimRow := { c with expiresAt := expiresAt }

theorem beatenClaim_leaseId (expiresAt : DateTime) (c : ClaimRow) :
    (beatenClaim expiresAt c).leaseId = c.leaseId := rfl

def beatenJob (nowUtc : DateTime) (j : Job) : Job := { j with updatedAt := nowUtc }

theorem beatenJob_key (nowUtc : DateTime) (j : Job) : (beatenJob nowUtc j).key = j.key := rfl

def heartbeat (env : Env) (claim : Claim) (now : DateTime) (s : Store) : Except Raised (Claim × Store) :=
  let nowUtc := now.astimezoneUtc
  match s.claims.get? claim.leaseId with
  | none => .error (stale ("Lease '" ++ claim.leaseId ++ "' is not active."))
  | some row =>
    if row.status ≠ .active then .error (stale ("Lease '" ++ claim.leaseId ++ "' is not active."))
    else if row.expiresAt.le nowUtc then
      .error (stale ("Lease '" ++ claim.leaseId ++ "' expired at " ++ str row.expiresAt ++ "."))
    else
      match s.jobs.get? claim.jobKey with
      | none => .error (stale "Fencing token mismatch on heartbeat.")
      | some job =>
        if job.fencingToken ≠ claim.fencingToken ∨ job.currentLeaseId ≠ some claim.leaseId then
          .error (stale "Fencing token mismatch on heartbeat.")
        else
          match if claim.fleetBound then s.fleetReservations.get? claim.reservationId else none with
          | some r =>
            if !r.status.isLive || r.expiresAt.le nowUtc then
              .error (stale ("Fleet cycle reservation '" ++ claim.reservationId ++
                "' is no longer active (" ++ r.status.text ++ ")."))
            else beat nowUtc
          | none => beat nowUtc
where
  beat (nowUtc : DateTime) : Except Raised (Claim × Store) :=
    let newExpiresUtc := nowUtc.addSeconds env.leaseDurationSec
    .ok ({ claim with expiresAt := newExpiresUtc },
      { s with
        claims := s.claims.update
          (fun c => decide (c.leaseId = claim.leaseId) &&
            decide (c.fencingToken = claim.fencingToken))
          (beatenClaim newExpiresUtc) (beatenClaim_leaseId newExpiresUtc)
        jobs := s.jobs.update (fun j => decide (j.key = claim.jobKey)) (beatenJob nowUtc)
          (beatenJob_key nowUtc) })

/-- The checks of `finish`: here the job comes before the fence of the reservation. -/
def finishGuard (claim : Claim) (result : StageResult) (nowUtc : DateTime) (s : Store) : Except Raised Job :=
  if result.outcome = .success ∧ result.outputRefs = [] then
    .error
      { cls := .invalidResultError
        message := "outcome='success' requires non-empty output_refs" }
  else
    match s.claims.get? claim.leaseId with
    | none => .error (Sqlite.inactiveLease claim s)
    | some row =>
      if row.status ≠ .active then .error (Sqlite.inactiveLease claim s)
      else if row.expiresAt.le nowUtc then .error (stale "Lease has expired.")
      else
        match s.jobs.get? claim.jobKey with
        | none => .error (stale "Fencing token mismatch on finish.")
        | some job =>
          if job.fencingToken ≠ claim.fencingToken ∨ job.currentLeaseId ≠ some claim.leaseId then
            .error (stale "Fencing token mismatch on finish.")
          else
            match Sqlite.checkFinishReservationFence claim nowUtc s with
            | .error e => .error e
            | .ok () => .ok job

/-- The UPDATE of `jobs` each outcome makes; `cost` is what the column stores for a success. -/
def finishedJob (result : StageResult) (causeCode : Option String) (cost : Rat) (nowUtc : DateTime)
    (j : Job) : Job :=
  match result.outcome with
  | .success =>
    { j with
      status := .succeeded
      causeCode := causeCode
      actualCost := cost
      outputRefs := result.outputRefs
      evidenceRefs := result.evidenceRefs
      finishedAt := some nowUtc
      updatedAt := nowUtc
      currentLeaseId := none }
  | .retry =>
    if j.retryCount < j.maxRetries then
      { j with
        status := .pending
        retryCount := j.retryCount + 1
        causeCode := causeCode
        currentLeaseId := none
        updatedAt := nowUtc }
    else
      { j with
        status := .failed
        causeCode := some (Sqlite.orText causeCode "MAX_RETRIES_EXCEEDED")
        finishedAt := some nowUtc
        updatedAt := nowUtc
        currentLeaseId := none }
  | .replan | .waitingDependency | .waitingHuman | .cancelled | .failed =>
    { j with
      status := result.outcome.dbStatus
      causeCode := causeCode
      finishedAt := some nowUtc
      updatedAt := nowUtc
      currentLeaseId := none }

def finishRow (env : Env) (result : StageResult) (cost : Rat) (nowUtc : DateTime) (j : Job) : Job :=
  Sqlite.keepEvidence result
    (finishedJob result (normalizeCauseCode env result.causeCode) cost nowUtc j)

theorem finishRow_key (env : Env) (result : StageResult) (cost : Rat) (nowUtc : DateTime) (j : Job) :
    (finishRow env result cost nowUtc j).key = j.key := by
  unfold finishRow Sqlite.keepEvidence finishedJob
  cases result.outcome <;> simp only <;> repeat' split
  all_goals rfl

def finishTables (env : Env) (claim : Claim) (result : StageResult) (cost : Rat) (nowUtc : DateTime)
    (s : Store) : Store :=
  { s with
    jobs := s.jobs.update
      (fun j => decide (j.key = claim.jobKey) && decide (j.fencingToken = claim.fencingToken))
      (finishRow env result cost nowUtc) (finishRow_key env result cost nowUtc)
    claims := s.claims.update (fun c => decide (c.leaseId = claim.leaseId)) Sqlite.releasedClaim
      Sqlite.releasedClaim_leaseId }

def finish (env : Env) (claim : Claim) (result : StageResult) (now : DateTime) (s : Store) : Except Raised Store :=
  let nowUtc := now.astimezoneUtc
  match finishGuard claim result nowUtc s with
  | .error e => .error e
  | .ok job =>
    match result.outcome with
    | .success =>
      match numeric (job.actualCost + result.actualCost) with
      | none => .error (unavailable "finish" "numeric field overflow")
      | some cost =>
        let jk := claim.jobKey
        let s' := finishTables env claim result cost nowUtc s
        .ok { s' with
          outbox := s'.outbox ++
            [{ eventType := "job_finished"
               aggregateId := jk.runId
               payload := .jobFinished jk.runId jk.ticketId jk.stage jk.iteration result.outcome
                 result.outputRefs
               createdAt := nowUtc }] }
    | _ => .ok (finishTables env claim result job.actualCost nowUtc s)

def expiredClaims (s : Store) (nowUtc : DateTime) : List ClaimRow :=
  s.claims.select fun c => decide (c.status = .active) && c.expiresAt.le nowUtc

def reconcile (now : DateTime) (limit : Nat) (cycle : String) (s : Store) : Sqlite.ReconcilePage × Store :=
  let nowUtc := now.astimezoneUtc
  let cycleId := "cycle-" ++ cycle
  let swept := ((expiredClaims s nowUtc).take limit).foldl
    (Sqlite.reconcileClaim cycleId nowUtc) (s, [])
  ({ visitedProjects := Sqlite.visitedProjects swept.1
     repairedKeys := swept.2
     cycleId := cycleId },
    swept.1)

/-- The cause code is normalized here; the audit event keeps the reason as it is. -/
def cancelledJob (env : Env) (reason : String) (nowUtc : DateTime) (j : Job) : Job :=
  { j with
    status := .cancelled
    causeCode := normalizeCauseCode env (some reason)
    finishedAt := some nowUtc
    updatedAt := nowUtc
    currentLeaseId := none }

theorem cancelledJob_key (env : Env) (reason : String) (nowUtc : DateTime) (j : Job) :
    (cancelledJob env reason nowUtc j).key = j.key := rfl

def cancelledReservation (nowUtc : DateTime) (r : FleetReservation) : FleetReservation :=
  { r with status := .cancelled, heartbeatAt := nowUtc }

theorem cancelledReservation_id (nowUtc : DateTime) (r : FleetReservation) :
    (cancelledReservation nowUtc r).reservationId = r.reservationId := rfl

def cancelRun (env : Env) (runId reason actor : String) (now : DateTime) (s : Store) : Sqlite.CancelReply × Store :=
  let nowUtc := now.astimezoneUtc
  match s.runs.get? runId with
  | none => (.notFound ("run not found: " ++ runId), s)
  | some _ =>
    let jobsCancelled := (s.openJobs runId).length
    let s' : Store :=
      { s with
        jobs := s.jobs.update (fun j => decide (j.key.runId = runId) && j.status.isOpen)
          (cancelledJob env reason nowUtc) (cancelledJob_key env reason nowUtc)
        claims := s.claims.update
          (fun c => decide (c.jobKey.runId = runId) && decide (c.status = .active))
          Sqlite.releasedClaim Sqlite.releasedClaim_leaseId
        fleetReservations := s.fleetReservations.update
          (fun r => decide (r.runId = runId) && r.status.isLive) (cancelledReservation nowUtc)
          (cancelledReservation_id nowUtc) }
    let s' := s'.closeRun runId .cancelled nowUtc
    (.ok jobsCancelled ("Run " ++ runId ++ " cancelado com sucesso (" ++ toString jobsCancelled ++
        " jobs cancelados)."),
      { s' with
        outbox := s'.outbox ++
          [{ eventType := "run_cancelled"
             aggregateId := runId
             payload := .runCancelled reason actor jobsCancelled
             targetSystem := "audit"
             createdAt := nowUtc }] })

def isExpiring (nowUtc : DateTime) (r : FleetReservation) : Bool :=
  r.status.isLive && r.expiresAt.le nowUtc

/-- Step 1 of `reserve_cycle`. -/
def sweep (nowUtc : DateTime) (s : Store) : Store :=
  let expiringRuns := (s.fleetReservations.select (isExpiring nowUtc)).map FleetReservation.runId
  let s' : Store := { s with
    fleetReservations :=
      s.fleetReservations.update (isExpiring nowUtc) Sqlite.expired Sqlite.expired_id }
  expiringRuns.foldl (fun s runId => Sqlite.requeueExpiredFleetRun runId nowUtc s) s'

def reserveCycle (request : Sqlite.CycleRequest) (id : String) (now : DateTime) (s : Store) :
    Except Raised (FleetReservation × Store) :=
  let nowUtc := now.astimezoneUtc
  let s' := sweep nowUtc s
  match Sqlite.activeForTicket s' request.projectId request.ticketId with
  | some r =>
    if r.runId = request.runId ∧ r.hostId = request.hostId then .ok (r, s')
    else .error (Sqlite.ticketAlreadyActive request r)
  | none =>
    match Sqlite.activeForHost s' request.hostId with
    | some r =>
      .error
        { cls := .hostBusyError
          message := "Host '" ++ request.hostId ++ "' already has active reservation '" ++
            r.reservationId ++ "' for ticket '" ++ r.ticketId ++ "'." }
    | none =>
      if request.maxFleetSlots ≤ Sqlite.activeCount s' then
        .error
          { cls := .fleetCapacityExceededError
            message := "Fleet capacity ceiling of " ++ toString request.maxFleetSlots ++
              " active cycles reached (currently " ++ toString (Sqlite.activeCount s') ++
              " active)." }
      else
        match s'.fleetReservations.insert? (Sqlite.newReservation request id nowUtc) with
        | none =>
          .error (unavailable "reserve_cycle"
            "duplicate key value violates unique constraint \"fleet_reservations_pkey\"")
        | some fleetReservations =>
          .ok (Sqlite.newReservation request id nowUtc,
            { s' with fleetReservations := fleetReservations })

def heartbeatReservation (env : Env) (reservationId : String) (fencingToken : Nat)
    (now : DateTime) (leaseDurationSec : Option Int) (s : Store) :
    Except Raised FleetReservation × Store :=
  let nowUtc := now.astimezoneUtc
  match s.fleetReservations.get? reservationId with
  | none => (.error (stale ("Reservation '" ++ reservationId ++ "' not found.")), s)
  | some row =>
    if !row.status.isLive then
      (.error (stale ("Reservation '" ++ reservationId ++ "' is in non-active status '" ++
        row.status.text ++ "'.")), s)
    else if row.fencingToken ≠ fencingToken then
      (.error (stale ("Fencing token mismatch on heartbeat: token=" ++ toString fencingToken ++
        ", active=" ++ toString row.fencingToken ++ ".")), s)
    else if row.expiresAt.le nowUtc then
      (.error (stale ("Reservation '" ++ reservationId ++ "' expired at " ++
          row.expiresAt.astimezoneUtc.isoformat ++ ".")),
        Sqlite.requeueExpiredFleetRun row.runId nowUtc
          (Sqlite.setReservation reservationId Sqlite.expired s Sqlite.expired_id))
    else
      let newExpiresUtc := nowUtc.addSeconds (leaseDurationSec.getD env.leaseDurationSec)
      (.ok { row with heartbeatAt := nowUtc, expiresAt := newExpiresUtc },
        Sqlite.setReservation reservationId
          (fun r => { r with heartbeatAt := nowUtc, expiresAt := newExpiresUtc }) s)

def releaseReservation (reservationId : String) (fencingToken : Nat) (status : String)
    (now : DateTime) (s : Store) : Except Raised (FleetReservation × Store) :=
  let nowUtc := now.astimezoneUtc
  match s.fleetReservations.get? reservationId with
  | none => .error (stale ("Reservation '" ++ reservationId ++ "' not found."))
  | some row =>
    if row.fencingToken ≠ fencingToken then
      .error (stale ("Fencing token mismatch on release: token=" ++ toString fencingToken ++
        ", active=" ++ toString row.fencingToken ++ "."))
    else if row.status.isReleased then .ok (row, s)
    else if row.status = .expired then
      .error (stale ("Reservation '" ++ reservationId ++ "' has already expired and cannot be released."))
    else
      match ReservationStatus.ofString? status with
      | none =>
        .error (unavailable "release_reservation"
          "new row for relation \"fleet_reservations\" violates check constraint")
      | some status =>
        let released := { row with status := status, heartbeatAt := nowUtc }
        if decide (status = .active) && s.reservationClash released then
          .error (unavailable "release_reservation"
            "duplicate key value violates unique constraint")
        else
          .ok (released, Sqlite.setReservation reservationId
              (fun r => { r with status := status, heartbeatAt := nowUtc }) s)

/-- `metadata || jsonb_build_object('drain_reason', reason)`. -/
def drained (reason : String) (r : FleetReservation) : FleetReservation :=
  { r with status := .draining, metadata := Sqlite.setItem "drain_reason" reason r.metadata }

theorem drained_id (reason : String) (r : FleetReservation) :
    (drained reason r).reservationId = r.reservationId := rfl

def drainHost (hostId reason : String) (s : Store) : Nat × Store :=
  let onHost := fun r : FleetReservation => decide (r.hostId = hostId) && r.isActive
  ((s.fleetReservations.select onHost).length,
    { s with
      fleetReservations := s.fleetReservations.update onHost (drained reason) (drained_id reason) })

/-- One turn of the loop over the rows that `RETURNING` gives. -/
def recordExpiry (nowUtc : DateTime) (cycle : String) (s : Store) (r : FleetReservation) : Store :=
  let s' := Sqlite.requeueExpiredFleetRun r.runId nowUtc s
  { s' with
    reconciliationLedger := s'.reconciliationLedger ++
      [{ cycleId := "recon-" ++ cycle
         actionType := "expire_fleet_reservation"
         targetKey := .reservation r.reservationId r.ticketId r.hostId
         recordedAt := nowUtc }] }

/-- All expire in one statement, which returns them as they are then. -/
def reconcileFleetReservations (now : DateTime) (cycles : Nat → String) (s : Store) :
    List FleetReservation × Store :=
  let nowUtc := now.astimezoneUtc
  let rows := (s.fleetReservations.select (isExpiring nowUtc)).map Sqlite.expired
  let s' : Store := { s with
    fleetReservations :=
      s.fleetReservations.update (isExpiring nowUtc) Sqlite.expired Sqlite.expired_id }
  (rows, rows.zipIdx.foldl (fun s p => recordExpiry nowUtc (cycles p.2) s p.1) s')

end Postgres
end Control
end DarkFactory
