import DarkFactory.Lib.Runs
import DarkFactory.Control.Successors

/-!
# DarkFactory.Control.Operations

The operations of `SQLiteControlStore` as one labelled step function. An `Op` is a call with its
arguments, the clock and the uuids it draws; `apply` is the state the call leaves. A call that
raises leaves the state it rolled back to.
-/

namespace DarkFactory
namespace Control

inductive Op where
  | accept (command : IntakeCommand) (ids : Sqlite.IntakeIds) (now : DateTime)
  | claim (worker : String) (capabilities : List String) (now : DateTime) (readyAgeSec : Rat)
      (ids : Sqlite.ClaimIds)
  | heartbeat (claim : Claim) (now : DateTime)
  | finish (claim : Claim) (result : StageResult) (now : DateTime)
  | reconcile (now : DateTime) (limit : Nat) (cycle : String)
  | resumeJob (key : JobKey) (now : DateTime)
  | cancelRun (runId reason actor : String) (now : DateTime)
  | recordOperation (operation : ExternalOperation) (claim : Claim) (clock : DateTime)
  | reserveCycle (request : Sqlite.CycleRequest) (id : String) (now : DateTime)
  | heartbeatReservation (reservationId : String) (fencingToken : Nat) (now : DateTime)
      (leaseDurationSec : Option Int)
  | releaseReservation (reservationId : String) (fencingToken : Nat) (status : String)
      (now : DateTime)
  | drainHost (hostId reason : String)
  | renewOpenRunReservations (now : DateTime) (pendingGraceSec : Int)
  | reconcileFleetReservations (now : DateTime) (cycles : Nat → String)
  | materializeResult (key : JobKey) (result : StageResult) (now : DateTime)

namespace Sqlite

def committed {α : Type} (s : Store) : Except Raised (α × Store) → Store
  | .ok (_, s') => s'
  | .error _ => s

@[simp] theorem committed_ok {α : Type} (s s' : Store) (a : α) : committed s (.ok (a, s')) = s' := rfl

@[simp] theorem committed_error {α : Type} (s : Store) (e : Raised) :
    committed s (.error e : Except Raised (α × Store)) = s := rfl

theorem committed_rel {R : Store → Store → Prop} {α : Type} {s : Store}
    {x : Except Raised (α × Store)} (h : R s s) (hx : ∀ a s', x = .ok (a, s') → R s s') :
    R s (committed s x) := by
  cases x with
  | error e => exact h
  | ok r => exact hx r.1 r.2 rfl

theorem exists_ok {α : Type} {x : Except Raised α} (h : x.toOption.isSome = true) : ∃ a, x = .ok a := by
  cases x with
  | error e => cases h
  | ok a => exact ⟨a, rfl⟩

theorem toOption_rel {R : Store → Store → Prop} {s : Store} {x : Except Raised Store} (h : R s s)
    (hx : ∀ s', x = .ok s' → R s s') : R s (x.toOption.getD s) := by
  cases x with
  | error e => exact h
  | ok s' => exact hx s' rfl

def apply (env : Env) (s : Store) : Op → Store
  | .accept command ids now => committed s (accept command ids now s)
  | .claim worker capabilities now readyAgeSec ids =>
    committed s (claim env worker capabilities now readyAgeSec ids s)
  | .heartbeat c now => committed s (heartbeat env c now s)
  | .finish c result now => (finish env c result now s).toOption.getD s
  | .reconcile now limit cycle => (reconcile now limit cycle s).2
  | .resumeJob key now => (resumeJob key now s).2
  | .cancelRun runId reason actor now => (cancelRun runId reason actor now s).2
  | .recordOperation operation c clock => (recordOperation operation c clock s).toOption.getD s
  | .reserveCycle request id now => committed s (reserveCycle request id now s)
  | .heartbeatReservation reservationId fencingToken now leaseDurationSec =>
    (heartbeatReservation env reservationId fencingToken now leaseDurationSec s).2
  | .releaseReservation reservationId fencingToken status now =>
    committed s (releaseReservation reservationId fencingToken status now s)
  | .drainHost hostId reason => (drainHost hostId reason s).2
  | .renewOpenRunReservations now pendingGraceSec =>
    (renewOpenRunReservations env now pendingGraceSec s).2
  | .reconcileFleetReservations now cycles => (reconcileFleetReservations now cycles s).2
  | .materializeResult key result now => committed s (materializeResult env key result now s)

end Sqlite

/-- An installation without a fleet: 60 s leases, 6 h of wall clock. -/
def Env.sample : Env where
  leaseDurationSec := 60
  fleetManagedEnabled := false
  requiredCapabilities _ _ := []
  wallClockHours := 6
  fromisoformat _ := none
  lower s := s
  sha1 _ := "00000000"

/-- `n` seconds after 2024-01-01T00:00:00+00:00. -/
def utc (n : Int) : DateTime := ⟨63839664000000000 + n * DateTime.second, some 0⟩

def IntakeCommand.sample : IntakeCommand where
  projectId := "p1"
  channel := "api"
  externalId := "x1"
  payload := ⟨"payload", "digest", none⟩
  mode := .autonomous
  policyRef := "default"

/-- The intake of an autonomous run `run-r1` of project `p1`. -/
def Op.sampleAccept : Op := .accept .sample ⟨"d1", "r1", "j1"⟩ (utc 0)

def JobKey.sample (stage : String) (iteration : Nat) : JobKey :=
  ⟨"run-r1", "p1", "1.0", stage, iteration⟩

/-- What a worker gets for its claim at second `n`, under the uuid texts `l` and `v`. -/
def Claim.sample (key : JobKey) (token : Nat) (l v : String) (n : Int) : Claim where
  jobKey := key
  leaseId := "lease-" ++ l
  owner := "worker-1"
  fencingToken := token
  acquiredAt := some (utc n)
  expiresAt := utc (n + 60)
  reservationId := "res-" ++ v
  routeRef := "default"

/-- An operation observed at `t`. -/
def ExternalOperation.sample (t : DateTime) : ExternalOperation where
  operationKey := "push-1"
  requestDigest := "digest"
  provider := "github"
  externalId := none
  status := .sent
  observedAt := some t
  responseDigest := none
  errorDetails := none

/-- A cycle of run `run` on `host`, under the default lease and ceiling. -/
def Op.sampleReserve (ticket run host id : String) (n : Int) : Op :=
  .reserveCycle { projectId := "p1", ticketId := ticket, runId := run, hostId := host } id (utc n)

def StageResult.sampleSuccess : StageResult := { outcome := .success, outputRefs := ["out"] }

def StageResult.sampleRetry (causeCode : Option String) : StageResult :=
  { outcome := .retry, causeCode := causeCode }

end Control
end DarkFactory
