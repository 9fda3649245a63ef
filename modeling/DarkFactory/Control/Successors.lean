import DarkFactory.Control.Fleet

/-!
# DarkFactory.Control.Successors

`successors.py`: which jobs follow a finished stage, and `materialize_result`, which records the
result and inserts them.

The plan (`planOf`) reads the run's highest iteration of a stage and its wall-clock budget; the rest
is one transaction on the SQLite tables.
-/

namespace DarkFactory
namespace Control

def PRODUCTIVE_DAG : String → Option String
  | "grill" => some "planning"
  | "planning" => some "development"
  | "development" => some "validation"
  | "validation" => some "independent_review"
  | "independent_review" => some "integration"
  | "integration" => some "build_deploy"
  | "memory_observation" => some "learning_eval"
  | _ => none

def STAGE_ROLES : String → Option String
  | "grill" => some "grill_engine"
  | "planning" => some "planner"
  | "research" => some "researcher"
  | "environment" => some "environment_probe"
  | "development" => some "developer"
  | "validation" => some "validator"
  | "independent_review" => some "reviewer"
  | "integration" => some "integrator"
  | "build_deploy" => some "deployer"
  | "target_journey" => some "journey_tester"
  | "memory_observation" => some "memory_agent"
  | "learning_eval" => some "evaluator"
  | "catalog_refresh" => some "benchmarker"
  | "retrospective" => some "retrospective_agent"
  | _ => none

/-- `STAGE_ROLES.get(stage, f"{stage}_worker")`. -/
def stageRole (stage : String) : String := (STAGE_ROLES stage).getD (stage ++ "_worker")

def MAX_STAGE_ITERATIONS : Nat := 10

def MAX_SAME_STAGE_RETRIES : Nat := 30

/-- `max_length` of `JobKey.stage`. -/
def STAGE_MAX_LEN : Nat := 64

def isIdentStart (c : Char) : Bool := c.isAlpha || c == '_'

def isIdentChar (c : Char) : Bool := c.isAlphanum || c == '_'

/-- The stage of `^retry:(?P<stage>[A-Za-z_][A-Za-z0-9_]*)(?:\n(?P<log>[\s\S]*))?$`. -/
def retryTarget (causeCode : String) : Option String :=
  if Text.startsWith causeCode "retry:" then
    let rest := causeCode.toList.drop 6
    let stage := rest.takeWhile isIdentChar
    match stage, rest.drop stage.length with
    | [], _ => none
    | c :: _, [] => if isIdentStart c then some (String.ofList stage) else none
    | c :: _, '\n' :: _ => if isIdentStart c then some (String.ofList stage) else none
    | _, _ => none
  else none

/-- The `iso` of the first match of `not_before=(?P<iso>\S+)`. -/
def notBeforeToken : List Char → Option String
  | [] => none
  | c :: cs =>
    if "not_before=".toList.isPrefixOf (c :: cs) then
      match ((c :: cs).drop 11).takeWhile fun d => !Text.isSpace d with
      | [] => notBeforeToken cs
      | iso => some (String.ofList iso)
    else notBeforeToken cs

def parseRetryCauseCode (causeCode : Option String) : Option String × Option String :=
  match causeCode with
  | none => (none, none)
  | some c => (retryTarget c, notBeforeToken c.toList)

/-- `^base_red(\s|$)`. -/
def isBaseRedCause (causeCode : Option String) : Bool :=
  match causeCode with
  | none => false
  | some c =>
    Text.startsWith c "base_red" &&
      match c.toList.drop 8 with
      | [] => true
      | d :: _ => Text.isSpace d

/-- `max_iteration`, one more than it: 0 when the run has no job of the stage. -/
def nextIteration (s : Store) (k : JobKey) (stage : String) : Nat :=
  ((s.jobs.select fun j => decide (j.key = k.atStage stage j.key.iteration)).map fun j =>
    j.key.iteration + 1).foldl max 0

/-- `get_run_budget_started_at`: `created_at`, or the last budget reset when that is later. -/
def budgetStart (r : Run) : DateTime :=
  match r.budgetResetAt with
  | none => r.createdAt
  | some reset => if r.createdAt.astimezoneUtc.lt reset.astimezoneUtc then reset else r.createdAt

def runWallClockExceeded (env : Env) (s : Store) (runId : String) (now : DateTime) : Bool :=
  match s.runs.get? runId with
  | none => false
  | some r =>
    decide (env.wallClockHours < ((now.astimezoneUtc.since (budgetStart r).astimezoneUtc : Int) : Rat) / 3600000000)

/-- What `materialize_result` has decided when its transaction begins. -/
structure Plan where
  successors : List JobKey
  /-- The `not_before` of the retry successor. -/
  retryNotBefore : Option String := none
  loopCapExceeded : Bool := false
deriving DecidableEq

/-- `JobKey` refuses a stage name of more than 64 characters; only a retry target can be one. -/
def Plan.isValid (plan : Plan) : Bool :=
  plan.successors.all fun k => decide (k.stage.length ≤ STAGE_MAX_LEN)

def retrospectiveKey (k : JobKey) : JobKey := k.atStage "retrospective" 0

/-- The target of a retry: its stage, its iteration, and whether that is over its cap. -/
def retryStep (env : Env) (k : JobKey) (causeCode : Option String) (now : DateTime) (s : Store) :
    String × Nat × Bool :=
  match parseRetryCauseCode causeCode with
  | (some target, _) =>
    let n := nextIteration s k target
    (target, n, decide (MAX_STAGE_ITERATIONS < n))
  | (none, notBefore) =>
    let n := k.iteration + 1
    let capped :=
      if isBaseRedCause causeCode then decide (MAX_SAME_STAGE_RETRIES < n)
      else if notBefore.isSome then runWallClockExceeded env s k.runId now
      else decide (MAX_SAME_STAGE_RETRIES < n)
    (k.stage, n, capped)

def planOf (env : Env) (k : JobKey) (result : StageResult) (now : DateTime) (s : Store) : Plan :=
  match result.outcome with
  | .success =>
    { successors :=
        ((PRODUCTIVE_DAG k.stage).map fun stage => k.atStage stage k.iteration).toList ++
          if k.stage = "build_deploy" then [retrospectiveKey k] else [] }
  | .retry =>
    match retryStep env k result.causeCode now s with
    | (_, _, true) => { successors := [retrospectiveKey k], loopCapExceeded := true }
    | (stage, n, false) =>
      { successors := [k.atStage stage n]
        retryNotBefore := (parseRetryCauseCode result.causeCode).2 }
  | .replan => { successors := [k.atStage "planning" 0] }
  | .failed => { successors := [retrospectiveKey k] }
  | .waitingHuman | .cancelled | .waitingDependency => { successors := [] }

def notBeforeFor (plan : Plan) (successor : JobKey) : Option String :=
  if successor.stage = "retrospective" then none else plan.retryNotBefore

/-- `db_status`. -/
def materializedStatus (plan : Plan) (result : StageResult) : JobStatus :=
  if plan.loopCapExceeded then .failed else result.outcome.dbStatus

def effectiveCauseCode (env : Env) (plan : Plan) (result : StageResult) : Option String :=
  normalizeCauseCode env
    (if plan.loopCapExceeded then
      some (if (result.causeCode.getD "") = "" then "loop_cap"
        else "loop_cap:" ++ result.causeCode.getD "")
    else result.causeCode)

namespace Sqlite

/-- `now_iso if db_status in ('succeeded', 'failed', 'cancelled') else None`. -/
def finishedAtOf (status : JobStatus) (now : DateTime) : Option DateTime :=
  if [JobStatus.succeeded, .failed, .cancelled].contains status then some now else none

/-- The `runs` row a missing run gets. -/
def materializedRun (k : JobKey) (now : DateTime) : Run where
  runId := k.runId
  projectId := k.ticketId
  demandId := "dem-" ++ k.runId
  demandVersion := "1.0"
  mode := .autonomous
  status := .active
  planDigest := "plan-digest-default"
  createdAt := now
  updatedAt := now

def ensureRun (k : JobKey) (now : DateTime) (s : Store) : Option Store :=
  match s.runs.get? k.runId with
  | some _ => some s
  | none => (s.insertRun (materializedRun k now)).map fun runs => { s with runs := runs }

/-- The `jobs` row of a result whose job is not in the table. -/
def recordedJob (env : Env) (k : JobKey) (result : StageResult) (plan : Plan) (now : DateTime) : Job where
  key := k
  status := materializedStatus plan result
  role := stageRole k.stage
  requiredCapabilities := []
  causeCode := effectiveCauseCode env plan result
  actualCost := result.actualCost
  outputRefs := result.outputRefs
  evidenceRefs := result.evidenceRefs
  createdAt := now
  updatedAt := now
  finishedAt := finishedAtOf (materializedStatus plan result) now

/-- The UPDATE of the source job when its row is still pending or running. -/
def materializedJob (env : Env) (result : StageResult) (plan : Plan) (now : DateTime) (j : Job) : Job :=
  { j with
    status := materializedStatus plan result
    causeCode := effectiveCauseCode env plan result
    actualCost := j.actualCost + result.actualCost
    outputRefs := result.outputRefs
    evidenceRefs := result.evidenceRefs
    finishedAt := (finishedAtOf (materializedStatus plan result) now).or j.finishedAt
    updatedAt := now
    currentLeaseId := none }

theorem materializedJob_key (env : Env) (result : StageResult) (plan : Plan) (now : DateTime)
    (j : Job) : (materializedJob env result plan now j).key = j.key := rfl

/-- Step A: the status of the source job, and the release of the lease it held. -/
def recordResult (env : Env) (k : JobKey) (result : StageResult) (plan : Plan) (now : DateTime)
    (s : Store) : Store :=
  match s.jobs.get? k with
  | none => { s with jobs := s.jobs.insertIgnore (recordedJob env k result plan now) }
  | some row =>
    if row.status = .pending ∨ row.status = .running then
      { s with
        jobs := s.jobs.update (fun j => decide (j.key = k)) (materializedJob env result plan now)
          (materializedJob_key env result plan now)
        claims :=
          match row.currentLeaseId with
          | none => s.claims
          | some lease =>
            if lease = "" then s.claims
            else s.claims.update (fun c => decide (c.leaseId = lease)) releasedClaim
              releasedClaim_leaseId }
    else s

def successorJob (env : Env) (plan : Plan) (now : DateTime) (k : JobKey) : Job where
  key := k
  status := .pending
  role := stageRole k.stage
  requiredCapabilities := env.requiredCapabilities k.ticketId k.stage
  createdAt := now
  updatedAt := now
  notBefore := notBeforeFor plan k
  readyAt := some now

def insertSuccessors (env : Env) (plan : Plan) (now : DateTime) (s : Store) : Store :=
  { s with
    jobs := plan.successors.foldl (fun jobs k => jobs.insertIgnore (successorJob env plan now k))
      s.jobs }

/-- Step D: a run without an open job is closed, as failed when one of its jobs is. -/
def closeIfDone (runId : String) (now : DateTime) (s : Store) : Store :=
  if s.openJobs runId = [] then
    s.closeRun runId
      (if s.jobs.any fun j => decide (j.key.runId = runId) && decide (j.status = .failed)
        then .failed else .completed) now
  else s

/-- The tables before step D: the run exists in `s`, the result is recorded, the successors are in,
and the outbox has the event. -/
def materialized (env : Env) (k : JobKey) (result : StageResult) (plan : Plan) (now : DateTime)
    (s : Store) : Store :=
  { insertSuccessors env plan now (recordResult env k result plan now s) with
    outbox := s.outbox ++
      [{ eventType := "stage_materialized"
         aggregateId := k.runId
         payload := .stageMaterialized k.runId k.ticketId k.canonicalKey result.outcome
           (plan.successors.map JobKey.canonicalKey)
         createdAt := now }] }

def materializeResult (env : Env) (k : JobKey) (result : StageResult) (now : DateTime) (s : Store) :
    Except Raised (List JobKey × Store) :=
  if result.outcome = .success ∧ result.outputRefs = [] then
    .error
      { cls := .invalidResultError
        message := "Stage '" ++ k.stage ++ "' succeeded with empty output_refs, violating fail-closed contract." }
  else if !(planOf env k result now s).isValid then
    .error
      { cls := .validationError
        message := "1 validation error for JobKey\nstage\n  " ++ "String should have at most 64 characters" }
  else
    match ensureRun k now s with
    | none => .error (integrityError "runs")
    | some s₀ =>
      .ok ((planOf env k result now s).successors,
        closeIfDone k.runId now (materialized env k result (planOf env k result now s) now s₀))

end Sqlite
end Control
end DarkFactory
