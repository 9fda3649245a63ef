import DarkFactory.Harness.VerdictCache
import Mathlib.Algebra.GroupWithZero.Nat

/-!
# DarkFactory.Harness.Runner

The steps of `core/harness/runner.py`: which of them a run selects, how one is run, and the result that
is made of their executions.

* Timeouts, worker counts and the texts for a reader are left out.
* `Process.resolveCommand` is `resolve_command` with the xdist arguments of the host, and the files of
  a shard come with the step.
* `StepRun` keeps beside an execution what was run and on which tree. No function reads it.
-/

namespace DarkFactory
namespace Harness

inductive StepKind where
  | test | check
deriving DecidableEq

inductive GateProfile where
  | pr | full
deriving DecidableEq

structure HarnessStepConfig where
  name : String
  cmd : String
  quick : Bool := false
  holdout : Bool := false
  kind : Option StepKind := none
  profiles : List GateProfile := [.full]
deriving DecidableEq

structure HarnessConfig where
  steps : List HarnessStepConfig
  nonempty : steps ≠ []
  unique : (steps.map HarnessStepConfig.name).Nodup
deriving DecidableEq

/-- `config_for_profile`, or none where it raises. -/
def HarnessConfig.forProfile (config : HarnessConfig) (profile : GateProfile) : Option HarnessConfig :=
  let steps := config.steps.filter fun step => step.profiles.contains profile
  if h : steps ≠ [] then some ⟨steps, h, (List.filter_sublist.map _).nodup config.unique⟩ else none

def HarnessConfig.selectedSteps (config : HarnessConfig) (quick includeHoldout : Bool) : List HarnessStepConfig :=
  config.steps.filter fun step => (!quick || step.quick) && (includeHoldout || !step.holdout)

def HarnessStepConfig.isTestStep (step : HarnessStepConfig) : Bool :=
  decide (step.kind = some .test) ||
    (decide (step.kind = none) && Text.contains "pytest" (Text.casefold step.cmd))

structure Process where
  /-- `socket.gethostname()`. -/
  host : String
  platform : Platform := {}
  resolveCommand : String → List String
  /-- `DARKFAC_TEST_SHARD`. -/
  testShard : String := ""
  /-- `DARKFAC_HARNESS_WORKER_JOB`. -/
  workerJob : String := ""

structure StepExecution where
  name : String
  returncode : Int
  discoveredCount : Nat
  passedCount : Nat
  skippedCount : Nat
deriving DecidableEq

def StepExecution.passed (e : StepExecution) : Bool := decide (e.returncode = 0)

inductive StepOutcome where
  /-- `wait_for_gate_ram` of the parallel tests. -/
  | insufficientRam
  | timeout
  /-- `OSError` or `ValueError`. -/
  | error
  /-- The child has ended, with these counts in its output. -/
  | exited (returncode : Int) (discovered passed skipped : Nat)
deriving DecidableEq

def TESTS_TARGETS : List String := ["tests", "tests/", "tests\\"]

def replaceTarget (files : List String) : List String → List String
  | [] => []
  | token :: rest =>
    if TESTS_TARGETS.contains token then files ++ rest else token :: replaceTarget files rest

/-- `command_for_shard`, for the files of the shard; none where the shard is not one. -/
def commandForShard (command : List String) (files : Option (List String)) : Option (List String) :=
  if command.any TESTS_TARGETS.contains then files.map fun files => replaceTarget files command
  else some command

def Process.shardSpec (p : Process) (step : HarnessStepConfig) : Option String :=
  let spec := Text.strip p.testShard
  if spec ≠ "" ∧ step.isTestStep then some spec else none

def Process.stepCommand (p : Process) (step : HarnessStepConfig) (files : Option (List String)) :
    Option (List String) :=
  match p.resolveCommand step.cmd with
  | [] => none
  | command =>
    match p.shardSpec step with
    | some _ => commandForShard command files
    | none => some command

def Process.executed (p : Process) (step : HarnessStepConfig) : StepOutcome → StepExecution
  | .insufficientRam => ⟨step.name, 75, 0, 0, 0⟩
  | .timeout => ⟨step.name, 124, 0, 0, 0⟩
  | .error => ⟨step.name, 127, 0, 0, 0⟩
  | .exited returncode discovered passed skipped =>
    -- A shard may select no test.
    let returncode := if returncode = 5 ∧ (p.shardSpec step).isSome then 0 else returncode
    if step.isTestStep then ⟨step.name, returncode, discovered, passed, skipped⟩
    else ⟨step.name, returncode, 0, 0, 0⟩

/-- A step as it was run: on the tree, with `ran` for the resolved command. -/
structure StepRun where
  step : HarnessStepConfig
  tree : Option String
  command : List String
  ran : List String
  execution : StepExecution
deriving DecidableEq

/-- `run_step`, in a checkout of the tree. -/
def Process.runStep (p : Process) (tree : Option String) (step : HarnessStepConfig)
    (files : Option (List String)) (o : StepOutcome) : StepRun :=
  let command := p.resolveCommand step.cmd
  match p.stepCommand step files with
  | some ran => ⟨step, tree, command, ran, p.executed step o⟩
  | none => ⟨step, tree, command, command, ⟨step.name, 127, 0, 0, 0⟩⟩

/-- What `execute` makes of the executions, before it is printed. -/
def harnessResult (candidateSha configHash : String) (steps : List HarnessStepConfig)
    (executions : List StepExecution) : HarnessResult where
  candidateSha := candidateSha
  configHash := configHash
  requiredSteps := steps.map HarnessStepConfig.name
  startedSteps := executions.map StepExecution.name
  passedSteps := (executions.filter StepExecution.passed).map StepExecution.name
  failedSteps := (executions.filter fun e => !e.passed).map StepExecution.name
  discoveredCount := (executions.map StepExecution.discoveredCount).sum
  passedCount := (executions.map StepExecution.passedCount).sum
  skippedCount := (executions.map StepExecution.skippedCount).sum
  exitCodes := executions.map fun e => (e.name, e.returncode)

/-- `success`, as `execute` and `_finalize_remote_result` compute it. -/
def HarnessResult.success (r : HarnessResult) : Bool :=
  r.failedSteps.isEmpty && decide (r.startedSteps.length = r.requiredSteps.length) &&
    decide (r.discoveredCount > 0) && decide (r.passedCount > 0)

/-- The result that `_emit_cache_hit` makes of a cached one. -/
def cacheHitResult (currentSha : String) (cached : HarnessResult) : HarnessResult :=
  { cached with
    candidateSha := currentSha
    startedSteps := cached.requiredSteps
    passedSteps := cached.requiredSteps
    failedSteps := []
    exitCodes := cached.requiredSteps.map fun name => (name, 0) }

end Harness
end DarkFactory
