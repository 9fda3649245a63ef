import Mathlib.Algebra.Order.Ring.Unbundled.Rat
import Mathlib.Data.String.Basic

/-!
# DarkFactory.Workflow.Contracts

The states of a workflow and the graph between them, from `core/workflow`, and the records of the local
runtime.

* Costs are exact numbers, times are microseconds.
* A job's row has its specification beside the columns that change.
* An event of the outbox is named by its dedupe key.
-/

namespace DarkFactory
namespace Workflow

inductive WorkflowState where
  | needsSpec | planningHigh | readyForHandoff | implementingEconomy | validating | independentReview
  | delivered | waitingBudget | waitingDependency | waitingAccess | retryScheduled | succeeded | failed
  | retryable | waitingHuman | waitingCapacity | blockedPolicy | cancelled | skippedByPolicy | needsReplan
  | failedValidation
deriving DecidableEq

def WorkflowState.value : WorkflowState → String
  | .needsSpec => "needs_spec"
  | .planningHigh => "planning_high"
  | .readyForHandoff => "ready_for_handoff"
  | .implementingEconomy => "implementing_economy"
  | .validating => "validating"
  | .independentReview => "independent_review"
  | .delivered => "delivered"
  | .waitingBudget => "waiting_budget"
  | .waitingDependency => "waiting_dependency"
  | .waitingAccess => "waiting_access"
  | .retryScheduled => "retry_scheduled"
  | .succeeded => "succeeded"
  | .failed => "failed"
  | .retryable => "retryable"
  | .waitingHuman => "waiting_human"
  | .waitingCapacity => "waiting_capacity"
  | .blockedPolicy => "blocked_policy"
  | .cancelled => "cancelled"
  | .skippedByPolicy => "skipped_by_policy"
  | .needsReplan => "needs_replan"
  | .failedValidation => "failed_validation"

/-- `ALLOWED_TRANSITIONS`. -/
def WorkflowState.allowed : WorkflowState → List WorkflowState
  | .needsSpec => [.planningHigh, .cancelled]
  | .planningHigh =>
    [.readyForHandoff, .waitingHuman, .waitingDependency, .needsReplan, .failedValidation, .cancelled]
  | .readyForHandoff => [.implementingEconomy, .blockedPolicy, .needsReplan, .cancelled]
  | .implementingEconomy =>
    [.validating, .retryable, .retryScheduled, .waitingCapacity, .cancelled, .failed]
  | .validating => [.independentReview, .failedValidation, .retryable, .waitingDependency, .cancelled]
  | .independentReview => [.delivered, .needsReplan, .failedValidation, .cancelled]
  | .waitingHuman => [.planningHigh, .readyForHandoff, .cancelled]
  | .waitingDependency => [.implementingEconomy, .validating, .cancelled]
  | .waitingAccess => [.planningHigh, .cancelled]
  | .waitingBudget => [.readyForHandoff, .cancelled]
  | .waitingCapacity => [.implementingEconomy, .cancelled]
  | .retryable => [.implementingEconomy, .retryScheduled, .failed, .cancelled]
  | .retryScheduled => [.implementingEconomy, .failed, .cancelled]
  | .needsReplan => [.planningHigh, .cancelled]
  | .failedValidation => [.implementingEconomy, .planningHigh, .failed, .cancelled]
  | .blockedPolicy => [.planningHigh, .cancelled]
  | .succeeded => [.independentReview, .cancelled]
  | .failed | .delivered | .cancelled | .skippedByPolicy => []

/-- `_TERMINAL_RUN_STATES`. -/
def WorkflowState.isTerminal : WorkflowState → Bool
  | .delivered | .failed | .cancelled | .skippedByPolicy => true
  | _ => false

/-- `_DISPATCHABLE_RUN_STATES`. -/
def WorkflowState.isDispatchable : WorkflowState → Bool
  | .implementingEconomy | .validating | .independentReview | .retryable | .retryScheduled
  | .waitingCapacity | .waitingDependency => true
  | _ => false

theorem allowed_of_terminal {s : WorkflowState} (h : s.isTerminal = true) : s.allowed = [] := by
  cases s <;> first | rfl | exact absurd h (by decide)

theorem not_dispatchable_of_terminal {s : WorkflowState} (h : s.isTerminal = true) : s.isDispatchable = false := by
  cases s <;> first | rfl | cases h

inductive JobStatus where
  | ready | claimed | succeeded | failed | retryScheduled | waitingBudget | cancelled
deriving DecidableEq

inductive LeaseStatus where
  | active | completed | expired | cancelled
deriving DecidableEq

inductive EventStatus where
  | pending | acked
deriving DecidableEq

inductive JobOutcome where
  | succeeded | failed | cancelled
deriving DecidableEq

def JobOutcome.value : JobOutcome → String
  | .succeeded => "succeeded"
  | .failed => "failed"
  | .cancelled => "cancelled"

abbrev Time := Int

structure Run where
  runId : String
  projectId : String
  state : WorkflowState
  budgetCeiling : Rat
  budgetReserved : Rat := 0
  budgetSpent : Rat := 0
  createdAt : Time
  updatedAt : Time
deriving DecidableEq

structure JobSpec where
  jobId : String
  runId : String
  projectId : String
  stage : String
  priority : Nat := 0
  dependsOn : List String := []
  conflictKeys : List String := []
  estimatedCost : Rat := 0
  maxAttempts : Nat := 3
  readyAt : Option Time := none
  successorEvent : Option String := none
  dedupeKey : Option String := none
  priority_le : priority ≤ 1000000 := by decide
  dependsOn_nodup : dependsOn.Nodup := by decide
  conflictKeys_nodup : conflictKeys.Nodup := by decide
  not_self : jobId ∉ dependsOn := by decide
  cost_nonneg : 0 ≤ estimatedCost := by decide
  attempts_pos : 1 ≤ maxAttempts := by decide
  attempts_le : maxAttempts ≤ 100 := by decide
deriving DecidableEq

def JobSpec.effectiveDedupeKey (spec : JobSpec) : String :=
  match spec.dedupeKey with
  | some key => if key = "" then "job:" ++ spec.jobId else key
  | none => "job:" ++ spec.jobId

structure Job where
  spec : JobSpec
  readyAt : Option Time
  status : JobStatus := .ready
  attempt : Nat := 0
  leaseId : Option String := none
  owner : Option String := none
  lastError : Option String := none
  createdAt : Time
  updatedAt : Time
deriving DecidableEq

def Job.jobId (j : Job) : String := j.spec.jobId

def Job.mayRetry (j : Job) : Bool := decide (j.attempt < j.spec.maxAttempts)

structure Lease where
  leaseId : String
  jobId : String
  runId : String
  workerId : String
  stage : String
  attempt : Nat
  status : LeaseStatus := .active
  acquiredAt : Time
  expiresAt : Time
  completedAt : Option Time := none
  outcome : Option JobOutcome := none
deriving DecidableEq

inductive EventPayload where
  | transitioned (fromState toState : WorkflowState)
  | queued (jobId stage : String)
  | waitingBudget (jobId : String) (estimatedCost : Rat)
  | claimed (jobId leaseId workerId : String)
  | outcome (jobId leaseId : String) (attempt : Nat) (error : Option String)
  | successor (jobId runId : String)
  | expired (jobId leaseId : String) (attempt : Nat)
  | cancelled (reason : String)
deriving DecidableEq

def EventPayload.isTransition : EventPayload → Bool
  | .transitioned _ _ => true
  | _ => false

structure Event where
  dedupeKey : String
  runId : String
  eventType : String
  payload : EventPayload
  status : EventStatus := .pending
  createdAt : Time
  ackedAt : Option Time := none
deriving DecidableEq

structure ReconciliationReport where
  expiredLeases : Nat
  retryScheduled : Nat
  failedJobs : Nat
  requeuedJobs : Nat
deriving DecidableEq

structure Completion where
  leaseId : String
  workerId : String
  outcome : JobOutcome
  actualCost : Option Rat
  chargedCost : Rat
  error : Option String
deriving DecidableEq

inductive OperationBody where
  | runTransition (runId : String) (target : WorkflowState) (result : Run)
  | jobCompletion (completion : Completion) (result : Job)
deriving DecidableEq

structure Operation where
  key : String
  subject : String
  body : OperationBody
  createdAt : Time
deriving DecidableEq

def Operation.transitionResult (op : Operation) (runId : String) (target : WorkflowState) : Option Run :=
  match op.body with
  | .runTransition runId' target' result =>
    if op.subject = runId ∧ runId' = runId ∧ target' = target then some result else none
  | .jobCompletion _ _ => none

def Operation.completionResult (op : Operation) (jobId : String) (completion : Completion) : Option Job :=
  match op.body with
  | .jobCompletion completion' result =>
    if op.subject = jobId ∧ completion' = completion then some result else none
  | .runTransition _ _ _ => none

end Workflow
end DarkFactory
