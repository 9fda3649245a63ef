import DarkFactory.Workflow.Admission
import DarkFactory.Workflow.Balances

/-!
# DarkFactory.Workflow.Consistency

The redundant records of the local runtime agree, whatever calls are made, in any order and by any processes
that share the limits of the stages.
-/

namespace DarkFactory
namespace Workflow

open Db

structure Inv (limits : String → Option Nat) (db : Db) : Prop where
  links : Links db
  recorded : Recorded db
  admitted : Admitted limits db
  balanced : Balanced db

section

variable {limits : String → Option Nat} {db db' : Db}

theorem Inv.empty : Inv limits {} := ⟨.empty, .empty, .empty, .empty⟩

theorem inv_of_change (hchange : Change limits db db') (h : Inv limits db) : Inv limits db' :=
  ⟨links_of_change hchange h.links, recorded_of_change hchange h.links h.recorded,
    admitted_of_change hchange h.links h.admitted, balanced_of_change hchange h.links h.recorded h.balanced⟩

theorem inv_step (db : Db) (a : Act) (h : Inv limits db) : Inv limits (step limits db a) :=
  step_of_changes inv_of_change a h

theorem inv_run (acts : List Act) (h : Inv limits db) : Inv limits (Runs.run (step limits) db acts) :=
  Runs.run_invariant inv_step h acts

end

structure Consistent (limits : String → Option Nat) (db : Db) : Prop where
  /-- A job is claimed exactly when one lease of it is active. -/
  claimed_iff : ∀ j, j ∈ db.jobs →
    (j.status = .claimed ↔ ∃! l, l ∈ db.leases ∧ l.jobId = j.jobId ∧ l.status = .active)
  /-- The job names its active lease. -/
  names : ∀ j l, j ∈ db.jobs → l ∈ db.leases → l.jobId = j.jobId → l.status = .active → j.leaseId = some l.leaseId
  reserved : ∀ r, r ∈ db.runs → r.budgetReserved = db.claims r.runId
  spent : ∀ r, r ∈ db.runs → r.budgetSpent = db.charges r.runId
  /-- The charge of a completed lease is the one that its completion has stored. -/
  charged : ∀ l, l ∈ db.leases → l.status = .completed → ∃ op completion result, op ∈ db.operations ∧
    op.key = completionKey l.leaseId ∧ op.body = .jobCompletion completion result ∧
      db.charge l = completion.chargedCost
  conflicts : ∀ j j', j ∈ db.jobs → j' ∈ db.jobs → j.status = .claimed → j'.status = .claimed →
    j.jobId ≠ j'.jobId → ∀ key ∈ j.spec.conflictKeys, key ∉ j'.spec.conflictKeys
  stages : ∀ stage limit, limits stage = some limit → db.activeByStage stage ≤ limit
  attempts : ∀ j, j ∈ db.jobs → j.attempt ≤ j.spec.maxAttempts
  dependencies : ∀ j, j ∈ db.jobs → j.status = .claimed ∨ j.status = .succeeded → ∀ jobId ∈ j.spec.dependsOn,
    ∃ j', j' ∈ db.jobs ∧ j'.jobId = jobId ∧ j'.status = .succeeded
  /-- No completion of the run has charged more than the estimate: the run keeps to its ceiling. -/
  ceiling : ∀ r, r ∈ db.runs → db.Frugal r.runId → r.budgetSpent + r.budgetReserved ≤ r.budgetCeiling + tolerance

theorem Inv.consistent {limits : String → Option Nat} {db : Db} (h : Inv limits db) : Consistent limits db where
  claimed_iff j hj := by
    constructor
    · intro hclaimed
      obtain ⟨l, hl, hjob, hactive⟩ := h.links.held j hj hclaimed
      refine ⟨l, ⟨hl, hjob, hactive⟩, ?_⟩
      rintro l' ⟨hl', hjob', hactive'⟩
      exact h.links.active_unique hl hactive hl' hactive' (hjob'.trans hjob.symm)
    · rintro ⟨l, ⟨hl, hjob, hactive⟩, _⟩
      exact (h.links.claimed hl hactive hj hjob.symm).1
  names j l hj hl hjob hactive := (h.links.claimed hl hactive hj hjob.symm).2
  reserved := h.balanced.reserved
  spent := h.balanced.spent
  charged l hl hcompleted := by
    obtain ⟨op, completion, result, hop, hkey, hbody⟩ := h.recorded.completed l hl hcompleted
    exact ⟨op, completion, result, hop, hkey, hbody, charge_of_operation hop hkey hbody⟩
  conflicts := h.admitted.conflicts
  stages := h.admitted.stages
  attempts := h.admitted.attempts
  dependencies := h.admitted.dependencies
  ceiling r hr hfrugal := by
    rw [add_comm]
    exact h.balanced.ceiling r hr hfrugal

/-- Every database that calls make from the empty one is consistent. -/
theorem runtime_consistent (limits : String → Option Nat) (acts : List Act) :
    Consistent limits (Runs.run (step limits) {} acts) :=
  (inv_run acts .empty).consistent

end Workflow
end DarkFactory
