import DarkFactory.Workflow.Admission
import DarkFactory.Workflow.Growth

/-!
# DarkFactory.Workflow.CancelledRuns

A run that `cancel_run` has cancelled.

* `Emptied` — it has no job to be done, no active lease and no reservation.
-/

namespace DarkFactory
namespace Workflow

open Db Calls

structure Emptied (db : Db) (runId : String) : Prop where
  jobs : ∀ j, j ∈ db.jobs → j.spec.runId = runId →
    j.status ∉ [JobStatus.ready, .claimed, .retryScheduled, .waitingBudget]
  leases : ∀ l, l ∈ db.leases → l.runId = runId → l.status ≠ .active
  reserved : ∀ r, r ∈ db.runs → r.runId = runId → r.budgetReserved = 0

/-- No call of `claim_next` in a later database returns a lease of the run. -/
def Unclaimed (limits : String → Option Nat) (db : Db) (runId : String) : Prop :=
  ∀ acts workerId leaseTime retryDelay now leaseId l db',
    (Runs.run (step limits) db acts).claimNext limits workerId leaseTime retryDelay now leaseId = .ok (some l, db') →
      l.runId ≠ runId

/-- A completion of the lease in a later database is rejected, or returns what its completion has stored. -/
def Closed (limits : String → Option Nat) (db : Db) (l : Lease) : Prop :=
  ∀ acts workerId outcome actualCost error retryDelay now,
    (∃ e, (Runs.run (step limits) db acts).completeJob l.leaseId workerId outcome actualCost error retryDelay now =
      .error e) ∨
    l.status = .completed ∧ ∃ op completion j, op ∈ db.operations ∧ op.key = completionKey l.leaseId ∧
      op.body = .jobCompletion completion j ∧
      (Runs.run (step limits) db acts).completeJob l.leaseId workerId outcome actualCost error retryDelay now =
        .ok (j, Runs.run (step limits) db acts)

section

variable {limits : String → Option Nat} {db db' : Db}

theorem emptied_cancelled (hlinks : Links db) (r : Run) (reason : String) (now : Time) :
    Emptied (db.cancelled r.runId reason now) r.runId where
  jobs j hj hrun := by
    rcases Table.mem_update_cases (f := fun j => withoutLease .cancelled j.readyAt (some reason) now j)
      (h := fun _ => rfl) hj with ⟨_, hclosed⟩ | ⟨a, _, _, rfl⟩
    · have hdone := of_decide_eq_false hclosed
      cases hstatus : j.status with
      | succeeded => decide
      | failed => decide
      | cancelled => decide
      | _ => exact absurd ⟨hrun, by rw [hstatus]; decide⟩ hdone
    · show JobStatus.cancelled ∉ _
      decide
  leases l hl hrun hactive := by
    rcases Table.mem_update_cases (f := closed .cancelled now none) (h := fun _ => rfl) hl with
      ⟨hl, hnot⟩ | ⟨a, _, _, rfl⟩
    · obtain ⟨j, hj, hid, hjob⟩ := hlinks.leaseJob l hl
      have hmine := (isActiveOf_iff hlinks r.runId hl hj hid hactive).mpr (hjob.trans hrun)
      rw [hnot] at hmine
      cases hmine
    · cases hactive
  reserved row hrow hid := by
    rcases Table.mem_update_cases (f := withoutReserve now) (h := fun _ => rfl) hrow with ⟨_, hne⟩ | ⟨a, _, _, rfl⟩
    · exact absurd hid (of_decide_eq_false hne)
    · rfl

theorem unclaimed_of_terminal {r : Run} (hlinks : Links db) (hr : r ∈ db.runs) (hterminal : r.state.isTerminal = true) :
    Unclaimed limits db r.runId := by
  intro acts workerId leaseTime retryDelay now leaseId l db' hclaim hrun
  obtain ⟨waiting, hchanges, ⟨hnone, _⟩ | ⟨j, l', hsome, _, _, hopen, _, hlease⟩⟩ := claimNext_ok hclaim
  · cases hnone
  · cases hsome
    have hlater := (grows_run hlinks acts).trans (grows_of_changes hchanges (links_run limits acts hlinks)).2
    obtain ⟨row, hrow, hid, hstate⟩ := hlater.runs r hr
    obtain ⟨row', hrow', hid', hdispatchable⟩ := open_run hopen
    obtain rfl := Table.eq_of_key hrow hrow' (hid.trans (hrun.symm.trans ((claim_ok hlease).1.runId.trans hid'.symm)))
    rw [hstate hterminal, not_dispatchable_of_terminal hterminal] at hdispatchable
    cases hdispatchable

theorem closed_of_over {l : Lease} (hlinks : Links db) (hr : Recorded db) (hl : l ∈ db.leases)
    (hover : l.status ≠ .active) : Closed limits db l := by
  intro acts workerId outcome actualCost error retryDelay now
  have hgrows : Grows db (Runs.run (step limits) db acts) := grows_run hlinks acts
  have hrecorded : Recorded (Runs.run (step limits) db acts) := recorded_run limits acts hlinks hr
  obtain ⟨l', hl', hid, _, _, hsame⟩ := hgrows.leases l hl
  obtain rfl := hsame hover
  generalize Runs.run (step limits) db acts = later at *
  unfold completeJob
  split
  · exact .inl ⟨_, rfl⟩
  · rw [Table.get?_of_mem hl']
    dsimp only
    split
    · exact .inl ⟨_, rfl⟩
    · split
      · exact .inl ⟨_, rfl⟩
      · split
        · rename_i op hop
          obtain ⟨hmem, hkey⟩ := Table.get?_eq_some.mp hop
          split
          · rename_i j hresult
            -- a stored completion is the one of this lease, which was completed before
            obtain ⟨completion, hbody⟩ : ∃ completion, op.body = .jobCompletion completion j := by
              unfold Operation.completionResult at hresult
              split at hresult
              · rename_i hbody
                split at hresult
                · cases hresult
                  exact ⟨_, hbody⟩
                · cases hresult
              · cases hresult
            obtain ⟨l'', hl'', hkey', hcompleted⟩ := hrecorded.completion op completion j hmem hbody
            obtain rfl := Table.eq_of_key hl'' hl' (completionKey_injective (hkey'.symm.trans hkey))
            obtain ⟨old, completion', j', hold, holdkey, _⟩ := hr.completed l'' hl hcompleted
            obtain rfl := Table.eq_of_key hmem (hgrows.operations old hold) (hkey.trans holdkey.symm)
            exact .inr ⟨hcompleted, op, completion, j, hold, hkey, hbody, rfl⟩
          · exact .inl ⟨_, rfl⟩
        · rename_i hnone
          have hnot : l'.status ≠ .completed := by
            intro hcompleted
            obtain ⟨op, _, _, hop, hkey, _⟩ := hrecorded.completed l' hl' hcompleted
            exact Table.get?_eq_none.mp hnone op hop hkey
          rw [if_neg hnot]
          exact .inl ⟨_, rfl⟩

end

def started : List Act :=
  [⟨.registerRun "r" "p" .implementingEconomy 5, 0, 0⟩,
   ⟨.enqueueJob { jobId := "j", runId := "r", projectId := "p", stage := "build", estimatedCost := 2 }, 1, 0⟩,
   ⟨.claimNext "w" 100 "l", 2, 0⟩]

end Workflow
end DarkFactory
