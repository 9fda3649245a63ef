import DarkFactory.Control.Effects

/-!
# DarkFactory.Control.Closing

When finish and materialize_result leave a run without an open job, and what they then write to
`runs.status`. Both decide it in their own transaction, from the jobs they see there.

* `OpenElsewhere` — the run of a job has an open job besides it.
-/

namespace DarkFactory
namespace Control

def OpenElsewhere (s : Store) (k : JobKey) : Prop :=
  ∃ j, j ∈ s.jobs ∧ j.key.runId = k.runId ∧ j.key ≠ k ∧ j.status.isOpen = true

theorem openElsewhere_iff {s : Store} {k : JobKey} :
    OpenElsewhere s k ↔
      ∃ key j, key.runId = k.runId ∧ key ≠ k ∧ s.jobs.get? key = some j ∧ j.status.isOpen = true := by
  constructor
  · rintro ⟨j, hj, hr, hk, ho⟩
    exact ⟨j.key, j, hr, hk, Table.get?_of_mem hj, ho⟩
  · rintro ⟨key, j, hr, hk, hj, ho⟩
    obtain ⟨hjm, rfl⟩ := Table.get?_eq_some.mp hj
    exact ⟨j, hjm, hr, hk, ho⟩

def HasOpen (s : Store) (runId : String) : Prop :=
  ∃ j, j ∈ s.jobs ∧ j.key.runId = runId ∧ j.status.isOpen = true

theorem hasOpen_iff {s : Store} {runId : String} : HasOpen s runId ↔ s.openJobs runId ≠ [] := by
  rw [ne_eq, Store.openJobs_eq_nil]
  constructor
  · rintro ⟨j, hj, hr, ho⟩ h
    rw [h j hj hr] at ho
    cases ho
  · intro h
    by_contra hn
    apply h
    intro j hj hr
    cases ho : j.status.isOpen with
    | false => rfl
    | true => exact absurd ⟨j, hj, hr, ho⟩ hn

theorem hasOpen_iff_get? {s : Store} {runId : String} :
    HasOpen s runId ↔ ∃ key j, key.runId = runId ∧ s.jobs.get? key = some j ∧ j.status.isOpen = true := by
  constructor
  · rintro ⟨j, hj, hr, ho⟩
    exact ⟨j.key, j, hr, Table.get?_of_mem hj, ho⟩
  · rintro ⟨key, j, hr, hj, ho⟩
    obtain ⟨hjm, rfl⟩ := Table.get?_eq_some.mp hj
    exact ⟨j, hjm, hr, ho⟩

namespace Sqlite

theorem finish_hasOpen (env : Env) {c : Claim} (result : StageResult) (now : DateTime) {s : Store}
    {row : ClaimRow} {job : Job} (h : c.Holds s row job) :
    HasOpen (finishTables env c result now s) c.jobKey.runId ↔
      OpenElsewhere s c.jobKey ∨ (finishRow env result now job).status.isOpen = true := by
  rw [hasOpen_iff_get?, openElsewhere_iff]
  simp only [finishTables_get? env result now h]
  constructor
  · rintro ⟨key, j, hr, hj, ho⟩
    by_cases hk : key = c.jobKey
    · rw [if_pos hk, Option.some.injEq] at hj
      exact .inr (hj ▸ ho)
    · rw [if_neg hk] at hj
      exact .inl ⟨key, j, hr, hk, hj, ho⟩
  · rintro (⟨key, j, hr, hk, hj, ho⟩ | ho)
    · exact ⟨key, j, hr, by rw [if_neg hk, hj], ho⟩
    · exact ⟨c.jobKey, _, rfl, by rw [if_pos rfl], ho⟩

theorem finishTables_openJobs (env : Env) {c : Claim} {result : StageResult} (now : DateTime)
    {s : Store} {row : ClaimRow} {job : Job} (h : c.Holds s row job)
    (ho : result.outcome = .success) :
    (finishTables env c result now s).openJobs c.jobKey.runId = [] ↔ ¬ OpenElsewhere s c.jobKey := by
  have hst : (finishRow env result now job).status.isOpen = false := by
    rw [finishRow_status, ho]
    rfl
  have hopen := finish_hasOpen env result now h
  rw [hasOpen_iff, hst, ne_eq] at hopen
  rw [← not_iff_not, hopen]
  simp

theorem finish_runs (env : Env) {c : Claim} (result : StageResult) (now : DateTime) {s : Store}
    {row : ClaimRow} {job : Job} (h : c.Holds s row job) :
    ((finishApply env c result now s).runs = s.runs ∧ ¬ (result.outcome = .success ∧ ¬ OpenElsewhere s c.jobKey)) ∨
      (result.outcome = .success ∧ ¬ OpenElsewhere s c.jobKey ∧
        (finishApply env c result now s).runs = (s.closeRun c.jobKey.runId .completed now).runs) := by
  rw [finishApply_runs]
  by_cases ho : result.outcome = .success
  · have hiff := finishTables_openJobs env now h ho
    by_cases he : OpenElsewhere s c.jobKey
    · exact .inl ⟨if_neg fun hc => hiff.mp hc.2 he, fun hc => hc.2 he⟩
    · exact .inr ⟨ho, he, if_pos ⟨ho, hiff.mpr he⟩⟩
  · exact .inl ⟨if_neg fun hc => ho hc.1, fun hc => ho hc.1⟩

def NewSuccessor (s : Store) (k : JobKey) (plan : Plan) : Prop :=
  ∃ key, key ∈ plan.successors ∧ key ≠ k ∧ s.jobs.get? key = none

/-- materialize_result leaves the run with an open job: another one, the source job itself, or a
new successor. -/
def StaysOpen (s : Store) (k : JobKey) (result : StageResult) (plan : Plan) : Prop :=
  OpenElsewhere s k ∨ (settledStatus k result plan s).isOpen = true ∨ NewSuccessor s k plan

theorem materialized_hasOpen (env : Env) {k : JobKey} (result : StageResult) {plan : Plan}
    (now : DateTime) (s : Store) (hp : ∀ key ∈ plan.successors, key.runId = k.runId) :
    HasOpen (materialized env k result plan now s) k.runId ↔ StaysOpen s k result plan := by
  rw [hasOpen_iff_get?, StaysOpen, openElsewhere_iff, NewSuccessor, ← settledRow_status env k result plan now s]
  simp only [materialized_get?]
  constructor
  · rintro ⟨key, j, hr, hj, ho⟩
    by_cases hk : key = k
    · rw [if_pos hk, Option.some.injEq] at hj
      exact .inr (.inl (hj ▸ ho))
    · rw [if_neg hk] at hj
      cases hold : s.jobs.get? key with
      | some j₀ =>
        rw [hold, Option.some_or, Option.some.injEq] at hj
        exact .inl ⟨key, j₀, hr, hk, hold, hj ▸ ho⟩
      | none =>
        rw [hold, Option.none_or] at hj
        split at hj
        · rename_i hm
          exact .inr (.inr ⟨key, hm, hk, hold⟩)
        · cases hj
  · rintro (⟨key, j, hr, hk, hj, ho⟩ | ho | ⟨key, hm, hk, hnone⟩)
    · exact ⟨key, j, hr, by rw [if_neg hk, hj, Option.some_or], ho⟩
    · exact ⟨k, _, rfl, by rw [if_pos rfl], ho⟩
    · exact ⟨key, successorJob env plan now key, hp key hm,
        by rw [if_neg hk, hnone, Option.none_or, if_pos hm], rfl⟩

def FailedElsewhere (s : Store) (k : JobKey) : Prop :=
  ∃ j, j ∈ s.jobs ∧ j.key.runId = k.runId ∧ j.key ≠ k ∧ j.status = .failed

def HasFailed (s : Store) (k : JobKey) (result : StageResult) (plan : Plan) : Prop :=
  FailedElsewhere s k ∨ settledStatus k result plan s = .failed

theorem materialized_failed (env : Env) (k : JobKey) (result : StageResult) (plan : Plan)
    (now : DateTime) (s : Store) :
    ((materialized env k result plan now s).jobs.any fun j =>
        decide (j.key.runId = k.runId) && decide (j.status = .failed)) = true ↔
      HasFailed s k result plan := by
  rw [Table.any_eq_true, HasFailed, FailedElsewhere, ← settledRow_status env k result plan now s]
  simp only [Bool.and_eq_true, decide_eq_true_eq]
  constructor
  · rintro ⟨j, hj, hr, hf⟩
    have hget := Table.get?_of_mem hj
    rw [materialized_get?] at hget
    split at hget
    · rw [Option.some.injEq] at hget
      exact .inr (hget ▸ hf)
    · rename_i hk
      cases hold : s.jobs.get? j.key with
      | some j₀ =>
        rw [hold, Option.some_or, Option.some.injEq] at hget
        subst hget
        exact .inl ⟨j₀, Table.mem_of_get? hold, hr, hk, hf⟩
      | none =>
        rw [hold, Option.none_or] at hget
        split at hget
        · rw [Option.some.injEq] at hget
          rw [← hget] at hf
          cases hf
        · cases hget
  · rintro (⟨j, hj, hr, hk, hf⟩ | hf)
    · refine ⟨j, Table.mem_of_get? (k := j.key) ?_, hr, hf⟩
      rw [materialized_get?, if_neg hk, Table.get?_of_mem hj, Option.some_or]
    · refine ⟨settledRow env k result plan now s, Table.mem_of_get? (k := k) ?_, ?_, hf⟩
      · rw [materialized_get?, if_pos rfl]
      · rw [settledRow_key]

theorem closeIfDone_runs (env : Env) {k : JobKey} (result : StageResult) {plan : Plan}
    (now : DateTime) (s : Store) (hp : ∀ key ∈ plan.successors, key.runId = k.runId) :
    (StaysOpen s k result plan ∧ (closeIfDone k.runId now (materialized env k result plan now s)).runs = s.runs) ∨
      (¬ StaysOpen s k result plan ∧ HasFailed s k result plan ∧
        (closeIfDone k.runId now (materialized env k result plan now s)).runs =
          (s.closeRun k.runId .failed now).runs) ∨
      (¬ StaysOpen s k result plan ∧ ¬ HasFailed s k result plan ∧
        (closeIfDone k.runId now (materialized env k result plan now s)).runs =
          (s.closeRun k.runId .completed now).runs) := by
  have hopen := materialized_hasOpen env result now s hp
  have hfail := materialized_failed env k result plan now s
  have hruns := materialized_runs env k result plan now s
  rw [hasOpen_iff] at hopen
  unfold closeIfDone
  split
  · rename_i hnil
    have hn : ¬ StaysOpen s k result plan := fun h => (hopen.mpr h) hnil
    split
    · rename_i hf
      exact .inr (.inl ⟨hn, hfail.mp hf, by simp only [Store.closeRun, hruns]⟩)
    · rename_i hf
      exact .inr (.inr ⟨hn, fun h => hf (hfail.mpr h), by simp only [Store.closeRun, hruns]⟩)
  · rename_i hnil
    exact .inl ⟨hopen.mp hnil, hruns⟩

theorem closing_congr {s s₀ : Store} (hj : s₀.jobs = s.jobs) (k : JobKey) (result : StageResult)
    (plan : Plan) :
    settledStatus k result plan s₀ = settledStatus k result plan s ∧
      (StaysOpen s₀ k result plan ↔ StaysOpen s k result plan) ∧
      (HasFailed s₀ k result plan ↔ HasFailed s k result plan) := by
  simp only [settledStatus, StaysOpen, OpenElsewhere, NewSuccessor, HasFailed, FailedElsewhere, hj,
    iff_self, and_self]

theorem closeIfDone_jobs (runId : String) (now : DateTime) (s : Store) :
    (closeIfDone runId now s).jobs = s.jobs := by
  unfold closeIfDone
  split
  · rfl
  · rfl

end Sqlite
end Control
end DarkFactory
