import Mathlib.Tactic.Linarith
import DarkFactory.Lib.Total
import DarkFactory.Control.Closing

/-!
# DarkFactory.Control.Cost

The cost of a run, as `_run_total_cost` reports it: the sum of `actual_cost` over its jobs.

* `addedCost_eq` — what a stage adds: its cost if `finish` wrote it, or left the job to
  `materialize_result` as pending; nothing otherwise.
-/

namespace DarkFactory
namespace Control

/-- `_run_total_cost`. -/
def Store.runCost (s : Store) (runId : String) : Rat :=
  s.jobs.total (fun j => decide (j.key.runId = runId)) Job.actualCost

theorem share_runCost (runId : String) (j : Job) :
    Table.share (fun j => decide (j.key.runId = runId)) Job.actualCost j =
      if j.key.runId = runId then j.actualCost else 0 := by
  simp only [Table.share, decide_eq_true_eq]

theorem runCost_change {s s' : Store} {F : Job → Job} (h : Table.Mapped F s.jobs s'.jobs) {job : Job}
    (hj : job ∈ s.jobs) (hF : ∀ j, j ∈ s.jobs → j.key ≠ job.key → F j = j) {cost : Rat}
    (hcost : (F job).actualCost = job.actualCost + cost) (runId : String) :
    s'.runCost runId = s.runCost runId + if job.key.runId = runId then cost else 0 := by
  have hc := h.total_change (p := fun j => decide (j.key.runId = runId)) (w := Job.actualCost) hj hF
  rw [share_runCost, share_runCost, h.key_eq job hj, hcost] at hc
  change s'.runCost runId + _ = s.runCost runId + _ at hc
  by_cases hr : job.key.runId = runId
  · rw [if_pos hr, if_pos hr] at hc
    rw [if_pos hr]
    linarith
  · rw [if_neg hr, if_neg hr] at hc
    rw [if_neg hr, ← hc, add_zero]

namespace Sqlite

variable {env : Env} {s s' : Store} {d : StageDispatch}

theorem runCost_claim {worker : String} {capabilities : List String} {now : DateTime}
    {readyAgeSec : Rat} {ids : ClaimIds} {c : Claim}
    (h : claim env worker capabilities now readyAgeSec ids s = .ok (some c, s')) (runId : String) :
    s'.runCost runId = s.runCost runId := by
  obtain ⟨row, matched, claims, -, -, -, rfl⟩ := claim_ok h
  refine Table.Mapped.total_congr (Table.mapped_update (h := by intro _; rfl)) fun j _ => ?_
  rw [share_runCost, share_runCost]
  split
  · rfl
  · rfl

theorem finishRow_actualCost (env : Env) (result : StageResult) (now : DateTime) (j : Job) :
    (finishRow env result now j).actualCost =
      j.actualCost + if result.outcome = .success then result.actualCost else 0 := by
  have e : ∀ j', (keepEvidence result j').actualCost = j'.actualCost := by
    intro j'
    unfold keepEvidence
    split
    · rfl
    · rfl
  rw [finishRow, e]
  unfold finishedJob
  cases result.outcome with
  | success => simp
  | retry =>
    simp only
    split
    · simp
    · simp
  | _ => simp

theorem runCost_finish {c : Claim} {result : StageResult} {now : DateTime} (h : finish env c result now s = .ok s')
    (runId : String) :
    s'.runCost runId = s.runCost runId +
      if c.jobKey.runId = runId then
        if result.outcome = .success then result.actualCost else 0
      else 0 := by
  obtain ⟨row, job, hh, -, -, rfl⟩ := finish_ok h
  rw [Store.runCost, finishApply_jobs, ← hh.key]
  change (finishTables env c result now s).runCost runId = _
  refine runCost_change (Table.mapped_update (h := finishRow_key env result now)) hh.job_mem
    (fun j _ hj => ?_) ?_ runId
  · rw [hh.key] at hj
    simp [hj]
  · simp [hh.key, hh.token, finishRow_actualCost]

theorem runCost_insertSuccessors (env : Env) (plan : Plan) (now : DateTime) (s : Store)
    (runId : String) : (insertSuccessors env plan now s).runCost runId = s.runCost runId := by
  unfold insertSuccessors Store.runCost
  simp only
  generalize s.jobs = jobs
  induction plan.successors generalizing jobs with
  | nil => rfl
  | cons k keys ih =>
    rw [List.foldl_cons, ih]
    refine Table.total_insertIgnore ?_
    rw [share_runCost]
    split
    · rfl
    · rfl

theorem runCost_materialize {k : JobKey} {result : StageResult} {now : DateTime} {keys : List JobKey} {job : Job}
    (h : materializeResult env k result now s = .ok (keys, s')) (hjob : s.jobs.get? k = some job)
    (runId : String) :
    s'.runCost runId = s.runCost runId +
      if k.runId = runId then
        if job.status = .pending ∨ job.status = .running then result.actualCost else 0
      else 0 := by
  obtain ⟨s₀, -, hs₀, -, rfl⟩ := materializeResult_ok h
  have hjobs := (ensureRun_jobs hs₀).1
  rw [← hjobs] at hjob
  have hsame : s.runCost runId = s₀.runCost runId := by rw [Store.runCost, ← hjobs, Store.runCost]
  rw [Store.runCost, closeIfDone_jobs]
  change (insertSuccessors env _ now (recordResult env k result _ now s₀)).runCost runId = _
  rw [runCost_insertSuccessors, hsame]
  obtain ⟨hmem, hkey⟩ := Table.get?_eq_some.mp hjob
  unfold recordResult
  rw [hjob]
  simp only
  split
  · rw [← hkey]
    refine runCost_change (Table.mapped_update (h := materializedJob_key env result _ now)) hmem
      (fun j _ hj => ?_) ?_ runId
    · simp [hj]
    · simp [materializedJob]
  · simp

/-- What a worker brings to one stage, and the calls that come between its own three. -/
structure StageDispatch where
  worker : String
  capabilities : List String := []
  readyAgeSec : Rat := 0
  ids : ClaimIds
  result : StageResult
  claimAt : DateTime
  afterClaim : List Op := []
  finishAt : DateTime
  afterFinish : List Op := []
  materializeAt : DateTime

/-- A stage claimed, finished and materialized: the stores its calls found and left. -/
structure Stage where
  claim : Claim
  claimed : Store
  toFinish : Store
  finished : Store
  toMaterialize : Store
  materialized : Store

/-- The calls in between left the status of the job and its retries alone. -/
def Undisturbed (s s' : Store) (key : JobKey) : Prop :=
  (s'.jobs.get? key).map (fun j => (j.status, j.retryCount, j.maxRetries)) =
    (s.jobs.get? key).map fun j => (j.status, j.retryCount, j.maxRetries)

instance (s s' : Store) (key : JobKey) : Decidable (Undisturbed s s' key) :=
  inferInstanceAs (Decidable (_ = _))

/-- `none` when a call raises, no job is claimed, or another call interferes with the job. -/
def stage (env : Env) (d : StageDispatch) (s : Store) : Option Stage :=
  match claim env d.worker d.capabilities d.claimAt d.readyAgeSec d.ids s with
  | .ok (some c, s₁) =>
    let s₂ := Runs.run (apply env) s₁ d.afterClaim
    match finish env c d.result d.finishAt s₂ with
    | .ok s₃ =>
      let s₄ := Runs.run (apply env) s₃ d.afterFinish
      match materializeResult env c.jobKey d.result d.materializeAt s₄ with
      | .ok (_, s₅) =>
        if Undisturbed s₁ s₂ c.jobKey ∧ Undisturbed s₃ s₄ c.jobKey then
          some ⟨c, s₁, s₂, s₃, s₄, s₅⟩
        else none
      | .error _ => none
    | .error _ => none
  | _ => none

theorem stage_calls {r : Stage} (h : stage env d s = some r) :
    claim env d.worker d.capabilities d.claimAt d.readyAgeSec d.ids s = .ok (some r.claim, r.claimed) ∧
      r.toFinish = Runs.run (apply env) r.claimed d.afterClaim ∧
      Undisturbed r.claimed r.toFinish r.claim.jobKey ∧
      finish env r.claim d.result d.finishAt r.toFinish = .ok r.finished ∧
      r.toMaterialize = Runs.run (apply env) r.finished d.afterFinish ∧
      Undisturbed r.finished r.toMaterialize r.claim.jobKey ∧
      ∃ keys, materializeResult env r.claim.jobKey d.result d.materializeAt r.toMaterialize =
        .ok (keys, r.materialized) := by
  unfold stage at h
  split at h
  · rename_i c s₁ hc
    simp only at h
    split at h
    · rename_i s₃ hf
      split at h
      · rename_i keys s₅ hm
        split at h
        · rename_i hu
          cases h
          exact ⟨hc, rfl, hu.1, hf, rfl, hu.2, keys, hm⟩
        · cases h
      · cases h
    · cases h
  · cases h

def addedCost (s : Store) (r : Stage) (runId : String) : Rat :=
  (r.claimed.runCost runId - s.runCost runId) +
    (r.finished.runCost runId - r.toFinish.runCost runId) +
    (r.materialized.runCost runId - r.toMaterialize.runCost runId)

/-- The finish leaves the job to `materialize_result`, as pending, or has written its cost. -/
def WritesCost (s : Store) (d : StageDispatch) (r : Stage) : Prop :=
  d.result.outcome = .success ∨
    (d.result.outcome = .retry ∧ ∃ j ∈ s.jobs.get? r.claim.jobKey, j.retryCount < j.maxRetries) ∨
    d.result.actualCost = 0

instance (s : Store) (d : StageDispatch) (r : Stage) : Decidable (WritesCost s d r) :=
  inferInstanceAs (Decidable (_ ∨ _ ∧ (∃ j ∈ s.jobs.get? r.claim.jobKey, _) ∨ _))

theorem undisturbed_some {key : JobKey} {j : Job} (h : Undisturbed s s' key) (hj : s.jobs.get? key = some j) :
    ∃ j', s'.jobs.get? key = some j' ∧ j'.status = j.status ∧ j'.retryCount = j.retryCount ∧
      j'.maxRetries = j.maxRetries := by
  rw [Undisturbed, hj, Option.map_some, Option.map_eq_some_iff] at h
  obtain ⟨j', hj', e⟩ := h
  exact ⟨j', hj', congrArg (·.1) e, congrArg (·.2.1) e, congrArg (·.2.2) e⟩

theorem stage_job {r : Stage} (h : stage env d s = some r) :
    ∃ row job settled, s.jobs.get? r.claim.jobKey = some row ∧
      job.retryCount = row.retryCount ∧ job.maxRetries = row.maxRetries ∧
      r.toMaterialize.jobs.get? r.claim.jobKey = some settled ∧
      settled.status = (finishRow env d.result d.finishAt job).status := by
  obtain ⟨hc, -, hu₁, hf, -, hu₂, -⟩ := stage_calls h
  obtain ⟨row, matched, claims, hch, -, hclaim, hs₁⟩ := claim_ok hc
  have hrow := (mem_pendingByCreation.mp (chosenRow_ok hch).1).1
  have hkey : r.claim.jobKey = row.key := by
    rw [hclaim]
    rfl
  have hleased : r.claimed.jobs.get? r.claim.jobKey = some (leasedRow row ("lease-" ++ d.ids.lease) d.claimAt) := by
    rw [hs₁]
    exact (leaseJobs_get? hrow _ _ _).trans (if_pos hkey)
  obtain ⟨job, hjob, -, hcount, hmax⟩ := undisturbed_some hu₁ hleased
  obtain ⟨crow, job', hh, -, -, hs₃⟩ := finish_ok hf
  have hsame : job' = job := by
    rw [← hh.key, Table.get?_of_mem hh.job_mem] at hjob
    exact Option.some.inj hjob
  have hfin : r.finished.jobs.get? r.claim.jobKey = some (finishRow env d.result d.finishAt job) := by
    rw [hs₃, finishApply_jobs, finishTables_get? env d.result d.finishAt hh, if_pos rfl, hsame]
  obtain ⟨settled, hset, hst, -⟩ := undisturbed_some hu₂ hfin
  exact ⟨row, job, settled, hkey ▸ Table.get?_of_mem hrow, hcount, hmax, hset, hst⟩

theorem addedCost_eq {r : Stage} (h : stage env d s = some r) (runId : String) :
    addedCost s r runId = if r.claim.jobKey.runId = runId ∧ WritesCost s d r then d.result.actualCost else 0 := by
  obtain ⟨hc, -, -, hf, -, -, keys, hm⟩ := stage_calls h
  obtain ⟨row, job, settled, hrow, hcount, hmax, hset, hst⟩ := stage_job h
  rw [addedCost, runCost_claim hc, runCost_finish hf, runCost_materialize hm hset, hst, finishRow_status]
  simp only [WritesCost, hrow, Option.mem_def, Option.some.injEq, exists_eq_left', hcount, hmax]
  by_cases hid : r.claim.jobKey.runId = runId
  · simp only [hid, if_true, true_and]
    cases ho : d.result.outcome with
    | success => simp [Outcome.dbStatus]
    | retry =>
      by_cases hleft : row.retryCount < row.maxRetries
      · simp [hleft]
      · by_cases hz : d.result.actualCost = 0
        · simp [hleft, hz]
        · simp [hleft, hz]
    | _ =>
      by_cases hz : d.result.actualCost = 0
      · simp [Outcome.dbStatus, hz]
      · simp [Outcome.dbStatus, hz]
  · simp [hid]

inductive CostOp where
  | call (op : Op)
  | stage (d : StageDispatch)

def costStep (env : Env) (s : Store) : CostOp → Store
  | .call op => apply env s op
  | .stage d => ((stage env d s).map Stage.materialized).getD s

def CostConserved (env : Env) (m : Move Store CostOp) : Prop :=
  match m.act with
  | .call _ => True
  | .stage d => ∀ r ∈ stage env d m.pre, ∀ runId,
      addedCost m.pre r runId = if r.claim.jobKey.runId = runId then d.result.actualCost else 0

def CostWritten (env : Env) (s : Store) : CostOp → Prop
  | .call _ => True
  | .stage d => ∀ r ∈ stage env d s, WritesCost s d r

theorem costConserved_step (env : Env) (s : Store) (a : CostOp) :
    CostConserved env ⟨s, a, costStep env s a⟩ ↔ CostWritten env s a := by
  cases a with
  | call op => exact iff_of_true trivial trivial
  | stage d =>
    refine forall₂_congr fun r hr => ?_
    constructor
    · intro h
      have hadd := h r.claim.jobKey.runId
      rw [addedCost_eq hr] at hadd
      by_contra hw
      simp only [hw, and_false, if_false, if_true] at hadd
      exact hw (.inr (.inr hadd.symm))
    · intro hw runId
      simp [addedCost_eq hr, hw]

/-- From any store, through any calls and stages, every stage adds its cost to its run exactly when
every stage succeeds, is retried with a retry left, or costs nothing. -/
theorem cost_conserved_iff (env : Env) (s : Store) (acts : List CostOp) :
    (∀ m ∈ Runs.moves (costStep env) s acts, CostConserved env m) ↔
      ∀ m ∈ Runs.moves (costStep env) s acts, CostWritten env m.pre m.act :=
  Runs.moves_forall_iff (I := fun _ => True) (fun s a _ => costConserved_step env s a)
    (fun _ _ _ _ => trivial) trivial acts

def failedStage : StageDispatch where
  worker := "worker-1"
  ids := ⟨"l1", "v1"⟩
  result := { outcome := .failed, actualCost := 5 }
  claimAt := utc 10
  finishAt := utc 20
  materializeAt := utc 20

instance (env : Env) (s : Store) : (a : CostOp) → Decidable (CostWritten env s a)
  | .call _ => inferInstanceAs (Decidable True)
  | .stage d => inferInstanceAs (Decidable (∀ r ∈ stage env d s, WritesCost s d r))

/-- The cost of a failed stage is dropped: the run still costs nothing. -/
theorem failed_stage_cost_dropped :
    (¬ ∀ m ∈ Runs.moves (costStep .sample) .empty [.call .sampleAccept, .stage failedStage],
        CostConserved .sample m) ∧
      (stage .sample failedStage (apply .sample .empty .sampleAccept)).isSome = true ∧
      (Runs.run (costStep .sample) .empty [.call .sampleAccept, .stage failedStage]).runCost
        "run-r1" = 0 := by
  refine ⟨fun h => ?_, by decide +kernel, by decide +kernel⟩
  have hw := (costConserved_step .sample (apply .sample .empty .sampleAccept)
    (.stage failedStage)).mp (h _ (.tail _ (.head _)))
  exact absurd hw (by decide +kernel)

end Sqlite
end Control
end DarkFactory
