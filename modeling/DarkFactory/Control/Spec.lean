import DarkFactory.Control.Operations

/-!
# DarkFactory.Control.Spec

One specification per operation of the SQLite store: what a call that returns has found in the
tables, and which state it leaves. The proofs about runs of the store start from these and do not
unfold the operations again.

* `accept_ok`, `claim_ok`, `heartbeat_ok`, `finish_ok`, `recordOperation_ok`,
  `materializeResult_ok` — the calls that return.
-/

namespace DarkFactory
namespace Control

/-- The claim holds the lease of its job: its row is active, and the job names the lease and carries
the claim's token. -/
structure Claim.Holds (c : Claim) (s : Store) (row : ClaimRow) (job : Job) : Prop where
  row_mem : row ∈ s.claims
  leaseId : row.leaseId = c.leaseId
  active : row.status = .active
  job_mem : job ∈ s.jobs
  key : job.key = c.jobKey
  token : job.fencingToken = c.fencingToken
  lease : job.currentLeaseId = some c.leaseId

theorem Claim.Holds.of_get? {c : Claim} {s : Store} {row : ClaimRow} {job : Job}
    (hrow : s.claims.get? c.leaseId = some row) (ha : ¬ row.status ≠ .active)
    (hjob : s.jobs.get? c.jobKey = some job)
    (hf : ¬ (job.fencingToken ≠ c.fencingToken ∨ job.currentLeaseId ≠ some c.leaseId)) :
    c.Holds s row job := by
  obtain ⟨hrm, hrk⟩ := Table.get?_eq_some.mp hrow
  obtain ⟨hjm, hjk⟩ := Table.get?_eq_some.mp hjob
  rw [not_or, not_not, not_not] at hf
  exact ⟨hrm, hrk, not_not.mp ha, hjm, hjk, hf.1, hf.2⟩

namespace Sqlite

variable {now : DateTime} {s s' s₀ : Store} {env : Env} {worker : String} {capabilities : List String}
variable {readyAgeSec : Rat} {c : Claim} {result : StageResult} {k : JobKey}

theorem accept_ok {command : IntakeCommand} {ids : IntakeIds}
    {receipt : IntakeReceipt} (h : accept command ids now s = .ok (receipt, s')) :
    s' = s ∨
      (command.mode = .autonomous ∧
        s.insertRun (intakeRun command ("run-" ++ ids.run) ("dem-" ++ ids.demand) now) = some s'.runs ∧
        s.jobs.insert? (initialJob command ("run-" ++ ids.run) now) = some s'.jobs ∧
        s'.claims = s.claims ∧ s'.fleetReservations = s.fleetReservations) ∨
      (command.mode = .documentary ∧
        s.insertRun (intakeRun command ("doc-" ++ ("dem-" ++ ids.demand)) ("dem-" ++ ids.demand)
          now) = some s'.runs ∧
        s'.jobs = s.jobs ∧ s'.claims = s.claims ∧ s'.fleetReservations = s.fleetReservations) := by
  unfold accept at h
  split at h
  · split at h
    · cases h
    · cases h
      exact .inl rfl
  · split at h
    · rename_i hm
      simp only at h
      split at h
      · cases h
      rename_i hr
      split at h
      · cases h
      rename_i hj
      split at h
      · cases h
      cases h
      exact .inr (.inl ⟨hm, hr, hj, rfl, rfl⟩)
    · rename_i hm
      simp only at h
      split at h
      · cases h
      rename_i hr
      split at h
      · cases h
      cases h
      exact .inr (.inr ⟨hm, hr, rfl, rfl, rfl⟩)

theorem insertRun_eq_some {r : Run} {runs : Table Run.runId}
    (h : s.insertRun r = some runs) : s.runs.insert? r = some runs := by
  unfold Store.insertRun at h
  split at h
  · cases h
  · exact h

theorem mem_pendingByCreation {j : Job} : j ∈ pendingByCreation s ↔ j ∈ s.jobs ∧ j.status = .pending := by
  rw [pendingByCreation, List.mem_insertionSort, Table.mem_select, decide_eq_true_eq]

theorem chosenRow_ok {rows : List Job} {row : Job} {matched : Option String} :
    ∀ {bound : Bool}, chosenRow env worker capabilities now readyAgeSec s bound rows = .ok (some (row, matched)) →
      row ∈ rows ∧ claimable env worker capabilities now readyAgeSec s row = some matched := by
  induction rows with
  | nil =>
    intro bound h
    cases h
  | cons r rows ih =>
    intro bound h
    simp only [chosenRow] at h
    split at h
    · split at h
      · cases h
      · split at h
        · rename_i hc
          cases h
          exact ⟨List.mem_cons_self, hc⟩
        · exact ⟨List.mem_cons_of_mem _ (ih h).1, (ih h).2⟩
    · split at h
      · rename_i hc
        cases h
        exact ⟨List.mem_cons_self, hc⟩
      · exact ⟨List.mem_cons_of_mem _ (ih h).1, (ih h).2⟩

/-- The loop ends in a row, without one, or on the unassigned `now_comp`. -/
theorem chosenRow_error {rows : List Job} {e : Raised} :
    ∀ {bound : Bool}, chosenRow env worker capabilities now readyAgeSec s bound rows = .error e →
      e = unboundNowComp := by
  induction rows with
  | nil =>
    intro bound h
    cases h
  | cons r rows ih =>
    intro bound h
    simp only [chosenRow] at h
    split at h
    · split at h
      · cases h
        rfl
      · split at h
        · cases h
        · exact ih h
    · split at h
      · cases h
      · exact ih h

theorem insertClaim_eq_some {c : ClaimRow} {claims : Table ClaimRow.leaseId} (h : s.insertClaim c = some claims) :
    s.claims.insert? c = some claims ∧
      ∀ d, d ∈ s.claims → d.jobKey = c.jobKey → d.fencingToken ≠ c.fencingToken := by
  unfold Store.insertClaim at h
  split at h
  · cases h
  · rename_i hany
    refine ⟨h, ?_⟩
    intro d hd hk ht
    apply hany
    rw [Table.any_eq_true]
    exact ⟨d, hd, by simp [hk, ht]⟩

theorem claim_ok {ids : ClaimIds} (h : claim env worker capabilities now readyAgeSec ids s = .ok (some c, s')) :
    ∃ row matched claims, chosenRow env worker capabilities now readyAgeSec s false (pendingByCreation s) =
          .ok (some (row, matched)) ∧
        s.insertClaim (claimRow env worker now ids row matched) = some claims ∧
        c = claimOf (claimRow env worker now ids row matched) ∧
        s' = claimed env now ids row matched claims s := by
  unfold claim at h
  split at h
  · cases h
  · cases h
  · rename_i row matched hch
    split at h
    · cases h
    · rename_i claims hins
      cases h
      exact ⟨row, matched, claims, hch, hins, rfl, rfl⟩

theorem claim_none {ids : ClaimIds}
    (h : claim env worker capabilities now readyAgeSec ids s = .ok (none, s')) : s' = s := by
  unfold claim at h
  split at h
  · cases h
  · cases h
    rfl
  · split at h <;> cases h

def leasedRow (row : Job) (leaseId : String) (now : DateTime) : Job :=
  { row with
    status := .running
    fencingToken := row.fencingToken + 1
    currentLeaseId := some leaseId
    startedAt := some now
    updatedAt := now }

theorem leaseJobs_get? {row : Job} (hrow : row ∈ s.jobs) (leaseId : String) (now : DateTime) (key : JobKey) :
    (leaseJobs s row leaseId now).get? key =
      if key = row.key then some (leasedRow row leaseId now) else s.jobs.get? key := by
  have hget := Table.get?_of_mem hrow
  rw [leaseJobs, Table.get?_update]
  split
  · rename_i hk
    subst hk
    simp [hget, leasedRow]
  · rename_i hk
    cases hj : s.jobs.get? key with
    | none => rfl
    | some j =>
      have : j.key ≠ row.key := by rw [Table.key_of_get? hj]; exact hk
      simp [this]

theorem heartbeat_ok {c' : Claim} (h : heartbeat env c now s = .ok (c', s')) :
    ∃ row job, c.Holds s row job ∧ row.expiresAt.le now = false ∧
      (c.fleetBound = true → ∀ r, s.fleetReservations.get? c.reservationId = some r →
        r.status.isLive = true ∧ r.expiresAt.le now = false) ∧
      heartbeat.beat env c now s = .ok (c', s') := by
  unfold heartbeat at h
  split at h
  · cases h
  rename_i row hrow
  split at h
  · cases h
  rename_i ha
  split at h
  · cases h
  rename_i hexp
  split at h
  · cases h
  rename_i job hjob
  split at h
  · cases h
  rename_i hf
  refine ⟨row, job, .of_get? hrow ha hjob hf, Bool.not_eq_true _ ▸ hexp, ?_⟩
  split at h
  · rename_i r hr
    split at h
    · cases h
    split at h
    · cases h
    rename_i hlive
    refine ⟨?_, h⟩
    intro hb r' hr'
    rw [if_pos hb, hr'] at hr
    cases hr
    rw [Bool.or_eq_true, not_or, Bool.not_eq_true', Bool.not_eq_false, Bool.not_eq_true] at hlive
    exact hlive
  · rename_i hr
    refine ⟨?_, h⟩
    intro hb r' hr'
    rw [if_pos hb, hr'] at hr
    cases hr

theorem finishGuard_ok {job : Job} (h : finishGuard c result now s = .ok job) :
    ∃ row, c.Holds s row job ∧ row.expiresAt.le now = false ∧ checkFinishReservationFence c now s = .ok () := by
  unfold finishGuard at h
  split at h
  · cases h
  split at h
  · cases h
  rename_i row hrow
  split at h
  · cases h
  rename_i ha
  split at h
  · cases h
  rename_i hexp
  split at h
  · cases h
  rename_i hfence
  split at h
  · cases h
  rename_i hjob
  split at h
  · cases h
  rename_i hf
  cases h
  exact ⟨row, .of_get? hrow ha hjob hf, Bool.not_eq_true _ ▸ hexp, hfence⟩

theorem finish_ok (h : finish env c result now s = .ok s') :
    ∃ row job, c.Holds s row job ∧ row.expiresAt.le now = false ∧
      checkFinishReservationFence c now s = .ok () ∧ s' = finishApply env c result now s := by
  unfold finish at h
  split at h
  · cases h
  · rename_i job hg
    cases h
    obtain ⟨row, hh, hexp, hfence⟩ := finishGuard_ok hg
    exact ⟨row, job, hh, hexp, hfence, rfl⟩

theorem checkFinishReservationFence_ok (h : checkFinishReservationFence c now s = .ok ()) (hb : c.fleetBound = true) :
    ∃ r, s.fleetReservations.get? c.reservationId = some r ∧ r.status.isLive = true ∧
      r.expiresAt.le now = false := by
  unfold checkFinishReservationFence at h
  rw [if_pos hb] at h
  split at h
  · cases h
  · rename_i r hr
    split at h
    · cases h
    · rename_i hlive
      rw [Bool.or_eq_true, not_or, Bool.not_eq_true', Bool.not_eq_false, Bool.not_eq_true] at hlive
      exact ⟨r, hr, hlive⟩

theorem recordOperation_ok {operation : ExternalOperation} {clock : DateTime}
    (h : recordOperation operation c clock s = .ok s') :
    ∃ row job, c.Holds s row job ∧ row.fencingToken = c.fencingToken ∧
      (c.fleetBound = true → ∀ r, s.fleetReservations.get? c.reservationId = some r →
        r.status.isLive = true ∧ r.expiresAt.lt (operation.observedAt.getD clock) = false) ∧
      s' = recordOperation.record operation c s := by
  unfold recordOperation at h
  split at h
  · cases h
  rename_i row hrow
  split at h
  · cases h
  rename_i ha
  split at h
  · cases h
  rename_i htok
  split at h
  · cases h
  rename_i job hjob
  split at h
  · cases h
  rename_i hf
  refine ⟨row, job, .of_get? hrow ha hjob hf, not_not.mp htok, ?_⟩
  split at h
  · rename_i r hr
    split at h
    · cases h
    rename_i hlive
    cases h
    refine ⟨?_, rfl⟩
    intro hb r' hr'
    rw [if_pos hb, hr'] at hr
    cases hr
    rw [Bool.or_eq_true, not_or, Bool.not_eq_true', Bool.not_eq_false, Bool.not_eq_true] at hlive
    exact hlive
  · rename_i hr
    cases h
    refine ⟨?_, rfl⟩
    intro hb r' hr'
    rw [if_pos hb, hr'] at hr
    cases hr

/-- What a finish leaves apart from the outbox: the two UPDATEs, and for a success the closing of a
run that has no open job any more. -/
theorem finishApply_jobs (env : Env) (c : Claim) (result : StageResult) (now : DateTime)
    (s : Store) : (finishApply env c result now s).jobs = (finishTables env c result now s).jobs := by
  unfold finishApply
  cases result.outcome with
  | success =>
    simp only
    split
    · rfl
    · rfl
  | _ => rfl

theorem finishApply_claims (env : Env) (c : Claim) (result : StageResult) (now : DateTime) (s : Store) :
    (finishApply env c result now s).claims = (finishTables env c result now s).claims := by
  unfold finishApply
  cases result.outcome with
  | success =>
    simp only
    split
    · rfl
    · rfl
  | _ => rfl

theorem finishApply_runs (env : Env) (c : Claim) (result : StageResult) (now : DateTime) (s : Store) :
    (finishApply env c result now s).runs = if result.outcome = .success ∧
          (finishTables env c result now s).openJobs c.jobKey.runId = [] then
        (s.closeRun c.jobKey.runId .completed now).runs
      else s.runs := by
  unfold finishApply
  cases result.outcome with
  | success =>
    simp only [true_and]
    have e : ∀ o, ({ finishTables env c result now s with outbox := o } : Store).openJobs
        c.jobKey.runId = (finishTables env c result now s).openJobs c.jobKey.runId := fun _ => rfl
    rw [e]
    split
    · rfl
    · rfl
  | _ => simp [finishTables]

theorem finishTables_get? (env : Env) {c : Claim} (result : StageResult) (now : DateTime)
    {s : Store} {row : ClaimRow} {job : Job} (h : c.Holds s row job) (key : JobKey) :
    (finishTables env c result now s).jobs.get? key =
      if key = c.jobKey then some (finishRow env result now job) else s.jobs.get? key := by
  have hget : s.jobs.get? c.jobKey = some job := Table.get?_eq_some.mpr ⟨h.job_mem, h.key⟩
  have hmap := Table.mapped_update (t := s.jobs)
    (p := fun j => decide (j.key = c.jobKey) && decide (j.fencingToken = c.fencingToken))
    (h := finishRow_key env result now)
  rw [show (finishTables env c result now s).jobs.get? key = _ from hmap.get? key]
  split
  · rename_i hk
    rw [hk, hget]
    simp [h.key, h.token]
  · rename_i hk
    cases hj : s.jobs.get? key with
    | none => rfl
    | some j => simp [Table.key_of_get? hj, hk]

theorem finishRow_status (env : Env) (result : StageResult) (now : DateTime) (j : Job) :
    (finishRow env result now j).status = match result.outcome with
      | .retry => if j.retryCount < j.maxRetries then .pending else .failed
      | o => o.dbStatus := by
  have e : ∀ j', (keepEvidence result j').status = j'.status := by
    intro j'
    unfold keepEvidence
    split
    · rfl
    · rfl
  rw [finishRow, e]
  unfold finishedJob
  cases result.outcome with
  | retry =>
    simp only
    split
    · rfl
    · rfl
  | _ => rfl

theorem finish_of_guard {job : Job} (h : finishGuard c result now s = .ok job) :
    finish env c result now s = .ok (finishApply env c result now s) := by
  rw [finish, h]

theorem mem_reopenRun {runId : String} {resetBudget : Bool} {r' : Run} (h : r' ∈ reopenRun s runId resetBudget now) :
    ∃ r, r ∈ s.runs ∧ r'.runId = r.runId ∧ r'.mode = r.mode ∧
      (r'.status = r.status ∨ (r.runId = runId ∧ r.status = .completed ∧ r'.status = .active)) := by
  unfold reopenRun at h
  rcases Table.mem_update_cases h with ⟨h₁, -⟩ | ⟨r₁, h₁, hp, rfl⟩
  · rcases Table.mem_update_cases h₁ with ⟨h₀, -⟩ | ⟨r, h₀, -, rfl⟩
    · exact ⟨r', h₀, rfl, rfl, .inl rfl⟩
    · exact ⟨r, h₀, rfl, rfl, .inl rfl⟩
  · rw [Bool.and_eq_true, decide_eq_true_eq, decide_eq_true_eq] at hp
    rcases Table.mem_update_cases h₁ with ⟨h₀, -⟩ | ⟨r, h₀, -, rfl⟩
    · exact ⟨r₁, h₀, rfl, rfl, .inr ⟨hp.1, hp.2, rfl⟩⟩
    · exact ⟨r, h₀, rfl, rfl, .inr ⟨hp.1, hp.2, rfl⟩⟩

theorem resumeJob_runs (key : JobKey) (now : DateTime) (s : Store) :
    (resumeJob key now s).2.runs = s.runs ∨
      ∃ resetBudget, (resumeJob key now s).2.runs = reopenRun s key.runId resetBudget now := by
  unfold resumeJob
  split
  · exact .inl rfl
  · split
    · exact .inl rfl
    · exact .inr ⟨_, rfl⟩

theorem cancelRun_runs (runId reason actor : String) (now : DateTime) (s : Store) :
    (s.runs.get? runId = none ∧ (cancelRun runId reason actor now s).2 = s) ∨
      (s.runs.get? runId ≠ none ∧
        (cancelRun runId reason actor now s).2.runs = (s.closeRun runId .cancelled now).runs) := by
  unfold cancelRun
  split
  · rename_i hr
    exact .inl ⟨hr, rfl⟩
  · rename_i hr
    exact .inr ⟨by simp [hr], rfl⟩

theorem materializeResult_ok {keys : List JobKey} (h : materializeResult env k result now s = .ok (keys, s')) :
    ∃ s₀, (planOf env k result now s).isValid = true ∧ ensureRun k now s = some s₀ ∧
      keys = (planOf env k result now s).successors ∧
      s' = closeIfDone k.runId now
        (materialized env k result (planOf env k result now s) now s₀) := by
  unfold materializeResult at h
  split at h
  · cases h
  split at h
  · cases h
  rename_i hv
  split at h
  · cases h
  rename_i s₀ hs₀
  cases h
  rw [Bool.not_eq_true', Bool.not_eq_false] at hv
  exact ⟨s₀, hv, hs₀, rfl, rfl⟩

theorem materializeResult_of_valid (hv : (planOf env k result now s).isValid = true)
    (hs₀ : ensureRun k now s = some s₀) :
    materializeResult env k result now s = .ok ((planOf env k result now s).successors,
      closeIfDone k.runId now (materialized env k result (planOf env k result now s) now s₀)) := by
  unfold materializeResult
  rw [if_neg (fun h => result.success_refs h.1 h.2), hv, hs₀]
  rfl

theorem ensureRun_jobs (h : ensureRun k now s = some s₀) :
    s₀.jobs = s.jobs ∧ s₀.claims = s.claims ∧ s₀.fleetReservations = s.fleetReservations := by
  unfold ensureRun at h
  split at h
  · cases h
    exact ⟨rfl, rfl, rfl⟩
  · rw [Option.map_eq_some_iff] at h
    obtain ⟨_, _, rfl⟩ := h
    exact ⟨rfl, rfl, rfl⟩

theorem ensureRun_runs (h : ensureRun k now s = some s₀) :
    s₀.runs = s.runs ∨ (s.runs.get? k.runId = none ∧ s.runs.insert? (materializedRun k now) = some s₀.runs) := by
  unfold ensureRun at h
  split at h
  · cases h
    exact .inl rfl
  · rename_i hr
    rw [Option.map_eq_some_iff] at h
    obtain ⟨runs, hi, rfl⟩ := h
    exact .inr ⟨hr, insertRun_eq_some hi⟩

theorem ensureRun_some (h : ensureRun k now s = some s₀) : ∃ r, s₀.runs.get? k.runId = some r := by
  unfold ensureRun at h
  split at h
  · rename_i r hr
    cases h
    exact ⟨r, hr⟩
  · rw [Option.map_eq_some_iff] at h
    obtain ⟨runs, hi, rfl⟩ := h
    exact ⟨materializedRun k now, by
      rw [Table.get?_of_insert? (insertRun_eq_some hi)]
      exact if_pos rfl⟩

theorem planOf_runId {key : JobKey} (h : key ∈ (planOf env k result now s).successors) : key.runId = k.runId := by
  unfold planOf at h
  split at h
  · rcases List.mem_append.mp h with h | h
    · simp only [Option.mem_toList, Option.map_eq_some_iff] at h
      obtain ⟨_, _, rfl⟩ := h
      rfl
    · split at h
      · rw [List.mem_singleton.mp h]
        rfl
      · cases h
  · split at h
    · rw [List.mem_singleton.mp h]
      rfl
    · rw [List.mem_singleton.mp h]
      rfl
  · rw [List.mem_singleton.mp h]
    rfl
  · rw [List.mem_singleton.mp h]
    rfl
  all_goals cases h

/-- The status of the source job after step A. -/
def settledStatus (k : JobKey) (result : StageResult) (plan : Plan) (s : Store) : JobStatus :=
  match s.jobs.get? k with
  | none => materializedStatus plan result
  | some row =>
    if row.status = .pending ∨ row.status = .running then materializedStatus plan result
    else row.status

/-- The row of the source job after step A. -/
def settledRow (env : Env) (k : JobKey) (result : StageResult) (plan : Plan) (now : DateTime)
    (s : Store) : Job :=
  match s.jobs.get? k with
  | none => recordedJob env k result plan now
  | some row =>
    if row.status = .pending ∨ row.status = .running then materializedJob env result plan now row
    else row

theorem settledRow_key (env : Env) (k : JobKey) (result : StageResult) (plan : Plan)
    (now : DateTime) (s : Store) : (settledRow env k result plan now s).key = k := by
  unfold settledRow
  split
  · rfl
  · rename_i row hrow
    split
    · exact (materializedJob_key env result plan now row).trans (Table.key_of_get? hrow)
    · exact Table.key_of_get? hrow

theorem settledRow_status (env : Env) (k : JobKey) (result : StageResult) (plan : Plan) (now : DateTime) (s : Store) :
    (settledRow env k result plan now s).status = settledStatus k result plan s := by
  unfold settledRow settledStatus
  split
  · rfl
  · split
    · rfl
    · rfl

theorem recordResult_get? (env : Env) (k : JobKey) (result : StageResult) (plan : Plan)
    (now : DateTime) (s : Store) (key : JobKey) :
    (recordResult env k result plan now s).jobs.get? key =
      if key = k then some (settledRow env k result plan now s) else s.jobs.get? key := by
  unfold recordResult settledRow
  cases hk : s.jobs.get? k with
  | none =>
    simp only [Table.get?_insertIgnore, recordedJob, eq_comm (a := k)]
    split
    · rename_i e
      rw [e, hk]
      rfl
    · rfl
  | some row =>
    have hrow := Table.key_of_get? hk
    simp only
    split
    · simp only [Table.get?_update]
      split
      · rename_i e
        rw [e, hk]
        simp [hrow]
      · rename_i e
        cases hj : s.jobs.get? key with
        | none => rfl
        | some j =>
          have := Table.key_of_get? hj
          simp [this, e]
    · split
      · rename_i e
        rw [e, hk]
      · rfl

theorem insertSuccessors_get? (env : Env) (plan : Plan) (now : DateTime) (s : Store) (key : JobKey) :
    (insertSuccessors env plan now s).jobs.get? key = (s.jobs.get? key).or
        (if key ∈ plan.successors then some (successorJob env plan now key) else none) := by
  unfold insertSuccessors
  simp only
  generalize s.jobs = jobs
  induction plan.successors generalizing jobs with
  | nil => simp
  | cons k keys ih =>
    rw [List.foldl_cons, ih, Table.get?_insertIgnore]
    by_cases hk : k = key
    · subst hk
      cases jobs.get? k <;> simp [successorJob]
    · simp [successorJob, hk, Ne.symm hk]

theorem materialized_get? (env : Env) (k : JobKey) (result : StageResult) (plan : Plan)
    (now : DateTime) (s : Store) (key : JobKey) :
    (materialized env k result plan now s).jobs.get? key = if key = k then some (settledRow env k result plan now s)
      else (s.jobs.get? key).or
        (if key ∈ plan.successors then some (successorJob env plan now key) else none) := by
  show (insertSuccessors env plan now (recordResult env k result plan now s)).jobs.get? key = _
  rw [insertSuccessors_get?, recordResult_get?]
  split
  · rfl
  · rfl

theorem materialized_runs (env : Env) (k : JobKey) (result : StageResult) (plan : Plan)
    (now : DateTime) (s : Store) : (materialized env k result plan now s).runs = s.runs := by
  show (recordResult env k result plan now s).runs = s.runs
  unfold recordResult
  split
  · rfl
  · split
    · rfl
    · rfl

end Sqlite
end Control
end DarkFactory
