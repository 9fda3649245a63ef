import DarkFactory.Control.Line

/-!
# DarkFactory.Control.LineRuns

No successor is swallowed. A dispatch is what a worker does with one stage: it claims the job,
finishes it and materializes its result. `successor_kept_iff` is the exact condition under which
dispatches, one after the other, insert every successor they return and leave no run without an open
job before it is done: the stage that follows a success has not come so far.
-/

namespace DarkFactory
namespace Control

/-- What a worker brings to one stage: how it claims, the result, and the clock at its three calls. -/
structure Dispatch where
  worker : String
  capabilities : List String := []
  readyAgeSec : Rat := 0
  ids : Sqlite.ClaimIds
  result : StageResult
  claimAt : DateTime
  finishAt : DateTime
  materializeAt : DateTime
  outcome : result.outcome = .success ∨ result.outcome = .retry := by decide

/-- A stage claimed, finished and materialized: `before` is the store materialize_result found. -/
structure Dispatched where
  key : JobKey
  before : Store
  successors : List JobKey
  after : Store

namespace Sqlite

/-- `none` when a call raises, no job is claimed, or the retry is over its cap. -/
def dispatch (env : Env) (d : Dispatch) (s : Store) : Option Dispatched :=
  match claim env d.worker d.capabilities d.claimAt d.readyAgeSec d.ids s with
  | .ok (some c, s₁) =>
    match finish env c d.result d.finishAt s₁ with
    | .ok s₂ =>
      if (planOf env c.jobKey d.result d.materializeAt s₂).loopCapExceeded then none
      else
        match materializeResult env c.jobKey d.result d.materializeAt s₂ with
        | .ok (successors, s₃) =>
          some { key := c.jobKey, before := s₂, successors := successors, after := s₃ }
        | .error _ => none
    | .error _ => none
  | _ => none

inductive LineOp where
  | accept (command : IntakeCommand) (ids : IntakeIds) (now : DateTime)
  | dispatch (d : Dispatch)

def lineStep (env : Env) (s : Store) : LineOp → Store
  | .accept command ids now => apply env s (.accept command ids now)
  | .dispatch d => ((dispatch env d s).map Dispatched.after).getD s

theorem dispatch_calls {env : Env} {d : Dispatch} {s : Store} {r : Dispatched}
    (h : dispatch env d s = some r) :
    ∃ c s₁, claim env d.worker d.capabilities d.claimAt d.readyAgeSec d.ids s = .ok (some c, s₁) ∧
      finish env c d.result d.finishAt s₁ = .ok r.before ∧ c.jobKey = r.key ∧
      (planOf env r.key d.result d.materializeAt r.before).loopCapExceeded = false ∧
      materializeResult env r.key d.result d.materializeAt r.before = .ok (r.successors, r.after) := by
  unfold dispatch at h
  split at h
  · rename_i c s₁ hc
    split at h
    · rename_i s₂ hf
      split at h
      · cases h
      · rename_i hcap
        split at h
        · rename_i hm
          cases h
          exact ⟨c, s₁, hc, hf, rfl, Bool.not_eq_true _ ▸ hcap, hm⟩
        · cases h
    · cases h
  · cases h

theorem dispatch_run {env : Env} {d : Dispatch} {s : Store} {r : Dispatched}
    (h : dispatch env d s = some r) : ∃ ops, r.after = Runs.run (apply env) s ops := by
  obtain ⟨c, s₁, hc, hf, -, -, hm⟩ := dispatch_calls h
  refine ⟨[.claim d.worker d.capabilities d.claimAt d.readyAgeSec d.ids, .finish c d.result
    d.finishAt, .materializeResult r.key d.result d.materializeAt], ?_⟩
  simp [apply, hc, hf, hm, Except.toOption]

theorem owned_run (env : Env) {s : Store} (ops : List Op) (h : Owned s) : Owned (Runs.run (apply env) s ops) :=
  Runs.run_invariant (fun s op hs => owned_step env s op hs) h ops

/-- The jobs a dispatch leaves: the dispatched one, pending before, is closed, and the successors
that were not there are pending. -/
theorem dispatch_jobs {env : Env} {d : Dispatch} {s : Store} {r : Dispatched}
    (h : dispatch env d s = some r) :
    (∃ row, row ∈ s.jobs ∧ row.status = .pending ∧ row.key = r.key) ∧
      (∀ key, r.before.jobs.get? key ≠ none ↔ s.jobs.get? key ≠ none) ∧
      r.successors = (planOf env r.key d.result d.materializeAt r.before).successors ∧
      ∃ closed : Job, closed.status.isOpen = false ∧
        (d.result.outcome = .success → closed.status = .succeeded) ∧
        ∀ key, r.after.jobs.get? key = if key = r.key then some closed
          else (s.jobs.get? key).or
            (if key ∈ r.successors then
              some (successorJob env (planOf env r.key d.result d.materializeAt r.before)
                d.materializeAt key)
            else none) := by
  obtain ⟨c, s₁, hc, hf, hkey, hcap, hm⟩ := dispatch_calls h
  obtain ⟨row, matched, claims, hch, -, rfl, rfl⟩ := claim_ok hc
  obtain ⟨hrow, hpend⟩ := mem_pendingByCreation.mp (chosenRow_ok hch).1
  have hkey : row.key = r.key := hkey
  obtain ⟨crow, job, hh, -, -, hbefore⟩ := finish_ok hf
  obtain ⟨s₀, -, hs₀, hsucc, hafter⟩ := materializeResult_ok hm
  obtain ⟨hj₀, -, -⟩ := ensureRun_jobs hs₀
  -- the dispatched row is the one the claim chose, finished
  have hget : ∀ key, r.before.jobs.get? key =
      if key = r.key then some (finishRow env d.result d.finishAt job) else s.jobs.get? key := by
    intro key
    rw [hbefore, finishApply_jobs, finishTables_get? env d.result d.finishAt hh]
    show (if key = row.key then _ else (leaseJobs s row _ d.claimAt).get? key) = _
    rw [leaseJobs_get? hrow, hkey]
    split
    · rfl
    · rfl
  have hset : settledStatus r.key d.result (planOf env r.key d.result d.materializeAt r.before) s₀ =
      if (finishRow env d.result d.finishAt job).status = .pending ∨
          (finishRow env d.result d.finishAt job).status = .running then
        materializedStatus (planOf env r.key d.result d.materializeAt r.before) d.result
      else (finishRow env d.result d.finishAt job).status := by
    rw [settledStatus, hj₀, hget, if_pos rfl]
  refine ⟨⟨row, hrow, hpend, hkey⟩, fun key => ?_, hsucc,
    settledRow env r.key d.result (planOf env r.key d.result d.materializeAt r.before)
      d.materializeAt s₀, ?_, ?_, fun key => ?_⟩
  · rw [hget]
    split
    · rename_i hk
      rw [hk, ← hkey, Table.get?_of_mem hrow]
      simp
    · rfl
  · rw [settledRow_status, hset, finishRow_status]
    rcases d.outcome with ho | ho
    · rw [ho]
      rfl
    · rw [ho]
      simp only
      split
      · rw [if_pos (.inl rfl), materializedStatus, hcap, ho]
        rfl
      · rfl
  · intro ho
    rw [settledRow_status, hset, finishRow_status, ho]
    rfl
  · rw [hafter, closeIfDone_jobs, materialized_get?, ← hsucc]
    split
    · rfl
    · rename_i hk
      rw [hj₀, hget, if_neg hk]

section

variable {env : Env} {d : Dispatch} {s : Store} {r : Dispatched}

theorem dispatch_last (hi : LineInv s) (h : dispatch env d s = some r) :
    nextIteration s r.key r.key.stage = r.key.iteration + 1 := by
  obtain ⟨⟨row, hrow, hpend, hkey⟩, -⟩ := dispatch_jobs h
  exact hkey ▸ hi.last row hrow (by rw [hpend]; rfl)

theorem dispatch_runId (h : dispatch env d s = some r) {key : JobKey} (hk : key ∈ r.successors) :
    key.runId = r.key.runId := by
  obtain ⟨-, -, hsucc, -⟩ := dispatch_jobs h
  exact planOf_runId (hsucc ▸ hk)

theorem dispatch_opensPass (hi : LineInv s) (h : dispatch env d s = some r) {new : Option JobKey}
    (hnew : ∀ key, new = some key ↔ key ∈ r.successors ∧ s.jobs.get? key = none) :
    OpensPass s r.after r.key.runId new := by
  obtain ⟨⟨row, hrow, hpend, hkey⟩, -, -, closed, hclosed, -, hget⟩ := dispatch_jobs h
  refine ⟨fun key => ?_, fun j hid => ?_, fun j hj hid ho => ?_, fun key hk => ?_⟩
  · rw [hget, hnew]
    by_cases hk : key = r.key
    · rw [if_pos hk, hk, ← hkey, Table.get?_of_mem hrow]
      simp
    · rw [if_neg hk]
      cases s.jobs.get? key with
      | some j => simp
      | none => simp
  · have hget' : r.after.jobs.get? j.key = s.jobs.get? j.key := by
      rw [hget, if_neg fun e => hid (congrArg JobKey.runId e),
        if_neg fun hk => hid (dispatch_runId h hk), Option.or_none]
    have hmem : ∀ t : Table Job.key, j ∈ t ↔ t.get? j.key = some j :=
      fun t => ⟨Table.get?_of_mem, Table.mem_of_get?⟩
    rw [hmem, hmem, hget']
  · have hj' := Table.get?_of_mem hj
    rw [hget] at hj'
    split at hj'
    · cases hj'
      rw [hclosed] at ho
      cases ho
    · rename_i hne
      cases hold : s.jobs.get? j.key with
      | some j₀ =>
        -- two open jobs of one run before the dispatch
        rw [hold, Option.some_or, Option.some.injEq] at hj'
        have hjs : j ∈ s.jobs := hj' ▸ Table.mem_of_get? hold
        refine absurd (hi.single j row hjs hrow ?_ ho (by rw [hpend]; rfl)) (hkey ▸ hne)
        rw [hid, hkey]
      | none =>
        rw [hold, Option.none_or] at hj'
        split at hj'
        · rename_i hm
          exact (hnew j.key).mpr ⟨hm, hold⟩
        · cases hj'
  · exact dispatch_runId h ((hnew key).mp hk).1

theorem dispatch_pending (h : dispatch env d s = some r) {key : JobKey} (hk : key ∈ r.successors)
    (hnone : s.jobs.get? key = none) :
    (r.after.jobs.get? key).map Job.status = some .pending := by
  obtain ⟨⟨row, hrow, -, hkey⟩, -, -, closed, -, -, hget⟩ := dispatch_jobs h
  rw [hget, if_neg, hnone, Option.none_or, if_pos hk]
  · rfl
  · rintro rfl
    rw [← hkey, Table.get?_of_mem hrow] at hnone
    cases hnone

theorem dispatch_kept (h : dispatch env d s = some r) {j : Job} (hj : j ∈ s.jobs)
    (hs : j.status.isOpen = false) : j ∈ r.after.jobs := by
  obtain ⟨⟨row, hrow, hpend, hkey⟩, -, -, closed, -, -, hget⟩ := dispatch_jobs h
  refine Table.mem_of_get? (k := j.key) ?_
  rw [hget, if_neg, Table.get?_of_mem hj, Option.some_or]
  intro hk
  rw [Table.eq_of_key hj hrow (hk.trans hkey.symm), hpend] at hs
  cases hs

theorem dispatch_done (h : dispatch env d s = some r) {runId : String} (hd : LineDone s runId) :
    LineDone r.after runId := by
  rcases hd with ⟨j, hj, hr, hst, hs⟩ | ⟨j, hj, hr, hs⟩
  · exact .inl ⟨j, dispatch_kept h hj (by rw [hs]; rfl), hr, hst, hs⟩
  · exact .inr ⟨j, dispatch_kept h hj (by rw [hs]; rfl), hr, hs⟩

theorem retryStep_next (env : Env) (k : JobKey) (causeCode : Option String) (now : DateTime)
    (s : Store) :
    (retryStep env k causeCode now s).2.1 = nextIteration s k (retryStep env k causeCode now s).1 ∨
      ((retryStep env k causeCode now s).1 = k.stage ∧
        (retryStep env k causeCode now s).2.1 = k.iteration + 1) := by
  unfold retryStep
  split
  · exact .inl rfl
  · exact .inr ⟨rfl, rfl⟩

theorem dispatch_retry (hi : LineInv s) (h : dispatch env d s = some r)
    (ho : d.result.outcome = .retry) :
    ∃ stage, r.successors = [r.key.atStage stage (nextIteration s r.key stage)] := by
  obtain ⟨-, hkeys, hsucc, -⟩ := dispatch_jobs h
  obtain ⟨-, -, -, -, -, hcap, -⟩ := dispatch_calls h
  have hnext := retryStep_next env r.key d.result.causeCode d.materializeAt r.before
  rw [planOf, ho] at hsucc hcap
  simp only at hsucc hcap
  split at hcap
  · cases hcap
  · rename_i stage n hstep
    rw [hstep] at hsucc hnext
    refine ⟨stage, ?_⟩
    rw [hsucc]
    rcases hnext with hn | ⟨hst, hn⟩
    · have hn : n = nextIteration r.before r.key stage := hn
      rw [hn, nextIteration_congr hkeys]
    · have hst : stage = r.key.stage := hst
      have hn : n = r.key.iteration + 1 := hn
      rw [hn, hst, dispatch_last hi h]

theorem dispatch_success (h : dispatch env d s = some r) (ho : d.result.outcome = .success) :
    r.successors = ((PRODUCTIVE_DAG r.key.stage).map fun stage => r.key.atStage stage r.key.iteration).toList ++
        if r.key.stage = "build_deploy" then [retrospectiveKey r.key] else [] := by
  obtain ⟨-, -, hsucc, -⟩ := dispatch_jobs h
  rw [hsucc, planOf, ho]

end

/-- A retry, or a success at a stage that has a next one, inserts the successors it returns: their keys
were free, and they are pending afterwards. -/
def InsertsSuccessor (d : Dispatch) (r : Dispatched) : Prop :=
  d.result.outcome = .retry ∨ PRODUCTIVE_DAG r.key.stage ≠ none → r.successors ≠ [] ∧ ∀ key ∈ r.successors,
      r.before.jobs.get? key = none ∧ (r.after.jobs.get? key).map Job.status = some .pending

/-- The stage after a success has not come as far as its source; a success without a next stage
delivers, or comes after the run is done. -/
def FollowerBehind (s : Store) (d : Dispatch) (r : Dispatched) : Prop :=
  d.result.outcome = .success → match PRODUCTIVE_DAG r.key.stage with
    | some next => nextIteration s r.key next ≤ r.key.iteration
    | none => r.key.stage = "build_deploy" ∨ LineDone s r.key.runId

section

variable {env : Env} {d : Dispatch} {s : Store} {r : Dispatched}

theorem dispatch_next (hi : LineInv s) (h : dispatch env d s = some r) {key : JobKey}
    (hs : r.successors = [key]) (hfree : s.jobs.get? key = none) (hp : NextPass s key) :
    InsertsSuccessor d r ∧ LineInv r.after := by
  obtain ⟨-, hkeys, -⟩ := dispatch_jobs h
  obtain ⟨ops, hrun⟩ := dispatch_run h
  have hmem : key ∈ r.successors := hs ▸ List.mem_singleton_self key
  have hpend := dispatch_pending h hmem hfree
  have hpass : OpensPass s r.after r.key.runId (some key) := by
    refine dispatch_opensPass hi h fun key' => ?_
    rw [hs, List.mem_singleton, Option.some.injEq, eq_comm]
    exact ⟨fun e => ⟨e, e ▸ hfree⟩, And.left⟩
  constructor
  · intro _
    rw [hs]
    refine ⟨List.cons_ne_nil _ _, fun key' hk => ?_⟩
    rw [List.mem_singleton.mp hk]
    exact ⟨not_not.mp fun hne => (hkeys key).mp hne hfree, hpend⟩
  · refine hpass.lineInv hi (hrun ▸ owned_run env ops hi.owned) ?_ ?_
      (fun ρ hd => dispatch_done h hd) fun e => by cases e
    · rintro _ ⟨⟩
      exact hp
    · rintro _ ⟨⟩
      obtain ⟨j, hj, hs⟩ := Option.map_eq_some_iff.mp hpend
      exact hasOpen_iff_get?.mpr ⟨key, j, dispatch_runId h hmem, hj, by rw [hs]; rfl⟩

theorem dispatch_closed (hi : LineInv s) (h : dispatch env d s = some r)
    (hs : ∀ key ∈ r.successors, s.jobs.get? key ≠ none) :
    OpensPass s r.after r.key.runId none :=
  dispatch_opensPass hi h fun key => ⟨nofun, fun hk => absurd hk.2 (hs key hk.1)⟩

theorem dispatch_end (hi : LineInv s) (h : dispatch env d s = some r)
    (hs : ∀ key ∈ r.successors, s.jobs.get? key ≠ none) (hd : LineDone r.after r.key.runId) :
    LineInv r.after := by
  obtain ⟨ops, hrun⟩ := dispatch_run h
  exact (dispatch_closed hi h hs).lineInv hi (hrun ▸ owned_run env ops hi.owned) nofun nofun
    (fun ρ hd => dispatch_done h hd) fun _ => hd

theorem dispatch_delivery (hi : LineInv s) (h : dispatch env d s = some r)
    (ho : d.result.outcome = .success) (hst : r.key.stage = "build_deploy") : LineInv r.after := by
  have hs : r.successors = [retrospectiveKey r.key] := by
    rw [dispatch_success h ho, hst]
    rfl
  cases hfree : s.jobs.get? (retrospectiveKey r.key) with
  | none =>
    have hz : nextIteration s r.key "retrospective" = 0 :=
      not_not.mp fun hne => hi.anchored r.key hne hfree
    exact (dispatch_next hi h hs hfree ⟨hz.le, .inl hz.symm⟩).2
  | some j =>
    refine dispatch_end hi h (fun key hk => ?_) (.inl ?_)
    · rw [hs, List.mem_singleton] at hk
      rw [hk, hfree]
      exact Option.some_ne_none _
    · obtain ⟨-, -, -, closed, -, hsucc, hget⟩ := dispatch_jobs h
      have hmem := Table.get?_eq_some.mp ((hget r.key).trans (if_pos rfl))
      exact ⟨closed, hmem.1, by rw [hmem.2], by rw [hmem.2, hst], hsucc ho⟩

theorem dispatch_off_line (hi : LineInv s) (h : dispatch env d s = some r)
    (ho : d.result.outcome = .success) (hst : r.key.stage ≠ "build_deploy")
    (hs : r.successors = []) : LineOpen r.after ↔ LineDone s r.key.runId := by
  obtain ⟨-, -, -, closed, -, hsucc, hget⟩ := dispatch_jobs h
  have hnone : ∀ key ∈ r.successors, s.jobs.get? key ≠ none := by
    intro key hk
    rw [hs] at hk
    cases hk
  obtain ⟨hcm, hck⟩ := Table.get?_eq_some.mp ((hget r.key).trans (if_pos rfl))
  constructor
  · intro hopen
    have hold : ∀ j, j ∈ r.after.jobs → j ≠ closed → j ∈ s.jobs := by
      intro j hj hne
      have hj' := Table.get?_of_mem hj
      rw [hget, hs] at hj'
      split at hj'
      · cases hj'
        exact absurd rfl hne
      · rw [if_neg List.not_mem_nil, Option.or_none] at hj'
        exact Table.mem_of_get? hj'
    rcases hck ▸ hopen closed hcm with ⟨j, hj, hr, hs'⟩ | ⟨j, hj, hr, hd, hs'⟩ | ⟨j, hj, hr, hs'⟩
    · cases (dispatch_closed hi h hnone).only j hj hr hs'
    · refine .inl ⟨j, hold j hj ?_, hr, hd, hs'⟩
      rintro rfl
      exact hst (hck ▸ hd)
    · refine .inr ⟨j, hold j hj ?_, hr, hs'⟩
      rintro rfl
      rw [hsucc ho] at hs'
      cases hs'
  · exact fun hd => (dispatch_end hi h hnone (dispatch_done h hd)).going

theorem dispatch_step (hi : LineInv s) (h : dispatch env d s = some r) :
    (InsertsSuccessor d r ∧ LineOpen r.after ↔ FollowerBehind s d r) ∧
      (FollowerBehind s d r → LineInv r.after) := by
  have hlast := dispatch_last hi h
  rcases d.outcome with ho | ho
  · have hsucc := dispatch_success h ho
    unfold FollowerBehind
    simp only [ho, forall_const]
    cases hdag : PRODUCTIVE_DAG r.key.stage with
    | some next =>
      have hst : r.key.stage ≠ "build_deploy" := by
        intro hst
        rw [hst] at hdag
        cases hdag
      have hs : r.successors = [r.key.atStage next r.key.iteration] := by
        rw [hsucc, hdag, if_neg hst]
        rfl
      have hfree : s.jobs.get? (r.key.atStage next r.key.iteration) = none ↔
          nextIteration s r.key next ≤ r.key.iteration :=
        not_not.symm.trans ((hi.dense r.key).free_iff hdag hlast)
      have hgo : nextIteration s r.key next ≤ r.key.iteration → InsertsSuccessor d r ∧ LineInv r.after := fun hle =>
        dispatch_next hi h hs (hfree.mpr hle) ⟨hle, .inr ⟨r.key.stage, hdag, hlast⟩⟩
      refine ⟨⟨fun hgood => ?_, fun hle => ⟨(hgo hle).1, (hgo hle).2.going⟩⟩, fun hle => (hgo hle).2⟩
      obtain ⟨-, hkeys, -⟩ := dispatch_jobs h
      have hbefore := ((hgood.1 (.inr (by rw [hdag]; exact Option.some_ne_none _))).2 _
        (hs ▸ List.mem_singleton_self _)).1
      exact hfree.mp (not_not.mp fun hne => (hkeys _).mpr hne hbefore)
    | none =>
      have hins : InsertsSuccessor d r := by
        rintro (h' | h')
        · rw [ho] at h'
          cases h'
        · exact absurd hdag h'
      by_cases hst : r.key.stage = "build_deploy"
      · have hinv := dispatch_delivery hi h ho hst
        exact ⟨iff_of_true ⟨hins, hinv.going⟩ (.inl hst), fun _ => hinv⟩
      · have hs : r.successors = [] := by
          rw [hsucc, hdag, if_neg hst]
          rfl
        have hiff := dispatch_off_line hi h ho hst hs
        simp only [hins, true_and, hst, false_or, hiff, true_and]
        intro hd
        refine dispatch_end hi h (fun key hk => ?_) (dispatch_done h hd)
        rw [hs] at hk
        cases hk
  · obtain ⟨stage, hs⟩ := dispatch_retry hi h ho
    have hfree : s.jobs.get? (r.key.atStage stage (nextIteration s r.key stage)) = none :=
      not_not.mp fun hu => Nat.lt_irrefl _ (lt_nextIteration hu)
    obtain ⟨hins, hinv⟩ := dispatch_next hi h hs hfree ⟨Nat.le_refl _, .inl rfl⟩
    have hf : FollowerBehind s d r := by
      intro h'
      rw [ho] at h'
      cases h'
    exact ⟨iff_of_true ⟨hins, hinv.going⟩ hf, fun _ => hinv⟩

end

theorem accept_lineInv (env : Env) {s : Store} (hi : LineInv s) (command : IntakeCommand)
    (ids : IntakeIds) (now : DateTime) : LineInv (apply env s (.accept command ids now)) := by
  have ho := owned_step env s (.accept command ids now) hi.owned
  cases hs : accept command ids now s with
  | error e => simpa [apply, hs] using hi
  | ok r =>
    obtain ⟨receipt, s'⟩ := r
    rw [apply, hs, committed_ok] at ho ⊢
    rcases accept_ok hs with rfl | ⟨-, e, hj, -⟩ | ⟨-, -, hj, -⟩
    · exact hi
    · have hfresh : ∀ j, j ∈ s.jobs → j.key.runId ≠ "run-" ++ ids.run := by
        intro j hjm hid
        have hnone := Table.insert?_fresh (insertRun_eq_some e)
        exact hi.owned j hjm (hid ▸ hnone)
      have hget := Table.get?_of_insert? hj
      have hpass : OpensPass s s' ("run-" ++ ids.run)
          (some (initialJob command ("run-" ++ ids.run) now).key) := by
        refine ⟨fun key => ?_, fun j hid => ?_, fun j hjm hid _ => ?_, ?_⟩
        · rw [hget, Option.some.injEq]
          split
          · simp [*]
          · simp [*]
        · rw [Table.mem_of_insert? hj]
          refine or_iff_left ?_
          rintro rfl
          exact hid rfl
        · rcases (Table.mem_of_insert? hj).mp hjm with hjm | rfl
          · exact absurd hid (hfresh j hjm)
          · rfl
        · rintro _ ⟨⟩
          rfl
      refine hpass.lineInv hi ho ?_ ?_ ?_ fun e => by cases e
      · rintro _ ⟨⟩
        have hz : nextIteration s (initialJob command ("run-" ++ ids.run) now).key "grill" = 0 := by
          by_contra hne
          obtain ⟨n, hn⟩ := Nat.exists_eq_succ_of_ne_zero hne
          obtain ⟨j, hjg⟩ := Option.ne_none_iff_exists'.mp (nextIteration_used hn)
          obtain ⟨hjm, hk⟩ := Table.get?_eq_some.mp hjg
          exact hfresh j hjm (congrArg JobKey.runId hk)
        exact ⟨hz.le, .inl hz.symm⟩
      · rintro _ ⟨⟩
        exact ⟨_, (Table.mem_of_insert? hj).mpr (.inr rfl), rfl, rfl⟩
      · have hmem : ∀ j, j ∈ s.jobs → j ∈ s'.jobs := fun j hjm =>
          (Table.mem_of_insert? hj).mpr (.inl hjm)
        rintro ρ (⟨j, hjm, h⟩ | ⟨j, hjm, h⟩)
        · exact .inl ⟨j, hmem j hjm, h⟩
        · exact .inr ⟨j, hmem j hjm, h⟩
    · exact hi.of_jobs hj ho

/-- The move swallows no successor and leaves no run without an open job. -/
def NoneSwallowed (env : Env) (m : Move Store LineOp) : Prop :=
  (match m.act with
    | .accept .. => True
    | .dispatch d => ∀ r ∈ dispatch env d m.pre, InsertsSuccessor d r) ∧ LineOpen m.post

def FollowersBehind (env : Env) (s : Store) : LineOp → Prop
  | .accept .. => True
  | .dispatch d => ∀ r ∈ dispatch env d s, FollowerBehind s d r

theorem lineInv_empty : LineInv Store.empty where
  owned _ hj := absurd hj Table.not_mem_empty
  single _ _ hj := absurd hj Table.not_mem_empty
  last _ hj := absurd hj Table.not_mem_empty
  dense _ _ _ _ n _ hlt := absurd hlt (Nat.not_lt_zero n)
  anchored _ h := absurd rfl h
  going _ hj := absurd hj Table.not_mem_empty

theorem line_step (env : Env) (s : Store) (a : LineOp) (hi : LineInv s) :
    (NoneSwallowed env ⟨s, a, lineStep env s a⟩ ↔ FollowersBehind env s a) ∧
      (FollowersBehind env s a → LineInv (lineStep env s a)) := by
  cases a with
  | accept command ids now =>
    have h := accept_lineInv env hi command ids now
    exact ⟨iff_of_true ⟨trivial, h.going⟩ trivial, fun _ => h⟩
  | dispatch d =>
    cases h : dispatch env d s with
    | none =>
      have e : lineStep env s (.dispatch d) = s := by simp [lineStep, h]
      rw [e]
      simp only [NoneSwallowed, FollowersBehind, h, Option.mem_def, reduceCtorEq, false_implies,
        implies_true, true_and, iff_true]
      exact ⟨hi.going, fun _ => hi⟩
    | some r =>
      have e : lineStep env s (.dispatch d) = r.after := by simp [lineStep, h]
      rw [e]
      simp only [NoneSwallowed, FollowersBehind, h, Option.mem_def, Option.some.injEq, forall_eq']
      exact dispatch_step hi h

/-- From the empty store, through any intakes and any dispatches one after the other, no successor is
swallowed and no run is left without an open job exactly when every success meets the condition. -/
theorem successor_kept_iff (env : Env) (acts : List LineOp) :
    (∀ m ∈ Runs.moves (lineStep env) .empty acts, NoneSwallowed env m) ↔
      ∀ m ∈ Runs.moves (lineStep env) .empty acts, FollowersBehind env m.pre m.act :=
  Runs.moves_forall_iff (fun s a hi => (line_step env s a hi).1)
    (fun s a hi hc => (line_step env s a hi).2 hc) lineInv_empty acts

instance (d : Dispatch) (r : Dispatched) : Decidable (InsertsSuccessor d r) :=
  inferInstanceAs (Decidable (_ → _))

instance (s : Store) (runId : String) : Decidable (LineDone s runId) :=
  inferInstanceAs (Decidable (_ ∨ ∃ j, j ∈ s.jobs ∧ _))

instance (s : Store) : Decidable (LineOpen s) :=
  inferInstanceAs (Decidable (∀ j, j ∈ s.jobs → _))

instance (env : Env) : (m : Move Store LineOp) → Decidable (NoneSwallowed env m)
  | ⟨_, .accept .., s'⟩ => inferInstanceAs (Decidable (True ∧ LineOpen s'))
  | ⟨s, .dispatch d, s'⟩ =>
    inferInstanceAs (Decidable ((∀ r ∈ dispatch env d s, InsertsSuccessor d r) ∧ LineOpen s'))

/-- A dispatch at second `n` under the uuid text `l`. -/
def LineOp.sample (l : String) (n : Int) (result : StageResult)
    (outcome : result.outcome = .success ∨ result.outcome = .retry) : LineOp :=
  .dispatch
    { worker := "worker-1"
      ids := ⟨l, l⟩
      result := result
      claimAt := utc n
      finishAt := utc (n + 1)
      materializeAt := utc (n + 1)
      outcome := outcome }

/-- Validation is retried once in place, and its second pass bounces the work back to development. -/
def bouncedLine : List LineOp :=
  [.accept .sample ⟨"d1", "r1", "j1"⟩ (utc 0), .sample "l1" 10 .sampleSuccess (.inl rfl),
    .sample "l2" 20 .sampleSuccess (.inl rfl),
    .sample "l3" 30 .sampleSuccess (.inl rfl),
    .sample "l4" 40 (.sampleRetry none) (.inr rfl),
    .sample "l5" 50 (.sampleRetry (some "retry:development")) (.inr rfl),
    .sample "l6" 60 .sampleSuccess (.inl rfl)]

/-- The second development pass returns validation 1, which is there already: the run is left without
an open job, neither delivered nor failed. -/
theorem bounced_success_swallowed :
    (¬ ∀ m ∈ Runs.moves (lineStep .sample) .empty bouncedLine, NoneSwallowed .sample m) ∧
      (Runs.run (lineStep .sample) .empty bouncedLine).openJobs "run-r1" = [] ∧
      ¬ LineDone (Runs.run (lineStep .sample) .empty bouncedLine) "run-r1" := by
  decide +kernel

end Sqlite
end Control
end DarkFactory
