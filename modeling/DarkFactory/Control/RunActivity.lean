import DarkFactory.Control.Closing

/-!
# DarkFactory.Control.RunActivity

A run with an open job is active. finish and materialize_result close runs in two transactions; what
the second inserts may belong to a run the first has closed, and nothing makes that run active
again. `open_runs_active_iff` is the exact condition under which a run of the store keeps every
uncancelled run with an open job active.
-/

namespace DarkFactory
namespace Control

/-- Every job belongs to a run: `jobs.run_id REFERENCES runs(run_id)`. -/
def Owned (s : Store) : Prop := ∀ j, j ∈ s.jobs → s.runs.get? j.key.runId ≠ none

theorem Owned.run {s : Store} (h : Owned s) {j : Job} (hj : j ∈ s.jobs) :
    ∃ r, r ∈ s.runs ∧ r.runId = j.key.runId := by
  obtain ⟨r, hr⟩ := Option.ne_none_iff_exists'.mp (h j hj)
  obtain ⟨hrm, hid⟩ := Table.get?_eq_some.mp hr
  exact ⟨r, hrm, hid⟩

structure Audit where
  store : Store
  cancelled : List String

def Audit.OpenRunsActive (w : Audit) : Prop :=
  ∀ r, r ∈ w.store.runs → r.runId ∉ w.cancelled → HasOpen w.store r.runId → r.status = .active

instance (s : Store) (runId : String) : Decidable (HasOpen s runId) :=
  inferInstanceAs (Decidable (∃ j, j ∈ s.jobs ∧ _))

instance (w : Audit) : Decidable w.OpenRunsActive :=
  inferInstanceAs (Decidable (∀ r, r ∈ w.store.runs → _))

theorem HasOpen.of_mapped {s s' : Store} {runId : String} (ha : Advance s s')
    (hm : ∃ F, s.jobs.Mapped F s'.jobs) (h : HasOpen s' runId) : HasOpen s runId := by
  obtain ⟨F, hF⟩ := hm
  obtain ⟨j', hj', hr, ho⟩ := h
  obtain ⟨j, hj, rfl⟩ := hF.mem hj'
  refine ⟨j, hj, (hF.key_eq j hj) ▸ hr, ?_⟩
  cases hc : j.status.isOpen with
  | true => rfl
  | false =>
    rw [← hF.eq_of_key hj (ha.kept j hj hc) rfl, hc] at ho
    cases ho

/-- The property survives an operation that inserts no job, when every run it leaves is active or has
the status of a run before. -/
theorem Audit.OpenRunsActive.of_mapped {w w' : Audit} (h : w.OpenRunsActive)
    (ha : Advance w.store w'.store) (hj : ∃ F, w.store.jobs.Mapped F w'.store.jobs)
    (hc : ∀ runId, runId ∈ w.cancelled → runId ∈ w'.cancelled)
    (hr : ∀ r', r' ∈ w'.store.runs → r'.runId ∉ w'.cancelled → HasOpen w'.store r'.runId →
      r'.status = .active ∨ ∃ r, r ∈ w.store.runs ∧ r.runId = r'.runId ∧ r'.status = r.status) :
    w'.OpenRunsActive := by
  intro r' hr' hn ho
  rcases hr r' hr' hn ho with hs | ⟨r, hrm, hid, hs⟩
  · exact hs
  · rw [hs]
    exact h r hrm (fun hm => hn (hid ▸ hc _ hm)) (hid.symm ▸ ho.of_mapped ha hj)

namespace Sqlite

def auditStep (env : Env) (w : Audit) (op : Op) : Audit where
  store := apply env w.store op
  cancelled :=
    match op with
    | .cancelRun runId _ _ _ =>
      if (w.store.runs.get? runId).isSome then runId :: w.cancelled else w.cancelled
    | _ => w.cancelled

/-- materialize_result inserts an open job: a new successor, or the source job when its row is
missing and the result leaves it waiting. -/
def InsertsOpen (s : Store) (k : JobKey) (result : StageResult) (plan : Plan) : Prop :=
  NewSuccessor s k plan ∨ (s.jobs.get? k = none ∧ (materializedStatus plan result).isOpen = true)

def InsertsIntoActive (env : Env) (w : Audit) : Op → Prop
  | .materializeResult k result now =>
    (planOf env k result now w.store).isValid = true →
      InsertsOpen w.store k result (planOf env k result now w.store) →
      ∀ r, r ∈ w.store.runs → r.runId = k.runId → r.runId ∉ w.cancelled → r.status = .active
  | _ => True

variable {s : Store} {env : Env} {w : Audit} {result : StageResult} {now : DateTime} {k : JobKey}

theorem RunsKept.get? {s' : Store} (h : RunsKept s s') {runId : String}
    (hr : s.runs.get? runId ≠ none) : s'.runs.get? runId ≠ none := by
  obtain ⟨r, hr⟩ := Option.ne_none_iff_exists'.mp hr
  obtain ⟨hrm, rfl⟩ := Table.get?_eq_some.mp hr
  obtain ⟨r', hr', hid⟩ := h r hrm
  rw [← hid, Table.get?_of_mem hr']
  exact Option.some_ne_none _

theorem owned_step (env : Env) (s : Store) (op : Op) (h : Owned s) : Owned (apply env s op) := by
  have hk := apply_runs_kept env s op
  cases hi : op.insertsJobs with
  | false =>
    obtain ⟨F, hF⟩ := apply_mapped env s op hi
    intro j' hj'
    obtain ⟨j, hj, rfl⟩ := hF.mem hj'
    rw [hF.key_eq j hj]
    exact hk.get? (h j hj)
  | true =>
    cases op with
    | accept command ids now =>
      cases hs : accept command ids now s with
      | error e => simpa [apply, hs] using h
      | ok r =>
        obtain ⟨receipt, s'⟩ := r
        rw [apply, hs, committed_ok] at hk ⊢
        rcases accept_ok hs with rfl | ⟨-, e, hj, -⟩ | ⟨-, e, hj, -⟩
        · exact h
        · intro j hjm
          rcases (Table.mem_of_insert? hj).mp hjm with hjm | rfl
          · exact hk.get? (h j hjm)
          · show s'.runs.get? ("run-" ++ ids.run) ≠ none
            rw [Table.get?_of_insert? (insertRun_eq_some e)]
            simp [intakeRun]
        · intro j hjm
          exact hk.get? (h j (hj ▸ hjm))
    | materializeResult k result now =>
      cases hs : materializeResult env k result now s with
      | error e => simpa [apply, hs] using h
      | ok r =>
        obtain ⟨keys, s'⟩ := r
        rw [apply, hs, committed_ok] at hk ⊢
        obtain ⟨s₀, -, hs₀, -, hr⟩ := materializeResult_ok hs
        obtain ⟨hj, -, -⟩ := ensureRun_jobs hs₀
        -- the run of the source job is there from the start of the transaction
        have hrun : s'.runs.get? k.runId ≠ none := by
          have h₀ : s₀.runs.get? k.runId ≠ none := by
            rcases ensureRun_some hs₀ with ⟨r₀, hr₀⟩
            simp [hr₀]
          have hmat : RunsKept s₀ (materialized env k result (planOf env k result now s) now s₀) :=
            .of_eq (materialized_runs env k result _ now s₀)
          have hkept : RunsKept s₀ s' := by
            rw [hr]
            exact hmat.trans (closeIfDone_runsKept k.runId now _)
          exact hkept.get? h₀
        intro j hjm
        have hget : (materialized env k result (planOf env k result now s) now s₀).jobs.get? j.key = some j := by
          rw [hr, closeIfDone_jobs] at hjm
          exact Table.get?_of_mem hjm
        rw [materialized_get?] at hget
        split at hget
        · rename_i hkey
          rw [hkey]
          exact hrun
        · cases hold : s₀.jobs.get? j.key with
          | some j₀ =>
            obtain ⟨hj₀, hk₀⟩ := Table.get?_eq_some.mp hold
            rw [← hk₀]
            exact hk.get? (h j₀ (hj ▸ hj₀))
          | none =>
            rw [hold, Option.none_or] at hget
            split at hget
            · rename_i hm
              rw [planOf_runId hm]
              exact hrun
            · cases hget
    | _ => cases hi

theorem finish_openRunsActive {c : Claim} (hi : Inv w.store) (h : w.OpenRunsActive) :
    (auditStep env w (.finish c result now)).OpenRunsActive := by
  have ha := apply_advance env hi (.finish c result now)
  have hm := apply_mapped env w.store (.finish c result now) rfl
  refine h.of_mapped ha hm (fun _ hc => hc) fun r' hr' _ ho => ?_
  simp only [auditStep, apply] at hr' ho
  cases hs : finish env c result now w.store with
  | error e =>
    rw [hs] at hr'
    exact .inr ⟨r', hr', rfl, rfl⟩
  | ok s' =>
    rw [hs] at hr' ho
    obtain ⟨row, job, hh, -, -, rfl⟩ := finish_ok hs
    simp only [Except.toOption, Option.getD_some] at hr' ho
    rcases finish_runs env result now hh with
      ⟨e, -⟩ | ⟨hout, hne, e⟩
    · exact .inr ⟨r', e ▸ hr', rfl, rfl⟩
    · obtain ⟨r, hr, rfl⟩ := Store.mem_closeRun.mp (e ▸ hr')
      split at ho
      · -- the run that is closed has no open job left
        rename_i hid
        refine absurd ?_ hne
        have ho' : HasOpen (finishTables env c result now w.store) c.jobKey.runId := by
          obtain ⟨j, hj, hjr, hjo⟩ := ho
          rw [finishApply_jobs] at hj
          exact ⟨j, hj, hjr.trans hid, hjo⟩
        refine ((finish_hasOpen env result now hh).mp ho').resolve_right ?_
        rw [finishRow_status, hout]
        exact Bool.false_ne_true
      · rename_i hid
        rw [if_neg hid]
        exact .inr ⟨r, hr, rfl, rfl⟩

theorem InsertsOpen.staysOpen {plan : Plan} (h : InsertsOpen s k result plan) : StaysOpen s k result plan := by
  rcases h with h | ⟨hk, ho⟩
  · exact .inr (.inr h)
  · refine .inr (.inl ?_)
    rw [settledStatus, hk]
    exact ho

theorem StaysOpen.insertsOpen {plan : Plan}
    (h : StaysOpen s k result plan) (hn : ¬ HasOpen s k.runId) : InsertsOpen s k result plan := by
  rcases h with ⟨j, hj, hr, -, ho⟩ | ho | h
  · exact absurd ⟨j, hj, hr, ho⟩ hn
  · unfold settledStatus at ho
    split at ho
    · rename_i hk
      exact .inr ⟨hk, ho⟩
    · rename_i row hrow
      obtain ⟨hrm, hrk⟩ := Table.get?_eq_some.mp hrow
      refine absurd ⟨row, hrm, by rw [hrk], ?_⟩ hn
      split at ho
      · rename_i hst
        rcases hst with hst | hst
        · rw [hst]; rfl
        · rw [hst]; rfl
      · exact ho
  · exact .inl h

theorem materialized_hasOpen_other {plan : Plan} {runId : String}
    (hp : ∀ key ∈ plan.successors, key.runId = k.runId) (hne : runId ≠ k.runId)
    (h : HasOpen (materialized env k result plan now s) runId) : HasOpen s runId := by
  rw [hasOpen_iff_get?] at h ⊢
  obtain ⟨key, j, hr, hj, ho⟩ := h
  rw [materialized_get?] at hj
  split at hj
  · rename_i hk
    exact absurd (hr.symm.trans (congrArg JobKey.runId hk)) hne
  · cases hold : s.jobs.get? key with
    | some j₀ =>
      rw [hold, Option.some_or, Option.some.injEq] at hj
      exact ⟨key, j₀, hr, hold, hj ▸ ho⟩
    | none =>
      rw [hold, Option.none_or] at hj
      split at hj
      · rename_i hm
        exact absurd (hr.symm.trans (hp key hm)) hne
      · cases hj

theorem materialize_openRunsActive_iff (h : w.OpenRunsActive) :
    (auditStep env w (.materializeResult k result now)).OpenRunsActive ↔
      InsertsIntoActive env w (.materializeResult k result now) := by
  cases hs : materializeResult env k result now w.store with
  | error e =>
    have he : auditStep env w (.materializeResult k result now) = w := by
      simp [auditStep, apply, hs]
    rw [he]
    refine iff_of_true h fun hv _ r hr hid _ => ?_
    have hens : ensureRun k now w.store = some w.store := by
      rw [ensureRun, ← hid, Table.get?_of_mem hr]
    rw [materializeResult_of_valid hv hens] at hs
    cases hs
  | ok r =>
    obtain ⟨keys, s'⟩ := r
    obtain ⟨s₀, hv, hs₀, -, rfl⟩ := materializeResult_ok hs
    obtain ⟨hj, -, -⟩ := ensureRun_jobs hs₀
    have hp : ∀ key ∈ (planOf env k result now w.store).successors, key.runId = k.runId :=
      fun key hk => planOf_runId hk
    obtain ⟨-, hopen, -⟩ := closing_congr hj k result (planOf env k result now w.store)
    have hpost : auditStep env w (.materializeResult k result now) = ⟨closeIfDone k.runId now
          (materialized env k result (planOf env k result now w.store) now s₀), w.cancelled⟩ := by
      simp [auditStep, apply, hs]
    rw [hpost]
    have hruns := closeIfDone_runs env result now s₀ hp
    have hjobs : ∀ runId, HasOpen (closeIfDone k.runId now
        (materialized env k result (planOf env k result now w.store) now s₀)) runId ↔
        HasOpen (materialized env k result (planOf env k result now w.store) now s₀) runId := by
      intro runId
      unfold HasOpen
      rw [closeIfDone_jobs]
    constructor
    · intro hgood _ hins r hr hid hn
      have hso := hins.staysOpen
      rcases hruns with ⟨-, e⟩ | ⟨hno, -⟩ | ⟨hno, -⟩
      · have hr₀ : r ∈ s₀.runs := by
          rcases ensureRun_runs hs₀ with e' | ⟨hnone, -⟩
          · exact e'.symm ▸ hr
          · exact absurd hid (Table.get?_eq_none.mp hnone r hr)
        refine hgood r (e ▸ hr₀) hn ?_
        rw [hjobs, hid]
        exact (materialized_hasOpen env result now s₀ hp).mpr (hopen.mpr hso)
      · exact absurd (hopen.mpr hso) hno
      · exact absurd (hopen.mpr hso) hno
    · intro hcond r' hr' hn ho
      rw [hjobs] at ho
      by_cases hid : r'.runId = k.runId
      · have hso : StaysOpen s₀ k result (planOf env k result now w.store) :=
          (materialized_hasOpen env result now s₀ hp).mp (hid ▸ ho)
        rcases hruns with ⟨-, e⟩ | ⟨hno, -⟩ | ⟨hno, -⟩
        · rw [e] at hr'
          rcases ensureRun_runs hs₀ with e' | ⟨-, e'⟩
          · rw [e'] at hr'
            by_cases hold : HasOpen w.store k.runId
            · exact h r' hr' hn (hid ▸ hold)
            · exact hcond hv ((hopen.mp hso).insertsOpen hold) r' hr' hid hn
          · rcases (Table.mem_of_insert? e').mp hr' with hr' | rfl
            · exact absurd hid (Table.get?_eq_none.mp (Table.insert?_fresh e') r' hr')
            · rfl
        · exact absurd hso hno
        · exact absurd hso hno
      · -- a run that the call does not touch
        have ho₀ : HasOpen w.store r'.runId := by
          have := materialized_hasOpen_other hp hid ho
          unfold HasOpen at this ⊢
          rwa [hj] at this
        have hmem : r' ∈ w.store.runs := by
          have h₀ : r' ∈ s₀.runs := by
            rcases hruns with ⟨-, e⟩ | ⟨-, -, e⟩ | ⟨-, -, e⟩
            · exact e ▸ hr'
            · obtain ⟨r, hr, rfl⟩ := Store.mem_closeRun.mp (e ▸ hr')
              split at hid
              · rename_i hr₁
                exact absurd hr₁ hid
              · rename_i hr₁
                rw [if_neg hr₁]
                exact hr
            · obtain ⟨r, hr, rfl⟩ := Store.mem_closeRun.mp (e ▸ hr')
              split at hid
              · rename_i hr₁
                exact absurd hr₁ hid
              · rename_i hr₁
                rw [if_neg hr₁]
                exact hr
          rcases ensureRun_runs hs₀ with e' | ⟨-, e'⟩
          · exact e' ▸ h₀
          · rcases (Table.mem_of_insert? e').mp h₀ with h₁ | rfl
            · exact h₁
            · exact absurd rfl hid
        exact h r' hmem hn ho₀

theorem cancel_openRunsActive {runId reason actor : String} (hi : Inv w.store) (h : w.OpenRunsActive) :
    (auditStep env w (.cancelRun runId reason actor now)).OpenRunsActive := by
  have ha := apply_advance env hi (.cancelRun runId reason actor now)
  have hm := apply_mapped env w.store (.cancelRun runId reason actor now) rfl
  refine h.of_mapped ha hm (fun ρ hc => ?_) fun r' hr' hn _ => ?_
  · simp only [auditStep]
    split
    · exact List.mem_cons_of_mem _ hc
    · exact hc
  · rcases cancelRun_runs runId reason actor now w.store with ⟨-, e⟩ | ⟨hr, e⟩
    · simp only [auditStep, apply, e] at hr'
      exact .inr ⟨r', hr', rfl, rfl⟩
    · simp only [auditStep, apply, e] at hr'
      obtain ⟨r, hrm, rfl⟩ := Store.mem_closeRun.mp hr'
      split at hn
      · rename_i hid
        refine absurd ?_ hn
        simp only [auditStep, Option.isSome_iff_ne_none.mpr hr, if_true]
        exact hid ▸ List.mem_cons_self
      · rename_i hid
        rw [if_neg hid]
        exact .inr ⟨r, hrm, rfl, rfl⟩

theorem accept_openRunsActive {command : IntakeCommand} {ids : IntakeIds} (ho : Owned w.store)
    (h : w.OpenRunsActive) :
    (auditStep env w (.accept command ids now)).OpenRunsActive := by
  intro r' hr' hn hopen
  simp only [auditStep, apply] at hr' hn hopen
  cases hs : accept command ids now w.store with
  | error e =>
    rw [hs] at hr' hopen
    exact h r' hr' hn hopen
  | ok r =>
    obtain ⟨receipt, s'⟩ := r
    rw [hs, committed_ok] at hr' hopen
    rcases accept_ok hs with rfl | ⟨hm, e, hj, -⟩ | ⟨-, e, hj, -⟩
    · exact h r' hr' hn hopen
    · rcases (Table.mem_of_insert? (insertRun_eq_some e)).mp hr' with hr | rfl
      · refine h r' hr hn ?_
        obtain ⟨j, hjm, hjr, hjo⟩ := hopen
        rcases (Table.mem_of_insert? hj).mp hjm with hjm | rfl
        · exact ⟨j, hjm, hjr, hjo⟩
        · -- the new job is in the new run
          exact absurd hjr.symm
            (Table.get?_eq_none.mp (Table.insert?_fresh (insertRun_eq_some e)) r' hr)
      · simp [intakeRun, hm]
    · have hopen₀ : HasOpen w.store r'.runId := by
        obtain ⟨j, hjm, hjr, hjo⟩ := hopen
        exact ⟨j, hj ▸ hjm, hjr, hjo⟩
      rcases (Table.mem_of_insert? (insertRun_eq_some e)).mp hr' with hr | rfl
      · exact h r' hr hn hopen₀
      · -- no job belongs to a run that was not there
        obtain ⟨j, hjm, hjr, -⟩ := hopen₀
        obtain ⟨r₀, hr₀, hid⟩ := ho.run hjm
        exact absurd (hid.trans hjr)
          (Table.get?_eq_none.mp (Table.insert?_fresh (insertRun_eq_some e)) r₀ hr₀)

theorem openRunsActive_step (hi : Inv w.store) (ho : Owned w.store) (h : w.OpenRunsActive) (op : Op) :
    (auditStep env w op).OpenRunsActive ↔ InsertsIntoActive env w op := by
  have ha := apply_advance env hi op
  cases hw : op.writesRuns with
  | false =>
    have hc : InsertsIntoActive env w op := by cases op <;> trivial
    have hcan : ∀ runId, runId ∈ w.cancelled → runId ∈ (auditStep env w op).cancelled := by
      intro runId hm
      cases op <;> first | exact hm | cases hw
    have hin := apply_inPlace env w.store hw
    refine iff_of_true (h.of_mapped ha hin.jobs hcan fun r' hr' _ _ => ?_) hc
    exact .inr ⟨r', hin.runs ▸ hr', rfl, rfl⟩
  | true =>
    cases op with
    | finish c result now => exact iff_of_true (finish_openRunsActive hi h) trivial
    | cancelRun runId reason actor now => exact iff_of_true (cancel_openRunsActive hi h) trivial
    | accept command ids now => exact iff_of_true (accept_openRunsActive ho h) trivial
    | materializeResult k result now => exact materialize_openRunsActive_iff h
    | resumeJob key now =>
      have hm := apply_mapped env w.store (.resumeJob key now) rfl
      refine iff_of_true (h.of_mapped ha hm (fun _ hc => hc) fun r' hr' _ _ => ?_) trivial
      simp only [auditStep, apply] at hr'
      rcases resumeJob_runs key now w.store with e | ⟨b, e⟩
      · exact .inr ⟨r', e ▸ hr', rfl, rfl⟩
      · obtain ⟨r, hr, hid, -, hstat⟩ := mem_reopenRun (e ▸ hr')
        rcases hstat with hstat | ⟨-, -, hstat⟩
        · exact .inr ⟨r, hr, hid.symm, hstat⟩
        · exact .inl hstat
    | _ => cases hw

/-- In a run of the store, every uncancelled run with an open job is active after every operation
exactly when every operation meets the condition. -/
theorem open_runs_active_iff (env : Env) (ops : List Op) :
    (∀ m ∈ Runs.moves (auditStep env) ⟨.empty, []⟩ ops, m.post.OpenRunsActive) ↔
      ∀ m ∈ Runs.moves (auditStep env) ⟨.empty, []⟩ ops, InsertsIntoActive env m.pre m.act := by
  refine Runs.moves_forall_iff
    (I := fun w => Inv w.store ∧ Owned w.store ∧ w.OpenRunsActive) ?_ ?_ ?_ ops
  · exact fun w op h => openRunsActive_step h.1 h.2.1 h.2.2 op
  · intro w op h hc
    exact ⟨inv_step env w.store op h.1, owned_step env w.store op h.2.1,
      (openRunsActive_step h.1 h.2.1 h.2.2 op).mpr hc⟩
  · exact ⟨.empty, fun j hj => absurd hj Table.not_mem_empty,
      fun r hr => absurd hr Table.not_mem_empty⟩

/-- A worker that finishes the grill job of a new run and materializes its result leaves a pending
planning job in a completed run. -/
theorem planning_of_completed_run :
    (claim .sample "worker-1" [] (utc 1) 0 ⟨"l1", "v1"⟩
        (apply .sample .empty .sampleAccept)).toOption.map Prod.fst =
      some (some (.sample (.sample "grill" 0) 1 "l1" "v1" 1)) ∧
    ¬ (Runs.run (auditStep .sample) ⟨.empty, []⟩
        [.sampleAccept, .claim "worker-1" [] (utc 1) 0 ⟨"l1", "v1"⟩,
          .finish (.sample (.sample "grill" 0) 1 "l1" "v1" 1) .sampleSuccess (utc 2),
          .materializeResult (.sample "grill" 0) .sampleSuccess (utc 2)]).OpenRunsActive := by
  decide +kernel

end Sqlite
end Control
end DarkFactory
