import DarkFactory.Control.RunActivity

/-!
# DarkFactory.Control.Cancellation

After cancel_run the run has no open job, is `cancelled`, and gives no job to a claim. What can end
this is a materialize_result of the run: it inserts successors and closes the run without a look at
its status. `cancel_final_iff` says that nothing else does, and that every such call does.
-/

namespace DarkFactory
namespace Control

structure RunCancelled (s : Store) (runId : String) : Prop where
  closed : ¬ HasOpen s runId
  status : ∀ r, r ∈ s.runs → r.runId = runId → r.status = .cancelled

instance (s : Store) (runId : String) : Decidable (RunCancelled s runId) :=
  decidable_of_iff (¬ HasOpen s runId ∧ ∀ r, r ∈ s.runs → r.runId = runId → r.status = .cancelled)
    ⟨fun h => ⟨h.1, h.2⟩, fun h => ⟨h.1, h.2⟩⟩

namespace Sqlite

def ClaimsNone (env : Env) (runId : String) (s : Store) : Op → Prop
  | .claim worker capabilities now readyAgeSec ids => ∀ c s',
    claim env worker capabilities now readyAgeSec ids s = .ok (some c, s') → c.jobKey.runId ≠ runId
  | _ => True

def KeepsCancelled (env : Env) (runId : String) (m : Move Store Op) : Prop :=
  RunCancelled m.post runId ∧ ClaimsNone env runId m.pre m.act

/-- A materialize_result of the run, with successors that `JobKey` accepts. -/
def MaterializesRun (env : Env) (runId : String) (s : Store) : Op → Prop
  | .materializeResult k result now =>
    k.runId = runId ∧ (planOf env k result now s).isValid = true
  | _ => False

variable {runId : String} {now : DateTime} {s : Store} {env : Env} {result : StageResult}

theorem cancelRun_ok {reason actor : String} {n : Nat}
    {message : String} (h : (cancelRun runId reason actor now s).1 = .ok n message) :
    s.runs.get? runId ≠ none := by
  unfold cancelRun at h
  split at h
  · cases h
  · rename_i hr
    rw [hr]
    exact Option.some_ne_none _

theorem cancelRun_cancelled (reason actor : String) (now : DateTime) {s : Store} (h : s.runs.get? runId ≠ none) :
    RunCancelled (cancelRun runId reason actor now s).2 runId := by
  constructor
  · rintro ⟨j, hj, hr, ho⟩
    unfold cancelRun at hj
    split at hj
    · rename_i hn
      exact h hn
    · rcases Table.mem_update_cases (h := cancelledJob_key reason now) hj with
        ⟨hj, hp⟩ | ⟨i, -, -, rfl⟩
      · simp [hr, ho] at hp
      · cases ho
  · intro r' hr' hid
    rcases cancelRun_runs runId reason actor now s with ⟨hn, -⟩ | ⟨-, e⟩
    · exact absurd hn h
    · obtain ⟨r, -, rfl⟩ := Store.mem_closeRun.mp (e ▸ hr')
      split at hid
      · rename_i hr
        rw [if_pos hr]
        rfl
      · rename_i hr
        exact absurd hid hr

theorem claimsNone_of_closed (env : Env) {runId : String} {s : Store} (h : ¬ HasOpen s runId)
    (op : Op) : ClaimsNone env runId s op := by
  cases op with
  | claim worker capabilities now readyAgeSec ids =>
    intro c s' hs hr
    obtain ⟨row, matched, claims, hch, -, rfl, -⟩ := claim_ok hs
    obtain ⟨hrow, hp⟩ := mem_pendingByCreation.mp (chosenRow_ok hch).1
    exact h ⟨row, hrow, hr, by rw [hp]; rfl⟩
  | _ => trivial

theorem runCancelled_of_runs {s' : Store} (h : RunCancelled s runId) (hc : ¬ HasOpen s' runId)
    (hr : ∀ r', r' ∈ s'.runs → r'.runId = runId → r'.status = .cancelled ∨
      ∃ r, r ∈ s.runs ∧ r.runId = runId ∧ r'.status = r.status) : RunCancelled s' runId := by
  refine ⟨hc, fun r' hr' hid => ?_⟩
  rcases hr r' hr' hid with hs | ⟨r, hrm, hid', hs⟩
  · exact hs
  · rw [hs]
    exact h.status r hrm hid'

theorem finish_runCancelled {c : Claim} (hi : Inv s) (h : RunCancelled s runId) :
    RunCancelled (apply env s (.finish c result now)) runId := by
  have ha := apply_advance env hi (.finish c result now)
  have hm := apply_mapped env s (.finish c result now) rfl
  refine runCancelled_of_runs h (fun ho => h.closed (ho.of_mapped ha hm)) fun r' hr' hid => ?_
  simp only [apply] at hr'
  cases hs : finish env c result now s with
  | error e =>
    rw [hs] at hr'
    exact .inr ⟨r', hr', hid, rfl⟩
  | ok s' =>
    rw [hs] at hr'
    obtain ⟨row, job, hh, -, -, rfl⟩ := finish_ok hs
    simp only [Except.toOption, Option.getD_some] at hr'
    rcases finish_runs env result now hh with ⟨e, -⟩ | ⟨-, -, e⟩
    · exact .inr ⟨r', e ▸ hr', hid, rfl⟩
    · -- the finished job was running, so its run is another one
      have hne : c.jobKey.runId ≠ runId := by
        intro e'
        obtain ⟨-, -, hst⟩ := hi.holds hh
        exact h.closed ⟨job, hh.job_mem, by rw [hh.key, e'], by rw [hst]; rfl⟩
      obtain ⟨r, hr, rfl⟩ := Store.mem_closeRun.mp (e ▸ hr')
      split at hid
      · rename_i hr'
        exact absurd (hr'.symm.trans hid) hne
      · rename_i hr'
        rw [if_neg hr']
        exact .inr ⟨r, hr, hid, rfl⟩

theorem accept_runCancelled {command : IntakeCommand} {ids : IntakeIds} (h : RunCancelled s runId)
    (hrun : s.runs.get? runId ≠ none) :
    RunCancelled (apply env s (.accept command ids now)) runId := by
  simp only [apply]
  cases hs : accept command ids now s with
  | error e => exact h
  | ok r =>
    obtain ⟨receipt, s'⟩ := r
    rw [committed_ok]
    -- the new run is not the cancelled one
    have hnew : ∀ r₀, s.runs.insert? r₀ = some s'.runs → r₀.runId ≠ runId := by
      rintro r₀ hr₀ rfl
      exact hrun (Table.insert?_fresh hr₀)
    have hruns : ∀ r₀, s.runs.insert? r₀ = some s'.runs → ∀ r', r' ∈ s'.runs → r'.runId = runId →
        r'.status = .cancelled ∨ ∃ r, r ∈ s.runs ∧ r.runId = runId ∧ r'.status = r.status := by
      intro r₀ hr₀ r' hr' hid
      rcases (Table.mem_of_insert? hr₀).mp hr' with hr' | rfl
      · exact .inr ⟨r', hr', hid, rfl⟩
      · exact absurd hid (hnew _ hr₀)
    rcases accept_ok hs with rfl | ⟨-, e, hj, -⟩ | ⟨-, e, hj, -⟩
    · exact h
    · have e' := insertRun_eq_some e
      refine runCancelled_of_runs h ?_ (hruns _ e')
      rintro ⟨j, hjm, hr, ho⟩
      rcases (Table.mem_of_insert? hj).mp hjm with hjm | rfl
      · exact h.closed ⟨j, hjm, hr, ho⟩
      · exact hnew _ e' hr
    · refine runCancelled_of_runs h ?_ (hruns _ (insertRun_eq_some e))
      rintro ⟨j, hjm, hr, ho⟩
      exact h.closed ⟨j, hj ▸ hjm, hr, ho⟩

theorem materialize_other_runCancelled {k : JobKey} (h : RunCancelled s runId) (hne : k.runId ≠ runId) :
    RunCancelled (apply env s (.materializeResult k result now)) runId := by
  simp only [apply]
  cases hs : materializeResult env k result now s with
  | error e => exact h
  | ok r =>
    obtain ⟨keys, s'⟩ := r
    obtain ⟨s₀, hv, hs₀, -, rfl⟩ := materializeResult_ok hs
    obtain ⟨hj, -, -⟩ := ensureRun_jobs hs₀
    have hp : ∀ key ∈ (planOf env k result now s).successors, key.runId = k.runId :=
      fun key hk => planOf_runId hk
    rw [committed_ok]
    have hclose : ∀ (st : RunStatus) (r' : Run), r' ∈ (s₀.closeRun k.runId st now).runs →
        r'.runId = runId → r' ∈ s₀.runs := by
      intro st r' hr' hid
      obtain ⟨r, hr, rfl⟩ := Store.mem_closeRun.mp hr'
      split at hid
      · rename_i hr'
        exact absurd (hr'.symm.trans hid) hne
      · rename_i hr'
        rw [if_neg hr']
        exact hr
    refine runCancelled_of_runs h ?_ fun r' hr' hid => ?_
    · intro ho
      have ho' : HasOpen (materialized env k result (planOf env k result now s) now s₀) runId := by
        unfold HasOpen at ho ⊢
        rwa [closeIfDone_jobs] at ho
      have := materialized_hasOpen_other hp (Ne.symm hne) ho'
      unfold HasOpen at this
      rw [hj] at this
      exact h.closed this
    · have hr₀ : r' ∈ s₀.runs := by
        rcases closeIfDone_runs env result now s₀ hp with
          ⟨-, e⟩ | ⟨-, -, e⟩ | ⟨-, -, e⟩
        · exact e ▸ hr'
        · exact hclose _ r' (e ▸ hr') hid
        · exact hclose _ r' (e ▸ hr') hid
      rcases ensureRun_runs hs₀ with e | ⟨-, e⟩
      · exact .inr ⟨r', e ▸ hr₀, hid, rfl⟩
      · rcases (Table.mem_of_insert? e).mp hr₀ with hr | rfl
        · exact .inr ⟨r', hr, hid, rfl⟩
        · exact absurd hid hne

/-- Any materialize_result of the run takes it out of its cancelled state: it leaves an open job, or
closes the run as failed or completed. -/
theorem materialize_not_runCancelled {k : JobKey} (hrun : s.runs.get? runId ≠ none)
    (hk : k.runId = runId) (hv : (planOf env k result now s).isValid = true) :
    ¬ RunCancelled (apply env s (.materializeResult k result now)) runId := by
  obtain ⟨r, hr⟩ := Option.ne_none_iff_exists'.mp hrun
  have hens : ensureRun k now s = some s := by rw [ensureRun, hk, hr]
  obtain ⟨hrm, hid⟩ := Table.get?_eq_some.mp hr
  simp only [apply, materializeResult_of_valid hv hens, committed_ok]
  intro h
  have hp : ∀ key ∈ (planOf env k result now s).successors, key.runId = k.runId :=
    fun key hk => planOf_runId hk
  have hclosed : ∀ st : RunStatus,
      (closeIfDone k.runId now (materialized env k result (planOf env k result now s) now s)).runs =
        (s.closeRun k.runId st now).runs → st = .cancelled := by
    intro st e
    refine h.status (Store.closedRun st now r) ?_ hid
    rw [e]
    exact Store.mem_closeRun.mpr ⟨r, hrm, by rw [if_pos (hid.trans hk.symm)]⟩
  rcases closeIfDone_runs env result now s hp with
    ⟨ho, -⟩ | ⟨-, -, e⟩ | ⟨-, -, e⟩
  · apply h.closed
    have := (materialized_hasOpen env result now s hp).mpr ho
    rw [hk] at this
    unfold HasOpen at this ⊢
    rwa [closeIfDone_jobs]
  · cases hclosed _ e
  · cases hclosed _ e

theorem keepsCancelled_step (hi : Inv s) (h : RunCancelled s runId) (hrun : s.runs.get? runId ≠ none) (op : Op) :
    KeepsCancelled env runId ⟨s, op, apply env s op⟩ ↔ ¬ MaterializesRun env runId s op := by
  have hclaim := claimsNone_of_closed env h.closed op
  have ha := apply_advance env hi op
  constructor
  · intro hk hm
    cases op with
    | materializeResult k result now => exact materialize_not_runCancelled hrun hm.1 hm.2 hk.1
    | _ => exact hm
  · intro hm
    refine ⟨?_, hclaim⟩
    show RunCancelled (apply env s op) runId
    cases hw : op.writesRuns with
    | false =>
      have hin := apply_inPlace env s hw
      exact runCancelled_of_runs h (fun ho => h.closed (ho.of_mapped ha hin.jobs))
        fun r' hr' hid => .inr ⟨r', hin.runs ▸ hr', hid, rfl⟩
    | true =>
      cases op with
      | finish c result now => exact finish_runCancelled hi h
      | accept command ids now => exact accept_runCancelled h hrun
      | cancelRun runId' reason actor now =>
        have hmap := apply_mapped env s (.cancelRun runId' reason actor now) rfl
        refine runCancelled_of_runs h (fun ho => h.closed (ho.of_mapped ha hmap))
          fun r' hr' hid => ?_
        rcases cancelRun_runs runId' reason actor now s with ⟨-, e⟩ | ⟨-, e⟩
        · simp only [apply, e] at hr'
          exact .inr ⟨r', hr', hid, rfl⟩
        · obtain ⟨r, hr, rfl⟩ := Store.mem_closeRun.mp (e ▸ hr')
          split at hid
          · rename_i hr₁
            rw [if_pos hr₁]
            exact .inl rfl
          · rename_i hr₁
            rw [if_neg hr₁]
            exact .inr ⟨r, hr, hid, rfl⟩
      | resumeJob key now =>
        have hmap := apply_mapped env s (.resumeJob key now) rfl
        refine runCancelled_of_runs h (fun ho => h.closed (ho.of_mapped ha hmap))
          fun r' hr' hid => ?_
        rcases resumeJob_runs key now s with e | ⟨b, e⟩
        · exact .inr ⟨r', e ▸ hr', hid, rfl⟩
        · obtain ⟨r, hr, hid', -, hstat⟩ := mem_reopenRun (e ▸ hr')
          rcases hstat with hstat | ⟨-, hcompleted, -⟩
          · exact .inr ⟨r, hr, hid'.symm.trans hid, hstat⟩
          · -- a cancelled run is not completed, so it is not reopened
            rw [h.status r hr (hid'.symm.trans hid)] at hcompleted
            cases hcompleted
      | materializeResult k result now =>
        by_cases hk : k.runId = runId
        · -- the plan is refused, and nothing changes
          have hv : ¬ (planOf env k result now s).isValid = true := fun hv => hm ⟨hk, hv⟩
          cases hs : materializeResult env k result now s with
          | error e => simpa [apply, hs] using h
          | ok r =>
            obtain ⟨keys, s'⟩ := r
            obtain ⟨_, hv', -⟩ := materializeResult_ok hs
            exact absurd hv' hv
        · exact materialize_other_runCancelled h hk
      | _ => cases hw

/-- Once cancel_run has answered ok, the run stays cancelled, without open jobs and unclaimed,
through exactly those continuations that do not materialize a result of the run. -/
theorem cancel_final_iff (env : Env) (before after : List Op) (runId reason actor : String)
    (now : DateTime) (n : Nat) (message : String)
    (h : (cancelRun runId reason actor now (Runs.run (apply env) .empty before)).1 =
      .ok n message) :
    RunCancelled (Runs.run (apply env) .empty (before ++ [.cancelRun runId reason actor now])) runId ∧
      ((∀ m ∈ Runs.moves (apply env)
            (Runs.run (apply env) .empty (before ++ [.cancelRun runId reason actor now])) after,
          KeepsCancelled env runId m) ↔
        ∀ m ∈ Runs.moves (apply env)
            (Runs.run (apply env) .empty (before ++ [.cancelRun runId reason actor now])) after,
          ¬ MaterializesRun env runId m.pre m.act) := by
  have hi := reachable_inv env (before ++ [.cancelRun runId reason actor now])
  have hrun := cancelRun_ok h
  have e : Runs.run (apply env) .empty (before ++ [.cancelRun runId reason actor now]) =
      (cancelRun runId reason actor now (Runs.run (apply env) .empty before)).2 := by
    rw [Runs.run_append]
    rfl
  have hc := cancelRun_cancelled reason actor now hrun
  rw [← e] at hc
  have hrun' : (Runs.run (apply env) .empty
      (before ++ [.cancelRun runId reason actor now])).runs.get? runId ≠ none := by
    rw [Runs.run_append]
    exact (apply_runs_kept env _ (.cancelRun runId reason actor now)).get? hrun
  refine ⟨hc, ?_⟩
  refine Runs.moves_forall_iff (C := fun s op => ¬ MaterializesRun env runId s op)
    (I := fun s => Inv s ∧ RunCancelled s runId ∧ s.runs.get? runId ≠ none) ?_ ?_
    ⟨hi, hc, hrun'⟩ after
  · exact fun s op h => keepsCancelled_step h.1 h.2.1 h.2.2 op
  · intro s op h hm
    exact ⟨inv_step env s op h.1, ((keepsCancelled_step h.1 h.2.1 h.2.2 op).mpr hm).1,
      (apply_runs_kept env s op).get? h.2.2⟩

/-- A new run is cancelled; the claim that follows finds nothing in it. -/
theorem cancel_final_claim :
    RunCancelled (Runs.run (apply .sample) .empty
        ([.sampleAccept] ++ [.cancelRun "run-r1" "owner" "cli" (utc 1)])) "run-r1" ∧
      KeepsCancelled .sample "run-r1"
        ⟨Runs.run (apply .sample) .empty
            ([.sampleAccept] ++ [.cancelRun "run-r1" "owner" "cli" (utc 1)]),
          .claim "worker-1" [] (utc 2) 0 ⟨"l1", "v1"⟩,
          Runs.run (apply .sample) .empty
            [.sampleAccept, .cancelRun "run-r1" "owner" "cli" (utc 1),
              .claim "worker-1" [] (utc 2) 0 ⟨"l1", "v1"⟩]⟩ := by
  have h : (cancelRun "run-r1" "owner" "cli" (utc 1)
      (Runs.run (apply .sample) .empty [.sampleAccept])).1 =
      .ok 1 "Run run-r1 cancelado com sucesso (1 jobs cancelados)." := by decide +kernel
  obtain ⟨hc, hiff⟩ := cancel_final_iff .sample [.sampleAccept]
    [.claim "worker-1" [] (utc 2) 0 ⟨"l1", "v1"⟩] "run-r1" "owner" "cli" (utc 1) 1 _ h
  refine ⟨hc, hiff.mpr (fun m hm => ?_) _ (.head _)⟩
  rw [List.mem_singleton.mp hm]
  exact id

/-- A cancel between finish and materialize_result is undone: the planning job is pending, and the
next claim gets it. -/
theorem cancel_undone :
    (cancelRun "run-r1" "owner" "cli" (utc 3) (Runs.run (apply .sample) .empty
        [.sampleAccept, .claim "worker-1" [] (utc 1) 0 ⟨"l1", "v1"⟩,
          .finish (.sample (.sample "grill" 0) 1 "l1" "v1" 1) .sampleSuccess (utc 2)])).1 =
      .ok 0 "Run run-r1 cancelado com sucesso (0 jobs cancelados)." ∧
    HasOpen (Runs.run (apply .sample) .empty
        [.sampleAccept, .claim "worker-1" [] (utc 1) 0 ⟨"l1", "v1"⟩,
          .finish (.sample (.sample "grill" 0) 1 "l1" "v1" 1) .sampleSuccess (utc 2),
          .cancelRun "run-r1" "owner" "cli" (utc 3),
          .materializeResult (.sample "grill" 0) .sampleSuccess (utc 2)]) "run-r1" ∧
    (claim .sample "worker-1" [] (utc 4) 0 ⟨"l2", "v2"⟩ (Runs.run (apply .sample) .empty
        [.sampleAccept, .claim "worker-1" [] (utc 1) 0 ⟨"l1", "v1"⟩,
          .finish (.sample (.sample "grill" 0) 1 "l1" "v1" 1) .sampleSuccess (utc 2),
          .cancelRun "run-r1" "owner" "cli" (utc 3),
          .materializeResult (.sample "grill" 0) .sampleSuccess (utc 2)])).toOption.map Prod.fst =
      some (some (.sample (.sample "planning" 0) 1 "l2" "v2" 4)) := by
  decide +kernel

end Sqlite
end Control
end DarkFactory
