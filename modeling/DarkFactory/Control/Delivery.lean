import DarkFactory.Control.Closing

/-!
# DarkFactory.Control.Delivery

Completed means delivered: an autonomous run with status `completed` has a succeeded `build_deploy`
job. The store does not keep this in every run: finish closes a run as completed as soon as its last
open job succeeds, at any stage, and materialize_result does so when it leaves neither an open nor a
failed job. `completed_delivered_iff` is the exact condition under which a run of the store keeps it.
-/

namespace DarkFactory
namespace Control

/-- The run has a succeeded `build_deploy` job. -/
def Delivered (s : Store) (runId : String) : Prop :=
  ∃ j, j ∈ s.jobs ∧ j.key.runId = runId ∧ j.key.stage = "build_deploy" ∧ j.status = .succeeded

def AutonomousRun (s : Store) (runId : String) : Prop :=
  ∃ r, r ∈ s.runs ∧ r.runId = runId ∧ r.mode = .autonomous

def CompletedDelivered (s : Store) : Prop :=
  ∀ r, r ∈ s.runs → r.mode = .autonomous → r.status = .completed → Delivered s r.runId

instance (s : Store) (runId : String) : Decidable (Delivered s runId) :=
  inferInstanceAs (Decidable (∃ j, j ∈ s.jobs ∧ _))

instance (s : Store) : Decidable (CompletedDelivered s) :=
  inferInstanceAs (Decidable (∀ r, r ∈ s.runs → _))

variable {s s' : Store} {runId : String}

theorem Delivered.advance (h : Delivered s runId) (ha : Advance s s') : Delivered s' runId := by
  obtain ⟨j, hj, hr, hst, hs⟩ := h
  exact ⟨j, ha.kept j hj (by rw [hs]; rfl), hr, hst, hs⟩

theorem CompletedDelivered.of_runs (h : CompletedDelivered s) (ha : Advance s s')
    (hr : ∀ r', r' ∈ s'.runs → r'.mode = .autonomous → r'.status = .completed →
      ∃ r, r ∈ s.runs ∧ r.runId = r'.runId ∧ r.mode = .autonomous ∧ r.status = .completed) :
    CompletedDelivered s' := by
  intro r' hr' hm hst
  obtain ⟨r, hrm, hid, hmode, hstat⟩ := hr r' hr' hm hst
  exact hid ▸ (h r hrm hmode hstat).advance ha

theorem CompletedDelivered.of_runs_eq (h : CompletedDelivered s) (ha : Advance s s')
    (hr : s'.runs = s.runs) : CompletedDelivered s' :=
  h.of_runs ha fun r' hr' hm hst => ⟨r', hr ▸ hr', rfl, hm, hst⟩

theorem CompletedDelivered.close {now : DateTime} (h : CompletedDelivered s) (ha : Advance s s')
    (hr : s'.runs = (s.closeRun runId .completed now).runs)
    (hd : AutonomousRun s runId → Delivered s' runId) : CompletedDelivered s' := by
  intro r' hr' hm hst
  rw [hr] at hr'
  obtain ⟨r, hrm, rfl⟩ := Store.mem_closeRun.mp hr'
  split at hm
  · rename_i hid
    rw [if_pos hid]
    show Delivered s' r.runId
    rw [hid]
    exact hd ⟨r, hrm, hid, hm⟩
  · rename_i hid
    rw [if_neg hid] at hst ⊢
    exact (h r hrm hm hst).advance ha

theorem CompletedDelivered.close_other {status : RunStatus}
    {now : DateTime} (h : CompletedDelivered s) (ha : Advance s s')
    (hr : s'.runs = (s.closeRun runId status now).runs) (hst : status ≠ .completed) :
    CompletedDelivered s' := by
  refine h.of_runs ha fun r' hr' hm hs => ?_
  rw [hr] at hr'
  obtain ⟨r, hrm, rfl⟩ := Store.mem_closeRun.mp hr'
  split at hs
  · exact absurd hs hst
  · rename_i hid
    rw [if_neg hid] at hm ⊢
    exact ⟨r, hrm, rfl, hm, hs⟩

theorem AutonomousRun.mem_closeRun (h : AutonomousRun s runId)
    (now : DateTime) : ∃ r', r' ∈ (s.closeRun runId .completed now).runs ∧
      r'.runId = runId ∧ r'.mode = .autonomous ∧ r'.status = .completed := by
  obtain ⟨r, hr, hid, hm⟩ := h
  exact ⟨Store.closedRun .completed now r, Store.mem_closeRun.mpr ⟨r, hr, by rw [if_pos hid]⟩, hid, hm, rfl⟩

namespace Sqlite

/-- The two closings that need a delivered run: a finish with `success` of a stage other than
`build_deploy` that finds no other open job, and a materialize_result that leaves neither an open nor
a failed job. -/
def ClosesDelivered (env : Env) (s : Store) : Op → Prop
  | .finish c result now =>
    (∃ job, finishGuard c result now s = .ok job) → result.outcome = .success →
      c.jobKey.stage ≠ "build_deploy" → ¬ OpenElsewhere s c.jobKey →
      AutonomousRun s c.jobKey.runId → Delivered s c.jobKey.runId
  | .materializeResult k result now =>
    (planOf env k result now s).isValid = true → ∀ s₀, ensureRun k now s = some s₀ →
      ¬ StaysOpen s k result (planOf env k result now s) →
      ¬ HasFailed s k result (planOf env k result now s) → AutonomousRun s₀ k.runId →
      Delivered s k.runId ∨
        (k.stage = "build_deploy" ∧ settledStatus k result (planOf env k result now s) s = .succeeded)
  | _ => True

theorem finish_delivered (env : Env) {c : Claim} {result : StageResult} (now : DateTime) {s : Store}
    {row : ClaimRow} {job : Job} (h : c.Holds s row job) (ho : result.outcome = .success) :
    Delivered (finishApply env c result now s) c.jobKey.runId ↔
      Delivered s c.jobKey.runId ∨ c.jobKey.stage = "build_deploy" := by
  have hget := finishTables_get? env result now h
  constructor
  · rintro ⟨j, hj, hr, hst, hs⟩
    rw [finishApply_jobs] at hj
    have hj' := Table.get?_of_mem hj
    rw [hget] at hj'
    by_cases hk : j.key = c.jobKey
    · exact .inr (hk ▸ hst)
    · rw [if_neg hk] at hj'
      exact .inl ⟨j, Table.mem_of_get? hj', hr, hst, hs⟩
  · have hnew : finishRow env result now job ∈ (finishApply env c result now s).jobs := by
      rw [finishApply_jobs]
      exact Table.mem_of_get? ((hget c.jobKey).trans (if_pos rfl))
    have hkey : (finishRow env result now job).key = c.jobKey :=
      (finishRow_key env result now job).trans h.key
    rintro (⟨j, hj, hr, hst, hs⟩ | hst)
    · by_cases hk : j.key = c.jobKey
      · refine ⟨_, hnew, hkey ▸ rfl, hkey ▸ hk ▸ hst, ?_⟩
        rw [finishRow_status, ho]
        rfl
      · refine ⟨j, ?_, hr, hst, hs⟩
        rw [finishApply_jobs]
        exact Table.mem_of_get? ((hget j.key).trans (by rw [if_neg hk, Table.get?_of_mem hj]))
    · refine ⟨_, hnew, hkey ▸ rfl, hkey ▸ hst, ?_⟩
      rw [finishRow_status, ho]
      rfl

variable {env : Env}

theorem finish_completed_iff {c : Claim} {result : StageResult} {now : DateTime}
    {s : Store} (hi : Inv s) (h : CompletedDelivered s) :
    CompletedDelivered (apply env s (.finish c result now)) ↔ ClosesDelivered env s (.finish c result now) := by
  cases hg : finishGuard c result now s with
  | error e =>
    have hs : apply env s (.finish c result now) = s := by simp [apply, finish, hg, Except.toOption]
    rw [hs]
    simp [ClosesDelivered, hg, h]
  | ok job =>
    obtain ⟨row, hh, -, -⟩ := finishGuard_ok hg
    have hs : apply env s (.finish c result now) = finishApply env c result now s := by
      simp [apply, finish_of_guard hg, Except.toOption]
    have ha : Advance s (finishApply env c result now s) :=
      finish_advance hi (finish_of_guard hg)
    rw [hs]
    rcases finish_runs env result now hh with
      ⟨hr, hn⟩ | ⟨ho, hne, hr⟩
    · -- the run stays as it is
      refine iff_of_true (h.of_runs_eq ha hr) fun _ ho _ hne _ => absurd ⟨ho, hne⟩ hn
    · have hd := finish_delivered env now hh ho
      constructor
      · intro hc _ _ hst _ haut
        obtain ⟨r', hr', hid, hm, hstat⟩ := haut.mem_closeRun now
        have := hc r' (hr ▸ hr') hm hstat
        rw [hid] at this
        exact (hd.mp this).resolve_right hst
      · intro hc
        refine h.close ha hr fun haut => hd.mpr ?_
        by_cases hst : c.jobKey.stage = "build_deploy"
        · exact .inr hst
        · exact .inl (hc ⟨job, hg⟩ ho hst hne haut)

theorem materialized_delivered (k : JobKey) (result : StageResult) {plan : Plan}
    {now : DateTime} {s : Store} (ha : Advance s (materialized env k result plan now s)) :
    Delivered (materialized env k result plan now s) k.runId ↔ Delivered s k.runId ∨
        (k.stage = "build_deploy" ∧ settledStatus k result plan s = .succeeded) := by
  rw [← settledRow_status env k result plan now s]
  constructor
  · rintro ⟨j, hj, hr, hst, hs⟩
    have hget := Table.get?_of_mem hj
    rw [materialized_get?] at hget
    split at hget
    · rename_i hk
      rw [Option.some.injEq] at hget
      exact .inr ⟨hk ▸ hst, hget ▸ hs⟩
    · cases hold : s.jobs.get? j.key with
      | some j₀ =>
        rw [hold, Option.some_or, Option.some.injEq] at hget
        subst hget
        exact .inl ⟨j₀, Table.mem_of_get? hold, hr, hst, hs⟩
      | none =>
        rw [hold, Option.none_or] at hget
        split at hget
        · rw [Option.some.injEq] at hget
          rw [← hget] at hs
          cases hs
        · cases hget
  · rintro (h | ⟨hst, hs⟩)
    · exact h.advance ha
    · refine ⟨settledRow env k result plan now s, Table.mem_of_get? (k := k) ?_, ?_, ?_, hs⟩
      · rw [materialized_get?, if_pos rfl]
      · rw [settledRow_key]
      · rw [settledRow_key]
        exact hst

theorem materialize_completed_iff {k : JobKey} {result : StageResult} {now : DateTime}
    {s : Store} (hi : Inv s) (h : CompletedDelivered s) :
    CompletedDelivered (apply env s (.materializeResult k result now)) ↔
      ClosesDelivered env s (.materializeResult k result now) := by
  have same : committed s (materializeResult env k result now s) = s →
      (¬ (planOf env k result now s).isValid = true ∨ ensureRun k now s = none) →
      (CompletedDelivered (apply env s (.materializeResult k result now)) ↔
        ClosesDelivered env s (.materializeResult k result now)) := by
    intro hs hn
    refine iff_of_true (by rw [apply, hs]; exact h) fun hv s₀ hs₀ => ?_
    rcases hn with hn | hn
    · exact absurd hv hn
    · rw [hn] at hs₀
      cases hs₀
  cases hm : materializeResult env k result now s with
  | error e =>
    refine same (by rw [hm]; rfl) ?_
    by_contra hn
    rw [not_or, not_not] at hn
    obtain ⟨s₀, hs₀⟩ := Option.ne_none_iff_exists'.mp hn.2
    rw [materializeResult_of_valid hn.1 hs₀] at hm
    cases hm
  | ok r =>
    obtain ⟨keys, s'⟩ := r
    obtain ⟨s₀, hv, hs₀, -, hr⟩ := materializeResult_ok hm
    obtain ⟨hj, hc, -⟩ := ensureRun_jobs hs₀
    have hs : apply env s (.materializeResult k result now) = s' := by rw [apply, hm]; rfl
    rw [hs, hr]
    have ha₀ : Advance s s₀ := (Advance.refl hi).of_eq hj hc
    have hi₀ := hi.advance ha₀
    have h₀ : CompletedDelivered s₀ := by
      refine h.of_runs ha₀ fun r' hr' hm hst => ?_
      rcases ensureRun_runs hs₀ with e | ⟨-, e⟩
      · exact ⟨r', e ▸ hr', rfl, hm, hst⟩
      · rcases (Table.mem_of_insert? e).mp hr' with hr' | rfl
        · exact ⟨r', hr', rfl, hm, hst⟩
        · cases hst
    obtain ⟨hset, hopen, hfail⟩ := closing_congr hj k result (planOf env k result now s)
    have hp : ∀ key ∈ (planOf env k result now s).successors, key.runId = k.runId :=
      fun key hk => planOf_runId hk
    have ha : Advance s₀ (materialized env k result (planOf env k result now s) now s₀) :=
      materialized_advance hi₀
    have ha' : Advance s₀ (closeIfDone k.runId now
        (materialized env k result (planOf env k result now s) now s₀)) :=
      ha.of_eq (closeIfDone_tables _ _ _).1 (closeIfDone_tables _ _ _).2
    have hd := materialized_delivered k result ha
    rw [hset] at hd
    have hd' : Delivered (closeIfDone k.runId now
        (materialized env k result (planOf env k result now s) now s₀)) k.runId ↔
        Delivered s k.runId ∨ (k.stage = "build_deploy" ∧
          settledStatus k result (planOf env k result now s) s = .succeeded) := by
      unfold Delivered at hd ⊢
      rw [closeIfDone_jobs, hd, hj]
    rcases closeIfDone_runs env result now s₀ hp with
      ⟨ho, e⟩ | ⟨-, hf, e⟩ | ⟨ho, hf, e⟩
    · refine iff_of_true (h₀.of_runs_eq ha' e) fun _ s₁ hs₁ hn => absurd (hopen.mp ho) hn
    · refine iff_of_true (h₀.close_other ha' e (by decide)) ?_
      exact fun _ s₁ hs₁ _ hn => absurd (hfail.mp hf) hn
    · constructor
      · intro hcd _ s₁ hs₁ _ _ haut
        rw [hs₀, Option.some.injEq] at hs₁
        subst hs₁
        obtain ⟨r', hr', hid, hm, hstat⟩ := haut.mem_closeRun now
        have := hcd r' (e ▸ hr') hm hstat
        rw [hid] at this
        exact hd'.mp this
      · intro hcond
        refine h₀.close ha' e fun haut => hd'.mpr ?_
        exact hcond hv s₀ hs₀ (fun hn => ho (hopen.mpr hn)) (fun hn => hf (hfail.mpr hn)) haut

theorem completedDelivered_step {s : Store} (hi : Inv s) (h : CompletedDelivered s)
    (op : Op) : CompletedDelivered (apply env s op) ↔ ClosesDelivered env s op := by
  have ha := apply_advance env hi op
  cases hw : op.writesRuns with
  | false =>
    have hc : ClosesDelivered env s op := by cases op <;> trivial
    exact iff_of_true (h.of_runs_eq ha (apply_inPlace env s hw).runs) hc
  | true =>
    cases op with
    | finish c result now => exact finish_completed_iff hi h
    | materializeResult k result now => exact materialize_completed_iff hi h
    | accept command ids now =>
      refine iff_of_true (h.of_runs ha fun r' hr' hm hst => ?_) trivial
      cases hs : accept command ids now s with
      | error e =>
        rw [apply, hs] at hr'
        exact ⟨r', hr', rfl, hm, hst⟩
      | ok r =>
        obtain ⟨receipt, s'⟩ := r
        rw [apply, hs] at hr'
        rcases accept_ok hs with e | ⟨ha, e, -⟩ | ⟨hd, e, -⟩
        · exact ⟨r', e ▸ hr', rfl, hm, hst⟩
        · rcases (Table.mem_of_insert? (insertRun_eq_some e)).mp hr' with hr' | rfl
          · exact ⟨r', hr', rfl, hm, hst⟩
          · simp [intakeRun, ha] at hst
        · rcases (Table.mem_of_insert? (insertRun_eq_some e)).mp hr' with hr' | rfl
          · exact ⟨r', hr', rfl, hm, hst⟩
          · simp [intakeRun, hd] at hm
    | resumeJob key now =>
      refine iff_of_true (h.of_runs ha fun r' hr' hm hst => ?_) trivial
      rcases resumeJob_runs key now s with e | ⟨b, e⟩
      · exact ⟨r', e ▸ hr', rfl, hm, hst⟩
      · obtain ⟨r, hr, hid, hmode, hstat⟩ := mem_reopenRun (e ▸ hr')
        rcases hstat with hstat | ⟨-, -, hstat⟩
        · exact ⟨r, hr, hid.symm, hmode ▸ hm, hstat ▸ hst⟩
        · rw [hstat] at hst
          cases hst
    | cancelRun runId reason actor now =>
      refine iff_of_true ?_ trivial
      rcases cancelRun_runs runId reason actor now s with ⟨-, e⟩ | ⟨-, e⟩
      · rw [apply, e]
        exact h
      · exact h.close_other ha e (by decide)
    | _ => cases hw

/-- In a run of the store, completed runs are delivered after every operation exactly when every
operation meets the condition. -/
theorem completed_delivered_iff (env : Env) (ops : List Op) :
    (∀ m ∈ Runs.moves (apply env) .empty ops, CompletedDelivered m.post) ↔
      ∀ m ∈ Runs.moves (apply env) .empty ops, ClosesDelivered env m.pre m.act := by
  refine Runs.moves_forall_iff (I := fun s => Inv s ∧ CompletedDelivered s) ?_ ?_ ?_ ops
  · exact fun s op h => completedDelivered_step h.1 h.2 op
  · exact fun s op h hc => ⟨inv_step env s op h.1, (completedDelivered_step h.1 h.2 op).mpr hc⟩
  · exact ⟨.empty, fun r hr => absurd hr Table.not_mem_empty⟩

/-- The success of the first stage already completes the run: a worker claims the grill job of a
new run and finishes it. -/
theorem grill_success_completes :
    (claim .sample "worker-1" [] (utc 1) 0 ⟨"l1", "v1"⟩
        (apply .sample .empty .sampleAccept)).toOption.map Prod.fst =
      some (some (.sample (.sample "grill" 0) 1 "l1" "v1" 1)) ∧
    ¬ CompletedDelivered (Runs.run (apply .sample) .empty
        [.sampleAccept, .claim "worker-1" [] (utc 1) 0 ⟨"l1", "v1"⟩,
          .finish (.sample (.sample "grill" 0) 1 "l1" "v1" 1) .sampleSuccess (utc 2)]) := by
  decide +kernel

end Sqlite
end Control
end DarkFactory
