import DarkFactory.Harness.CandidateRefs

/-!
# DarkFactory.Harness.JobResults

Where the result of a job comes from, and what a job keeps of its submission.

* `Carries` — a `_set_status` that has still to write the result of a job.
-/

namespace DarkFactory
namespace Harness
namespace RemoteWorker

/-- `job'` is `job` at a later time, with the flags of its submission. -/
structure SameFlags (job job' : HarnessJob) : Prop where
  jobId : job'.jobId = job.jobId
  quick : job'.quick = job.quick
  includeHoldout : job'.includeHoldout = job.includeHoldout

theorem sameFlags_refl (job : HarnessJob) : SameFlags job job := ⟨rfl, rfl, rfl⟩

theorem sameFlags_assign (w : Assignment) (job : HarnessJob) : SameFlags job (job.assign w) := by
  cases w with
  | field f => cases f <;> exact ⟨rfl, rfl, rfl⟩
  | status s => exact ⟨rfl, rfl, rfl⟩
  | cancelRequested => exact ⟨rfl, rfl, rfl⟩
  | interrupted => exact ⟨rfl, rfl, rfl⟩
  | stalledReason r => exact ⟨rfl, rfl, rfl⟩

variable {jobId : String} {job : HarnessJob} {s : JobManager} {allowed : JobStatus → Bool} {r : HarnessResult}
variable {t : Nat} {e : RequestEvent} {quick includeHoldout : Bool} {m : Metadata}

theorem sameFlags_of_assign {jobs : Jobs} {w : Assignment}
    (hj : job ∈ jobs) : ∃ job', job' ∈ jobs.assign jobId w ∧ SameFlags job job' := by
  refine ⟨_, Jobs.mem_assign.mpr ⟨job, hj, rfl⟩, ?_⟩
  split
  · exact sameFlags_assign w job
  · exact sameFlags_refl job

theorem sameFlags_of_mem (a : Act) (hj : job ∈ s.jobs) : ∃ job', job' ∈ (step s a).jobs ∧ SameFlags job job' := by
  cases step_jobs s a with
  | same heq => exact ⟨job, heq ▸ hj, sameFlags_refl job⟩
  | flags jobId w hflag heq => exact heq ▸ sameFlags_of_assign hj
  | writes jobId w hwrite heq => exact heq ▸ sameFlags_of_assign hj
  | registers m jobId hinsert =>
    exact ⟨job, (Table.mem_of_insert? hinsert).mpr (.inl hj), sameFlags_refl job⟩

def SettingStatus.carries {allowed : JobStatus → Bool} (p : SettingStatus allowed) (jobId : String)
    (r : HarnessResult) : Prop :=
  p.jobId = jobId ∧ Field.resultJson (some r) ∈ p.fields

def WorkerPc.carries (w : WorkerPc) (jobId : String) (r : HarnessResult) : Prop :=
  match w with
  | .skipping p | .closing p | .failing p => p.carries jobId r
  | .starting p => p.carries jobId r
  | _ => False

def Request.carries (q : Request) (jobId : String) (r : HarnessResult) : Prop :=
  match q with
  | .cancelSetting p | .interruptSetting _ p _ => p.carries jobId r
  | _ => False

def JobManager.Carries (s : JobManager) (jobId : String) (r : HarnessResult) : Prop :=
  s.worker.carries jobId r ∨ ∃ t, (s.requests t).carries jobId r

theorem carries_of_setting {p p' : SettingStatus allowed} {jobs : Jobs} (h : (p.step jobs).2 = some p')
    (hc : p'.carries jobId r) :
    p.carries jobId r := by
  have hset := sets p jobs
  rw [h] at hset
  generalize (p.step jobs).1 = jobs' at hset
  cases hset with
  | passes hg => exact hc
  | sets f rest hg hf => exact ⟨hc.1, hf ▸ List.mem_cons_of_mem _ hc.2⟩

theorem carries_of_start (c : Call) {jobId : String} {r : HarnessResult} :
    ¬ ((s.start t c).requests t).carries jobId r := by
  cases c with
  | submit m =>
    simp only [JobManager.start]
    split
    · rw [setRequest_self]
      exact id
    · split <;> rw [setRequest_self] <;> exact id
  | cancel j =>
    simp only [JobManager.start]
    split <;> rw [setRequest_self] <;> exact id
  | markInterrupted reason =>
    rw [JobManager.start, setRequest_self]
    exact id

theorem carries_of_advance (h : ((s.advance t e).requests t).carries jobId r) : (s.requests t).carries jobId r := by
  unfold JobManager.advance at h
  cases hr : s.requests t with
  | absent =>
    rw [hr] at h
    simp only [hr] at h
    exact h
  | returned response =>
    rw [hr] at h
    simp only [hr] at h
    exact h
  | fetching m =>
    simp only [hr] at h
    split at h <;> rw [setRequest_self] at h <;> exact h
  | registering m =>
    simp only [hr] at h
    split at h
    · rw [setRequest_self] at h
      exact h
    · split at h
      · rw [setRequest_self] at h
        exact h
      · rw [hr] at h
        exact h
  | queueing j =>
    simp only [hr, setRequest_self] at h
    exact h
  | cancelling j =>
    simp only [hr] at h
    split at h <;> rw [setRequest_self] at h
    · exact absurd h.2 List.not_mem_nil
    · exact h
  | cancelSetting p =>
    simp only [hr, setRequest_self] at h
    split at h
    · rename_i p' hp
      exact carries_of_setting hp h
    · exact False.elim h
  | interrupting message active =>
    simp only [hr] at h
    cases active with
    | nil =>
      rw [setRequest_self] at h
      exact h
    | cons j rest =>
      rw [setRequest_self] at h
      simp [Request.carries, SettingStatus.carries] at h
  | interruptSetting message p rest =>
    simp only [hr, setRequest_self] at h
    split at h
    · rename_i p' hp
      exact carries_of_setting hp h
    · exact False.elim h

theorem carries_of_settingStep {p : SettingStatus allowed}
    {on : SettingStatus allowed → WorkerPc} {returned : WorkerPc}
    (hon : ∀ p', (on p').carries jobId r → p'.carries jobId r) (hreturned : ¬ returned.carries jobId r)
    (h : (s.settingStep p on returned).worker.carries jobId r) : p.carries jobId r := by
  simp only [JobManager.settingStep] at h
  cases hp : (p.step s.jobs).2 with
  | none =>
    rw [hp] at h
    exact absurd h hreturned
  | some p' =>
    rw [hp] at h
    exact carries_of_setting hp (hon p' h)

theorem carries_of_tryStep {phase : Phase} {e : WorkerEvent} (hw : s.worker = .inTry phase job.jobId)
    (h : (s.tryStep phase job e).worker.carries jobId r) :
    phase = .judging ∧ job.jobId = jobId ∧ e.result = some r := by
  have hstays : ¬ s.worker.carries jobId r := by
    rw [hw]
    exact id
  cases phase with
  | adding =>
    simp only [JobManager.tryStep] at h
    split at h
    · split at h
      · exact False.elim h
      · exact absurd h hstays
    · simp [WorkerPc.carries, SettingStatus.carries, failure] at h
  | waiting => exact False.elim h
  | exited =>
    simp only [JobManager.tryStep] at h
    split at h <;> exact False.elim h
  | checkingLost =>
    simp only [JobManager.tryStep] at h
    split at h <;> exact False.elim h
  | markingLost reason => simp [JobManager.tryStep, WorkerPc.carries, SettingStatus.carries, failure] at h
  | checkingStall =>
    simp only [JobManager.tryStep] at h
    split at h
    · simp [WorkerPc.carries, SettingStatus.carries, failure] at h
    · exact False.elim h
  | checkingCancel =>
    simp only [JobManager.tryStep] at h
    split at h
    · simp [WorkerPc.carries, SettingStatus.carries, cancellation] at h
    · exact False.elim h
  | judging =>
    simp only [JobManager.tryStep, WorkerPc.carries, SettingStatus.carries, JobManager.verdict] at h
    split at h
    · simp at h
    · simp only [List.mem_cons, Field.resultJson.injEq, List.not_mem_nil, or_false, reduceCtorEq, false_or] at h
      exact ⟨rfl, h.1, h.2.symm⟩

theorem carries_of_work {e : WorkerEvent} (h : (s.work e).worker.carries jobId r) :
    s.worker.carries jobId r ∨
      (s.worker = .inTry .judging jobId ∧ (∃ job, s.jobs.get? jobId = some job) ∧ e.result = some r) := by
  unfold JobManager.work at h
  cases hw : s.worker with
  | idle =>
    simp only [hw] at h
    split at h
    · rw [hw] at h
      exact False.elim h
    · exact False.elim h
  | picked j closed =>
    simp only [hw] at h
    split at h
    · exact False.elim h
    · simp only at h
      split at h <;> simp [WorkerPc.carries, SettingStatus.carries, cancellation] at h
  | skipping p =>
    simp only [hw] at h
    exact .inl (carries_of_settingStep (fun _ => id) id h)
  | starting p =>
    simp only [hw] at h
    exact .inl (carries_of_settingStep (fun _ => id) id h)
  | inTry phase j =>
    simp only [hw] at h
    split at h
    · rw [hw] at h
      exact False.elim h
    · rename_i job hjob
      have hid := Table.key_of_get? hjob
      split at h
      · simp [WorkerPc.carries, SettingStatus.carries, failure] at h
      · obtain ⟨rfl, hjobId, hresult⟩ := carries_of_tryStep (hw.trans (by rw [hid])) h
        subst hjobId
        exact .inr ⟨by rw [hid], ⟨job, hid ▸ hjob⟩, hresult⟩
  | closing p =>
    simp only [hw] at h
    exact .inl (carries_of_settingStep (fun _ => id) id h)
  | cleaning j =>
    simp only [hw] at h
    split at h
    · simp [WorkerPc.carries, SettingStatus.carries, failure] at h
    · exact False.elim h
  | failing p =>
    simp only [hw] at h
    exact .inl (carries_of_settingStep (fun _ => id) id h)

theorem carries_of_step {a : Act} (h : (step s a).Carries jobId r) :
    s.Carries jobId r ∨ ∃ e, a = .work e ∧ s.worker = .inTry .judging jobId ∧
      (∃ job, s.jobs.get? jobId = some job) ∧ e.result = some r := by
  cases a with
  | poll j => exact .inl h
  | stall reason =>
    simp only [step] at h
    split at h <;> exact .inl h
  | start t c =>
    simp only [step] at h
    split at h
    · obtain ⟨hworker, -, hne⟩ := start_frame s t c
      rcases h with h | ⟨t', h⟩
      · exact .inl (.inl (hworker ▸ h))
      · by_cases heq : t' = t
        · subst heq
          exact absurd h (carries_of_start c)
        · exact .inl (.inr ⟨t', hne t' heq ▸ h⟩)
    · exact .inl h
  | advance t e =>
    obtain ⟨hworker, -, hne⟩ := advance_frame s t e
    rcases h with h | ⟨t', h⟩
    · exact .inl (.inl (hworker ▸ h))
    · by_cases heq : t' = t
      · subst heq
        exact .inl (.inr ⟨t', carries_of_advance h⟩)
      · exact .inl (.inr ⟨t', hne t' heq ▸ h⟩)
  | work e =>
    rcases h with h | ⟨t, h⟩
    · rcases carries_of_work h with h | ⟨hw, hjob, hresult⟩
      · exact .inl (.inl h)
      · exact .inr ⟨e, rfl, hw, hjob, hresult⟩
    · exact .inl (.inr ⟨t, (work_frame s e).1 ▸ h⟩)

/-- The next result that a `_set_status` writes is one that it carries. -/
theorem carries_of_pending {p : SettingStatus allowed} (h : p.pending = some (jobId, .field (.resultJson (some r)))) :
    p.carries jobId r := by
  unfold SettingStatus.pending at h
  split at h
  · simp only [Option.some.injEq, Prod.mk.injEq] at h
    obtain ⟨hid, hnext⟩ := h
    unfold SettingStatus.next at hnext
    split at hnext
    · cases hnext
    · rename_i f rest hf
      cases hnext
      exact ⟨hid, hf ▸ List.mem_cons_self⟩
  · cases h

theorem carries_of_writing {a : Act}
    (h : writing s a = some (jobId, .field (.resultJson (some r)))) : s.Carries jobId r := by
  cases a with
  | advance t e =>
    simp only [writing] at h
    refine .inr ⟨t, ?_⟩
    cases hr : s.requests t with
    | cancelSetting p =>
      rw [hr] at h
      exact carries_of_pending h
    | interruptSetting message p rest =>
      rw [hr] at h
      exact carries_of_pending h
    | _ =>
      rw [hr] at h
      cases h
  | work e =>
    simp only [writing] at h
    refine .inl ?_
    cases hw : s.worker with
    | skipping p =>
      rw [hw] at h
      exact carries_of_pending h
    | closing p =>
      rw [hw] at h
      exact carries_of_pending h
    | failing p =>
      rw [hw] at h
      exact carries_of_pending h
    | starting p =>
      rw [hw] at h
      exact carries_of_pending h
    | _ =>
      rw [hw] at h
      cases h
  | _ => cases h

theorem result_of_assign {w : Assignment} (h : (job.assign w).resultJson = some r) :
    job.resultJson = some r ∨ w = .field (.resultJson (some r)) := by
  cases w with
  | field f =>
    cases f with
    | resultJson r' =>
      have hr : r' = some r := h
      exact .inr (by rw [hr])
    | returncode n => exact .inl h
    | error text => exact .inl h
    | errorCode code => exact .inl h
  | status st => exact .inl h
  | cancelRequested => exact .inl h
  | interrupted => exact .inl h
  | stalledReason reason => exact .inl h

theorem result_of_step {a : Act} {job' : HarnessJob} (hj : job' ∈ (step s a).jobs) (h : job'.resultJson = some r) :
    ∃ job, job ∈ s.jobs ∧ SameFlags job job' ∧ (job.resultJson = some r ∨ s.Carries job.jobId r) := by
  cases step_jobs s a with
  | same heq => exact ⟨job', heq ▸ hj, sameFlags_refl job', .inl h⟩
  | flags jobId w hflag heq =>
    rw [heq] at hj
    obtain ⟨job, hjob, rfl⟩ := Jobs.mem_assign.mp hj
    refine ⟨job, hjob, ?_⟩
    split at h
    · rename_i hid
      rw [if_pos hid]
      have hsame : (job.assign w).resultJson = job.resultJson :=
        congrArg (fun o => o.2.2) (assign_outcome_of_isFlag hflag job)
      exact ⟨sameFlags_assign w job, .inl (hsame ▸ h)⟩
    · rename_i hid
      rw [if_neg hid]
      exact ⟨sameFlags_refl job, .inl h⟩
  | writes jobId w hwrite heq =>
    rw [heq] at hj
    obtain ⟨job, hjob, rfl⟩ := Jobs.mem_assign.mp hj
    refine ⟨job, hjob, ?_⟩
    split at h
    · rename_i hid
      rw [if_pos hid]
      refine ⟨sameFlags_assign w job, (result_of_assign h).imp id fun hw => ?_⟩
      subst hw
      exact carries_of_writing (hid ▸ hwrite)
    · rename_i hid
      rw [if_neg hid]
      exact ⟨sameFlags_refl job, .inl h⟩
  | registers m jobId hinsert =>
    rcases (Table.mem_of_insert? hinsert).mp hj with hj | rfl
    · exact ⟨job', hj, sameFlags_refl job', .inl h⟩
    · cases h

def JobManager.HasFlags (s : JobManager) (jobId : String) (quick includeHoldout : Bool) : Prop :=
  ∃ job, job ∈ s.jobs ∧ job.jobId = jobId ∧ job.quick = quick ∧ job.includeHoldout = includeHoldout

theorem hasFlags_step (a : Act)
    (h : s.HasFlags jobId quick includeHoldout) : (step s a).HasFlags jobId quick includeHoldout := by
  obtain ⟨job, hj, hid, hquick, hholdout⟩ := h
  obtain ⟨job', hj', hsame⟩ := sameFlags_of_mem a hj
  exact ⟨job', hj', hsame.jobId.trans hid, hsame.quick.trans hquick, hsame.includeHoldout.trans hholdout⟩

/-- A `submit` with these flags that can only answer with a job of these flags. -/
def Answers (s : JobManager) (quick includeHoldout : Bool) : Request → Prop
  | .fetching m | .registering m => m.quick = quick ∧ m.includeHoldout = includeHoldout
  | .queueing jobId | .returned (.submitted jobId _) => s.HasFlags jobId quick includeHoldout
  | .returned (.refused _) => True
  | _ => False

/-- The live job that is returned instead of a new one has the flags of the metadata. -/
def Matches (s : JobManager) (m : Metadata) : Prop :=
  ∀ job, liveJobForKey s.jobs m.clientDispatchKey = some job →
    job.quick = m.quick ∧ job.includeHoldout = m.includeHoldout

theorem hasFlags_of_live (h : Matches s m) (hlive : liveJobForKey s.jobs m.clientDispatchKey = some job) :
    s.HasFlags job.jobId m.quick m.includeHoldout :=
  ⟨job, liveJobForKey_mem hlive, rfl, (h job hlive).1, (h job hlive).2⟩

/-- The request `n` looks for a live job before it goes on. -/
structure Deduplicates (s s' : JobManager) (n : Nat) (m : Metadata) : Prop where
  live : ∀ job, liveJobForKey s.jobs m.clientDispatchKey = some job →
    s' = s.setRequest n (.returned (.submitted job.jobId true))
  none : liveJobForKey s.jobs m.clientDispatchKey = none →
    ∀ jobId, s'.requests n ≠ .returned (.submitted jobId true)

theorem deduplicates_start {n : Nat} (h : isSha m.normalized.candidateSha = true) :
    Deduplicates s (s.start n (.submit m)) n m.normalized := by
  simp only [JobManager.start, h, Bool.not_true, Bool.false_eq_true, if_false]
  constructor
  · intro job hlive
    rw [hlive]
  · intro hlive jobId
    rw [hlive]
    simp only
    rw [setRequest_self]
    exact Request.noConfusion

theorem deduplicates_advance {n : Nat} (h : s.requests n = .registering m) : Deduplicates s (s.advance n e) n m := by
  unfold JobManager.advance
  rw [h]
  simp only
  constructor
  · intro job hlive
    rw [hlive]
  · intro hlive jobId
    rw [hlive]
    simp only
    split
    · rw [setRequest_self]
      exact Request.noConfusion
    · rw [h]
      exact Request.noConfusion

theorem normalized_quick (m : Metadata) : m.normalized.quick = m.quick := by simp only [Metadata.normalized]

theorem normalized_includeHoldout (m : Metadata) : m.normalized.includeHoldout = m.includeHoldout := by
  simp only [Metadata.normalized]

theorem answers_start {q : Request} (hq : (s.start t (.submit m)).requests t = q)
    (h : isSha m.normalized.candidateSha = true → Matches s m.normalized) :
    Answers (s.start t (.submit m)) m.quick m.includeHoldout q := by
  subst hq
  cases hsha : isSha m.normalized.candidateSha with
  | false =>
    simp only [JobManager.start, hsha, Bool.not_false, if_true]
    rw [setRequest_self]
    trivial
  | true =>
    simp only [JobManager.start, hsha, Bool.not_true, Bool.false_eq_true, if_false]
    cases hlive : liveJobForKey s.jobs m.normalized.clientDispatchKey with
    | some existing =>
      simp only
      rw [setRequest_self]
      have hflags := hasFlags_of_live (m := m.normalized) (h hsha) hlive
      rw [normalized_quick, normalized_includeHoldout] at hflags
      exact hflags
    | none =>
      simp only
      rw [setRequest_self]
      exact ⟨normalized_quick m, normalized_includeHoldout m⟩

theorem answers_advance (h : Answers s quick includeHoldout (s.requests t))
    (hmatches : ∀ m, s.requests t = .registering m → Matches s m) :
    Answers (s.advance t e) quick includeHoldout ((s.advance t e).requests t) := by
  unfold JobManager.advance
  cases hr : s.requests t with
  | returned response =>
    rw [hr] at h
    simp only
    rw [hr]
    exact h
  | fetching m =>
    rw [hr] at h
    simp only
    split
    · rw [setRequest_self]
      exact h
    · rw [setRequest_self]
      trivial
  | registering m =>
    rw [hr] at h
    simp only
    split
    · rename_i existing hlive
      rw [setRequest_self, ← h.1, ← h.2]
      exact hasFlags_of_live (hmatches m hr) hlive
    · split
      · rename_i jobs hinsert
        rw [setRequest_self]
        exact ⟨m.job e.uuid, (Table.mem_of_insert? hinsert).mpr (.inr rfl), rfl, h.1, h.2⟩
      · rw [hr]
        exact h
  | queueing jobId =>
    rw [hr] at h
    simp only
    rw [setRequest_self]
    exact h
  | _ =>
    rw [hr] at h
    exact False.elim h

theorem answers_of_same {q : Request} (a : Act)
    (h : Answers s quick includeHoldout q) : Answers (step s a) quick includeHoldout q := by
  unfold Answers at h ⊢
  split at h
  · exact h
  · exact h
  · exact hasFlags_step a h
  · exact hasFlags_step a h
  · trivial
  · exact False.elim h

theorem answers_step (a : Act) (h : Answers s quick includeHoldout (s.requests t))
    (hmatches : ∀ e m, a = .advance t e → s.requests t = .registering m → Matches s m) :
    Answers (step s a) quick includeHoldout ((step s a).requests t) := by
  have hsame : (step s a).requests t = s.requests t →
      Answers (step s a) quick includeHoldout ((step s a).requests t) := by
    intro heq
    rw [heq]
    exact answers_of_same a h
  cases a with
  | poll jobId => exact hsame rfl
  | stall reason =>
    refine hsame ?_
    simp only [step]
    split <;> rfl
  | start t' c =>
    refine hsame ?_
    simp only [step]
    split
    · rename_i habsent
      refine (start_frame s t' c).2.2 t fun heq => ?_
      subst heq
      rw [habsent] at h
      exact h
    · rfl
  | advance t' e =>
    by_cases heq : t = t'
    · subst heq
      exact answers_advance h fun m hr => hmatches e m rfl hr
    · exact hsame ((advance_frame s t' e).2.2 t heq)
  | work e => exact hsame (congrFun (work_frame s e).1 t)

end RemoteWorker
end Harness
end DarkFactory
