import DarkFactory.Harness.RemoteWorker
import DarkFactory.Lib.Runs

/-!
# DarkFactory.Harness.JobStates

The state machine of a worker's jobs, over every interleaving of its threads.

* `step_jobs` — what one step of the manager does to its jobs.
* `Inv` — which thread is responsible for a running and for an interrupted job.
* `job_states_iff` — closed jobs stay closed, none of them is run and one job runs at a time, in exactly
  the runs whose steps all meet `Undisturbed`.
-/

namespace DarkFactory
namespace Harness
namespace RemoteWorker

variable {jobId : String} {w : Assignment} {job' job : HarnessJob} {allowed : JobStatus → Bool} {s s' : JobManager}
variable {a : Act}

theorem Jobs.mem_assign {jobs : Jobs} :
    job' ∈ jobs.assign jobId w ↔ ∃ job, job ∈ jobs ∧ (if job.jobId = jobId then job.assign w else job) = job' := by
  simp only [Jobs.assign, Table.mem_update, decide_eq_true_eq]

def HarnessJob.outcome (job : HarnessJob) : JobStatus × Option String × Option HarnessResult :=
  (job.status, job.errorCode, job.resultJson)

def Assignment.IsFlag : Assignment → Prop
  | .status _ | .field _ => False
  | .cancelRequested | .interrupted | .stalledReason _ => True

theorem assign_outcome_of_isFlag (h : w.IsFlag) (job : HarnessJob) : (job.assign w).outcome = job.outcome := by
  cases w with
  | status s => cases h
  | field f => cases h
  | cancelRequested => rfl
  | interrupted => rfl
  | stalledReason r => rfl

theorem assign_field_status (f : Field) (job : HarnessJob) : (job.assign (.field f)).status = job.status := by
  cases f <;> rfl

theorem assign_field_interrupted (f : Field) (job : HarnessJob) :
    (job.assign (.field f)).interrupted = job.interrupted := by
  cases f <;> rfl

theorem isTerminal_of_outcome (h : job'.outcome = job.outcome) : job'.isTerminal = job.isTerminal := by
  have hs : job'.status = job.status := congrArg Prod.fst h
  rw [HarnessJob.isTerminal, hs, HarnessJob.isTerminal]

theorem not_terminal_of_running (h : job.status = .running) : job.isTerminal = false := by
  rw [HarnessJob.isTerminal, h]
  rfl

/-- One step of a `_set_status` on `jobs`: the jobs after it, and what is left of the call. -/
inductive Sets {allowed : JobStatus → Bool} (p : SettingStatus allowed) (jobs : Jobs) :
    Jobs → Option (SettingStatus allowed) → Prop where
  /-- The guard: the job was interrupted and is closed. -/
  | returns (job : HarnessJob) : p.guarded = false → jobs.get? p.jobId = some job →
      job.interrupted = true → job.isTerminal = true → Sets p jobs jobs none
  | passes : p.guarded = false → Sets p jobs jobs (some { p with guarded := true })
  | sets (f : Field) (rest : List Field) : p.guarded = true → p.fields = f :: rest →
      Sets p jobs (jobs.assign p.jobId (.field f)) (some { p with fields := rest })
  | closes : p.guarded = true → p.fields = [] → Sets p jobs (jobs.assign p.jobId (.status p.status)) none

theorem sets (p : SettingStatus allowed) (jobs : Jobs) : Sets p jobs (p.step jobs).1 (p.step jobs).2 := by
  obtain ⟨jobId, fields, status, isAllowed, guarded⟩ := p
  cases guarded with
  | false =>
    simp only [SettingStatus.step, Bool.false_eq_true, if_false]
    cases hjob : jobs.get? jobId with
    | none => exact .passes rfl
    | some job =>
      simp only [Option.any_some, Bool.and_eq_true]
      split
      · rename_i h
        exact .returns job rfl hjob h.1 h.2
      · exact .passes rfl
  | true =>
    cases fields with
    | nil => exact .closes rfl rfl
    | cons f rest => exact .sets f rest rfl rfl

theorem Sets.jobId_eq {p p' : SettingStatus allowed} {jobs jobs' : Jobs}
    (h : Sets p jobs jobs' (some p')) : p'.jobId = p.jobId := by
  cases h with
  | passes hg => rfl
  | sets f rest hg hf => rfl

/-- A `_set_status` that closes a job leaves the other jobs as they are, and its own closed once it
returns. -/
theorem Sets.spec {p : Closing} {jobs jobs' : Jobs} {r : Option Closing} (h : Sets p jobs jobs' r)
    {job' : HarnessJob} (hj : job' ∈ jobs') :
    ∃ job, job ∈ jobs ∧ job.jobId = job'.jobId ∧ job'.interrupted = job.interrupted ∧
      (job'.status = job.status ∨ job'.isTerminal = true) ∧
      (r = none → job'.jobId = p.jobId → job'.isTerminal = true) := by
  cases h with
  | returns job hg hget hi ht =>
    refine ⟨job', hj, rfl, rfl, .inl rfl, fun _ hid => ?_⟩
    rw [Table.eq_of_key hj (Table.mem_of_get? hget) (hid.trans (Table.key_of_get? hget).symm)]
    exact ht
  | passes hg => exact ⟨job', hj, rfl, rfl, .inl rfl, fun h => by cases h⟩
  | sets f rest hg hf =>
    obtain ⟨job, hjob, rfl⟩ := Jobs.mem_assign.mp hj
    refine ⟨job, hjob, ?_⟩
    split
    · exact ⟨(HarnessJob.assign_jobId _ _).symm, assign_field_interrupted f job,
        .inl (assign_field_status f job), fun h => by cases h⟩
    · exact ⟨rfl, rfl, .inl rfl, fun h => by cases h⟩
  | closes hg hf =>
    obtain ⟨job, hjob, rfl⟩ := Jobs.mem_assign.mp hj
    refine ⟨job, hjob, ?_⟩
    split
    · exact ⟨rfl, rfl, .inr p.isAllowed, fun _ _ => p.isAllowed⟩
    · rename_i hne
      exact ⟨rfl, rfl, .inl rfl, fun _ hid => absurd hid hne⟩

/-- The next assignment of a `_set_status` that is past its guard. -/
def SettingStatus.pending {allowed : JobStatus → Bool} (p : SettingStatus allowed) : Option (String × Assignment) :=
  if p.guarded then some (p.jobId, p.next) else none

/-- The job and the assignment of a `_set_status` past its guard that a step carries on with. -/
def writing (s : JobManager) : Act → Option (String × Assignment)
  | .advance t _ =>
    match s.requests t with
    | .cancelSetting p | .interruptSetting _ p _ => p.pending
    | _ => none
  | .work _ =>
    match s.worker with
    | .skipping p | .closing p | .failing p => p.pending
    | .starting p => p.pending
    | _ => none
  | _ => none

inductive JobsStep (s : JobManager) (a : Act) (jobs : Jobs) : Prop where
  | same : jobs = s.jobs → JobsStep s a jobs
  | flags (jobId : String) (w : Assignment) : w.IsFlag → jobs = s.jobs.assign jobId w → JobsStep s a jobs
  | writes (jobId : String) (w : Assignment) : writing s a = some (jobId, w) →
      jobs = s.jobs.assign jobId w → JobsStep s a jobs
  | registers (m : Metadata) (jobId : String) : s.jobs.insert? (m.job jobId) = some jobs → JobsStep s a jobs

theorem jobsStep_of_setting
    {p : SettingStatus allowed} (h : writing s a = p.pending) : JobsStep s a (p.step s.jobs).1 := by
  unfold SettingStatus.step
  unfold SettingStatus.pending at h
  cases hg : p.guarded with
  | false =>
    simp only [Bool.false_eq_true, if_false]
    split <;> exact .same rfl
  | true =>
    rw [hg] at h
    exact .writes p.jobId p.next h rfl

theorem step_jobs (s : JobManager) (a : Act) : JobsStep s a (step s a).jobs := by
  cases a with
  | poll jobId => exact .same rfl
  | stall reason =>
    simp only [step]
    split
    · exact .same rfl
    · exact .flags _ (.stalledReason reason) trivial rfl
    · exact .same rfl
  | start t c =>
    simp only [step]
    split
    · cases c with
      | submit m =>
        simp only [JobManager.start]
        split
        · exact .same rfl
        · split <;> exact .same rfl
      | cancel jobId =>
        simp only [JobManager.start]
        split
        · exact .same rfl
        · exact .flags jobId .cancelRequested trivial rfl
      | markInterrupted reason => exact .same rfl
    · exact .same rfl
  | advance t e =>
    simp only [step, JobManager.advance]
    cases hr : s.requests t with
    | absent => exact .same rfl
    | returned r => exact .same rfl
    | fetching m =>
      simp only
      split <;> exact .same rfl
    | registering m =>
      simp only
      split
      · exact .same rfl
      · split
        · rename_i jobs hinsert
          exact .registers m e.uuid hinsert
        · exact .same rfl
    | queueing jobId => exact .same rfl
    | cancelling jobId =>
      simp only
      split <;> exact .same rfl
    | cancelSetting p => exact jobsStep_of_setting (by simp only [writing, hr])
    | interrupting message active =>
      cases active with
      | nil => exact .same rfl
      | cons jobId rest => exact .flags jobId .interrupted trivial rfl
    | interruptSetting message p rest => exact jobsStep_of_setting (by simp only [writing, hr])
  | work e =>
    simp only [step, JobManager.work]
    cases hw : s.worker with
    | idle =>
      simp only
      split <;> exact .same rfl
    | picked jobId closed =>
      simp only
      split <;> exact .same rfl
    | skipping p => exact jobsStep_of_setting (by simp only [writing, hw])
    | starting p => exact jobsStep_of_setting (by simp only [writing, hw])
    | inTry phase jobId =>
      simp only
      split
      · exact .same rfl
      · rename_i job hjob
        split
        · exact .same rfl
        · unfold JobManager.tryStep
          cases phase with
          | markingLost reason => exact .flags job.jobId .interrupted trivial rfl
          | adding =>
            simp only
            split
            · split <;> exact .same rfl
            · exact .same rfl
          | checkingLost =>
            simp only
            split <;> exact .same rfl
          | checkingStall =>
            simp only
            split <;> exact .same rfl
          | checkingCancel =>
            simp only
            split <;> exact .same rfl
          | waiting => exact .same rfl
          | exited => exact .same rfl
          | judging => exact .same rfl
    | closing p => exact jobsStep_of_setting (by simp only [writing, hw])
    | cleaning jobId => exact .same rfl
    | failing p => exact jobsStep_of_setting (by simp only [writing, hw])

def WorkerPc.runs (w : WorkerPc) (jobId : String) : Prop :=
  match w with
  | .inTry _ j => j = jobId
  | .closing p => p.jobId = jobId
  | _ => False

def WorkerPc.closes (w : WorkerPc) (jobId : String) : Prop :=
  match w with
  | .closing p => p.jobId = jobId
  | _ => False

/-- A `mark_interrupted` is about to close the job. -/
def Request.interrupts (r : Request) (jobId : String) : Prop :=
  match r with
  | .interruptSetting _ p _ => p.jobId = jobId
  | _ => False

def JobManager.Interrupting (s : JobManager) (jobId : String) : Prop :=
  ∃ t, (s.requests t).interrupts jobId

def OneRunning (s : JobManager) : Prop :=
  ∀ job, job ∈ s.jobs → ∀ job', job' ∈ s.jobs → job.status = .running → job'.status = .running →
    job.jobId = job'.jobId

structure Accounted (s : JobManager) (job : HarnessJob) : Prop where
  running : job.status = .running → s.worker.runs job.jobId ∨ s.Interrupting job.jobId
  interrupted : job.interrupted = true →
    job.isTerminal = true ∨ s.worker.closes job.jobId ∨ s.Interrupting job.jobId

structure Inv (s : JobManager) : Prop where
  accounted : ∀ job, job ∈ s.jobs → Accounted s job
  one : OneRunning s

theorem accounted_of_terminal (s : JobManager) (h : job.isTerminal = true) : Accounted s job where
  running hr := by
    rw [not_terminal_of_running hr] at h
    cases h
  interrupted _ := .inl h

theorem accounted_of_interrupting (h : s.Interrupting job.jobId) : Accounted s job where
  running _ := .inr h
  interrupted _ := .inr (.inr h)

theorem Accounted.mono (h : Accounted s job) (hid : job'.jobId = job.jobId) (hi : job'.interrupted = job.interrupted)
    (hs : job'.status = job.status ∨ job'.isTerminal = true)
    (hruns : s.worker.runs job.jobId → s'.worker.runs job.jobId)
    (hcloses : s.worker.closes job.jobId → s'.worker.closes job.jobId)
    (ht : s.Interrupting job.jobId → s'.Interrupting job.jobId) : Accounted s' job' := by
  rcases hs with hs | hterm
  · refine ⟨fun hr => ?_, fun hr => ?_⟩
    · rw [hid]
      exact (h.running (hs ▸ hr)).imp hruns ht
    · rw [hid, HarnessJob.isTerminal, hs]
      exact (h.interrupted (hi ▸ hr)).imp id (Or.imp hcloses ht)
  · exact accounted_of_terminal s' hterm

@[simp] theorem setRequest_jobs (s : JobManager) (t : Nat) (r : Request) : (s.setRequest t r).jobs = s.jobs := rfl

@[simp] theorem setRequest_worker (s : JobManager) (t : Nat) (r : Request) :
    (s.setRequest t r).worker = s.worker := rfl

theorem setRequest_self (s : JobManager) (t : Nat) (r : Request) : (s.setRequest t r).requests t = r :=
  if_pos rfl

theorem setRequest_ne (s : JobManager) {t t' : Nat} (r : Request) (h : t' ≠ t) :
    (s.setRequest t r).requests t' = s.requests t' := if_neg h

theorem interrupting_setRequest {t : Nat} {r : Request}
    (h : (s.requests t).interrupts jobId → r.interrupts jobId) (hi : s.Interrupting jobId) :
    (s.setRequest t r).Interrupting jobId := by
  obtain ⟨t', ht'⟩ := hi
  by_cases ht : t' = t
  · subst ht
    exact ⟨t', by rw [setRequest_self]; exact h ht'⟩
  · exact ⟨t', by rw [setRequest_ne s r ht]; exact ht'⟩

def Assignment.Agrees (w : Assignment) (job : HarnessJob) : Prop :=
  match w with
  | .status s => job.status = s
  | .field (.errorCode c) => job.errorCode = some c
  | .field (.resultJson r) => job.resultJson = r
  | _ => True

theorem agrees_iff (w : Assignment) (job : HarnessJob) : (job.assign w).outcome = job.outcome ↔ w.Agrees job := by
  cases w with
  | status s => simp [HarnessJob.assign, HarnessJob.outcome, Assignment.Agrees, eq_comm]
  | field f =>
    cases f with
    | errorCode c =>
      simp [HarnessJob.assign, HarnessJob.setField, HarnessJob.outcome, Assignment.Agrees, eq_comm]
    | resultJson r =>
      simp [HarnessJob.assign, HarnessJob.setField, HarnessJob.outcome, Assignment.Agrees, eq_comm]
    | error e => simp [HarnessJob.assign, HarnessJob.setField, HarnessJob.outcome, Assignment.Agrees]
    | returncode n => simp [HarnessJob.assign, HarnessJob.setField, HarnessJob.outcome, Assignment.Agrees]
  | cancelRequested => simp [HarnessJob.assign, HarnessJob.outcome, Assignment.Agrees]
  | interrupted => simp [HarnessJob.assign, HarnessJob.outcome, Assignment.Agrees]
  | stalledReason r => simp [HarnessJob.assign, HarnessJob.outcome, Assignment.Agrees]

/-- The step runs into none of the gaps between the threads. -/
structure Undisturbed (s : JobManager) (a : Act) : Prop where
  /-- A `_set_status` that is past its guard does not find its job closed otherwise. -/
  writes : ∀ jobId w, writing s a = some (jobId, w) → ∀ job, job ∈ s.jobs → job.jobId = jobId →
    job.isTerminal = true → w.Agrees job
  /-- A job that was closed in the queue was closed by a cancellation. -/
  picks : ∀ jobId, s.worker = .picked jobId true → ∀ job, job ∈ s.jobs → job.jobId = jobId →
    ∀ e, a = .work e → job.cancelRequested = true
  /-- No run starts while another job still waits for its `mark_interrupted`. -/
  starts : ∀ jobId, writing s a = some (jobId, .status .running) → ∀ job, job ∈ s.jobs → job.jobId = jobId →
      ∀ other, other ∈ s.jobs → other.status = .running → s.Interrupting other.jobId → other.jobId = jobId

theorem Accounted.flag
    (hw : w = .cancelRequested ∨ ∃ r, w = .stalledReason r) (hjobs : s'.jobs = s.jobs.assign jobId w)
    (hworker : s'.worker = s.worker) (ht : ∀ id, s.Interrupting id → s'.Interrupting id)
    (h : ∀ job, job ∈ s.jobs → Accounted s job) : ∀ job, job ∈ s'.jobs → Accounted s' job := by
  intro job' hj
  rw [hjobs] at hj
  obtain ⟨job, hjob, rfl⟩ := Jobs.mem_assign.mp hj
  have hkeep : (job.assign w).interrupted = job.interrupted ∧ (job.assign w).status = job.status := by
    rcases hw with rfl | ⟨r, rfl⟩ <;> exact ⟨rfl, rfl⟩
  split
  · exact (h job hjob).mono (HarnessJob.assign_jobId w job) hkeep.1 (.inl hkeep.2)
      (by rw [hworker]; exact id) (by rw [hworker]; exact id) (ht _)
  · exact (h job hjob).mono rfl rfl (.inl rfl)
      (by rw [hworker]; exact id) (by rw [hworker]; exact id) (ht _)

theorem interrupting_of_quiet {t : Nat} {r r' : Request}
    (hr : s.requests t = r) (hquiet : ∀ id, ¬ r.interrupts id) (hrequests : s'.requests = s.requests)
    (h : s.Interrupting jobId) : (s'.setRequest t r').Interrupting jobId := by
  refine interrupting_setRequest (fun hi => ?_) ?_
  · rw [hrequests, hr] at hi
    exact absurd hi (hquiet _)
  · obtain ⟨t', ht'⟩ := h
    exact ⟨t', by rw [hrequests]; exact ht'⟩

theorem Accounted.request {t : Nat} {r r' : Request} (hr : s.requests t = r)
    (hquiet : ∀ id, ¬ r.interrupts id) (hjobs : s'.jobs = s.jobs) (hworker : s'.worker = s.worker)
    (hrequests : s'.requests = s.requests) (h : ∀ job, job ∈ s.jobs → Accounted s job) :
    ∀ job, job ∈ (s'.setRequest t r').jobs → Accounted (s'.setRequest t r') job := by
  intro job hj
  rw [setRequest_jobs, hjobs] at hj
  exact (h job hj).mono rfl rfl (.inl rfl) (by rw [setRequest_worker, hworker]; exact id)
    (by rw [setRequest_worker, hworker]; exact id) (interrupting_of_quiet hr hquiet hrequests)

theorem accounted_start {t : Nat} (hr : s.requests t = .absent) (c : Call)
    (h : ∀ job, job ∈ s.jobs → Accounted s job) :
    ∀ job, job ∈ (s.start t c).jobs → Accounted (s.start t c) job := by
  have hquiet : ∀ id, ¬ Request.absent.interrupts id := fun _ hi => hi
  cases c with
  | submit m =>
    simp only [JobManager.start]
    split
    · exact Accounted.request hr hquiet rfl rfl rfl h
    · split <;> exact Accounted.request hr hquiet rfl rfl rfl h
  | cancel jobId =>
    simp only [JobManager.start]
    split
    · exact Accounted.request hr hquiet rfl rfl rfl h
    · exact Accounted.flag (.inl rfl) rfl rfl (fun id => interrupting_of_quiet hr hquiet rfl) h
  | markInterrupted reason => exact Accounted.request hr hquiet rfl rfl rfl h

theorem accounted_advance (s : JobManager) (t : Nat) (e : RequestEvent) (h : ∀ job, job ∈ s.jobs → Accounted s job) :
    ∀ job, job ∈ (s.advance t e).jobs → Accounted (s.advance t e) job := by
  unfold JobManager.advance
  cases hr : s.requests t with
  | absent => exact h
  | returned r => exact h
  | fetching m =>
    simp only
    split <;> exact Accounted.request hr (fun _ hi => hi) rfl rfl rfl h
  | registering m =>
    simp only
    split
    · exact Accounted.request hr (fun _ hi => hi) rfl rfl rfl h
    · split
      · rename_i jobs hinsert
        intro job hj
        rcases (Table.mem_of_insert? hinsert).mp hj with hj | rfl
        · exact (h job hj).mono rfl rfl (.inl rfl) id id
            (interrupting_of_quiet hr (fun _ hi => hi) rfl)
        · exact ⟨fun hrun => (by cases hrun), fun hint => (by cases hint)⟩
      · exact h
  | queueing jobId => exact Accounted.request hr (fun _ hi => hi) rfl rfl rfl h
  | cancelling jobId =>
    simp only
    split <;> exact Accounted.request hr (fun _ hi => hi) rfl rfl rfl h
  | cancelSetting p =>
    intro job' hj
    obtain ⟨job, hjob, hid, hi, hs, -⟩ := (sets p s.jobs).spec hj
    exact (h job hjob).mono hid.symm hi hs id id (interrupting_of_quiet hr (fun _ hi => hi) rfl)
  | interrupting message active =>
    cases active with
    | nil => exact Accounted.request hr (fun _ hi => hi) rfl rfl rfl h
    | cons jobId rest =>
      simp only
      intro job' hj
      obtain ⟨job, hjob, rfl⟩ := Jobs.mem_assign.mp hj
      split
      · rename_i hid
        refine accounted_of_interrupting ⟨t, ?_⟩
        rw [setRequest_self, HarnessJob.assign_jobId]
        exact hid.symm
      · exact (h job hjob).mono rfl rfl (.inl rfl) id id
          (interrupting_of_quiet hr (fun _ hi => hi) rfl)
  | interruptSetting message p rest =>
    simp only
    intro job' hj
    have hset := sets p s.jobs
    obtain ⟨job, hjob, hid, hi, hs, hclosed⟩ := hset.spec hj
    by_cases hown : job'.jobId = p.jobId
    · -- the job of the call: it is closed when the call returns, and has the call until then
      cases hp : (p.step s.jobs).2 with
      | none => exact accounted_of_terminal _ (hclosed hp hown)
      | some p' =>
        rw [hp] at hset
        refine accounted_of_interrupting ⟨t, ?_⟩
        rw [setRequest_self]
        exact hset.jobId_eq.trans hown.symm
    · refine (h job hjob).mono hid.symm hi hs id id (interrupting_setRequest fun hint => ?_)
      have hother : p.jobId = job.jobId := by
        rw [hr] at hint
        exact hint
      exact absurd (hid.symm.trans hother.symm) hown

theorem Accounted.hold (hjobs : s'.jobs = s.jobs) (hrequests : s'.requests = s.requests)
    (hruns : ∀ id, s.worker.runs id → s'.worker.runs id)
    (hcloses : ∀ id, s.worker.closes id → s'.worker.closes id)
    (h : ∀ job, job ∈ s.jobs → Accounted s job) : ∀ job, job ∈ s'.jobs → Accounted s' job := by
  intro job hj
  rw [hjobs] at hj
  refine (h job hj).mono rfl rfl (.inl rfl) (hruns _) (hcloses _) fun ⟨t, ht⟩ => ⟨t, ?_⟩
  rw [hrequests]
  exact ht

theorem Accounted.setting {p : Closing} {on : Closing → WorkerPc} {returned : WorkerPc}
    (hruns : ∀ id, ¬ s.worker.runs id) (hcloses : ∀ id, ¬ s.worker.closes id)
    (h : ∀ job, job ∈ s.jobs → Accounted s job) :
    ∀ job, job ∈ (s.settingStep p on returned).jobs → Accounted (s.settingStep p on returned) job := by
  intro job' hj
  obtain ⟨job, hjob, hid, hi, hs, -⟩ := (sets p s.jobs).spec hj
  exact (h job hjob).mono hid.symm hi hs (fun hr => absurd hr (hruns _))
    (fun hc => absurd hc (hcloses _)) id

theorem accounted_closing {p : Closing} (hw : s.worker = .closing p) (h : ∀ job, job ∈ s.jobs → Accounted s job) :
    ∀ job, job ∈ (s.settingStep p .closing (.cleaning p.jobId)).jobs →
      Accounted (s.settingStep p .closing (.cleaning p.jobId)) job := by
  intro job' hj
  have hset := sets p s.jobs
  obtain ⟨job, hjob, hid, hi, hs, hclosed⟩ := hset.spec hj
  by_cases hown : job'.jobId = p.jobId
  · -- the job of the run: it is closed when the call returns, and has the call until then
    cases hp : (p.step s.jobs).2 with
    | none => exact accounted_of_terminal _ (hclosed hp hown)
    | some p' =>
      rw [hp] at hset
      have hcloses : (s.settingStep p .closing (.cleaning p.jobId)).worker.closes job'.jobId := by
        simp only [JobManager.settingStep, hp, Option.map_some, Option.getD_some]
        exact hset.jobId_eq.trans hown.symm
      have hruns : (s.settingStep p .closing (.cleaning p.jobId)).worker.runs job'.jobId := by
        simp only [JobManager.settingStep, hp, Option.map_some, Option.getD_some]
        exact hset.jobId_eq.trans hown.symm
      exact ⟨fun _ => .inl hruns, fun _ => .inr (.inl hcloses)⟩
  · have hother : ¬ p.jobId = job.jobId := fun heq => hown (hid.symm.trans heq.symm)
    refine (h job hjob).mono hid.symm hi hs (fun hr => ?_) (fun hc => ?_) id
    · rw [hw] at hr
      exact absurd hr hother
    · rw [hw] at hc
      exact absurd hc hother

theorem accounted_starting {p : Starting} (hw : s.worker = .starting p)
    (hopen : p.guarded = true → p.fields = [] → ∀ job, job ∈ s.jobs → job.jobId = p.jobId → job.isTerminal = false)
    (h : ∀ job, job ∈ s.jobs → Accounted s job) :
    ∀ job, job ∈ (s.settingStep p .starting (.inTry .adding p.jobId)).jobs →
      Accounted (s.settingStep p .starting (.inTry .adding p.jobId)) job := by
  have hruns : ∀ id, ¬ s.worker.runs id := by
    intro id hr
    rw [hw] at hr
    exact hr
  have hcloses : ∀ id, ¬ s.worker.closes id := by
    intro id hc
    rw [hw] at hc
    exact hc
  have hkeep : ∀ s' : JobManager, s'.jobs = s.jobs → s'.requests = s.requests →
      ∀ job, job ∈ s'.jobs → Accounted s' job := fun s' hjobs hrequests =>
    Accounted.hold hjobs hrequests (fun id hr => absurd hr (hruns id))
      (fun id hc => absurd hc (hcloses id)) h
  unfold JobManager.settingStep
  generalize hnext : p.step s.jobs = next
  have hset : Sets p s.jobs next.1 next.2 := hnext ▸ sets p s.jobs
  obtain ⟨jobs', rest⟩ := next
  cases hset with
  | returns job hg hget hi ht => exact hkeep _ rfl rfl
  | passes hg => exact hkeep _ rfl rfl
  | sets f rest hg hf =>
    intro job' hj
    obtain ⟨job, hjob, rfl⟩ := Jobs.mem_assign.mp hj
    split
    · exact (h job hjob).mono (HarnessJob.assign_jobId (.field f) job)
        (assign_field_interrupted f job) (.inl (assign_field_status f job))
        (fun hr => absurd hr (hruns _)) (fun hc => absurd hc (hcloses _)) id
    · exact (h job hjob).mono rfl rfl (.inl rfl)
        (fun hr => absurd hr (hruns _)) (fun hc => absurd hc (hcloses _)) id
  | closes hg hf =>
    intro job' hj
    obtain ⟨job, hjob, rfl⟩ := Jobs.mem_assign.mp hj
    split
    · rename_i hid
      refine ⟨fun _ => .inl hid.symm, fun hi => ?_⟩
      rcases (h job hjob).interrupted hi with ht | hc | hi
      · rw [hopen hg hf job hjob hid] at ht
        cases ht
      · exact absurd hc (hcloses _)
      · exact .inr (.inr hi)
    · exact (h job hjob).mono rfl rfl (.inl rfl)
        (fun hr => absurd hr (hruns _)) (fun hc => absurd hc (hcloses _)) id

theorem verdict_jobId (jobId : String) (e : WorkerEvent) : (JobManager.verdict jobId e).jobId = jobId := by
  unfold JobManager.verdict
  split <;> rfl

theorem accounted_tryStep {phase : Phase}
    (hw : s.worker = .inTry phase job.jobId) (hjob : job ∈ s.jobs) (e : WorkerEvent)
    (h : ∀ job, job ∈ s.jobs → Accounted s job) :
    ∀ job', job' ∈ (s.tryStep phase job e).jobs → Accounted (s.tryStep phase job e) job' := by
  have hruns : ∀ id, s.worker.runs id → job.jobId = id := by
    intro id hr
    rw [hw] at hr
    exact hr
  have hcloses : ∀ id, ¬ s.worker.closes id := by
    intro id hc
    rw [hw] at hc
    exact hc
  have hhold : ∀ s' : JobManager, s'.jobs = s.jobs → s'.requests = s.requests →
      s'.worker.runs job.jobId → ∀ job', job' ∈ s'.jobs → Accounted s' job' :=
    fun s' hjobs hrequests hr => Accounted.hold hjobs hrequests (fun id hid => hruns id hid ▸ hr)
      (fun id hc => absurd hc (hcloses id)) h
  cases phase with
  | adding =>
    simp only [JobManager.tryStep]
    cases e.added with
    | ok u =>
      simp only
      split
      · exact hhold _ rfl rfl rfl
      · exact h
    | error stderr => exact hhold _ rfl rfl rfl
  | waiting => exact hhold _ rfl rfl rfl
  | exited =>
    simp only [JobManager.tryStep]
    split
    · -- the job was interrupted: it is closed, or its `mark_interrupted` is at work
      rename_i hint
      intro job' hj
      by_cases hid : job'.jobId = job.jobId
      · rw [Table.eq_of_key hj hjob hid]
        rcases (h job hjob).interrupted hint with ht | hc | hi
        · exact accounted_of_terminal _ ht
        · exact absurd hc (hcloses _)
        · exact accounted_of_interrupting hi
      · exact (h job' hj).mono rfl rfl (.inl rfl) (fun hr => absurd (hruns _ hr).symm hid)
          (fun hc => absurd hc (hcloses _)) id
    · exact hhold { s with worker := .inTry .checkingLost job.jobId } rfl rfl rfl
  | checkingLost =>
    simp only [JobManager.tryStep]
    split <;> exact hhold _ rfl rfl rfl
  | markingLost reason =>
    intro job' hj
    obtain ⟨job₁, hjob₁, rfl⟩ := Jobs.mem_assign.mp hj
    split
    · rename_i hid
      exact ⟨fun _ => .inl hid.symm, fun _ => .inr (.inl hid.symm)⟩
    · rename_i hid
      exact (h job₁ hjob₁).mono rfl rfl (.inl rfl) (fun hr => absurd (hruns _ hr).symm hid)
        (fun hc => absurd hc (hcloses _)) id
  | checkingStall =>
    simp only [JobManager.tryStep]
    split <;> exact hhold _ rfl rfl rfl
  | checkingCancel =>
    simp only [JobManager.tryStep]
    split <;> exact hhold _ rfl rfl rfl
  | judging => exact hhold _ rfl rfl (verdict_jobId job.jobId e)

theorem accounted_work (e : WorkerEvent) (hopen : ∀ p, s.worker = .starting p → p.guarded = true → p.fields = [] →
      ∀ job, job ∈ s.jobs → job.jobId = p.jobId → job.isTerminal = false)
    (h : ∀ job, job ∈ s.jobs → Accounted s job) :
    ∀ job, job ∈ (s.work e).jobs → Accounted (s.work e) job := by
  have hidle : ∀ s' : JobManager, (∀ id, ¬ s.worker.runs id) → (∀ id, ¬ s.worker.closes id) →
      s'.jobs = s.jobs → s'.requests = s.requests → ∀ job, job ∈ s'.jobs → Accounted s' job :=
    fun s' hruns hcloses hjobs hrequests => Accounted.hold hjobs hrequests
      (fun id hr => absurd hr (hruns id)) (fun id hc => absurd hc (hcloses id)) h
  unfold JobManager.work
  cases hw : s.worker with
  | idle =>
    rw [hw] at hidle
    simp only
    split
    · exact h
    · exact hidle _ (fun _ hr => hr) (fun _ hc => hc) rfl rfl
  | picked jobId closed =>
    rw [hw] at hidle
    simp only
    split <;> exact hidle _ (fun _ hr => hr) (fun _ hc => hc) rfl rfl
  | skipping p =>
    exact Accounted.setting (by rw [hw]; exact fun _ hr => hr) (by rw [hw]; exact fun _ hc => hc) h
  | starting p => exact accounted_starting hw (hopen p hw) h
  | inTry phase jobId =>
    simp only
    split
    · exact h
    · rename_i job hjob
      obtain ⟨hmem, rfl⟩ := Table.get?_eq_some.mp hjob
      split
      · rename_i exc hexc
        refine Accounted.hold (s := s) rfl rfl (fun id hr => ?_) (fun id hc => ?_) h
        · rw [hw] at hr
          exact hr
        · rw [hw] at hc
          exact False.elim hc
      · exact accounted_tryStep hw hmem e h
  | closing p => exact accounted_closing hw h
  | cleaning jobId =>
    rw [hw] at hidle
    exact hidle _ (fun _ hr => hr) (fun _ hc => hc) rfl rfl
  | failing p =>
    exact Accounted.setting (by rw [hw]; exact fun _ hr => hr) (by rw [hw]; exact fun _ hc => hc) h

theorem accounted_step (hu : Undisturbed s a) (h : ∀ job, job ∈ s.jobs → Accounted s job) :
    ∀ job, job ∈ (step s a).jobs → Accounted (step s a) job := by
  cases a with
  | poll jobId => exact h
  | stall reason =>
    simp only [step]
    split
    · exact h
    · exact Accounted.flag (.inr ⟨reason, rfl⟩) rfl rfl (fun _ => id) h
    · exact h
  | start t c =>
    simp only [step]
    split
    · rename_i hr
      exact accounted_start hr c h
    · exact h
  | advance t e => exact accounted_advance s t e h
  | work e =>
    refine accounted_work e (fun p hw hg hf job hj hid => ?_) h
    cases ht : job.isTerminal with
    | false => rfl
    | true =>
      -- the write would reopen a closed job
      have hwrite : writing s (.work e) = some (p.jobId, .status p.status) := by
        simp only [writing, hw, SettingStatus.pending, hg, if_true, SettingStatus.next, hf]
      have hagrees : job.status = p.status := hu.writes p.jobId _ hwrite job hj hid ht
      have hrun : p.status = .running := of_decide_eq_true p.isAllowed
      rw [not_terminal_of_running (hagrees.trans hrun)] at ht
      cases ht

theorem writing_jobs (h : writing s a = some (jobId, w)) : (step s a).jobs = s.jobs.assign jobId w := by
  have hpending : ∀ {allowed : JobStatus → Bool} (p : SettingStatus allowed),
      p.pending = some (jobId, w) → (p.step s.jobs).1 = s.jobs.assign jobId w := by
    intro allowed p hp
    unfold SettingStatus.pending at hp
    unfold SettingStatus.step
    split at hp
    · rename_i hg
      cases hp
      simp only [hg, if_true]
    · cases hp
  cases a with
  | poll id => cases h
  | stall reason => cases h
  | start t c => cases h
  | advance t e =>
    simp only [writing] at h
    simp only [step, JobManager.advance]
    split at h
    · rename_i hr
      simp only [hr, setRequest_jobs, hpending _ h]
    · rename_i hr
      simp only [hr, setRequest_jobs, hpending _ h]
    · cases h
  | work e =>
    simp only [writing] at h
    simp only [step, JobManager.work]
    split at h
    · rename_i hw
      simp only [hw, JobManager.settingStep, hpending _ h]
    · rename_i hw
      simp only [hw, JobManager.settingStep, hpending _ h]
    · rename_i hw
      simp only [hw, JobManager.settingStep, hpending _ h]
    · rename_i hw
      simp only [hw, JobManager.settingStep, hpending _ h]
    · cases h

/-- Only the start of a run writes `running`. -/
theorem worker_of_writing_running
    (h : writing s a = some (jobId, .status .running)) : ∃ p, s.worker = .starting p := by
  have hclosing : ∀ p : Closing, p.pending ≠ some (jobId, .status .running) := by
    intro p hp
    unfold SettingStatus.pending SettingStatus.next at hp
    split at hp
    · split at hp
      · simp only [Option.some.injEq, Prod.mk.injEq, Assignment.status.injEq] at hp
        have hs : p.status = .running := hp.2
        have hterm := p.isAllowed
        rw [hs] at hterm
        cases hterm
      · cases hp
    · cases hp
  cases a with
  | poll id => cases h
  | stall reason => cases h
  | start t c => cases h
  | advance t e =>
    simp only [writing] at h
    split at h
    · exact absurd h (hclosing _)
    · exact absurd h (hclosing _)
    · cases h
  | work e =>
    simp only [writing] at h
    split at h
    · exact absurd h (hclosing _)
    · exact absurd h (hclosing _)
    · exact absurd h (hclosing _)
    · rename_i p hw
      exact ⟨p, hw⟩
    · cases h

/-- `s'` has every job that was closed in `s`, closed with the same outcome. -/
def KeepsClosed (s s' : JobManager) : Prop :=
  ∀ job, job ∈ s.jobs → job.isTerminal = true →
    ∃ job', job' ∈ s'.jobs ∧ job'.jobId = job.jobId ∧ job'.outcome = job.outcome

theorem keepsClosed_refl (s : JobManager) : KeepsClosed s s :=
  fun job hj _ => ⟨job, hj, rfl, rfl⟩

theorem KeepsClosed.trans {s'' : JobManager} (h : KeepsClosed s s') (h' : KeepsClosed s' s'') :
    KeepsClosed s s'' := by
  intro job hj ht
  obtain ⟨job', hj', hid, ho⟩ := h job hj ht
  obtain ⟨job'', hj'', hid', ho'⟩ := h' job' hj' ((isTerminal_of_outcome ho).trans ht)
  exact ⟨job'', hj'', hid'.trans hid, ho'.trans ho⟩

theorem keepsClosed_step (hu : Undisturbed s a) : KeepsClosed s (step s a) := by
  intro job hj ht
  have hassign : ∀ jobId w, (job.jobId = jobId → (job.assign w).outcome = job.outcome) →
      ∃ job', job' ∈ s.jobs.assign jobId w ∧ job'.jobId = job.jobId ∧ job'.outcome = job.outcome := by
    intro jobId w hw
    refine ⟨_, Jobs.mem_assign.mpr ⟨job, hj, rfl⟩, ?_⟩
    split
    · rename_i hid
      exact ⟨HarnessJob.assign_jobId w job, hw hid⟩
    · exact ⟨rfl, rfl⟩
  cases step_jobs s a with
  | same heq =>
    rw [heq]
    exact ⟨job, hj, rfl, rfl⟩
  | flags jobId w hflag heq =>
    rw [heq]
    exact hassign jobId w fun _ => assign_outcome_of_isFlag hflag job
  | writes jobId w hwrite heq =>
    rw [heq]
    exact hassign jobId w fun hid => (agrees_iff w job).mpr (hu.writes jobId w hwrite job hj hid ht)
  | registers m jobId hinsert => exact ⟨job, (Table.mem_of_insert? hinsert).mpr (.inl hj), rfl, rfl⟩

theorem running_of_step (hj : job' ∈ (step s a).jobs) (hr : job'.status = .running) :
    (∃ job, job ∈ s.jobs ∧ job.jobId = job'.jobId ∧ job.status = .running) ∨
      writing s a = some (job'.jobId, .status .running) ∧ ∃ job, job ∈ s.jobs ∧ job.jobId = job'.jobId := by
  cases step_jobs s a with
  | same heq =>
    rw [heq] at hj
    exact .inl ⟨job', hj, rfl, hr⟩
  | flags jobId w hflag heq =>
    rw [heq] at hj
    obtain ⟨job, hjob, rfl⟩ := Jobs.mem_assign.mp hj
    split at hr
    · rename_i hid
      have hs : (job.assign w).status = job.status :=
        congrArg Prod.fst (assign_outcome_of_isFlag hflag job)
      rw [if_pos hid, HarnessJob.assign_jobId]
      exact .inl ⟨job, hjob, rfl, hs ▸ hr⟩
    · rename_i hid
      rw [if_neg hid]
      exact .inl ⟨job, hjob, rfl, hr⟩
  | writes jobId w hwrite heq =>
    rw [heq] at hj
    obtain ⟨job, hjob, rfl⟩ := Jobs.mem_assign.mp hj
    split at hr
    · rename_i hid
      rw [if_pos hid, HarnessJob.assign_jobId]
      cases w with
      | status st =>
        have hst : st = .running := hr
        rw [hwrite, hid, hst]
        exact .inr ⟨rfl, job, hjob, hid⟩
      | field f => exact .inl ⟨job, hjob, rfl, assign_field_status f job ▸ hr⟩
      | cancelRequested => exact .inl ⟨job, hjob, rfl, hr⟩
      | interrupted => exact .inl ⟨job, hjob, rfl, hr⟩
      | stalledReason r => exact .inl ⟨job, hjob, rfl, hr⟩
    · rename_i hid
      rw [if_neg hid]
      exact .inl ⟨job, hjob, rfl, hr⟩
  | registers m jobId hinsert =>
    rcases (Table.mem_of_insert? hinsert).mp hj with hj | rfl
    · exact .inl ⟨job', hj, rfl, hr⟩
    · cases hr

theorem one_of_starting (hi : Inv s) (hu : Undisturbed s a)
    {job other : HarnessJob} (hw : writing s a = some (job.jobId, .status .running))
    (hjob : ∃ job', job' ∈ s.jobs ∧ job'.jobId = job.jobId)
    (hother : ∃ other', other' ∈ s.jobs ∧ other'.jobId = other.jobId ∧ other'.status = .running) :
    other.jobId = job.jobId := by
  obtain ⟨job', hj', hid⟩ := hjob
  obtain ⟨other', ho', hid', hr'⟩ := hother
  obtain ⟨p, hp⟩ := worker_of_writing_running hw
  have hint : s.Interrupting other'.jobId := by
    rcases (hi.accounted other' ho').running hr' with h | h
    · rw [hp] at h
      exact False.elim h
    · exact h
  exact hid'.symm.trans (hu.starts job.jobId hw job' hj' hid other' ho' hr' hint)

theorem oneRunning_step (hi : Inv s) (hu : Undisturbed s a) : OneRunning (step s a) := by
  intro job hj job' hj' hr hr'
  rcases running_of_step hj hr with ⟨job₀, h₀, hid, hr₀⟩ | ⟨hw, hex⟩
  · rcases running_of_step hj' hr' with ⟨job₁, h₁, hid', hr₁⟩ | ⟨hw', hex'⟩
    · exact hid.symm.trans ((hi.one job₀ h₀ job₁ h₁ hr₀ hr₁).trans hid')
    · exact one_of_starting hi hu hw' hex' ⟨job₀, h₀, hid, hr₀⟩
  · rcases running_of_step hj' hr' with hold | ⟨hw', hex'⟩
    · exact (one_of_starting hi hu hw hex hold).symm
    · rw [hw] at hw'
      exact congrArg Prod.fst (Option.some.inj hw')

theorem inv_step (hi : Inv s) (hu : Undisturbed s a) : Inv (step s a) :=
  ⟨accounted_step hu hi.accounted, oneRunning_step hi hu⟩

def RunsClosed (m : Move JobManager Act) : Prop :=
  ∃ jobId p, m.pre.worker = .picked jobId true ∧ m.post.worker = .starting p

theorem not_runsClosed_step (hu : Undisturbed s a) : ¬ RunsClosed ⟨s, a, step s a⟩ := by
  rintro ⟨jobId, p, hw, hp⟩
  simp only at hw hp
  have hsame : step s a = s → False := by
    intro heq
    rw [heq, hw] at hp
    cases hp
  cases a with
  | poll id => exact hsame rfl
  | stall reason =>
    refine hsame ?_
    simp only [step, hw]
  | start t c =>
    have hworker : (step s (.start t c)).worker = s.worker := by
      simp only [step]
      split
      · cases c with
        | submit m =>
          simp only [JobManager.start]
          split
          · rfl
          · split <;> rfl
        | cancel id =>
          simp only [JobManager.start]
          split <;> rfl
        | markInterrupted reason => rfl
      · rfl
    rw [hworker, hw] at hp
    cases hp
  | advance t e =>
    have hworker : (step s (.advance t e)).worker = s.worker := by
      simp only [step, JobManager.advance]
      split
      · rfl
      · rfl
      · split <;> rfl
      · split
        · rfl
        · split <;> rfl
      · rfl
      · split <;> rfl
      · rfl
      · split <;> rfl
      · rfl
    rw [hworker, hw] at hp
    cases hp
  | work e =>
    simp only [step, JobManager.work, hw] at hp
    split at hp
    · cases hp
    · rename_i job hjob
      have hcancel := hu.picks jobId hw job (Table.mem_of_get? hjob) (Table.key_of_get? hjob) e rfl
      simp only [hcancel, if_true] at hp
      cases hp

theorem undisturbed_of_good (hkeeps : KeepsClosed s (step s a))
    (hruns : ¬ RunsClosed ⟨s, a, step s a⟩) (hone : OneRunning (step s a)) : Undisturbed s a where
  writes := by
    intro jobId w hw job hj hid ht
    obtain ⟨job', hj', hid', ho⟩ := hkeeps job hj ht
    have hmem : job.assign w ∈ (step s a).jobs := by
      rw [writing_jobs hw]
      exact Jobs.mem_assign.mpr ⟨job, hj, if_pos hid⟩
    rw [Table.eq_of_key hj' hmem (hid'.trans (HarnessJob.assign_jobId w job).symm)] at ho
    exact (agrees_iff w job).mp ho
  picks := by
    rintro jobId hw job hj hid e rfl
    cases hc : job.cancelRequested with
    | true => rfl
    | false =>
      have hget : s.jobs.get? jobId = some job := Table.get?_eq_some.mpr ⟨hj, hid⟩
      refine absurd ⟨jobId, ⟨jobId, [], .running, rfl, false⟩, hw, ?_⟩ hruns
      simp only [step, JobManager.work, hw, hget, hc, Bool.false_eq_true, if_false]
  starts := by
    intro jobId hw job hj hid other ho hr _
    by_contra hne
    have hjob : job.assign (.status .running) ∈ (step s a).jobs := by
      rw [writing_jobs hw]
      exact Jobs.mem_assign.mpr ⟨job, hj, if_pos hid⟩
    have hother : other ∈ (step s a).jobs := by
      rw [writing_jobs hw]
      exact Jobs.mem_assign.mpr ⟨other, ho, if_neg hne⟩
    have heq := hone other hother _ hjob hr rfl
    rw [HarnessJob.assign_jobId] at heq
    exact hne (heq.trans hid)

theorem good_step_iff (hi : Inv s) :
    KeepsClosed s (step s a) ∧ ¬ RunsClosed ⟨s, a, step s a⟩ ∧ OneRunning (step s a) ↔ Undisturbed s a := by
  constructor
  · rintro ⟨hkeeps, hruns, hone⟩
    exact undisturbed_of_good hkeeps hruns hone
  · intro hu
    exact ⟨keepsClosed_step hu, not_runsClosed_step hu, oneRunning_step hi hu⟩

theorem inv_init (recovered : {jobs : Jobs // ∀ job, job ∈ jobs → job.isTerminal = true})
    (refs : List String) : Inv (JobManager.init recovered refs) where
  accounted job hj := accounted_of_terminal _ (recovered.2 job hj)
  one job hj _ _ hr _ := by
    have ht := recovered.2 job hj
    rw [not_terminal_of_running hr] at ht
    cases ht

structure JobStates (s : JobManager) (acts : List Act) : Prop where
  /-- From any moment to any later one, closed jobs keep their outcome. -/
  closed : ∀ before between after, acts = before ++ (between ++ after) →
    KeepsClosed (Runs.run step s before) (Runs.run step s (before ++ between))
  notRun : ∀ m ∈ Runs.moves step s acts, ¬ RunsClosed m
  one : ∀ m ∈ Runs.moves step s acts, OneRunning m.post

theorem job_states_iff (recovered : {jobs : Jobs // ∀ job, job ∈ jobs → job.isTerminal = true})
    (refs : List String) (acts : List Act) :
    JobStates (JobManager.init recovered refs) acts ↔
      ∀ m ∈ Runs.moves step (JobManager.init recovered refs) acts, Undisturbed m.pre m.act := by
  have hgood : (∀ m ∈ Runs.moves step (JobManager.init recovered refs) acts,
      KeepsClosed m.pre m.post ∧ ¬ RunsClosed m ∧ OneRunning m.post) ↔
        ∀ m ∈ Runs.moves step (JobManager.init recovered refs) acts, Undisturbed m.pre m.act :=
    Runs.moves_forall_iff (I := Inv) (fun _ _ hi => good_step_iff hi) (fun _ _ hi hu => inv_step hi hu)
      (inv_init recovered refs) acts
  rw [← hgood]
  constructor
  · intro h m hm
    exact ⟨(Runs.moves_rel_iff keepsClosed_refl KeepsClosed.trans).mpr h.closed m hm, h.notRun m hm,
      h.one m hm⟩
  · intro h
    exact ⟨(Runs.moves_rel_iff keepsClosed_refl KeepsClosed.trans).mp fun m hm => (h m hm).1,
      fun m hm => (h m hm).2.1, fun m hm => (h m hm).2.2⟩

def closedInQueue : List Act :=
  [.start 0 (.submit { candidateSha := "0123456789abcdef" }), .advance 0 {},
    .advance 0 { uuid := "job-1" }, .advance 0 {}, .start 1 (.markInterrupted "update"), .advance 1 {},
    .advance 1 {}, .advance 1 {}, .advance 1 {}, .advance 1 {}, .work {}, .work {}]

theorem closed_job_is_run :
    ¬ JobStates (JobManager.init ⟨Table.empty, by simp⟩ []) closedInQueue := by
  intro h
  have hrun : ∃ m ∈ Runs.moves step (JobManager.init ⟨Table.empty, by simp⟩ []) closedInQueue,
      m.pre.worker = .picked "job-1" true ∧
        m.post.worker = .starting ⟨"job-1", [], .running, rfl, false⟩ := by
    decide +kernel
  obtain ⟨m, hm, hpre, hpost⟩ := hrun
  exact h.notRun m hm ⟨"job-1", _, hpre, hpost⟩

end RemoteWorker
end Harness
end DarkFactory
