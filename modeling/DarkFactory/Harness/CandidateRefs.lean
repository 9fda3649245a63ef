import DarkFactory.Harness.JobStates

/-!
# DarkFactory.Harness.CandidateRefs

The ref of a candidate, from the answer of `submit` to the worktree of the job.

* `RequestMove`, `WorkerMove` — what a step of a request and of the worker does to the queue and the refs.
* `Flagged` — why a job that waits for the worker can be closed.
* `refs_kept_iff` — queued jobs keep their refs in exactly the runs that meet `Spares`.
-/

namespace DarkFactory
namespace Harness
namespace RemoteWorker

/-- `job'` is `job` at a later time. -/
structure Later (job job' : HarnessJob) : Prop where
  jobId : job'.jobId = job.jobId
  refName : job'.refName = job.refName
  cancelRequested : job.cancelRequested = true → job'.cancelRequested = true
  interrupted : job.interrupted = true → job'.interrupted = true

theorem later_refl (job : HarnessJob) : Later job job := ⟨rfl, rfl, id, id⟩

theorem later_assign (w : Assignment) (job : HarnessJob) : Later job (job.assign w) := by
  cases w with
  | status s => exact ⟨rfl, rfl, id, id⟩
  | field f => cases f <;> exact ⟨rfl, rfl, id, id⟩
  | cancelRequested => exact ⟨rfl, rfl, fun _ => rfl, id⟩
  | interrupted => exact ⟨rfl, rfl, id, fun _ => rfl⟩
  | stalledReason r => exact ⟨rfl, rfl, id, id⟩

theorem assign_isTerminal (w : Assignment) (job : HarnessJob) :
    (job.assign w).isTerminal = job.isTerminal ∨ ∃ st, w = .status st := by
  cases w with
  | status s => exact .inr ⟨s, rfl⟩
  | field f =>
    rw [HarnessJob.isTerminal, assign_field_status]
    exact .inl rfl
  | cancelRequested => exact .inl rfl
  | interrupted => exact .inl rfl
  | stalledReason r => exact .inl rfl

variable {s s' : JobManager} {job job' : HarnessJob} {a : Act} {jobId j : String} {r : Request} {t : Nat}

theorem later_of_mem (a : Act) (hj : job ∈ s.jobs) : ∃ job', job' ∈ (step s a).jobs ∧ Later job job' := by
  have hassign : ∀ jobId w, ∃ job', job' ∈ s.jobs.assign jobId w ∧ Later job job' := by
    intro jobId w
    refine ⟨_, Jobs.mem_assign.mpr ⟨job, hj, rfl⟩, ?_⟩
    split
    · exact later_assign w job
    · exact later_refl job
  cases step_jobs s a with
  | same heq => exact ⟨job, heq ▸ hj, later_refl job⟩
  | flags jobId w hflag heq => exact heq ▸ hassign jobId w
  | writes jobId w hwrite heq => exact heq ▸ hassign jobId w
  | registers m jobId hinsert => exact ⟨job, (Table.mem_of_insert? hinsert).mpr (.inl hj), later_refl job⟩

/-- A job after a step is one of before, open or closed as it was unless a `_set_status` gets to the
status, or it is registered in the step. -/
theorem later_of_step (hj : job' ∈ (step s a).jobs) :
    (∃ job, job ∈ s.jobs ∧ Later job job' ∧
      (job'.isTerminal = job.isTerminal ∨
        ∃ st, writing s a = some (job'.jobId, .status st) ∧ job'.isTerminal = st.isTerminal)) ∨
      job'.isTerminal = false ∧ ∀ job, job ∈ s.jobs → job.jobId ≠ job'.jobId := by
  cases step_jobs s a with
  | same heq => exact .inl ⟨job', heq ▸ hj, later_refl job', .inl rfl⟩
  | flags jobId w hflag heq =>
    rw [heq] at hj
    obtain ⟨job, hjob, rfl⟩ := Jobs.mem_assign.mp hj
    refine .inl ⟨job, hjob, ?_⟩
    split
    · exact ⟨later_assign w job, .inl (isTerminal_of_outcome (assign_outcome_of_isFlag hflag job))⟩
    · exact ⟨later_refl job, .inl rfl⟩
  | writes jobId w hwrite heq =>
    rw [heq] at hj
    obtain ⟨job, hjob, rfl⟩ := Jobs.mem_assign.mp hj
    refine .inl ⟨job, hjob, ?_⟩
    split
    · rename_i hid
      refine ⟨later_assign w job, (assign_isTerminal w job).imp id ?_⟩
      rintro ⟨st, rfl⟩
      exact ⟨st, hwrite.trans (by rw [HarnessJob.assign_jobId, hid]), rfl⟩
    · exact ⟨later_refl job, .inl rfl⟩
  | registers m jobId hinsert =>
    rcases (Table.mem_of_insert? hinsert).mp hj with hj | rfl
    · exact .inl ⟨job', hj, later_refl job', .inl rfl⟩
    · exact .inr ⟨rfl, Table.get?_eq_none.mp (Table.insert?_fresh hinsert)⟩

def Request.mentions (r : Request) (jobId : String) : Prop :=
  match r with
  | .queueing j | .cancelling j | .returned (.submitted j _) => j = jobId
  | .cancelSetting p => p.jobId = jobId
  | .interrupting _ active => jobId ∈ active
  | .interruptSetting _ p active => p.jobId = jobId ∨ jobId ∈ active
  | _ => False

/-- A `cancel` that has set the flag of the job. -/
def Request.cancels (r : Request) (jobId : String) : Prop :=
  match r with
  | .cancelling j => j = jobId
  | .cancelSetting p => p.jobId = jobId
  | _ => False

/-- A request goes on from `r` to `r'`, and no job comes in. -/
structure GoesOn (s s' : JobManager) (r r' : Request) : Prop where
  queue : s'.queue = s.queue
  refs : ∀ ref, ref ∈ s.refs → ref ∈ s'.refs
  jobs : ∀ job', job' ∈ s'.jobs → ∃ job, job ∈ s.jobs ∧ job.jobId = job'.jobId
  pending : ∀ j, r' ≠ .queueing j
  submitted : ∀ j, r' ≠ .returned (.submitted j false)
  mentions : ∀ j, r'.mentions j → r.mentions j ∨ ∃ job, job ∈ s.jobs ∧ job.jobId = j
  cancels : ∀ j, r'.cancels j → r.cancels j ∨ ∀ job', job' ∈ s'.jobs → job'.jobId = j → job'.cancelRequested = true
  interrupts : ∀ j, r'.interrupts j → r.interrupts j ∨
    ∀ job', job' ∈ s'.jobs → job'.jobId = j → job'.interrupted = true

/-- A step of the request `t`. -/
inductive RequestMove (s s' : JobManager) (t : Nat) : Prop where
  | stays : s' = s → RequestMove s s' t
  | goesOn (r r' : Request) : s.requests t = r → s'.requests t = r' → (∀ x, r ≠ .returned x) →
      GoesOn s s' r r' → RequestMove s s' t
  | registers (m : Metadata) (jobId : String) : s.requests t = .registering m →
      s'.requests t = .queueing jobId → s.jobs.insert? (m.job jobId) = some s'.jobs →
      s'.queue = s.queue → s'.refs = s.refs → RequestMove s s' t
  | queues (jobId : String) : s.requests t = .queueing jobId →
      s'.requests t = .returned (.submitted jobId false) → s'.jobs = s.jobs →
      s'.queue = s.queue ++ [jobId] → s'.refs = s.refs → RequestMove s s' t

theorem goesOn_assign {w : Assignment}
    (hj : job' ∈ s.jobs.assign jobId w) : ∃ job, job ∈ s.jobs ∧ job.jobId = job'.jobId := by
  obtain ⟨job, hjob, rfl⟩ := Jobs.mem_assign.mp hj
  refine ⟨job, hjob, ?_⟩
  split
  · exact (HarnessJob.assign_jobId w job).symm
  · rfl

theorem goesOn_setting {allowed : JobStatus → Bool} {jobs : Jobs} {p : SettingStatus allowed}
    (hj : job' ∈ (p.step jobs).1) : ∃ job, job ∈ jobs ∧ job.jobId = job'.jobId := by
  have hset := sets p jobs
  generalize (p.step jobs).1 = jobs', (p.step jobs).2 = rest at hset hj
  cases hset with
  | returns job hg hget hi ht => exact ⟨job', hj, rfl⟩
  | passes hg => exact ⟨job', hj, rfl⟩
  | sets f rest hg hf =>
    obtain ⟨job, hjob, rfl⟩ := Jobs.mem_assign.mp hj
    refine ⟨job, hjob, ?_⟩
    split
    · exact (HarnessJob.assign_jobId _ job).symm
    · rfl
  | closes hg hf =>
    obtain ⟨job, hjob, rfl⟩ := Jobs.mem_assign.mp hj
    refine ⟨job, hjob, ?_⟩
    split
    · rfl
    · rfl

/-- A request that leaves the jobs alone and begins no `cancel` and no interruption of a job. -/
theorem goesOn_quiet {r' : Request} (hjobs : s'.jobs = s.jobs)
    (hqueue : s'.queue = s.queue) (hrefs : ∀ ref, ref ∈ s.refs → ref ∈ s'.refs)
    (hpending : ∀ j, r' ≠ .queueing j) (hsubmitted : ∀ j, r' ≠ .returned (.submitted j false))
    (hmentions : ∀ j, r'.mentions j → r.mentions j ∨ ∃ job, job ∈ s.jobs ∧ job.jobId = j)
    (hcancels : ∀ j, r'.cancels j → r.cancels j) (hinterrupts : ∀ j, ¬ r'.interrupts j) :
    GoesOn s s' r r' where
  queue := hqueue
  refs := hrefs
  jobs job' hj := ⟨job', hjobs ▸ hj, rfl⟩
  pending := hpending
  submitted := hsubmitted
  mentions := hmentions
  cancels j hj := .inl (hcancels j hj)
  interrupts j hj := absurd hj (hinterrupts j)

theorem liveJobForKey_mem {jobs : Jobs} {key : String} (h : liveJobForKey jobs key = some job) : job ∈ jobs := by
  unfold liveJobForKey at h
  split at h
  · cases h
  · exact List.mem_of_find?_eq_some h

theorem requestMove_start (hr : s.requests t = .absent) (c : Call) : RequestMove s (s.start t c) t := by
  cases c with
  | submit m =>
    simp only [JobManager.start]
    split
    · refine .goesOn _ _ hr (setRequest_self _ _ _) (by simp) (goesOn_quiet rfl rfl (fun _ => id) ?_ ?_ ?_ ?_ ?_)
        <;> simp [Request.mentions, Request.cancels, Request.interrupts]
    · split
      · rename_i existing hlive
        refine .goesOn _ _ hr (setRequest_self _ _ _) (by simp)
          (goesOn_quiet rfl rfl (fun _ => id) (by simp) (by simp) (fun j hj => .inr ?_) (by simp [Request.cancels])
            (by simp [Request.interrupts]))
        exact ⟨existing, liveJobForKey_mem hlive, hj⟩
      · refine .goesOn _ _ hr (setRequest_self _ _ _) (by simp)
          (goesOn_quiet rfl rfl (fun _ => id) ?_ ?_ ?_ ?_ ?_)
          <;> simp [Request.mentions, Request.cancels, Request.interrupts]
  | cancel jobId =>
    simp only [JobManager.start]
    split
    · refine .goesOn _ _ hr (setRequest_self _ _ _) (by simp) (goesOn_quiet rfl rfl (fun _ => id) ?_ ?_ ?_ ?_ ?_)
        <;> simp [Request.mentions, Request.cancels, Request.interrupts]
    · rename_i job hjob
      refine .goesOn _ _ hr (setRequest_self _ _ _) (by simp) ⟨rfl, fun _ => id, fun _ => goesOn_assign,
        by simp, by simp, fun j hj => .inr ?_, fun j hj => .inr ?_, by simp [Request.interrupts]⟩
      · exact ⟨job, Table.mem_of_get? hjob, (Table.key_of_get? hjob).trans hj⟩
      · intro job' hj' hid
        obtain ⟨job₀, hjob₀, rfl⟩ := Jobs.mem_assign.mp hj'
        have heq : job₀.jobId = jobId := by
          split at hid
          · assumption
          · exact hid.trans hj.symm
        rw [if_pos heq]
        rfl
  | markInterrupted reason =>
    refine .goesOn _ _ hr (setRequest_self _ _ _) (by simp)
      (goesOn_quiet rfl rfl (fun _ => id) (by simp) (by simp) (fun j hj => .inr ?_) (by simp [Request.cancels])
        (by simp [Request.interrupts]))
    obtain ⟨job, hjob, hid⟩ := List.mem_map.mp hj
    exact ⟨job, (Table.mem_select.mp hjob).1, hid⟩

/-- The jobs after a step of a `_set_status` that a request is in. -/
theorem goesOn_of_setting {r' : Request} {p : Closing}
    (hjobs : s'.jobs = (p.step s.jobs).1) (hqueue : s'.queue = s.queue) (hrefs : s'.refs = s.refs)
    (hpending : ∀ j, r' ≠ .queueing j) (hsubmitted : ∀ j, r' ≠ .returned (.submitted j false))
    (hmentions : ∀ j, r'.mentions j → r.mentions j ∨ ∃ job, job ∈ s.jobs ∧ job.jobId = j)
    (hcancels : ∀ j, r'.cancels j → r.cancels j) (hinterrupts : ∀ j, r'.interrupts j → r.interrupts j) :
    GoesOn s s' r r' where
  queue := hqueue
  refs := hrefs ▸ fun _ => id
  jobs _ hj := goesOn_setting (hjobs ▸ hj)
  pending := hpending
  submitted := hsubmitted
  mentions := hmentions
  cancels j hj := .inl (hcancels j hj)
  interrupts j hj := .inl (hinterrupts j hj)

theorem step_jobId {allowed : JobStatus → Bool} {p p' : SettingStatus allowed} {jobs : Jobs}
    (h : (p.step jobs).2 = some p') : p'.jobId = p.jobId := by
  have hset := sets p jobs
  rw [h] at hset
  exact hset.jobId_eq

theorem requestMove_advance (s : JobManager) (t : Nat) (e : RequestEvent) : RequestMove s (s.advance t e) t := by
  unfold JobManager.advance
  cases hr : s.requests t with
  | absent => exact .stays rfl
  | returned r => exact .stays rfl
  | fetching m =>
    simp only
    split
    · refine .goesOn _ _ hr (setRequest_self _ _ _) (by simp)
        (goesOn_quiet rfl rfl (fun _ => List.mem_cons_of_mem _) ?_ ?_ ?_ ?_ ?_)
        <;> simp [Request.mentions, Request.cancels, Request.interrupts]
    · refine .goesOn _ _ hr (setRequest_self _ _ _) (by simp)
        (goesOn_quiet rfl rfl (fun _ => id) ?_ ?_ ?_ ?_ ?_)
        <;> simp [Request.mentions, Request.cancels, Request.interrupts]
  | registering m =>
    simp only
    split
    · rename_i existing hlive
      refine .goesOn _ _ hr (setRequest_self _ _ _) (by simp)
        (goesOn_quiet rfl rfl (fun _ => id) (by simp) (by simp) (fun j hj => .inr ?_)
          (by simp [Request.cancels]) (by simp [Request.interrupts]))
      exact ⟨existing, liveJobForKey_mem hlive, hj⟩
    · split
      · rename_i jobs hinsert
        exact .registers m e.uuid hr (setRequest_self _ _ _) hinsert rfl rfl
      · exact .stays rfl
  | queueing jobId => exact .queues jobId hr (setRequest_self _ _ _) rfl rfl rfl
  | cancelling jobId =>
    simp only
    split
    · refine .goesOn _ _ hr (setRequest_self _ _ _) (by simp)
        (goesOn_quiet rfl rfl (fun _ => id) ?_ ?_ ?_ ?_ ?_)
        <;> simp [Request.mentions, Request.cancels, Request.interrupts, cancellation]
    · refine .goesOn _ _ hr (setRequest_self _ _ _) (by simp)
        (goesOn_quiet rfl rfl (fun _ => id) ?_ ?_ ?_ ?_ ?_)
        <;> simp [Request.mentions, Request.cancels, Request.interrupts]
  | cancelSetting p =>
    refine .goesOn _ _ hr (setRequest_self _ _ _) (by simp) (goesOn_of_setting rfl rfl rfl ?_ ?_ ?_ ?_ ?_)
      <;> cases hp : (p.step s.jobs).2 with
      | none => simp [Request.mentions, Request.cancels, Request.interrupts]
      | some p' => simp [Request.mentions, Request.cancels, Request.interrupts, step_jobId hp]
  | interrupting message active =>
    cases active with
    | nil =>
      refine .goesOn _ _ hr (setRequest_self _ _ _) (by simp)
        (goesOn_quiet rfl rfl (fun _ => id) ?_ ?_ ?_ ?_ ?_)
        <;> simp [Request.mentions, Request.cancels, Request.interrupts]
    | cons jobId rest =>
      refine .goesOn _ _ hr (setRequest_self _ _ _) (by simp) ⟨rfl, fun _ => id, fun _ => goesOn_assign,
        by simp, by simp, fun j hj => .inl ?_, by simp [Request.cancels], fun j hj => .inr ?_⟩
      · exact List.mem_cons.mpr (hj.imp Eq.symm id)
      · intro job' hj' hid
        obtain ⟨job₀, hjob₀, rfl⟩ := Jobs.mem_assign.mp hj'
        have heq : job₀.jobId = jobId := by
          split at hid
          · assumption
          · exact hid.trans hj.symm
        rw [if_pos heq]
        rfl
  | interruptSetting message p rest =>
    refine .goesOn _ _ hr (setRequest_self _ _ _) (by simp) (goesOn_of_setting rfl rfl rfl ?_ ?_ ?_ ?_ ?_)
      <;> cases hp : (p.step s.jobs).2 with
      | none => simp +contextual [Request.mentions, Request.cancels, Request.interrupts]
      | some p' => simp +contextual [Request.mentions, Request.cancels, Request.interrupts, step_jobId hp]

def WorkerPc.current (w : WorkerPc) : Option String :=
  match w with
  | .idle => none
  | .picked jobId _ | .inTry _ jobId | .cleaning jobId => some jobId
  | .skipping p | .closing p | .failing p => some p.jobId
  | .starting p => some p.jobId

structure WorksOn (s s' : JobManager) : Prop where
  queue : s'.queue = s.queue
  refs : s'.refs = s.refs
  current : s'.worker.current = none ∨ s'.worker.current = s.worker.current
  picked : ∀ j closed, s'.worker ≠ .picked j closed
  starting : ∀ p, s'.worker ≠ .starting p
  tried : ∀ phase j, s'.worker = .inTry phase j → j ∈ s'.created ∨ ∃ phase', s.worker = .inTry phase' j ∧
    phase' ≠ .adding
  cleaned : ∀ j, s'.worker = .cleaning j → (∀ job, job ∈ s'.jobs → job.jobId = j → job.isTerminal = true) ∨
    s.worker = .inTry .exited j

inductive WorkerMove (s : JobManager) (e : WorkerEvent) (s' : JobManager) : Prop where
  | stays : s' = s → WorkerMove s e s'
  | pops (jobId : String) (rest : List String) (closed : Bool) : s.worker = .idle →
      s.queue = jobId :: rest → s' = { s with queue := rest, worker := .picked jobId closed } →
      WorkerMove s e s'
  | starts (job : HarnessJob) (closed : Bool) : s.worker = .picked job.jobId closed → job ∈ s.jobs →
      job.cancelRequested = false →
      s' = { s with worker := .starting ⟨job.jobId, [], .running, rfl, false⟩ } → WorkerMove s e s'
  | sets (p : Starting) : s.worker = .starting p →
      s' = s.settingStep p .starting (.inTry .adding p.jobId) → WorkerMove s e s'
  | worksOn : WorksOn s s' → WorkerMove s e s'
  | cleans (jobId : String) (refs : List String) (w : WorkerPc) : s.worker = .cleaning jobId →
      (∀ r, r ∈ refs ↔ r ∈ s.refs ∧
        ∀ job, job ∈ s.jobs → job.jobId = jobId → e.refDeleted = true → r ≠ job.refName) →
      (w = .idle ∨ ∃ p, w = .failing p ∧ p.jobId = jobId) → s' = { s with refs := refs, worker := w } →
      WorkerMove s e s'

theorem worksOn_same (hqueue : s'.queue = s.queue) (hrefs : s'.refs = s.refs)
    (hcurrent : s'.worker.current = none ∨ s'.worker.current = s.worker.current)
    (hpicked : ∀ j closed, s'.worker ≠ .picked j closed) (hstarting : ∀ p, s'.worker ≠ .starting p)
    (htried : ∀ phase j, s'.worker ≠ .inTry phase j) (hcleaned : ∀ j, s'.worker ≠ .cleaning j) :
    WorksOn s s' where
  queue := hqueue
  refs := hrefs
  current := hcurrent
  picked := hpicked
  starting := hstarting
  tried phase j h := absurd h (htried phase j)
  cleaned j h := absurd h (hcleaned j)

theorem worksOn_phase {phase phase' : Phase}
    (hw : s.worker = .inTry phase jobId) (hphase : phase ≠ .adding) (hw' : s'.worker = .inTry phase' jobId)
    (hqueue : s'.queue = s.queue) (hrefs : s'.refs = s.refs) : WorksOn s s' where
  queue := hqueue
  refs := hrefs
  current := by
    rw [hw, hw']
    exact .inr rfl
  picked j closed h := by
    rw [hw'] at h
    cases h
  starting p h := by
    rw [hw'] at h
    cases h
  tried phase₁ j h := by
    rw [hw'] at h
    cases h
    exact .inr ⟨phase, hw, hphase⟩
  cleaned j h := by
    rw [hw'] at h
    cases h

theorem workerMove_tryStep {phase : Phase} (hw : s.worker = .inTry phase job.jobId) (e : WorkerEvent) :
    WorkerMove s e (s.tryStep phase job e) := by
  have hclosing : ∀ (jobs : Jobs) (p : Closing), p.jobId = job.jobId →
      WorkerMove s e { s with jobs := jobs, worker := .closing p } := by
    intro jobs p hp
    refine .worksOn (worksOn_same rfl rfl (.inr ?_) (by simp) (by simp) (by simp) (by simp))
    rw [hw]
    exact congrArg some hp
  cases phase with
  | adding =>
    simp only [JobManager.tryStep]
    cases e.added with
    | ok u =>
      simp only
      split
      · refine .worksOn ⟨rfl, rfl, .inr ?_, by simp, by simp, ?_, by simp⟩
        · rw [hw]
          rfl
        · intro phase j h
          cases h
          exact .inl List.mem_cons_self
      · exact .stays rfl
    | error stderr => exact hclosing s.jobs _ rfl
  | waiting => exact .worksOn (worksOn_phase hw (by simp) rfl rfl rfl)
  | exited =>
    simp only [JobManager.tryStep]
    split
    · refine .worksOn ⟨rfl, rfl, .inr ?_, by simp, by simp, by simp, ?_⟩
      · rw [hw]
        rfl
      · intro j h
        cases h
        exact .inr hw
    · exact .worksOn (worksOn_phase hw (by simp) rfl rfl rfl)
  | checkingLost =>
    simp only [JobManager.tryStep]
    split <;> exact .worksOn (worksOn_phase hw (by simp) rfl rfl rfl)
  | markingLost reason => exact hclosing _ _ rfl
  | checkingStall =>
    simp only [JobManager.tryStep]
    split
    · exact hclosing s.jobs _ rfl
    · exact .worksOn (worksOn_phase hw (by simp) rfl rfl rfl)
  | checkingCancel =>
    simp only [JobManager.tryStep]
    split
    · exact hclosing s.jobs _ rfl
    · exact .worksOn (worksOn_phase hw (by simp) rfl rfl rfl)
  | judging => exact hclosing s.jobs _ (verdict_jobId job.jobId e)

theorem workerMove_closing {p : Closing} (hw : s.worker = .closing p) (e : WorkerEvent) :
    WorkerMove s e (s.settingStep p .closing (.cleaning p.jobId)) := by
  have hset := sets p s.jobs
  refine .worksOn ⟨rfl, rfl, .inr ?_, ?_, ?_, ?_, ?_⟩
  · rw [hw]
    cases hp : (p.step s.jobs).2 with
    | none =>
      simp only [JobManager.settingStep, hp]
      rfl
    | some p' =>
      simp only [JobManager.settingStep, hp]
      exact congrArg some (step_jobId hp)
  · intro j closed
    cases hp : (p.step s.jobs).2 <;> simp [JobManager.settingStep, hp]
  · intro q
    cases hp : (p.step s.jobs).2 <;> simp [JobManager.settingStep, hp]
  · intro phase j
    cases hp : (p.step s.jobs).2 <;> simp [JobManager.settingStep, hp]
  · intro j h
    refine .inl fun job' hj hid => ?_
    cases hp : (p.step s.jobs).2 with
    | none =>
      simp only [JobManager.settingStep, hp, Option.map_none, Option.getD_none, WorkerPc.cleaning.injEq] at h
      obtain ⟨_, _, _, _, _, hclosed⟩ := hset.spec hj
      exact hclosed hp (hid.trans h.symm)
    | some p' =>
      simp only [JobManager.settingStep, hp] at h
      cases h

/-- A `_set_status` after which the worker is idle. -/
theorem workerMove_idle {p : Closing} {on : Closing → WorkerPc}
    (hon : on = .skipping ∨ on = .failing) (hw : s.worker = on p) (e : WorkerEvent) :
    WorkerMove s e (s.settingStep p on .idle) := by
  rcases hon with rfl | rfl <;> cases hp : (p.step s.jobs).2 with
  | none =>
    refine .worksOn (worksOn_same rfl rfl (.inl ?_) ?_ ?_ ?_ ?_) <;>
      simp [JobManager.settingStep, hp, WorkerPc.current]
  | some p' =>
    refine .worksOn (worksOn_same rfl rfl (.inr ?_) ?_ ?_ ?_ ?_) <;>
      simp [JobManager.settingStep, hp, WorkerPc.current, hw, step_jobId hp]

theorem cleaning_refs (hw : s.worker = .cleaning jobId) (e : WorkerEvent) (r : String) :
    r ∈ (s.work e).refs ↔ r ∈ s.refs ∧
      ∀ job, job ∈ s.jobs → job.jobId = jobId → e.refDeleted = true → r ≠ job.refName := by
  cases hjob : s.jobs.get? jobId with
  | none =>
    simp only [JobManager.work, hw, hjob]
    refine ⟨fun h => ⟨h, fun job hj hid => ?_⟩, fun h => h.1⟩
    exact absurd hid (Table.get?_eq_none.mp hjob job hj)
  | some job =>
    have hone : ∀ job', job' ∈ s.jobs → job'.jobId = jobId → job' = job := fun job' hj hid =>
      Table.eq_of_key hj (Table.mem_of_get? hjob) (hid.trans (Table.key_of_get? hjob).symm)
    simp only [JobManager.work, hw, hjob]
    split
    · rename_i hd
      rw [List.mem_filter, decide_eq_true_eq]
      refine and_congr_right fun _ => ⟨fun h job' hj hid _ => hone job' hj hid ▸ h, fun h => ?_⟩
      exact h job (Table.mem_of_get? hjob) (Table.key_of_get? hjob) hd
    · rename_i hd
      exact ⟨fun h => ⟨h, fun _ _ _ hd' => absurd hd' hd⟩, fun h => h.1⟩

theorem workerMove_work (s : JobManager) (e : WorkerEvent) : WorkerMove s e (s.work e) := by
  unfold JobManager.work
  cases hw : s.worker with
  | idle =>
    simp only
    split
    · exact .stays rfl
    · rename_i jobId rest hq
      exact .pops jobId rest _ hw hq rfl
  | picked jobId closed =>
    simp only
    split
    · exact .worksOn (worksOn_same rfl rfl (.inl rfl) (by simp) (by simp) (by simp) (by simp))
    · rename_i job hjob
      obtain ⟨hmem, rfl⟩ := Table.get?_eq_some.mp hjob
      cases hc : job.cancelRequested with
      | true =>
        refine .worksOn (worksOn_same rfl rfl (.inr ?_) (by simp) (by simp) (by simp) (by simp))
        rw [hw]
        rfl
      | false => exact .starts job closed hw hmem hc rfl
  | skipping p => exact workerMove_idle (.inl rfl) hw e
  | starting p => exact .sets p hw rfl
  | inTry phase jobId =>
    simp only
    split
    · exact .stays rfl
    · rename_i job hjob
      obtain ⟨hmem, rfl⟩ := Table.get?_eq_some.mp hjob
      split
      · refine .worksOn (worksOn_same rfl rfl (.inr ?_) (by simp) (by simp) (by simp) (by simp))
        rw [hw]
        rfl
      · exact workerMove_tryStep hw e
  | closing p => exact workerMove_closing hw e
  | cleaning jobId =>
    have hrefs := cleaning_refs hw e
    unfold JobManager.work at hrefs
    rw [hw] at hrefs
    refine .cleans jobId _ _ hw hrefs ?_ rfl
    cases e.raised with
    | none => exact .inl rfl
    | some exc => exact .inr ⟨_, rfl, rfl⟩
  | failing p => exact workerMove_idle (.inr rfl) hw e

inductive StepMove (s : JobManager) (a : Act) (s' : JobManager) : Prop where
  | rests : s'.queue = s.queue → s'.refs = s.refs → s'.created = s.created → s'.worker = s.worker →
      s'.requests = s.requests → StepMove s a s'
  | request (t : Nat) : (∀ j, s.requests t = .queueing j → ∃ e, a = .advance t e) →
      s'.worker = s.worker → s'.created = s.created →
      (∀ t', t' ≠ t → s'.requests t' = s.requests t') → RequestMove s s' t → StepMove s a s'
  | works (e : WorkerEvent) : a = .work e → s'.requests = s.requests →
      (∀ j, j ∈ s.created → j ∈ s'.created) → WorkerMove s e s' → StepMove s a s'

theorem start_frame (s : JobManager) (t : Nat) (c : Call) :
    (s.start t c).worker = s.worker ∧ (s.start t c).created = s.created ∧
      ∀ t', t' ≠ t → (s.start t c).requests t' = s.requests t' := by
  cases c with
  | submit m =>
    simp only [JobManager.start]
    split
    · exact ⟨rfl, rfl, fun t' h => setRequest_ne _ _ h⟩
    · split <;> exact ⟨rfl, rfl, fun t' h => setRequest_ne _ _ h⟩
  | cancel jobId =>
    simp only [JobManager.start]
    split <;> exact ⟨rfl, rfl, fun t' h => setRequest_ne _ _ h⟩
  | markInterrupted reason => exact ⟨rfl, rfl, fun t' h => setRequest_ne _ _ h⟩

theorem advance_frame (s : JobManager) (t : Nat) (e : RequestEvent) :
    (s.advance t e).worker = s.worker ∧ (s.advance t e).created = s.created ∧
      ∀ t', t' ≠ t → (s.advance t e).requests t' = s.requests t' := by
  unfold JobManager.advance
  cases s.requests t with
  | absent => exact ⟨rfl, rfl, fun _ _ => rfl⟩
  | returned r => exact ⟨rfl, rfl, fun _ _ => rfl⟩
  | fetching m =>
    simp only
    split <;> exact ⟨rfl, rfl, fun t' h => setRequest_ne _ _ h⟩
  | registering m =>
    simp only
    split
    · exact ⟨rfl, rfl, fun t' h => setRequest_ne _ _ h⟩
    · split
      · exact ⟨rfl, rfl, fun t' h => setRequest_ne _ _ h⟩
      · exact ⟨rfl, rfl, fun _ _ => rfl⟩
  | queueing jobId => exact ⟨rfl, rfl, fun t' h => setRequest_ne _ _ h⟩
  | cancelling jobId =>
    simp only
    split <;> exact ⟨rfl, rfl, fun t' h => setRequest_ne _ _ h⟩
  | cancelSetting p => exact ⟨rfl, rfl, fun t' h => setRequest_ne _ _ h⟩
  | interrupting message active =>
    cases active <;> exact ⟨rfl, rfl, fun t' h => setRequest_ne _ _ h⟩
  | interruptSetting message p rest => exact ⟨rfl, rfl, fun t' h => setRequest_ne _ _ h⟩

theorem tryStep_frame (s : JobManager) (phase : Phase) (job : HarnessJob) (e : WorkerEvent) :
    (s.tryStep phase job e).requests = s.requests ∧ ∀ j, j ∈ s.created → j ∈ (s.tryStep phase job e).created := by
  cases phase with
  | adding =>
    simp only [JobManager.tryStep]
    cases e.added with
    | ok u =>
      simp only
      split
      · exact ⟨rfl, fun _ => List.mem_cons_of_mem _⟩
      · exact ⟨rfl, fun _ => id⟩
    | error stderr => exact ⟨rfl, fun _ => id⟩
  | checkingLost =>
    simp only [JobManager.tryStep]
    split <;> exact ⟨rfl, fun _ => id⟩
  | checkingStall =>
    simp only [JobManager.tryStep]
    split <;> exact ⟨rfl, fun _ => id⟩
  | checkingCancel =>
    simp only [JobManager.tryStep]
    split <;> exact ⟨rfl, fun _ => id⟩
  | waiting => exact ⟨rfl, fun _ => id⟩
  | exited => exact ⟨rfl, fun _ => id⟩
  | markingLost reason => exact ⟨rfl, fun _ => id⟩
  | judging => exact ⟨rfl, fun _ => id⟩

theorem work_frame (s : JobManager) (e : WorkerEvent) :
    (s.work e).requests = s.requests ∧ ∀ j, j ∈ s.created → j ∈ (s.work e).created := by
  unfold JobManager.work
  cases s.worker with
  | idle =>
    simp only
    split <;> exact ⟨rfl, fun _ => id⟩
  | picked jobId closed =>
    simp only
    split <;> exact ⟨rfl, fun _ => id⟩
  | inTry phase jobId =>
    simp only
    split
    · exact ⟨rfl, fun _ => id⟩
    · split
      · exact ⟨rfl, fun _ => id⟩
      · exact tryStep_frame s phase _ e
  | skipping p => exact ⟨rfl, fun _ => id⟩
  | starting p => exact ⟨rfl, fun _ => id⟩
  | closing p => exact ⟨rfl, fun _ => id⟩
  | cleaning jobId => exact ⟨rfl, fun _ => id⟩
  | failing p => exact ⟨rfl, fun _ => id⟩

theorem stepMove (s : JobManager) (a : Act) : StepMove s a (step s a) := by
  cases a with
  | poll jobId => exact .rests rfl rfl rfl rfl rfl
  | stall reason =>
    simp only [step]
    split <;> exact .rests rfl rfl rfl rfl rfl
  | start t c =>
    simp only [step]
    split
    · rename_i hr
      obtain ⟨hworker, hcreated, hne⟩ := start_frame s t c
      refine .request t (fun j hj => ?_) hworker hcreated hne (requestMove_start hr c)
      rw [hr] at hj
      cases hj
    · exact .rests rfl rfl rfl rfl rfl
  | advance t e =>
    obtain ⟨hworker, hcreated, hne⟩ := advance_frame s t e
    exact .request t (fun _ _ => ⟨e, rfl⟩) hworker hcreated hne (requestMove_advance s t e)
  | work e =>
    obtain ⟨hrequests, hcreated⟩ := work_frame s e
    exact .works e rfl hrequests hcreated (workerMove_work s e)

/-- The `submit` of a new job has answered. -/
def JobManager.Submitted (s : JobManager) (jobId : String) : Prop :=
  ∃ t, s.requests t = .returned (.submitted jobId false)

def JobManager.Waiting (s : JobManager) (jobId : String) : Prop :=
  jobId ∈ s.queue ∨ (∃ t, s.requests t = .queueing jobId) ∨ ∃ closed, s.worker = .picked jobId closed

structure Tokens (s : JobManager) : Prop where
  nodup : s.queue.Nodup
  taken : ∀ j, s.worker.current = some j → j ∉ s.queue
  pending : ∀ t j, s.requests t = .queueing j → j ∉ s.queue ∧ s.worker.current ≠ some j
  once : ∀ t t' j, s.requests t = .queueing j → s.requests t' = .queueing j → t = t'
  queued : ∀ j, j ∈ s.queue ∨ s.worker.current = some j → s.Submitted j
  known : ∀ t j, (s.requests t).mentions j → ∃ job, job ∈ s.jobs ∧ job.jobId = j

theorem Tokens.known_of_submitted (h : Tokens s) {j : String} (hj : s.Submitted j) :
    ∃ job, job ∈ s.jobs ∧ job.jobId = j := by
  obtain ⟨t, ht⟩ := hj
  refine h.known t j ?_
  rw [ht]
  rfl

theorem Tokens.known_of_pending (h : Tokens s) {t : Nat} {j : String}
    (hj : s.requests t = .queueing j) : ∃ job, job ∈ s.jobs ∧ job.jobId = j := by
  refine h.known t j ?_
  rw [hj]
  rfl

theorem Tokens.of_same (h : Tokens s) (hqueue : s'.queue = s.queue)
    (hcurrent : s'.worker.current = none ∨ s'.worker.current = s.worker.current)
    (hrequests : s'.requests = s.requests)
    (hjobs : ∀ j, (∃ job, job ∈ s.jobs ∧ job.jobId = j) → ∃ job, job ∈ s'.jobs ∧ job.jobId = j) :
    Tokens s' := by
  have hheld : ∀ j, s'.worker.current = some j → s.worker.current = some j := by
    intro j hj
    rcases hcurrent with hc | hc
    · rw [hc] at hj
      cases hj
    · exact hc ▸ hj
  refine ⟨hqueue ▸ h.nodup, fun j hj => hqueue ▸ h.taken j (hheld j hj), fun t j ht => ?_,
    fun t t' j ht ht' => ?_, fun j hj => ?_, fun t j hj => ?_⟩
  · rw [hrequests] at ht
    rw [hqueue]
    exact ⟨(h.pending t j ht).1, fun hj => (h.pending t j ht).2 (hheld j hj)⟩
  · rw [hrequests] at ht ht'
    exact h.once t t' j ht ht'
  · rw [hqueue] at hj
    obtain ⟨t, ht⟩ := h.queued j (hj.imp id (hheld j))
    exact ⟨t, by rw [hrequests]; exact ht⟩
  · rw [hrequests] at hj
    exact hjobs j (h.known t j hj)

/-- Of the requests, `t` is not putting a job in the queue. -/
theorem Tokens.of_request (h : Tokens s) (hqueue : s'.queue = s.queue)
    (hworker : s'.worker = s.worker) (hne : ∀ t', t' ≠ t → s'.requests t' = s.requests t')
    (hpending : ∀ j, s'.requests t ≠ .queueing j) (hopen : ∀ j, s.requests t ≠ .returned j)
    (hmentions : ∀ j, (s'.requests t).mentions j → ∃ job, job ∈ s.jobs ∧ job.jobId = j)
    (hjobs : ∀ j, (∃ job, job ∈ s.jobs ∧ job.jobId = j) → ∃ job, job ∈ s'.jobs ∧ job.jobId = j) :
    Tokens s' := by
  have hqueueing : ∀ t' j, s'.requests t' = .queueing j → s.requests t' = .queueing j := by
    intro t' j ht'
    by_cases heq : t' = t
    · subst heq
      exact absurd ht' (hpending j)
    · exact hne t' heq ▸ ht'
  refine ⟨hqueue ▸ h.nodup, ?_, fun t' j ht => ?_, fun t₁ t₂ j h₁ h₂ => ?_, fun j hj => ?_, fun t' j hj => ?_⟩
  · rw [hqueue, hworker]
    exact h.taken
  · rw [hqueue, hworker]
    exact h.pending t' j (hqueueing t' j ht)
  · exact h.once t₁ t₂ j (hqueueing t₁ j h₁) (hqueueing t₂ j h₂)
  · rw [hqueue, hworker] at hj
    obtain ⟨t', ht'⟩ := h.queued j hj
    refine ⟨t', ?_⟩
    rw [hne t' fun heq => hopen _ (heq ▸ ht')]
    exact ht'
  · by_cases heq : t' = t
    · subst heq
      exact hjobs j (hmentions j hj)
    · rw [hne t' heq] at hj
      exact hjobs j (h.known t' j hj)

theorem Tokens.registers {m : Metadata} (h : Tokens s)
    (hr : s.requests t = .registering m) (hr' : s'.requests t = .queueing jobId)
    (hinsert : s.jobs.insert? (m.job jobId) = some s'.jobs) (hqueue : s'.queue = s.queue)
    (hworker : s'.worker = s.worker) (hne : ∀ t', t' ≠ t → s'.requests t' = s.requests t')
    (hjobs : ∀ j, (∃ job, job ∈ s.jobs ∧ job.jobId = j) → ∃ job, job ∈ s'.jobs ∧ job.jobId = j) :
    Tokens s' := by
  have hfresh : ¬ ∃ job, job ∈ s.jobs ∧ job.jobId = jobId := fun ⟨job, hj, hid⟩ =>
    Table.get?_eq_none.mp (Table.insert?_fresh hinsert) job hj hid
  have hunsubmitted : ¬ s.Submitted jobId := fun hs => hfresh (h.known_of_submitted hs)
  refine ⟨hqueue ▸ h.nodup, ?_, fun t' j ht => ?_, fun t₁ t₂ j h₁ h₂ => ?_, fun j hj => ?_, fun t' j hj => ?_⟩
  · rw [hqueue, hworker]
    exact h.taken
  · rw [hqueue, hworker]
    by_cases heq : t' = t
    · subst heq
      cases hr'.symm.trans ht
      exact ⟨fun hq => hunsubmitted (h.queued _ (.inl hq)), fun hw => hunsubmitted (h.queued _ (.inr hw))⟩
    · exact h.pending t' j (hne t' heq ▸ ht)
  · by_cases e₁ : t₁ = t
    · by_cases e₂ : t₂ = t
      · exact e₁.trans e₂.symm
      · subst e₁
        cases hr'.symm.trans h₁
        exact absurd (h.known_of_pending (hne t₂ e₂ ▸ h₂)) hfresh
    · by_cases e₂ : t₂ = t
      · subst e₂
        cases hr'.symm.trans h₂
        exact absurd (h.known_of_pending (hne t₁ e₁ ▸ h₁)) hfresh
      · exact h.once t₁ t₂ j (hne t₁ e₁ ▸ h₁) (hne t₂ e₂ ▸ h₂)
  · rw [hqueue, hworker] at hj
    obtain ⟨t', ht'⟩ := h.queued j hj
    refine ⟨t', ?_⟩
    rw [hne t' fun heq => ?_]
    · exact ht'
    · rw [heq, hr] at ht'
      cases ht'
  · by_cases heq : t' = t
    · subst heq
      rw [hr'] at hj
      exact ⟨m.job jobId, (Table.mem_of_insert? hinsert).mpr (.inr rfl), hj⟩
    · rw [hne t' heq] at hj
      exact hjobs j (h.known t' j hj)

theorem Tokens.queues (h : Tokens s)
    (hr : s.requests t = .queueing jobId) (hr' : s'.requests t = .returned (.submitted jobId false))
    (hjobs : s'.jobs = s.jobs) (hqueue : s'.queue = s.queue ++ [jobId]) (hworker : s'.worker = s.worker)
    (hne : ∀ t', t' ≠ t → s'.requests t' = s.requests t') : Tokens s' := by
  have hnot : ∀ t' j, s'.requests t' = .queueing j → t' ≠ t := by
    rintro t' j ht' rfl
    rw [hr'] at ht'
    cases ht'
  refine ⟨?_, fun j hj => ?_, fun t' j ht => ?_, fun t₁ t₂ j h₁ h₂ => ?_, fun j hj => ?_, fun t' j hj => ?_⟩
  · rw [hqueue, List.nodup_append]
    refine ⟨h.nodup, List.nodup_singleton _, fun x hx y hy => ?_⟩
    rw [List.mem_singleton] at hy
    rintro rfl
    exact (h.pending t jobId hr).1 (hy ▸ hx)
  · rw [hworker] at hj
    rw [hqueue, List.mem_append, List.mem_singleton]
    rintro (hq | heq)
    · exact h.taken j hj hq
    · exact (h.pending t jobId hr).2 (heq ▸ hj)
  · have ht' := hne t' (hnot t' j ht) ▸ ht
    rw [hqueue, hworker, List.mem_append, List.mem_singleton]
    refine ⟨?_, (h.pending t' j ht').2⟩
    rintro (hq | heq)
    · exact (h.pending t' j ht').1 hq
    · exact hnot t' j ht (h.once t' t jobId (heq ▸ ht') hr)
  · exact h.once t₁ t₂ j (hne t₁ (hnot t₁ j h₁) ▸ h₁) (hne t₂ (hnot t₂ j h₂) ▸ h₂)
  · have hcarry : s.Submitted j → s'.Submitted j := by
      rintro ⟨t', ht'⟩
      refine ⟨t', ?_⟩
      rw [hne t' fun heq => ?_]
      · exact ht'
      · rw [heq, hr] at ht'
        cases ht'
    rw [hqueue, hworker, List.mem_append, List.mem_singleton] at hj
    rcases hj with (hj | rfl) | hj
    · exact hcarry (h.queued j (.inl hj))
    · exact ⟨t, hr'⟩
    · exact hcarry (h.queued j (.inr hj))
  · rw [hjobs]
    by_cases heq : t' = t
    · subst heq
      rw [hr'] at hj
      exact hj ▸ h.known_of_pending hr
    · rw [hne t' heq] at hj
      exact h.known t' j hj

theorem Tokens.pops {rest : List String} (h : Tokens s) (hq : s.queue = jobId :: rest) (closed : Bool) :
    Tokens { s with queue := rest, worker := .picked jobId closed } := by
  have hnodup := h.nodup
  rw [hq, List.nodup_cons] at hnodup
  refine ⟨hnodup.2, fun j hj => ?_, fun t j ht => ⟨fun hj => ?_, fun hj => ?_⟩, h.once, fun j hj => ?_, h.known⟩
  · cases hj
    exact hnodup.1
  · exact (h.pending t j ht).1 (hq ▸ List.mem_cons_of_mem _ hj)
  · cases hj
    exact (h.pending t _ ht).1 (hq ▸ List.mem_cons_self)
  · rcases hj with hj | hj
    · exact h.queued j (.inl (hq ▸ List.mem_cons_of_mem _ hj))
    · cases hj
      exact h.queued _ (.inl (hq ▸ List.mem_cons_self))

theorem starting_current (s : JobManager) (p : Starting) :
    (s.settingStep p .starting (.inTry .adding p.jobId)).worker.current = some p.jobId := by
  cases hp : (p.step s.jobs).2 with
  | none =>
    simp only [JobManager.settingStep, hp]
    rfl
  | some p' =>
    simp only [JobManager.settingStep, hp]
    exact congrArg some (step_jobId hp)

theorem tokens_step (a : Act) (h : Tokens s) : Tokens (step s a) := by
  have hjobs : ∀ j, (∃ job, job ∈ s.jobs ∧ job.jobId = j) → ∃ job, job ∈ (step s a).jobs ∧ job.jobId = j := by
    rintro j ⟨job, hj, hid⟩
    obtain ⟨job', hj', hlater⟩ := later_of_mem a hj
    exact ⟨job', hj', hlater.jobId.trans hid⟩
  cases stepMove s a with
  | rests hqueue hrefs hcreated hworker hrequests =>
    exact h.of_same hqueue (.inr (congrArg WorkerPc.current hworker)) hrequests hjobs
  | request t hact hworker hcreated hne hmove =>
    cases hmove with
    | stays heq =>
      rw [heq]
      exact h
    | goesOn r r' hr hr' hopen g =>
      refine h.of_request g.queue hworker hne (hr' ▸ g.pending) (hr ▸ hopen) (fun j hj => ?_) hjobs
      rw [hr'] at hj
      rcases g.mentions j hj with hm | hex
      · exact h.known t j (hr ▸ hm)
      · exact hex
    | registers m jobId hr hr' hinsert hqueue hrefs =>
      exact h.registers hr hr' hinsert hqueue hworker hne hjobs
    | queues jobId hr hr' hsame hqueue hrefs => exact h.queues hr hr' hsame hqueue hworker hne
  | works e ha hrequests hcreated hmove =>
    cases hmove with
    | stays heq =>
      rw [heq]
      exact h
    | pops jobId rest closed hw hq heq => exact heq ▸ h.pops hq closed
    | starts job closed hw hj hc heq =>
      refine h.of_same (by rw [heq]) (.inr ?_) hrequests hjobs
      rw [heq, hw]
      rfl
    | sets p hw heq =>
      refine h.of_same (by rw [heq]; rfl) (.inr ?_) hrequests hjobs
      rw [heq, starting_current, hw]
      rfl
    | worksOn g => exact h.of_same g.queue g.current hrequests hjobs
    | cleans jobId refs w hw hmem hidle heq =>
      refine h.of_same (by rw [heq]) ?_ hrequests hjobs
      rw [heq]
      rcases hidle with rfl | ⟨p, rfl, rfl⟩
      · exact .inl rfl
      · exact .inr (by rw [hw]; rfl)

theorem waiting_of_step (hj : (step s a).Waiting j) (hex : ∃ job, job ∈ s.jobs ∧ job.jobId = j) : s.Waiting j := by
  cases stepMove s a with
  | rests hqueue hrefs hcreated hworker hrequests =>
    rw [JobManager.Waiting, hqueue, hworker, hrequests] at hj
    exact hj
  | request t hact hworker hcreated hne hmove =>
    rw [JobManager.Waiting, hworker] at hj
    have hother : (∃ t', t' ≠ t ∧ (step s a).requests t' = .queueing j) → s.Waiting j := by
      rintro ⟨t', heq, ht'⟩
      exact .inr (.inl ⟨t', hne t' heq ▸ ht'⟩)
    cases hmove with
    | stays heq =>
      rw [heq] at hj
      exact hj
    | goesOn r r' hr hr' hopen g =>
      rw [g.queue] at hj
      rcases hj with hj | ⟨t', ht'⟩ | hj
      · exact .inl hj
      · refine hother ⟨t', fun heq => ?_, ht'⟩
        rw [heq, hr'] at ht'
        exact g.pending j ht'
      · exact .inr (.inr hj)
    | registers m jobId hr hr' hinsert hqueue hrefs =>
      rw [hqueue] at hj
      rcases hj with hj | ⟨t', ht'⟩ | hj
      · exact .inl hj
      · refine hother ⟨t', fun heq => ?_, ht'⟩
        rw [heq, hr'] at ht'
        cases ht'
        obtain ⟨job, hjob, hid⟩ := hex
        exact Table.get?_eq_none.mp (Table.insert?_fresh hinsert) job hjob hid
      · exact .inr (.inr hj)
    | queues jobId hr hr' hsame hqueue hrefs =>
      rw [hqueue, List.mem_append, List.mem_singleton] at hj
      rcases hj with (hj | hj) | ⟨t', ht'⟩ | hj
      · exact .inl hj
      · exact .inr (.inl ⟨t, hj ▸ hr⟩)
      · refine hother ⟨t', fun heq => ?_, ht'⟩
        rw [heq, hr'] at ht'
        cases ht'
      · exact .inr (.inr hj)
  | works e ha hrequests hcreated hmove =>
    rw [JobManager.Waiting, hrequests] at hj
    have hsame : (step s a).queue = s.queue → (∀ closed, (step s a).worker ≠ .picked j closed) → s.Waiting j := by
      intro hqueue hpicked
      rw [hqueue] at hj
      rcases hj with hj | hj | ⟨closed, hj⟩
      · exact .inl hj
      · exact .inr (.inl hj)
      · exact absurd hj (hpicked closed)
    cases hmove with
    | stays heq =>
      rw [heq] at hj
      exact hj
    | pops jobId rest closed hw hq heq =>
      rw [heq] at hj
      rcases hj with hj | hj | ⟨closed', hj⟩
      · exact .inl (hq ▸ List.mem_cons_of_mem _ hj)
      · exact .inr (.inl hj)
      · cases hj
        exact .inl (hq ▸ List.mem_cons_self)
    | starts job closed hw hmem hc heq => exact hsame (by rw [heq]) (by rw [heq]; simp)
    | sets p hw heq =>
      refine hsame (by rw [heq]; rfl) fun closed hp => ?_
      rw [heq] at hp
      cases hstep : (p.step s.jobs).2 <;> simp [JobManager.settingStep, hstep] at hp
    | worksOn g => exact hsame g.queue (g.picked j)
    | cleans jobId refs w hw hmem hidle heq =>
      refine hsame (by rw [heq]) fun closed hp => ?_
      rw [heq] at hp
      rcases hidle with rfl | ⟨p, rfl, -⟩ <;> cases hp

/-- Who writes a status: a `cancel`, a `mark_interrupted` or the worker about its own job. -/
theorem writer {st : JobStatus} (h : writing s a = some (j, .status st)) :
    (∃ t, (s.requests t).cancels j ∧ st.isTerminal = true) ∨
      (∃ t, (s.requests t).interrupts j ∧ st.isTerminal = true) ∨
        s.worker.current = some j ∧ (∀ closed, s.worker ≠ .picked j closed) ∧
          (st.isTerminal = true ∨ ∃ p, s.worker = .starting p ∧ p.guarded = true) := by
  have hpending : ∀ {allowed : JobStatus → Bool} (p : SettingStatus allowed),
      p.pending = some (j, .status st) → p.jobId = j ∧ p.status = st ∧ p.guarded = true := by
    intro allowed p hp
    unfold SettingStatus.pending SettingStatus.next at hp
    split at hp
    · rename_i hg
      split at hp
      · simp only [Option.some.injEq, Prod.mk.injEq, Assignment.status.injEq] at hp
        exact ⟨hp.1, hp.2, hg⟩
      · cases hp
    · cases hp
  cases a with
  | poll id => cases h
  | stall reason => cases h
  | start t c => cases h
  | advance t e =>
    simp only [writing] at h
    split at h
    · rename_i p hr
      obtain ⟨hid, rfl, -⟩ := hpending p h
      exact .inl ⟨t, by rw [hr]; exact hid, p.isAllowed⟩
    · rename_i message p rest hr
      obtain ⟨hid, rfl, -⟩ := hpending p h
      exact .inr (.inl ⟨t, by rw [hr]; exact hid, p.isAllowed⟩)
    · cases h
  | work e =>
    simp only [writing] at h
    split at h
    · rename_i p hw
      obtain ⟨rfl, rfl, -⟩ := hpending p h
      exact .inr (.inr ⟨by rw [hw]; rfl, by rw [hw]; simp, .inl p.isAllowed⟩)
    · rename_i p hw
      obtain ⟨rfl, rfl, -⟩ := hpending p h
      exact .inr (.inr ⟨by rw [hw]; rfl, by rw [hw]; simp, .inl p.isAllowed⟩)
    · rename_i p hw
      obtain ⟨rfl, rfl, -⟩ := hpending p h
      exact .inr (.inr ⟨by rw [hw]; rfl, by rw [hw]; simp, .inl p.isAllowed⟩)
    · rename_i p hw
      obtain ⟨rfl, rfl, hg⟩ := hpending p h
      exact .inr (.inr ⟨by rw [hw]; rfl, by rw [hw]; simp, .inr ⟨p, hw, hg⟩⟩)
    · cases h

structure Flagged (s : JobManager) : Prop where
  cancels : ∀ t j, (s.requests t).cancels j → ∀ job, job ∈ s.jobs → job.jobId = j → job.cancelRequested = true
  interrupts : ∀ t j, (s.requests t).interrupts j → ∀ job, job ∈ s.jobs → job.jobId = j → job.interrupted = true
  /-- A job that is closed while it waits was cancelled or interrupted. -/
  waiting : ∀ job, job ∈ s.jobs → s.Waiting job.jobId → job.isTerminal = true →
    job.cancelRequested = true ∨ job.interrupted = true

/-- What a step that has no other reason adds to the marks of a request. -/
theorem marked_of_step {marks : Request → Prop} {P : Prop}
    (hgoes : ∀ r r', GoesOn s (step s a) r r' → marks r' → marks r ∨ P)
    (hqueueing : ∀ jobId, ¬ marks (.queueing jobId)) (hsubmitted : ∀ jobId, ¬ marks (.returned (.submitted jobId false)))
    (h : marks ((step s a).requests t)) : marks (s.requests t) ∨ P := by
  cases stepMove s a with
  | rests hqueue hrefs hcreated hworker hrequests => exact .inl (hrequests ▸ h)
  | works e ha hrequests hcreated hmove => exact .inl (hrequests ▸ h)
  | request t₀ hact hworker hcreated hne hmove =>
    by_cases heq : t = t₀
    · subst heq
      cases hmove with
      | stays hsame =>
        rw [hsame] at h
        exact .inl h
      | goesOn r r' hr hr' hopen g =>
        rw [hr'] at h
        rw [hr]
        exact hgoes r r' g h
      | registers m jobId hr hr' hinsert hqueue hrefs =>
        rw [hr'] at h
        exact absurd h (hqueueing jobId)
      | queues jobId hr hr' hsame hqueue hrefs =>
        rw [hr'] at h
        exact absurd h (hsubmitted jobId)
    · exact .inl (hne t heq ▸ h)

/-- A job of a request after a step has its flag when the request had it, and else by the step. -/
theorem flag_of_step {marks : Request → Prop} {flag : HarnessJob → Prop} (ht : Tokens s)
    (hgoes : ∀ r r', GoesOn s (step s a) r r' → marks r' →
      marks r ∨ ∀ job', job' ∈ (step s a).jobs → job'.jobId = j → flag job')
    (hqueueing : ∀ jobId, ¬ marks (.queueing jobId)) (hsubmitted : ∀ jobId, ¬ marks (.returned (.submitted jobId false)))
    (hmentions : ∀ r, marks r → r.mentions j) (hlater : ∀ job job', Later job job' → flag job → flag job')
    (h : marks (s.requests t) → ∀ job, job ∈ s.jobs → job.jobId = j → flag job)
    (hc : marks ((step s a).requests t)) (job' : HarnessJob) (hj : job' ∈ (step s a).jobs) (hid : job'.jobId = j) :
    flag job' := by
  rcases marked_of_step hgoes hqueueing hsubmitted hc with hc | hflag
  · rcases later_of_step hj with ⟨job, hjob, hjob', -⟩ | ⟨-, hfresh⟩
    · exact hlater job job' hjob' (h hc job hjob (hjob'.jobId.symm.trans hid))
    · obtain ⟨job, hjob, hid'⟩ := ht.known t j (hmentions _ hc)
      exact absurd (hid'.trans hid.symm) (hfresh job hjob)
  · exact hflag job' hj hid

theorem mentions_of_cancels (h : r.cancels j) : r.mentions j := by
  cases r with
  | cancelling _ => exact h
  | cancelSetting p => exact h
  | _ => exact False.elim h

theorem mentions_of_interrupts (h : r.interrupts j) : r.mentions j := by
  cases r with
  | interruptSetting message p active => exact .inl h
  | _ => exact False.elim h

theorem flagged_step (a : Act) (ht : Tokens s) (h : Flagged s) : Flagged (step s a) where
  cancels := by
    intro t j hc
    exact flag_of_step ht (fun r r' g => g.cancels j) (fun _ => id) (fun _ => id) (fun _ => mentions_of_cancels)
      (fun _ _ hlater => hlater.cancelRequested) (h.cancels t j) hc
  interrupts := by
    intro t j hc
    exact flag_of_step ht (fun r r' g => g.interrupts j) (fun _ => id) (fun _ => id)
      (fun _ => mentions_of_interrupts) (fun _ _ hlater => hlater.interrupted) (h.interrupts t j) hc
  waiting := by
    intro job' hj hwait hterm
    rcases later_of_step hj with ⟨job, hjob, hlater, hstatus⟩ | ⟨hopen, -⟩
    · have hw : s.Waiting job.jobId := by
        rw [hlater.jobId] at hwait
        exact waiting_of_step hwait ⟨job, hjob, rfl⟩
      rcases hstatus with hsame | ⟨st, hwrite, -⟩
      · exact (h.waiting job hjob hw (hsame ▸ hterm)).imp hlater.cancelRequested hlater.interrupted
      · rw [hlater.jobId] at hwrite
        rcases writer hwrite with ⟨t, hc, -⟩ | ⟨t, hc, -⟩ | ⟨hcurrent, hpicked, -⟩
        · exact .inl (hlater.cancelRequested (h.cancels t _ hc job hjob rfl))
        · exact .inr (hlater.interrupted (h.interrupts t _ hc job hjob rfl))
        · -- the worker writes about the job it has taken, which no longer waits
          rcases hw with hq | ⟨t, hq⟩ | ⟨closed, hq⟩
          · exact absurd hq (ht.taken _ hcurrent)
          · exact absurd hcurrent (ht.pending t _ hq).2
          · exact absurd hq (hpicked closed)
    · rw [hopen] at hterm
      cases hterm

def Needs (s : JobManager) (job : HarnessJob) : Prop :=
  job ∈ s.jobs ∧ job.isTerminal = false ∧ job.jobId ∉ s.created

def RefsKept (s : JobManager) : Prop :=
  ∀ job, Needs s job → s.Submitted job.jobId → job.refName ∈ s.refs

structure WorkerOk (s : JobManager) : Prop where
  tried : ∀ phase j, s.worker = .inTry phase j → phase ≠ .adding → j ∈ s.created
  cleaned : ∀ j, s.worker = .cleaning j → j ∈ s.created ∨
    ∀ job, job ∈ s.jobs → job.jobId = j → job.isTerminal = true
  started : ∀ p, s.worker = .starting p → ∀ job, job ∈ s.jobs → job.jobId = p.jobId →
    job.refName ∈ s.refs ∨ job.jobId ∈ s.created ∨
      p.guarded = false ∧ job.isTerminal = true ∧ job.interrupted = true

theorem later_of_current (ht : Tokens s) {j : String}
    (hcurrent : s.worker.current = some j) {job' : HarnessJob} (hj : job' ∈ (step s a).jobs)
    (hid : job'.jobId = j) :
    ∃ job, job ∈ s.jobs ∧ Later job job' ∧ job.jobId = j ∧
      (job.isTerminal = true → job'.isTerminal = true ∨ ∃ p, s.worker = .starting p ∧ p.guarded = true) := by
  rcases later_of_step hj with ⟨job, hjob, hlater, hstatus⟩ | ⟨-, hfresh⟩
  · refine ⟨job, hjob, hlater, hlater.jobId.symm.trans hid, fun hterm => ?_⟩
    rcases hstatus with hsame | ⟨st, hwrite, hst⟩
    · exact .inl (hsame.trans hterm)
    · rw [hst]
      rcases writer hwrite with ⟨t, -, h⟩ | ⟨t, -, h⟩ | ⟨-, -, h⟩
      · exact .inl h
      · exact .inl h
      · exact h
  · obtain ⟨job, hjob, hid'⟩ := ht.known_of_submitted (ht.queued j (.inr hcurrent))
    exact absurd (hid'.trans hid.symm) (hfresh job hjob)

theorem refs_of_step {r : String} (hr : r ∈ s.refs)
    (hw : ∀ e j, a = .work e → s.worker ≠ .cleaning j) : r ∈ (step s a).refs := by
  cases stepMove s a with
  | rests hqueue hrefs hcreated hworker hrequests => exact hrefs ▸ hr
  | request t hact hworker hcreated hne hmove =>
    cases hmove with
    | stays heq =>
      rw [heq]
      exact hr
    | goesOn r r' hr₀ hr' hopen g => exact g.refs _ hr
    | registers m jobId hr₀ hr' hinsert hqueue hrefs => exact hrefs ▸ hr
    | queues jobId hr₀ hr' hsame hqueue hrefs => exact hrefs ▸ hr
  | works e ha hrequests hcreated hmove =>
    cases hmove with
    | stays heq =>
      rw [heq]
      exact hr
    | pops jobId rest closed hpc hq heq =>
      rw [heq]
      exact hr
    | starts job closed hpc hmem hc heq =>
      rw [heq]
      exact hr
    | sets p hpc heq =>
      rw [heq]
      exact hr
    | worksOn g => exact g.refs ▸ hr
    | cleans jobId refs w hpc hmem hidle heq => exact absurd hpc (hw e jobId ha)

theorem created_of_step (hj : j ∈ s.created) : j ∈ (step s a).created := by
  cases stepMove s a with
  | rests hqueue hrefs hcreated hworker hrequests => exact hcreated ▸ hj
  | request t hact hworker hcreated hne hmove => exact hcreated ▸ hj
  | works e ha hrequests hcreated hmove => exact hcreated j hj

theorem WorkerOk.other (ht : Tokens s) (h : WorkerOk s)
    (hworker : (step s a).worker = s.worker) : WorkerOk (step s a) where
  tried phase j hw hphase := created_of_step (h.tried phase j (hworker ▸ hw) hphase)
  cleaned j hw := by
    rw [hworker] at hw
    rcases h.cleaned j hw with hc | hterm
    · exact .inl (created_of_step hc)
    · refine .inr fun job' hj hid => ?_
      obtain ⟨job, hjob, -, hid', hkeep⟩ := later_of_current ht (by rw [hw]; rfl) hj hid
      rcases hkeep (hterm job hjob hid') with hterm' | ⟨p, hp, -⟩
      · exact hterm'
      · rw [hw] at hp
        cases hp
  started p hw job' hj hid := by
    rw [hworker] at hw
    obtain ⟨job, hjob, hlater, hid', hkeep⟩ := later_of_current ht (by rw [hw]; rfl) hj hid
    rw [hlater.refName, hlater.jobId]
    rcases h.started p hw job hjob hid' with hr | hc | ⟨hg, hterm, hi⟩
    · exact .inl (refs_of_step hr fun _ _ _ => by rw [hw]; simp)
    · exact .inr (.inl (created_of_step hc))
    · refine .inr (.inr ⟨hg, ?_, hlater.interrupted hi⟩)
      rcases hkeep hterm with hterm' | ⟨q, hq, hg'⟩
      · exact hterm'
      · rw [hw] at hq
        cases hq
        rw [hg] at hg'
        cases hg'

theorem workerOk_of_pc (htried : ∀ phase j, s.worker ≠ .inTry phase j)
    (hcleaned : ∀ j, s.worker ≠ .cleaning j) (hstarted : ∀ p, s.worker ≠ .starting p) : WorkerOk s where
  tried phase j h := absurd h (htried phase j)
  cleaned j h := absurd h (hcleaned j)
  started p h := absurd h (hstarted p)

theorem workerOk_starting {p : Starting} (hw : s.worker = .starting p) (h : WorkerOk s) :
    WorkerOk (s.settingStep p .starting (.inTry .adding p.jobId)) := by
  have hset := sets p s.jobs
  cases hp : (p.step s.jobs).2 with
  | none =>
    have hworker : (s.settingStep p .starting (.inTry .adding p.jobId)).worker = .inTry .adding p.jobId := by
      simp only [JobManager.settingStep, hp]
      rfl
    refine ⟨fun phase j hpc hphase => ?_, fun j hpc => ?_, fun q hpc => ?_⟩
    · rw [hworker] at hpc
      cases hpc
      exact absurd rfl hphase
    · rw [hworker] at hpc
      cases hpc
    · rw [hworker] at hpc
      cases hpc
  | some p' =>
    have hworker : (s.settingStep p .starting (.inTry .adding p.jobId)).worker = .starting p' := by
      simp only [JobManager.settingStep, hp]
      rfl
    refine ⟨fun phase j hpc => ?_, fun j hpc => ?_, fun q hpc job' hj hid => ?_⟩
    · rw [hworker] at hpc
      cases hpc
    · rw [hworker] at hpc
      cases hpc
    rw [hworker] at hpc
    cases hpc
    have hjobId : p'.jobId = p.jobId := step_jobId hp
    have hj' : job' ∈ (p.step s.jobs).1 := hj
    cases hg : p.guarded with
    | false =>
      have hjobs : (p.step s.jobs).1 = s.jobs := by
        simp only [SettingStatus.step, hg, Bool.false_eq_true, if_false]
        split <;> rfl
      rw [hjobs] at hj'
      rcases h.started p hw job' hj' (hid.trans hjobId) with hr | hc | ⟨-, hterm, hi⟩
      · exact .inl hr
      · exact .inr (.inl hc)
      · -- such a job ends the call
        have hget : s.jobs.get? p.jobId = some job' := Table.get?_eq_some.mpr ⟨hj', hid.trans hjobId⟩
        simp only [SettingStatus.step, hg, hget, Option.any_some, hi, hterm, Bool.and_self, if_true,
          Bool.false_eq_true, if_false] at hp
        cases hp
    | true =>
      have hwrite : (p.step s.jobs).1 = s.jobs.assign p.jobId p.next := by
        simp only [SettingStatus.step, hg, if_true]
      rw [hwrite] at hj'
      obtain ⟨job, hjob, rfl⟩ := Jobs.mem_assign.mp hj'
      have hlater : Later job (if job.jobId = p.jobId then job.assign p.next else job) := by
        split
        · exact later_assign p.next job
        · exact later_refl job
      rw [hlater.refName, hlater.jobId]
      rw [hlater.jobId] at hid
      rcases h.started p hw job hjob (hid.trans hjobId) with hr | hc | ⟨hng, -, -⟩
      · exact .inl hr
      · exact .inr (.inl hc)
      · rw [hg] at hng
        cases hng

theorem workerOk_step (a : Act) (ht : Tokens s) (hf : Flagged s) (hr : RefsKept s)
    (h : WorkerOk s) : WorkerOk (step s a) := by
  cases stepMove s a with
  | rests hqueue hrefs hcreated hworker hrequests => exact h.other ht hworker
  | request t hact hworker hcreated hne hmove => exact h.other ht hworker
  | works e ha hrequests hcreated hmove =>
    cases hmove with
    | stays heq => exact h.other ht (congrArg JobManager.worker heq)
    | pops jobId rest closed hw hq heq =>
      rw [heq]
      exact workerOk_of_pc (by simp) (by simp) (by simp)
    | starts job closed hw hmem hc heq =>
      rw [heq]
      refine ⟨fun phase j hpc => (by cases hpc), fun j hpc => (by cases hpc), fun p hpc job' hj hid => ?_⟩
      cases hpc
      rw [Table.eq_of_key hj hmem hid]
      cases hterm : job.isTerminal with
      | true =>
        rcases hf.waiting job hmem (.inr (.inr ⟨closed, hw⟩)) hterm with hcancel | hint
        · rw [hc] at hcancel
          cases hcancel
        · exact .inr (.inr ⟨rfl, rfl, hint⟩)
      | false =>
        have hsub : s.Submitted job.jobId := ht.queued _ (.inr (by rw [hw]; rfl))
        by_cases hcre : job.jobId ∈ s.created
        · exact .inr (.inl hcre)
        · exact .inl (hr job ⟨hmem, hterm, hcre⟩ hsub)
    | sets p hw heq =>
      rw [heq]
      exact workerOk_starting hw h
    | worksOn g =>
      refine ⟨fun phase j hpc _ => ?_, fun j hpc => ?_, fun p hpc => absurd hpc (g.starting p)⟩
      · rcases g.tried phase j hpc with hc | ⟨phase', hw, hphase⟩
        · exact hc
        · exact hcreated j (h.tried phase' j hw hphase)
      · rcases g.cleaned j hpc with hterm | hw
        · exact .inr hterm
        · exact .inl (hcreated j (h.tried .exited j hw (by simp)))
    | cleans jobId refs w hw hmem hidle heq =>
      rw [heq]
      rcases hidle with rfl | ⟨p, rfl, -⟩
      · exact workerOk_of_pc (by simp) (by simp) (by simp)
      · exact workerOk_of_pc (by simp) (by simp) (by simp)

/-- The step deletes no ref that is still needed, and answers for no job whose ref is gone. -/
structure Spares (s : JobManager) (a : Act) : Prop where
  /-- No other job of the commit is queued, or running without its worktree, when the job is cleaned up. -/
  cleanup : ∀ e, a = .work e → e.refDeleted = true → ∀ job, job ∈ s.jobs →
    s.worker = .cleaning job.jobId → ∀ other, Needs s other → other.refName ∈ s.refs → other.refName ≠ job.refName
  /-- The ref that `submit` has fetched was not deleted before `submit` answers. -/
  answer : ∀ t e jobId, a = .advance t e → s.requests t = .queueing jobId →
    ∀ job, Needs s job → job.jobId = jobId → job.refName ∈ s.refs

def SparesNeeded (m : Move JobManager Act) : Prop :=
  ∀ job, Needs m.pre job → job.refName ∈ m.pre.refs → job.refName ∈ m.post.refs

theorem sparesNeeded_step (hc : Spares s a) : SparesNeeded ⟨s, a, step s a⟩ := by
  intro other hneeds hr
  by_cases hw : ∀ e j, a = .work e → s.worker ≠ .cleaning j
  · exact refs_of_step hr hw
  · simp only [not_forall, ne_eq, not_not] at hw
    obtain ⟨e, j, rfl, hw⟩ := hw
    refine (cleaning_refs hw e _).mpr ⟨hr, fun job hj hid hd => ?_⟩
    exact hc.cleanup e rfl hd job hj (hid ▸ hw) other hneeds hr

/-- A job that is answered for after a step was before, or its `submit` answers in the step. -/
theorem submitted_of_step (hj : (step s a).Submitted j) :
    s.Submitted j ∨ ∃ t e, a = .advance t e ∧ s.requests t = .queueing j := by
  obtain ⟨t', ht'⟩ := hj
  cases stepMove s a with
  | rests hqueue hrefs hcreated hworker hrequests => exact .inl ⟨t', hrequests ▸ ht'⟩
  | works e ha hrequests hcreated hmove => exact .inl ⟨t', hrequests ▸ ht'⟩
  | request t hact hworker hcreated hne hmove =>
    by_cases heq : t' = t
    · subst heq
      cases hmove with
      | stays hsame => exact .inl ⟨t', hsame ▸ ht'⟩
      | goesOn r r' hr hr' hopen g => exact absurd (hr'.symm.trans ht') (g.submitted j)
      | registers m jobId hr hr' hinsert hqueue hrefs => cases hr'.symm.trans ht'
      | queues jobId hr hr' hsame hqueue hrefs =>
        cases hr'.symm.trans ht'
        obtain ⟨e, he⟩ := hact j hr
        exact .inr ⟨t', e, he, hr⟩
    · exact .inl ⟨t', hne t' heq ▸ ht'⟩

theorem refsKept_step (ht : Tokens s) (hr : RefsKept s) (hw : WorkerOk s)
    (hc : Spares s a) : RefsKept (step s a) := by
  rintro job' ⟨hj, hopen, hcreated⟩ hsub
  rcases later_of_step hj with ⟨job, hjob, hlater, hstatus⟩ | ⟨-, hfresh⟩
  · rw [hlater.refName]
    rw [hlater.jobId] at hsub hcreated
    have hcre : job.jobId ∉ s.created := fun hmem => hcreated (created_of_step hmem)
    rcases hstatus with hsame | ⟨st, hwrite, hst⟩
    · have hneeds : Needs s job := ⟨hjob, hsame.symm.trans hopen, hcre⟩
      refine sparesNeeded_step hc job hneeds ?_
      rcases submitted_of_step hsub with hsub | ⟨t, e, ha, hq⟩
      · exact hr job hneeds hsub
      · exact hc.answer t e _ ha hq job hneeds rfl
    · -- the run of a job starts: its ref has been there since it was taken
      rw [hlater.jobId] at hwrite
      have hrunning : st.isTerminal = false := hst.symm.trans hopen
      rcases writer hwrite with ⟨t, -, hterm⟩ | ⟨t, -, hterm⟩ | ⟨hcurrent, -, hterm | ⟨p, hp, hg⟩⟩
      · rw [hrunning] at hterm
        cases hterm
      · rw [hrunning] at hterm
        cases hterm
      · rw [hrunning] at hterm
        cases hterm
      · have hid : job.jobId = p.jobId := by
          rw [hp] at hcurrent
          exact (Option.some.inj hcurrent).symm
        rcases hw.started p hp job hjob hid with href | hmem | ⟨hng, -, -⟩
        · exact refs_of_step href fun _ _ _ => by rw [hp]; simp
        · exact absurd hmem hcre
        · rw [hg] at hng
          cases hng
  · have hknown : ∃ job, job ∈ s.jobs ∧ job.jobId = job'.jobId := by
      rcases submitted_of_step hsub with hsub | ⟨t, e, -, hq⟩
      · exact ht.known_of_submitted hsub
      · exact ht.known_of_pending hq
    obtain ⟨job, hjob, hid⟩ := hknown
    exact absurd hid (hfresh job hjob)

theorem spares_of_kept (hr : RefsKept (step s a)) (hs : SparesNeeded ⟨s, a, step s a⟩) : Spares s a where
  cleanup := by
    rintro e rfl hd job hj hw other hneeds hmem
    exact ((cleaning_refs hw e _).mp (hs other hneeds hmem)).2 job hj rfl hd
  answer := by
    rintro t e jobId rfl hq job ⟨hj, hopen, hcre⟩ hid
    have hstep : step s (.advance t e) =
        { s with queue := s.queue ++ [jobId] }.setRequest t (.returned (.submitted jobId false)) := by
      simp only [step, JobManager.advance, hq]
    rw [hstep] at hr
    refine hr job ⟨hj, hopen, hcre⟩ ⟨t, ?_⟩
    rw [setRequest_self, hid]

structure RefInv (s : JobManager) : Prop where
  tokens : Tokens s
  flagged : Flagged s
  worker : WorkerOk s
  refs : RefsKept s

theorem refInv_step (h : RefInv s) (hc : Spares s a) : RefInv (step s a) where
  tokens := tokens_step a h.tokens
  flagged := flagged_step a h.tokens h.flagged
  worker := workerOk_step a h.tokens h.flagged h.refs h.worker
  refs := refsKept_step h.tokens h.refs h.worker hc

theorem refInv_init (recovered : {jobs : Jobs // ∀ job, job ∈ jobs → job.isTerminal = true})
    (refs : List String) : RefInv (JobManager.init recovered refs) where
  tokens := by
    refine ⟨List.nodup_nil, fun j h => (by cases h), fun t j h => (by cases h), fun t t' j h => (by cases h),
      fun j h => ?_, fun t j h => False.elim h⟩
    rcases h with h | h <;> cases h
  flagged := by
    refine ⟨fun t j h => False.elim h, fun t j h => False.elim h, fun job hj hw => ?_⟩
    rcases hw with hw | ⟨t, hw⟩ | ⟨closed, hw⟩ <;> cases hw
  worker := workerOk_of_pc (by simp [JobManager.init]) (by simp [JobManager.init]) (by simp [JobManager.init])
  refs := by
    rintro job ⟨hj, hopen, -⟩
    rw [recovered.2 job hj] at hopen
    cases hopen

theorem refs_kept_iff (recovered : {jobs : Jobs // ∀ job, job ∈ jobs → job.isTerminal = true})
    (refs : List String) (acts : List Act) :
    (∀ m ∈ Runs.moves step (JobManager.init recovered refs) acts, RefsKept m.post ∧ SparesNeeded m) ↔
      ∀ m ∈ Runs.moves step (JobManager.init recovered refs) acts, Spares m.pre m.act := by
  refine Runs.moves_forall_iff (I := RefInv) (fun s a h => ⟨fun hgood => ?_, fun hc => ?_⟩)
    (fun s a h hc => refInv_step h hc) (refInv_init recovered refs) acts
  · exact spares_of_kept hgood.1 hgood.2
  · exact ⟨refsKept_step h.tokens h.refs h.worker hc, sparesNeeded_step hc⟩

/-- Unlike the refs, in every interleaving: an id is held in one place, and what cancels or interrupts a job has said
so on the job before it closes it. -/
theorem job_held_once (recovered : {jobs : Jobs // ∀ job, job ∈ jobs → job.isTerminal = true})
    (refs : List String) (acts : List Act) : Tokens (Runs.run step (JobManager.init recovered refs) acts) ∧
      Flagged (Runs.run step (JobManager.init recovered refs) acts) := by
  have hinit := refInv_init recovered refs
  exact Runs.run_invariant (I := fun s => Tokens s ∧ Flagged s)
    (fun s a h => ⟨tokens_step a h.1, flagged_step a h.1 h.2⟩) ⟨hinit.tokens, hinit.flagged⟩ acts

/-- Two submissions of one commit, and the whole run of the first job. -/
def sameCommitTwice : List Act :=
  let m : Metadata := { candidateSha := "0123456789abcdef" }
  [.start 0 (.submit m), .advance 0 {}, .advance 0 { uuid := "job-1" }, .advance 0 {},
    .start 1 (.submit m), .advance 1 {}, .advance 1 { uuid := "job-2" }, .advance 1 {}] ++
    List.replicate 16 (.work {})

theorem queued_ref_deleted :
    ¬ ∀ m ∈ Runs.moves step (JobManager.init ⟨Table.empty, by simp⟩ []) sameCommitTwice,
      RefsKept m.post ∧ SparesNeeded m := by
  intro h
  have hrun : ∃ m ∈ Runs.moves step (JobManager.init ⟨Table.empty, by simp⟩ []) sameCommitTwice,
      m.post.requests 1 = .returned (.submitted "job-2" false) ∧
        ∃ job, job ∈ m.post.jobs ∧ job.jobId = "job-2" ∧ job.isTerminal = false ∧
          job.jobId ∉ m.post.created ∧ job.refName ∉ m.post.refs := by
    decide +kernel
  obtain ⟨m, hm, hsub, job, hj, hid, hopen, hcre, hgone⟩ := hrun
  exact hgone ((h m hm).1 job ⟨hj, hopen, hcre⟩ ⟨1, hid ▸ hsub⟩)

end RemoteWorker
end Harness
end DarkFactory
