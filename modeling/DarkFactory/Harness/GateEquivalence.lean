import DarkFactory.Harness.JobResults
import DarkFactory.Harness.RemoteDispatch

/-!
# DarkFactory.Harness.GateEquivalence

When a call that `Harness.RemoteDispatch` resolves as passed has passed the steps that it selected.

* `Equivalent` — the accepted result of a job is of the steps, the commit and the configuration of the call.
* `Good` — what a move owes: of an accepted result, of a replayed verdict, of a deduplicated job.
* `Aligned` — the call whose result is accepted asked for a quick run, and two submissions under one
  dispatch key carry the same flags.
* `Inv` — every result, stored verdict and job is of the flags it stands for.
-/

namespace DarkFactory
namespace Harness
namespace RemoteDispatch

open RemoteWorker (HarnessJob JobManager Jobs Metadata RequestEvent WorkerEvent Response isSha liveJobForKey
  Matches Answers SameFlags Deduplicates)

structure Equivalent (c : Setting) (call : Call) (w : Target) (candidateSha : String) (job : HarnessJob)
    (result : HarnessResult) : Prop where
  executed : result.startedSteps = c.stepNames call
  passed : result.passedSteps = c.stepNames call
  candidate : result.candidateSha = candidateSha
  config : result.configHash = call.configHash
  /-- A full run is not answered by a quick one. -/
  full : call.quick = false → "--quick" ∉ job.command
  /-- Nor is a verdict of a quick one stored under its key. -/
  cached : ∀ key, c.workerKey call w = some key → key.quick = false → "--quick" ∉ job.command

/-- The move of the call `t` that accepts the result of a terminal job. -/
structure Accepts (c : Setting) (s : State) (a : Act) (t : Nat) (w : Target) (candidateSha : String)
    (job : HarnessJob) (result : HarnessResult) : Prop where
  act : ∃ e, a = .client t e ∧ e.lost = false
  streaming : s.pcs t = .streaming w candidateSha job.jobId
  polled : (s.workers w.url).jobs.get? job.jobId = some job
  terminal : job.isTerminal = true
  passed : finalizeRemoteResult job candidateSha (c.call t).configHash = .resolved (some result)

/-- The move that looks for a live job for a submission to a worker. -/
inductive Submits (c : Setting) (s : State) : Act → String → Nat → Metadata → Prop where
  | client (t : Nat) (e : Event) (w : Target) (candidateSha : String) :
      s.pcs t = .dispatching w candidateSha → e.bundled = true →
      (s.workers w.url).requests e.request = .absent →
      isSha ((c.call t).metadata w candidateSha).normalized.candidateSha = true →
      Submits c s (.client t e) w.url e.request ((c.call t).metadata w candidateSha).normalized
  | start (url : String) (n : Nat) (m : Metadata) : (s.workers url).requests n = .absent →
      isSha m.normalized.candidateSha = true →
      Submits c s (.worker url (.start n (.submit m))) url n m.normalized
  | registers (url : String) (n : Nat) (e : RequestEvent) (m : Metadata) :
      (s.workers url).requests n = .registering m →
      Submits c s (.worker url (.advance n e)) url n m

structure Good (c : Setting) (m : Move State Act) : Prop where
  accepted : ∀ t w candidateSha job result, Accepts c m.pre m.act t w candidateSha job result →
    Equivalent c (c.call t) w candidateSha job result
  replayed : ∀ t e hit, m.act = .client t e → m.pre.pcs t = .replaying hit → m.post.pcs t = .returned (some true) →
    hit.record.result.requiredSteps = c.stepNames (c.call t) ∧
      hit.record.result.configHash = (c.call t).configHash ∧
      (hit.origin = true → (c.call t).quick = true)
  deduplicated : ∀ url n metadata, Submits c m.pre m.act url n metadata →
    ∀ jobId, (m.post.workers url).requests n = .returned (.submitted jobId true) →
      ∀ job, job ∈ (m.post.workers url).jobs → job.jobId = jobId →
        job.quick = metadata.quick ∧ job.includeHoldout = metadata.includeHoldout

structure Aligned (c : Setting) (s : State) (a : Act) : Prop where
  quick : ∀ t w candidateSha job result, Accepts c s a t w candidateSha job result → (c.call t).quick = true
  flags : ∀ url n metadata, Submits c s a url n metadata → Matches (s.workers url) metadata

theorem runStep_name (p : Process) (tree : Option String) (step : HarnessStepConfig)
    (files : Option (List String)) (o : StepOutcome) :
    (p.runStep tree step files o).execution.name = step.name := by
  unfold Process.runStep
  split
  · cases o with
    | exited returncode discovered passed skipped =>
      simp only [Process.executed]
      split <;> rfl
    | _ => rfl
  · rfl

theorem runLoop_names {p : Process} {steps : List HarnessStepConfig} {outcomes : Outcomes}
    {executions : List StepExecution} (h : runLoop p steps outcomes = some executions)
    (hpassed : ∀ e ∈ executions, e.passed = true) :
    executions.map StepExecution.name = steps.map HarnessStepConfig.name := by
  induction steps generalizing outcomes executions with
  | nil =>
    cases h
    rfl
  | cons step rest ih =>
    cases outcomes with
    | nil => cases h
    | cons o more =>
      obtain ⟨files, o⟩ := o
      simp only [runLoop] at h
      split at h
      · obtain ⟨tail, htail, rfl⟩ := Option.map_eq_some_iff.mp h
        rw [List.map_cons, List.map_cons, runStep_name, ih htail fun e he => hpassed e (List.mem_cons_of_mem _ he)]
      · rename_i hfailed
        cases h
        exact absurd (hpassed _ List.mem_cons_self) hfailed

structure ResultOf (names : List String) (result : HarnessResult) : Prop where
  required : result.requiredSteps = names
  started : result.startedSteps = names
  passed : result.passedSteps = names

variable {candidateSha : String} {result : HarnessResult} {m : JobManager}

theorem executeResult_of_success {p : Process} {configHash : String}
    {steps : List HarnessStepConfig} {outcomes : Outcomes}
    (h : executeResult p candidateSha configHash steps outcomes = some result)
    (hsuccess : result.success = true) :
    ResultOf (steps.map HarnessStepConfig.name) result ∧ result.configHash = configHash := by
  unfold executeResult at h
  split at h
  · cases h
  · obtain ⟨executions, hloop, rfl⟩ := Option.map_eq_some_iff.mp h
    have hpassed : ∀ e ∈ executions, e.passed = true := by
      simp only [HarnessResult.success, harnessResult, Bool.and_eq_true, List.isEmpty_iff,
        List.map_eq_nil_iff, List.filter_eq_nil_iff] at hsuccess
      intro e he
      simpa using hsuccess.1.1.1 e he
    have hnames := runLoop_names hloop hpassed
    refine ⟨⟨rfl, hnames, ?_⟩, rfl⟩
    simp only [harnessResult]
    rw [List.filter_eq_self.mpr hpassed, hnames]

theorem commandQuick_eq (job : HarnessJob) : commandQuick job = true := by
  simp [commandQuick, HarnessJob.command]

theorem quick_mem_command (job : HarnessJob) : "--quick" ∈ job.command := by
  simp [HarnessJob.command]

theorem commandHoldout_eq (job : HarnessJob) : commandHoldout job = job.includeHoldout := by
  unfold commandHoldout HarnessJob.command
  cases job.includeHoldout <;> decide

def OfFlags (c : Setting) (includeHoldout : Bool) (result : HarnessResult) : Prop :=
  result.success = true → ResultOf (c.selectedNames result.configHash true includeHoldout) result

def Stored (c : Setting) (key : CacheKey) (result : HarnessResult) (quickRun : Bool) : Prop :=
  result.configHash = key.configHash ∧
    result.requiredSteps = c.selectedNames key.configHash key.quick key.includeHoldout ∧
    (quickRun = true → key.quick = true)

structure WorkerOk (c : Setting) (m : JobManager) : Prop where
  results : ∀ job, job ∈ m.jobs → ∀ r, job.resultJson = some r → OfFlags c job.includeHoldout r
  carried : ∀ jobId r, m.Carries jobId r → ∃ job, job ∈ m.jobs ∧ job.jobId = jobId ∧ OfFlags c job.includeHoldout r

def PcOk (c : Setting) (s : State) (call : Call) : Pc → Prop
  | .lookingUp w key => c.workerKey call w = some key
  | .replaying hit => hit.record.result.requiredSteps = c.stepNames call ∧
      hit.record.result.configHash = call.configHash ∧ (hit.origin = true → call.quick = true)
  | .submitting w _ n =>
    Answers (s.workers w.url) call.quick call.includeHoldout ((s.workers w.url).requests n)
  | .streaming w _ jobId => (s.workers w.url).HasFlags jobId call.quick call.includeHoldout
  | _ => True

structure Inv (c : Setting) (s : State) : Prop where
  workers : ∀ url, WorkerOk c (s.workers url)
  stored : s.store.All (Stored c)
  calls : ∀ t, PcOk c s (c.call t) (s.pcs t)

theorem setWorker_self (s : State) (url : String) (m : JobManager) :
    (s.setWorker url m).workers url = m := if_pos rfl

theorem setWorker_ne (s : State) (m : JobManager) {url url' : String} (h : url' ≠ url) :
    (s.setWorker url m).workers url' = s.workers url' := if_neg h

theorem setPc_self (s : State) (t : Nat) (pc : Pc) : (s.setPc t pc).pcs t = pc := if_pos rfl

theorem setPc_ne (s : State) (pc : Pc) {t t' : Nat} (h : t' ≠ t) : (s.setPc t pc).pcs t' = s.pcs t' := if_neg h

theorem writeStore_workers (s : State) (host : String) (w : Option (Write Bool)) :
    (s.writeStore host w).workers = s.workers := by cases w <;> rfl

theorem writeStore_pcs (s : State) (host : String) (w : Option (Write Bool)) :
    (s.writeStore host w).pcs = s.pcs := by cases w <;> rfl

structure Kept (m m' : JobManager) : Prop where
  answers : ∀ n quick includeHoldout, Answers m quick includeHoldout (m.requests n) →
    Answers m' quick includeHoldout (m'.requests n)
  flags : ∀ jobId quick includeHoldout, m.HasFlags jobId quick includeHoldout →
    m'.HasFlags jobId quick includeHoldout

variable {c : Setting} {s s' : State} {call : Call} {pc : Pc}

theorem pcOk_congr (hw : s'.workers = s.workers) (h : PcOk c s call pc) : PcOk c s' call pc := by
  cases pc with
  | submitting w candidateSha n =>
    simp only [PcOk] at h ⊢
    rw [hw]
    exact h
  | streaming w candidateSha jobId =>
    simp only [PcOk] at h ⊢
    rw [hw]
    exact h
  | _ => exact h

theorem pcOk_setWorker {url : String} (hkept : Kept (s.workers url) m)
    (h : PcOk c s call pc) : PcOk c (s.setWorker url m) call pc := by
  cases pc with
  | submitting w candidateSha n =>
    simp only [PcOk] at h ⊢
    by_cases heq : w.url = url
    · rw [heq] at h ⊢
      rw [setWorker_self]
      exact hkept.answers n _ _ h
    · rw [setWorker_ne s m heq]
      exact h
  | streaming w candidateSha jobId =>
    simp only [PcOk] at h ⊢
    by_cases heq : w.url = url
    · rw [heq] at h ⊢
      rw [setWorker_self]
      exact hkept.flags jobId _ _ h
    · rw [setWorker_ne s m heq]
      exact h
  | _ => exact h

theorem inv_setPc (h : Inv c s) {t : Nat} (hpc : PcOk c s (c.call t) pc) : Inv c (s.setPc t pc) := by
  refine ⟨h.workers, h.stored, fun t' => ?_⟩
  by_cases heq : t' = t
  · subst heq
    rw [setPc_self]
    exact pcOk_congr rfl hpc
  · rw [setPc_ne s pc heq]
    exact pcOk_congr rfl (h.calls t')

theorem inv_setWorker (h : Inv c s) {url : String} {m : JobManager} (hok : WorkerOk c m)
    (hkept : Kept (s.workers url) m) : Inv c (s.setWorker url m) := by
  refine ⟨fun url' => ?_, h.stored, fun t => pcOk_setWorker hkept (h.calls t)⟩
  by_cases heq : url' = url
  · rw [heq, setWorker_self]
    exact hok
  · rw [setWorker_ne s m heq]
    exact h.workers url'

theorem inv_writeStore (h : Inv c s) (host : String) {w : Option (Write Bool)}
    (hw : ∀ w', w = some w' → VerdictStore.WriteOk (Stored c) w') : Inv c (s.writeStore host w) := by
  refine ⟨?_, ?_, fun t => ?_⟩
  · rw [writeStore_workers]
    exact h.workers
  · cases w with
    | none => exact h.stored
    | some w' => exact VerdictStore.all_write h.stored (hw w' rfl) host
  · rw [writeStore_pcs]
    exact pcOk_congr (writeStore_workers s host w) (h.calls t)

theorem workerOk_step (a : RemoteWorker.Act) (h : WorkerOk c m)
    (hjudged : ∀ e jobId job r, a = .work e → m.worker = .inTry .judging jobId →
      m.jobs.get? jobId = some job → e.result = some r → OfFlags c job.includeHoldout r) :
    WorkerOk c (RemoteWorker.step m a) := by
  constructor
  · intro job' hj' r hr
    obtain ⟨job, hj, hsame, hr | hcarries⟩ := RemoteWorker.result_of_step hj' hr
    · rw [hsame.includeHoldout]
      exact h.results job hj r hr
    · obtain ⟨other, hother, hid, hflags⟩ := h.carried job.jobId r hcarries
      rw [hsame.includeHoldout, ← Table.eq_of_key hother hj hid]
      exact hflags
  · intro jobId r hcarries
    have hbefore : ∃ job, job ∈ m.jobs ∧ job.jobId = jobId ∧ OfFlags c job.includeHoldout r := by
      rcases RemoteWorker.carries_of_step hcarries with hcarries | ⟨e, rfl, hw, ⟨job, hjob⟩, hresult⟩
      · exact h.carried jobId r hcarries
      · exact ⟨job, Table.mem_of_get? hjob, Table.key_of_get? hjob, hjudged e jobId job r rfl hw hjob hresult⟩
    obtain ⟨job, hj, hid, hflags⟩ := hbefore
    obtain ⟨job', hj', hsame⟩ := RemoteWorker.sameFlags_of_mem a hj
    exact ⟨job', hj', hsame.jobId.trans hid, hsame.includeHoldout ▸ hflags⟩

theorem kept_step (a : RemoteWorker.Act)
    (hmatches : ∀ n e metadata, a = .advance n e → m.requests n = .registering metadata →
      Matches m metadata) : Kept m (RemoteWorker.step m a) where
  answers n _ _ h := RemoteWorker.answers_step a h fun e metadata ha hr => hmatches n e metadata ha hr
  flags _ _ _ h := RemoteWorker.hasFlags_step a h

theorem localRun_stored {run : LocalRun} (h : run.result c = some result)
    (hsuccess : result.success = true) : Stored c (run.key c) result run.quick := by
  obtain ⟨hof, hconfig⟩ := executeResult_of_success h hsuccess
  exact ⟨hconfig, hof.required, id⟩

theorem childResult_ofFlags {store : VerdictStore Bool} (h : store.All (Stored c)) {job : HarnessJob}
    {child : Child} {result : HarnessResult} (hr : childResult c store job child = some result) :
    OfFlags c job.includeHoldout result := by
  intro hsuccess
  cases child with
  | silent => cases hr
  | executed p candidateSha configHash outcomes =>
    simp only [childResult, commandQuick_eq, commandHoldout_eq] at hr
    obtain ⟨hof, hconfig⟩ := executeResult_of_success hr hsuccess
    rw [hconfig]
    exact hof
  | replayed p candidateSha treeHash configHash online =>
    simp only [childResult, commandQuick_eq, commandHoldout_eq] at hr
    obtain ⟨hit, hget, rfl⟩ := Option.map_eq_some_iff.mp hr
    obtain ⟨hconfig, hrequired, -⟩ := (VerdictStore.getVerdict_all h _ _ _).1 hit hget
    -- Every list of steps of the replay is the list of the stored steps.
    have hnames : hit.record.result.requiredSteps =
        c.selectedNames hit.record.result.configHash true job.includeHoldout := by
      rw [hconfig]
      exact hrequired
    exact ⟨hnames, hnames, hnames⟩

theorem recovered_sameFlags (job : HarnessJob) : SameFlags job (recovered job) := by
  unfold recovered
  split <;> exact ⟨rfl, rfl, rfl⟩

theorem recovered_resultJson (job : HarnessJob) : (recovered job).resultJson = job.resultJson := by
  unfold recovered
  split <;> rfl

theorem mem_recoveredJobs {jobs : Jobs} {job' : HarnessJob} (h : job' ∈ recoveredJobs jobs) :
    ∃ job, job ∈ jobs ∧ recovered job = job' := by
  obtain ⟨job, hj, heq⟩ := Table.mem_update.mp h
  exact ⟨job, hj, by simpa using heq⟩

theorem workerOk_restarted (h : WorkerOk c m) : WorkerOk c (restarted m) := by
  constructor
  · intro job' hj' r hr
    obtain ⟨job, hj, rfl⟩ := mem_recoveredJobs hj'
    rw [(recovered_sameFlags job).includeHoldout]
    exact h.results job hj r (recovered_resultJson job ▸ hr)
  · intro jobId r hcarries
    rcases hcarries with hw | ⟨n, hn⟩
    · exact False.elim hw
    · simp only [restarted] at hn
      split at hn <;> exact False.elim hn

theorem hasFlags_restarted {jobId : String} {quick includeHoldout : Bool}
    (h : m.HasFlags jobId quick includeHoldout) :
    (restarted m).HasFlags jobId quick includeHoldout := by
  obtain ⟨job, hj, hid, hquick, hholdout⟩ := h
  have hsame := recovered_sameFlags job
  refine ⟨recovered job, Table.mem_update_of_pos (h := recovered_jobId) hj rfl, hsame.jobId.trans hid, ?_, ?_⟩
  · rw [hsame.quick, hquick]
  · rw [hsame.includeHoldout, hholdout]

theorem kept_restarted (m : JobManager) : Kept m (restarted m) where
  answers n quick includeHoldout h := by
    cases hr : m.requests n with
    | absent =>
      rw [hr] at h
      exact False.elim h
    | returned response =>
      have hpost : (restarted m).requests n = .returned response := by simp only [restarted, hr]
      rw [hr] at h
      rw [hpost]
      cases response with
      | submitted jobId deduplicated => exact hasFlags_restarted h
      | refused statusCode => trivial
      | _ => exact False.elim h
    | _ =>
      have hpost : (restarted m).requests n = .returned (.refused 503) := by simp only [restarted, hr]
      rw [hpost]
      trivial
  flags _ _ _ := hasFlags_restarted

theorem resolved_of_finalize {job : HarnessJob} {configHash : String}
    (h : finalizeRemoteResult job candidateSha configHash = .resolved (some result)) :
    job.resultJson = some result ∧ result.candidateSha = candidateSha ∧
      result.configHash = configHash ∧ result.success = true := by
  unfold finalizeRemoteResult at h
  split at h
  · cases h
  · split at h
    · cases h
    · split at h
      · cases h
      · rename_i r hresult
        split at h
        · cases h
        · rename_i hsha
          split at h
          · cases h
          · rename_i hconfig
            split at h
            · rename_i hsuccess
              cases h
              exact ⟨hresult, not_not.mp hsha, not_not.mp hconfig, hsuccess⟩
            · cases h

theorem accepted_result (h : Inv c s) {t : Nat} {w : Target} {candidateSha : String} {job : HarnessJob}
    {result : HarnessResult} (hpc : s.pcs t = .streaming w candidateSha job.jobId)
    (hpolled : (s.workers w.url).jobs.get? job.jobId = some job)
    (hpassed : finalizeRemoteResult job candidateSha (c.call t).configHash = .resolved (some result)) :
    ResultOf (c.selectedNames (c.call t).configHash true (c.call t).includeHoldout) result ∧
      result.candidateSha = candidateSha ∧ result.configHash = (c.call t).configHash := by
  obtain ⟨hresult, hsha, hconfig, hsuccess⟩ := resolved_of_finalize hpassed
  have hjob := Table.mem_of_get? hpolled
  have hcall := h.calls t
  rw [hpc] at hcall
  obtain ⟨own, hown, hid, -, hholdout⟩ := hcall
  have hsame : own = job := Table.eq_of_key hown hjob hid
  have hof := (h.workers w.url).results job hjob result hresult hsuccess
  rw [← hsame, hholdout, hconfig] at hof
  exact ⟨hof, hsha, hconfig⟩

theorem workerKey_fields {w : Target} {key : CacheKey} (h : c.workerKey call w = some key) :
    key.configHash = call.configHash ∧ key.quick = call.quick ∧ key.includeHoldout = call.includeHoldout := by
  unfold Setting.workerKey at h
  split at h
  · obtain ⟨treeHash, -, rfl⟩ := Option.map_eq_some_iff.mp h
    exact ⟨rfl, rfl, rfl⟩
  · cases h

theorem stored_for_call {w : Target} {key : CacheKey} {quickRun : Bool}
    (h : Stored c key result quickRun) (hkey : c.workerKey call w = some key) :
    result.requiredSteps = c.stepNames call ∧ result.configHash = call.configHash ∧
      (quickRun = true → call.quick = true) := by
  obtain ⟨hconfig, hquick, hholdout⟩ := workerKey_fields hkey
  obtain ⟨hresult, hrequired, horigin⟩ := h
  rw [hconfig, hquick, hholdout] at hrequired
  exact ⟨hrequired, hresult.trans hconfig, fun ho => hquick ▸ horigin ho⟩

theorem pcOk_afterLost {w : Target} {jobId : String} (jobs : Jobs) (r : Retry)
    (h : (s.workers w.url).HasFlags jobId call.quick call.includeHoldout) :
    PcOk c s call (afterLost jobs w candidateSha jobId r) := by
  cases r with
  | resume =>
    simp only [afterLost]
    split
    · exact h
    · trivial
  | resubmit => trivial
  | giveUp => trivial

theorem inv_finish (h : Inv c s) {t : Nat} {w : Target} {candidateSha : String} {job : HarnessJob}
    (e : Event) (hpc : s.pcs t = .streaming w candidateSha job.jobId)
    (hpolled : (s.workers w.url).jobs.get? job.jobId = some job)
    (hquick : ∀ result, finalizeRemoteResult job candidateSha (c.call t).configHash = .resolved (some result) →
        (c.call t).quick = true) : Inv c (s.finish c t w candidateSha job e) := by
  have hcall := h.calls t
  rw [hpc] at hcall
  unfold State.finish
  simp only
  split
  · exact inv_setPc h (pcOk_afterLost _ _ hcall)
  · exact inv_setPc h trivial
  · rename_i result hpassed
    have hreturned : PcOk c s (c.call t) (.returned (some true)) := trivial
    refine inv_writeStore (inv_setPc h hreturned) _ fun w' hw' => ?_
    obtain ⟨key, hkey, rfl⟩ := Option.map_eq_some_iff.mp hw'
    obtain ⟨hconfig, hkeyQuick, hholdout⟩ := workerKey_fields hkey
    obtain ⟨hof, -, hresultConfig⟩ := accepted_result h hpc hpolled hpassed
    have hq := hquick result hpassed
    refine ⟨hresultConfig.trans hconfig.symm, ?_, fun _ => hkeyQuick.trans hq⟩
    rw [hconfig, hkeyQuick, hholdout, hq]
    exact hof.required

theorem start_eq {n : Nat} {a : RemoteWorker.Call} (h : m.requests n = .absent) :
    m.start n a = RemoteWorker.step m (.start n a) := by simp only [RemoteWorker.step, h]

theorem metadata_quick (w : Target) (candidateSha : String) :
    (call.metadata w candidateSha).quick = call.quick := rfl

theorem metadata_includeHoldout (w : Target) (candidateSha : String) :
    (call.metadata w candidateSha).includeHoldout = call.includeHoldout := rfl

theorem inv_worker (h : Inv c s) (url : String) {a : RemoteWorker.Act} (hwork : ∀ e, a ≠ .work e)
    (hmatches : ∀ n e metadata, a = .advance n e → (s.workers url).requests n = .registering metadata →
      Matches (s.workers url) metadata) :
    Inv c (s.setWorker url (RemoteWorker.step (s.workers url) a)) := by
  refine inv_setWorker h (workerOk_step a (h.workers url) ?_) (kept_step a hmatches)
  intro e jobId job r he
  exact absurd he (hwork e)

theorem inv_submit (h : Inv c s) {t n : Nat} {w : Target} {candidateSha : String} {metadata : Metadata}
    (hquick : metadata.quick = (c.call t).quick)
    (hholdout : metadata.includeHoldout = (c.call t).includeHoldout)
    (habsent : (s.workers w.url).requests n = .absent)
    (hmatches : isSha metadata.normalized.candidateSha = true → Matches (s.workers w.url) metadata.normalized) :
    Inv c ((s.setWorker w.url ((s.workers w.url).start n (.submit metadata))).setPc t
      (.submitting w candidateSha n)) := by
  generalize hq : ((s.workers w.url).start n (.submit metadata)).requests n = q
  have hanswers := RemoteWorker.answers_start hq hmatches
  rw [hquick, hholdout] at hanswers
  have hworker := inv_worker h w.url (a := .start n (.submit metadata)) (fun e he => by cases he)
    (fun n' e m he => by cases he)
  rw [← start_eq habsent] at hworker
  refine inv_setPc hworker ?_
  simp only [PcOk]
  rw [setWorker_self, hq]
  exact hanswers

theorem inv_client (h : Inv c s) (t : Nat) (e : Event) (ha : Aligned c s (.client t e)) :
    Inv c (s.client c t e) := by
  have hcall := h.calls t
  unfold State.client
  cases hpc : s.pcs t with
  | choosing =>
    simp only
    split
    · exact inv_setPc h trivial
    · split
      · rename_i key hkey
        exact inv_setPc h hkey
      · exact inv_setPc h trivial
  | lookingUp w key =>
    rw [hpc] at hcall
    have hall := VerdictStore.getVerdict_all h.stored (c.call t).process.host key e.online
    simp only
    split
    · rename_i hit hget
      have hreplaying : PcOk c s (c.call t) (.replaying hit) := stored_for_call (hall.1 hit hget) hcall
      exact inv_writeStore (inv_setPc h hreplaying) _ hall.2
    · exact inv_setPc h trivial
  | replaying hit => exact inv_setPc h trivial
  | binding w =>
    simp only
    split <;> exact inv_setPc h trivial
  | dispatching w candidateSha =>
    simp only
    split
    · rename_i hbundled
      split
      · rename_i habsent
        refine inv_submit h (metadata_quick w candidateSha) (metadata_includeHoldout w candidateSha)
          habsent fun hsha => ?_
        exact ha.flags w.url e.request _ (.client t e w candidateSha hpc hbundled habsent hsha)
      · exact h
    · exact inv_setPc h trivial
  | submitting w candidateSha n =>
    rw [hpc] at hcall
    simp only [PcOk] at hcall
    simp only
    split
    · rename_i jobId deduplicated hreturned
      rw [hreturned] at hcall
      exact inv_setPc h hcall
    · refine inv_setPc h ?_
      split <;> trivial
    · split
      · exact inv_setPc h trivial
      · exact h
  | streaming w candidateSha jobId =>
    rw [hpc] at hcall
    simp only
    split
    · rename_i job hpolled
      have hid := Table.key_of_get? hpolled
      split
      · exact inv_setPc h (pcOk_afterLost _ _ hcall)
      · rename_i hlost
        split
        · rename_i hterminal
          subst hid
          exact inv_finish h e hpc hpolled fun result hpassed =>
            ha.quick t w candidateSha job result
              ⟨⟨e, rfl, by simpa using hlost⟩, hpc, hpolled, hterminal, hpassed⟩
        · exact h
    · exact inv_setPc h (pcOk_afterLost _ _ hcall)
  | returned result => exact h

theorem inv_work (h : Inv c s) (url : String) (e : WorkerEvent) (child : Child) : Inv c (s.work c url e child) := by
  unfold State.work
  refine inv_setWorker h (workerOk_step (.work _) (h.workers url) ?_) (kept_step (.work _) nofun)
  intro e' jobId job r he hw hjob hr
  cases he
  simp only [hw, hjob, Option.bind_some] at hr
  exact childResult_ofFlags h.stored hr

theorem inv_step (h : Inv c s) (a : Act) (ha : Aligned c s a) : Inv c (step c s a) := by
  cases a with
  | client t e => exact inv_client h t e ha
  | work url e child => exact inv_work h url e child
  | worker url a =>
    cases a with
    | work e => exact h
    | advance n e =>
      refine inv_worker h url (fun e' he => by cases he) fun n' e' metadata he hr => ?_
      cases he
      exact ha.flags url n metadata (.registers url n e metadata hr)
    | _ => exact inv_worker h url (fun e he => by cases he) (fun n e m he => by cases he)
  | restart url => exact inv_setWorker h (workerOk_restarted (h.workers url)) (kept_restarted _)
  | localRun run online =>
    simp only [step]
    split
    · rename_i result hresult
      split
      · rename_i hsuccess
        refine inv_writeStore h _ fun w' hw' => ?_
        cases hw'
        exact localRun_stored hresult hsuccess
      · exact h
    · exact h
  | forget host key =>
    exact ⟨h.workers, VerdictStore.all_setLocal h.stored nofun, fun t => pcOk_congr rfl (h.calls t)⟩

theorem inv_init : Inv c State.init := by
  refine ⟨fun url => ⟨fun job hj => absurd hj Table.not_mem_empty, ?_⟩, VerdictStore.all_empty, fun t => trivial⟩
  rintro jobId r (hw | ⟨n, hn⟩)
  · exact False.elim hw
  · exact False.elim hn

theorem submits_deduplicates {a : Act} {url : String} {n : Nat} {metadata : Metadata}
    (h : Submits c s a url n metadata) :
    Deduplicates (s.workers url) ((step c s a).workers url) n metadata := by
  cases h with
  | client t e w candidateSha hpc hbundled habsent hsha =>
    have hpost : (step c s (.client t e)).workers w.url =
        (s.workers w.url).start e.request (.submit ((c.call t).metadata w candidateSha)) := by
      simp only [step, State.client, hpc, hbundled, if_true, habsent]
      exact setWorker_self _ _ _
    rw [hpost]
    exact RemoteWorker.deduplicates_start hsha
  | start url n m habsent hsha =>
    have hpost : (step c s (.worker url (.start n (.submit m)))).workers url =
        (s.workers url).start n (.submit m) := by
      simp only [step]
      rw [setWorker_self, start_eq habsent]
    rw [hpost]
    exact RemoteWorker.deduplicates_start hsha
  | registers url n e m hregistering =>
    have hpost : (step c s (.worker url (.advance n e))).workers url = (s.workers url).advance n e := by
      simp only [step]
      rw [setWorker_self]
      rfl
    rw [hpost]
    exact RemoteWorker.deduplicates_advance hregistering

theorem deduplicated_iff {a : Act} {url : String} {n : Nat} {metadata : Metadata} (h : Submits c s a url n metadata) :
    (∀ jobId, ((step c s a).workers url).requests n = .returned (.submitted jobId true) →
      ∀ job, job ∈ ((step c s a).workers url).jobs → job.jobId = jobId →
        job.quick = metadata.quick ∧ job.includeHoldout = metadata.includeHoldout) ↔
      Matches (s.workers url) metadata := by
  have hdedup := submits_deduplicates h
  constructor
  · intro hgood job hlive
    rw [hdedup.live job hlive] at hgood
    exact hgood job.jobId (if_pos rfl) job (RemoteWorker.liveJobForKey_mem hlive) rfl
  · intro hmatches jobId hreturned job hjob hid
    cases hlive : liveJobForKey (s.workers url).jobs metadata.clientDispatchKey with
    | none => exact absurd hreturned (hdedup.none hlive jobId)
    | some existing =>
      rw [hdedup.live existing hlive] at hreturned hjob
      have hreturned : RemoteWorker.Request.returned (.submitted existing.jobId true) =
          .returned (.submitted jobId true) := (if_pos rfl).symm.trans hreturned
      cases hreturned
      have hsame : job = existing :=
        Table.eq_of_key hjob (RemoteWorker.liveJobForKey_mem hlive) hid
      rw [hsame]
      exact hmatches existing hlive

theorem equivalent_of_quick (h : Inv c s) {a : Act} {t : Nat} {w : Target} {candidateSha : String}
    {job : HarnessJob} {result : HarnessResult} (ha : Accepts c s a t w candidateSha job result)
    (hquick : (c.call t).quick = true) : Equivalent c (c.call t) w candidateSha job result := by
  obtain ⟨hof, hsha, hconfig⟩ := accepted_result h ha.streaming ha.polled ha.passed
  rw [← hquick] at hof
  refine ⟨hof.started, hof.passed, hsha, hconfig, fun hfull => ?_, fun key hkey hfull => ?_⟩
  · rw [hquick] at hfull
    cases hfull
  · rw [(workerKey_fields hkey).2.1, hquick] at hfull
    cases hfull

theorem good_step_iff (h : Inv c s) (a : Act) : Good c ⟨s, a, step c s a⟩ ↔ Aligned c s a := by
  constructor
  · intro hgood
    constructor
    · intro t w candidateSha job result ha
      cases hquick : (c.call t).quick with
      | true => rfl
      | false =>
        have hfull := (hgood.accepted t w candidateSha job result ha).full hquick
        exact absurd (quick_mem_command job) hfull
    · intro url n metadata hsub
      exact (deduplicated_iff hsub).mp (hgood.deduplicated url n metadata hsub)
  · intro ha
    constructor
    · intro t w candidateSha job result haccepts
      exact equivalent_of_quick h haccepts (ha.quick t w candidateSha job result haccepts)
    · intro t e hit _ hpc _
      have hcall := h.calls t
      rw [hpc] at hcall
      exact hcall
    · intro url n metadata hsub
      exact (deduplicated_iff hsub).mpr (ha.flags url n metadata hsub)

/-- Every move of a run is good exactly if a result is only accepted for a call that asked for a quick
run, and if two submissions under one dispatch key carry the same flags. -/
theorem gate_equivalence_iff (c : Setting) (acts : List Act) :
    (∀ m ∈ Runs.moves (step c) State.init acts, Good c m) ↔
      ∀ m ∈ Runs.moves (step c) State.init acts, Aligned c m.pre m.act :=
  Runs.moves_forall_iff (fun _ a h => good_step_iff h a) (fun _ a h ha => inv_step h a ha) inv_init acts

def testsStep : HarnessStepConfig where
  name := "tests"
  cmd := "python -m pytest tests"
  quick := true
  kind := some .test

def slowStep : HarnessStepConfig where
  name := "slow"
  cmd := "python -m pytest slow"
  kind := some .test

def holdoutStep : HarnessStepConfig where
  name := "holdout"
  cmd := "python -m pytest holdout"
  quick := true
  holdout := true
  kind := some .test

def host : Process where
  host := "vps"
  resolveCommand := fun cmd => [cmd]

def fullCall : Call := ⟨host, "config", false, false, true⟩

def holdoutCall : Call := ⟨host, "config", true, true, true⟩

def gates : Setting where
  config := fun _ => ⟨[testsStep, slowStep, holdoutStep], by decide, by decide⟩
  call := fun t => if t = 0 then fullCall else holdoutCall

def worker : Target := ⟨"http://worker", { hostname := "worker" }, some "tree"⟩

def untilSubmission (t : Nat) : List Act :=
  [.client t { worker := some worker }, .client t {}, .client t { candidateSha := some "abcdef0" },
    .client t { request := t }]

def untilQueued (n : Nat) : List Act :=
  [.worker worker.url (.advance n {}), .worker worker.url (.advance n { uuid := "job" }),
    .worker worker.url (.advance n {})]

def workerRun : List Act :=
  List.replicate 15 (.work worker.url {} (.executed { host with host := "worker" } "abcdef0" "config"
    (List.replicate 3 (none, .exited 0 3 3 0))))

def bothCalls : List Act :=
  untilSubmission 0 ++ untilQueued 0 ++ untilSubmission 1 ++ [.client 0 {}, .client 1 {}] ++ workerRun ++
    [.client 1 {}]

def State.answer (s : State) (c : Setting) (t : Nat) (w : Target) (candidateSha jobId : String) :
    Option (HarnessJob × Finalized) :=
  ((s.workers w.url).jobs.get? jobId).map fun job =>
    (job, finalizeRemoteResult job candidateSha (c.call t).configHash)

theorem not_good_of_answer (t : Nat) (w : Target) (candidateSha jobId : String)
    (hpc : s.pcs t = .streaming w candidateSha jobId) (hquick : (c.call t).quick = false)
    (hanswer : (s.answer c t w candidateSha jobId).any (fun r =>
      r.1.isTerminal && match r.2 with
        | .resolved (some _) => true
        | _ => false) = true) :
    ¬ Good c ⟨s, .client t {}, step c s (.client t {})⟩ := by
  intro hgood
  unfold State.answer at hanswer
  rw [Option.any_map, Option.any_eq_true] at hanswer
  obtain ⟨job, hpolled, hjob⟩ := hanswer
  have hid := Table.key_of_get? hpolled
  subst hid
  simp only [Bool.and_eq_true] at hjob
  obtain ⟨hterminal, hpassed⟩ := hjob
  split at hpassed
  · rename_i result hresolved
    have hfull := (hgood.accepted t w candidateSha job result
      ⟨⟨{}, rfl, rfl⟩, hpc, hpolled, hterminal, hresolved⟩).full hquick
    exact hfull (quick_mem_command job)
  · cases hpassed

/-- The first call has asked for all steps and the second one for the holdout step. Both pass by one job
that ran neither the slow nor the holdout step. -/
theorem gates_drift_apart :
    (∃ m ∈ Runs.moves (step gates) State.init (bothCalls ++ [.client 0 {}]), ¬ Good gates m) ∧
      (Runs.run (step gates) State.init (bothCalls ++ [.client 0 {}])).pcs 0 = .returned (some true) ∧
      (Runs.run (step gates) State.init (bothCalls ++ [.client 0 {}])).pcs 1 = .returned (some true) ∧
      gates.stepNames fullCall = ["tests", "slow"] ∧
      gates.stepNames holdoutCall = ["tests", "holdout"] ∧
      ((Runs.run (step gates) State.init bothCalls).workers worker.url).jobs.rows.map
        (fun job => (job.quick, job.includeHoldout, job.resultJson.map HarnessResult.passedSteps)) =
          [(false, false, some ["tests"])] := by
  refine ⟨⟨⟨Runs.run (step gates) State.init bothCalls, .client 0 {},
    step gates (Runs.run (step gates) State.init bothCalls) (.client 0 {})⟩, ?_, ?_⟩, ?_⟩
  · rw [Runs.moves_append]
    exact List.mem_append_right _ List.mem_cons_self
  · refine not_good_of_answer 0 worker "abcdef0" "job" ?_ rfl ?_
    · decide +kernel
    · decide +kernel
  · decide +kernel

end RemoteDispatch
end Harness
end DarkFactory
