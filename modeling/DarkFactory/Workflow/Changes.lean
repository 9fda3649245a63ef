import DarkFactory.Lib.Calls
import DarkFactory.Lib.Runs
import DarkFactory.Workflow.Runtime

/-!
# DarkFactory.Workflow.Changes

What a call of the runtime does to its database, as a chain of single changes.

* `Change` — one of them, with what the call has tested before.
* `Changes` — a chain; every call that returns makes one (`changes_of_answer`).
-/

namespace DarkFactory
namespace Workflow

open Db Calls

theorem mem_update_key_ne {κ α : Type} [DecidableEq κ] {key : α → κ} {t : Table key} {f : α → α}
    (h : ∀ a, key (f a) = key a) {a : α} {k : κ} (ha : a ∈ t) (hk : key a ≠ k) :
    a ∈ t.update (fun b => decide (key b = k)) f h :=
  Table.mem_update_of_neg ha (decide_eq_false hk)

def Db.released (db : Db) (l : Lease) (fl : Lease → Lease) (fr : Run → Run) (j : Job) (fj : Job → Job)
    (hl : ∀ l, (fl l).leaseId = l.leaseId) (hr : ∀ r, (fr r).runId = r.runId)
    (hj : ∀ j, (fj j).jobId = j.jobId) : Db :=
  ((db.setLease l.leaseId fl hl).setRun l.runId fr hr).setJob j.jobId fj hj

theorem expiredJob_jobId (retryDelay now : Time) (j : Job) : (expiredJob retryDelay now j).jobId = j.jobId := by
  rw [Job.jobId, expiredJob_spec, Job.jobId]

structure LeaseOf (j : Job) (workerId : String) (now : Time) (l : Lease) : Prop where
  jobId : l.jobId = j.jobId
  runId : l.runId = j.spec.runId
  workerId : l.workerId = workerId
  status : l.status = .active

inductive Change (limits : String → Option Nat) (db : Db) : Db → Prop where
  | outbox (outbox : Table Event.dedupeKey) : (∀ e, e ∈ outbox → e.payload.isTransition = true →
      ∃ e', e' ∈ db.outbox ∧ e'.dedupeKey = e.dedupeKey ∧ e'.payload.isTransition = true) →
      Change limits db { db with outbox := outbox }
  | registers (r : Run) : db.runs.get? r.runId = none → 0 ≤ r.budgetCeiling → r.budgetReserved = 0 →
      r.budgetSpent = 0 → r.state ≠ .delivered →
      Change limits db { db with runs := db.runs.insertIgnore r }
  | transits (r : Run) (target : WorkflowState) (now : Time) (op : Operation) (operations : Table Operation.key)
      (outbox : Table Event.dedupeKey) : r ∈ db.runs → target ∈ r.state.allowed → target ≠ .delivered →
      op.body = .runTransition r.runId target (withState target now r) → op.subject = r.runId →
      db.operations.insert? op = some operations →
      (∀ e, e ∈ outbox → e.payload.isTransition = true → e ∈ db.outbox ∨ e.dedupeKey = op.key) →
      Change limits db { db.setRun r.runId (withState target now) with operations := operations, outbox := outbox }
  | enqueues (j : Job) (r : Run) (jobs : Table Job.jobId) : r ∈ db.runs → r.runId = j.spec.runId →
      db.jobs.insert? j = some jobs → j.status = .ready → j.attempt = 0 →
      Change limits db { db with jobs := jobs }
  | dues (now : Time) :
      Change limits db { db with jobs := db.jobs.update (isDue now) (withStatus .ready now none) }
  | awaits (j : Job) (now : Time) : j ∈ db.jobs → j.status = .ready →
      Change limits db (db.setJob j.jobId (withStatus .waitingBudget now (some "budget unavailable")))
  | claims (j : Job) (workerId : String) (now : Time) (l : Lease) (leases : Table Lease.leaseId) :
      j ∈ db.jobs → j.status = .ready ∨ j.status = .waitingBudget → db.isOpen limits j = true →
      db.isAffordable j = true → LeaseOf j workerId now l → db.leases.insert? l = some leases →
      Change limits db (({ db with leases := leases }.setJob j.jobId (claimedBy l.leaseId workerId now)).setRun
        j.spec.runId (reserve j.spec.estimatedCost now))
  | expires (l : Lease) (j : Job) (retryDelay now : Time) : l ∈ db.leases → l.status = .active → j ∈ db.jobs →
      j.jobId = l.jobId →
      Change limits db (db.released l (closed .expired now none) (unreserve j.spec.estimatedCost now) j
        (expiredJob retryDelay now) (fun _ => rfl) (fun _ => rfl) (expiredJob_jobId retryDelay now))
  | completes (l : Lease) (j : Job) (completion : Completion) (op : Operation)
      (operations : Table Operation.key) (retryDelay now : Time) :
      l ∈ db.leases → l.status = .active → j ∈ db.jobs → j.jobId = l.jobId →
      op.key = completionKey l.leaseId → op.subject = j.jobId →
      op.body = .jobCompletion completion (completedJob completion retryDelay now j) →
      db.operations.insert? op = some operations →
      Change limits db { db.released l (closed .completed now (some completion.outcome))
        (spend j.spec.estimatedCost completion.chargedCost now)
        j (completedJob completion retryDelay now) (fun _ => rfl) (fun _ => rfl) (fun _ => rfl) with
          operations := operations }
  | recovers (l : Lease) (op : Operation) (operations : Table Operation.key) : l ∈ db.leases →
      l.status = .completed → op.key = completionKey l.leaseId → db.operations.insert? op = some operations →
      Change limits db { db with operations := operations }
  | cancels (r : Run) (reason : String) (now : Time) : r ∈ db.runs → r.state.isTerminal = false →
      Change limits db (db.cancelled r.runId reason now)

abbrev Changes (limits : String → Option Nat) : Db → Db → Prop := Relation.ReflTransGen (Change limits)

section

variable {limits : String → Option Nat} {db db' : Db}

theorem insertEvent_ok {e : Event} (h : db.insertEvent e = .ok db') :
    ∃ outbox, db' = { db with outbox := outbox } ∧ ∀ e', e' ∈ outbox → e' ∈ db.outbox ∨ e' = e := by
  unfold insertEvent at h
  split at h
  · split at h
    · cases h
    · cases h
      exact ⟨db.outbox, rfl, fun _ => .inl⟩
  · cases h
    exact ⟨_, rfl, fun e' he' => (Table.mem_insertIgnore.mp he').imp_right And.left⟩

theorem event_ok {e : Event} (h : db.insertEvent e = .ok db') (he : e.payload.isTransition = false) :
    ∃ outbox, db' = { db with outbox := outbox } ∧
      ∀ e', e' ∈ outbox → e'.payload.isTransition = true → e' ∈ db.outbox := by
  obtain ⟨outbox, rfl, hmem⟩ := insertEvent_ok h
  refine ⟨outbox, rfl, fun e' he' htransition => ?_⟩
  rcases hmem e' he' with he' | rfl
  · exact he'
  · rw [he] at htransition
    cases htransition

theorem change_events {outbox : Table Event.dedupeKey}
    (hold : ∀ e, e ∈ outbox → e.payload.isTransition = true → e ∈ db.outbox) :
    Change limits db { db with outbox := outbox } :=
  .outbox outbox fun e he htransition => ⟨e, hold e he htransition, rfl, htransition⟩

theorem recordOperation_ok {op : Operation} (h : db.recordOperation op = .ok db') :
    ∃ operations, db.operations.insert? op = some operations ∧ db' = { db with operations := operations } := by
  unfold recordOperation at h
  split at h
  · rename_i operations hinsert
    cases h
    exact ⟨operations, hinsert, rfl⟩
  · cases h

variable {runId leaseId workerId : String} {now retryDelay leaseTime : Time} {j : Job}

theorem changes_registerRun {projectId : String} {initialState : WorkflowState} {budgetCeiling : Rat} {r : Run}
    (h : db.registerRun runId projectId initialState budgetCeiling now = .ok (r, db')) :
    Changes limits db db' := by
  unfold registerRun at h
  split at h
  · cases h
  · split at h
    · cases h
    · rename_i hceiling
      split at h
      · cases h
      · rename_i hstate
        split at h
        · split at h
          · cases h
          · split at h
            · cases h
            · cases h
              exact .refl
        · rename_i hnone
          cases h
          exact .single (.registers _ hnone (not_lt.mp hceiling) rfl rfl hstate)

/-- What `transition_run` does when it returns: it replays the operation stored under its key, it finds the run in
the state, or it makes the transition. -/
theorem transitionRun_ok {target : WorkflowState} {key : Option String} {result : Run}
    (h : db.transitionRun runId target key now = .ok (result, db')) :
    ∃ r, r ∈ db.runs ∧ r.runId = runId ∧ target ≠ .delivered ∧
      ((∃ op, db.operations.get? (operationKey key runId r.state target) = some op ∧
          op.transitionResult runId target = some result ∧ db' = db) ∨
        (db.operations.get? (operationKey key runId r.state target) = none ∧ r.state = target ∧ result = r ∧ db' = db) ∨
          db.operations.get? (operationKey key runId r.state target) = none ∧ r.state ≠ target ∧
            target ∈ r.state.allowed ∧ result = withState target now r ∧ ∃ db₁ operations,
              db.insertEvent ⟨operationKey key runId r.state target, runId, "run.transitioned",
                .transitioned r.state target, .pending, now, none⟩ = .ok db₁ ∧
              db.operations.insert? ⟨operationKey key runId r.state target, runId,
                .runTransition runId target result, now⟩ = some operations ∧
              db' = { db₁.setRun runId (withState target now) with operations := operations }) := by
  unfold transitionRun at h
  split at h
  · cases h
  · rename_i htarget
    split at h
    · cases h
    · rename_i r hrow
      obtain ⟨hr, hid⟩ := Table.get?_eq_some.mp hrow
      refine ⟨r, hr, hid, htarget, ?_⟩
      split at h
      · cases h
      · simp only at h
        split at h
        · rename_i op hop
          split at h
          · rename_i hresult
            cases h
            exact .inl ⟨op, hop, hresult, rfl⟩
          · cases h
        · rename_i hnone
          split at h
          · rename_i hstate
            cases h
            exact .inr (.inl ⟨hnone, hstate, rfl, rfl⟩)
          · rename_i hstate
            split at h
            · cases h
            · rename_i hallowed
              obtain ⟨db₁, hevent, h⟩ := bind_ok.mp h
              obtain ⟨db₂, hop, h⟩ := bind_ok.mp h
              cases h
              obtain ⟨operations, hinsert, rfl⟩ := recordOperation_ok hop
              have hsame : db₁.operations = db.operations := by
                obtain ⟨outbox, rfl, _⟩ := insertEvent_ok hevent
                rfl
              exact .inr (.inr ⟨hnone, hstate, not_not.mp hallowed, rfl, db₁, operations, hevent, hsame ▸ hinsert, rfl⟩)

theorem changes_transitionRun {target : WorkflowState} {key : Option String} {r : Run}
    (h : db.transitionRun runId target key now = .ok (r, db')) : Changes limits db db' := by
  obtain ⟨row, hrow, rfl, htarget, ⟨_, _, _, rfl⟩ | ⟨_, _, _, rfl⟩ |
    ⟨_, _, hallowed, rfl, db₁, operations, hevent, hinsert, rfl⟩⟩ := transitionRun_ok h
  · exact .refl
  · exact .refl
  · obtain ⟨outbox, rfl, hold⟩ := insertEvent_ok hevent
    refine .single (.transits row target now _ operations outbox hrow hallowed htarget rfl rfl hinsert fun e he _ => ?_)
    exact (hold e he).imp_right fun hnew => by rw [hnew]

theorem changes_enqueueJob {spec : JobSpec} (h : db.enqueueJob spec now = .ok (j, db')) :
    Changes limits db db' := by
  unfold enqueueJob at h
  split at h
  · cases h
  · rename_i r hrun
    split at h
    · cases h
    · split at h
      · split at h
        · cases h
          exact .refl
        · cases h
      · simp only at h
        split at h
        · cases h
        · rename_i jobs hinsert
          obtain ⟨db₁, hevent, h⟩ := bind_ok.mp h
          cases h
          obtain ⟨hmem, hid⟩ := Table.get?_eq_some.mp hrun
          obtain ⟨outbox, rfl, hold⟩ := event_ok hevent rfl
          exact .tail (.single (.enqueues _ r jobs hmem hid hinsert rfl rfl)) (change_events hold)

theorem cancelRun_ok {reason : String} {result : Run} (h : db.cancelRun runId reason now = .ok (result, db')) :
    ∃ r, r ∈ db.runs ∧ r.runId = runId ∧ (r.state.isTerminal = true ∧ result = r ∧ db' = db ∨
      r.state.isTerminal = false ∧ ∃ outbox, db' = { db.cancelled runId reason now with outbox := outbox } ∧
        ∀ e, e ∈ outbox → e.payload.isTransition = true → e ∈ db.outbox) := by
  unfold cancelRun at h
  split at h
  · cases h
  · rename_i r hrow
    obtain ⟨hr, hid⟩ := Table.get?_eq_some.mp hrow
    refine ⟨r, hr, hid, ?_⟩
    split at h
    · cases h
    · split at h
      · rename_i hterminal
        cases h
        exact .inl ⟨hterminal, rfl, rfl⟩
      · rename_i hterminal
        split at h
        · cases h
        · obtain ⟨db₁, hevent, h⟩ := bind_ok.mp h
          cases h
          obtain ⟨outbox, rfl, hold⟩ := event_ok hevent rfl
          exact .inr ⟨by simpa using hterminal, outbox, rfl, hold⟩

theorem changes_cancelRun {reason : String} {result : Run}
    (h : db.cancelRun runId reason now = .ok (result, db')) : Changes limits db db' := by
  obtain ⟨r, hr, rfl, ⟨_, _, rfl⟩ | ⟨hterminal, outbox, rfl, hold⟩⟩ := cancelRun_ok h
  · exact .refl
  · exact .tail (.single (.cancels r reason now hr hterminal)) (change_events hold)

theorem changes_ackEvent {dedupeKey : String} {e : Event}
    (h : db.ackEvent dedupeKey now = .ok (e, db')) : Changes limits db db' := by
  unfold ackEvent at h
  split at h
  · cases h
  · cases h
    refine .single (.outbox _ fun e he htransition => ?_)
    rcases Table.mem_update_cases he with ⟨he, _⟩ | ⟨e', he', _, rfl⟩
    · exact ⟨e, he, rfl, htransition⟩
    · exact ⟨e', he', rfl, htransition⟩

theorem expireLease_ok {l : Lease} (hl : l ∈ db.leases) (hactive : l.status = .active)
    (h : expireLease retryDelay now db l = .ok db') :
    Changes limits db db' ∧ ∀ l', l' ∈ db.leases → l'.leaseId ≠ l.leaseId → l' ∈ db'.leases := by
  unfold expireLease at h
  split at h
  · cases h
    exact ⟨.refl, fun _ hl' _ => hl'⟩
  · rename_i j hjob
    obtain ⟨hj, hid⟩ := Table.get?_eq_some.mp hjob
    obtain ⟨outbox, rfl, hold⟩ := event_ok h rfl
    refine ⟨.tail (.single (.expires l j retryDelay now hl hactive hj hid)) (change_events hold), ?_⟩
    exact fun l' hl' hne => mem_update_key_ne (f := closed .expired now none) (fun _ => rfl) hl' hne

theorem changes_expire (expired : List Lease) (hnodup : (expired.map Lease.leaseId).Nodup)
    (hexpired : ∀ l ∈ expired, l ∈ db.leases ∧ l.status = .active)
    (h : expired.foldlM (expireLease retryDelay now) db = .ok db') : Changes limits db db' := by
  induction expired generalizing db with
  | nil =>
    cases h
    exact .refl
  | cons l expired ih =>
    rw [List.foldlM_cons] at h
    obtain ⟨db₁, hfirst, hrest⟩ := bind_ok.mp h
    rw [List.map_cons, List.nodup_cons] at hnodup
    rw [List.forall_mem_cons] at hexpired
    obtain ⟨hchanges, hkeeps⟩ := expireLease_ok hexpired.1.1 hexpired.1.2 hfirst
    refine hchanges.trans (ih hnodup.2 (fun l' hl' => ?_) hrest)
    refine ⟨hkeeps l' (hexpired.2 l' hl').1 fun hbad => ?_, (hexpired.2 l' hl').2⟩
    exact hnodup.1 (hbad ▸ List.mem_map_of_mem hl')

theorem changes_reconcile {report : ReconciliationReport}
    (h : db.reconcile retryDelay now = .ok (report, db')) : Changes limits db db' := by
  unfold reconcile at h
  obtain ⟨db₁, hexpire, h⟩ := bind_ok.mp h
  cases h
  refine .tail (changes_expire _ ?_ (fun l hl => ?_) hexpire) (.dues now)
  · have hperm := (sortAsc_perm (fun l : Lease => toLex (l.expiresAt, l.leaseId)) (db.leases.select (isExpired now)))
    exact (hperm.map _).nodup_iff.mpr (Table.select_nodup _ _)
  · have hmem := Table.mem_select.mp ((sortAsc_perm _ _).mem_iff.mp hl)
    exact ⟨hmem.1, (of_decide_eq_true hmem.2).1⟩

theorem completionEvents_ok {completion : Completion} (h : db.completionEvents j completion now = .ok db') :
    ∃ outbox, db' = { db with outbox := outbox } ∧
      ∀ e, e ∈ outbox → e.payload.isTransition = true → e ∈ db.outbox := by
  unfold completionEvents at h
  obtain ⟨db₁, hfirst, h⟩ := bind_ok.mp h
  obtain ⟨outbox, rfl, hold⟩ := event_ok hfirst rfl
  split at h
  · cases h
    exact ⟨outbox, rfl, hold⟩
  · split at h
    · obtain ⟨outbox', rfl, hold'⟩ := event_ok h rfl
      exact ⟨outbox', rfl, fun e he htransition => hold e (hold' e he htransition) htransition⟩
    · cases h
      exact ⟨outbox, rfl, hold⟩

theorem changes_finishLease {l : Lease} {j' : Job} {completion : Completion}
    (hl : l ∈ db.leases) (hactive : l.status = .active) (hj : j ∈ db.jobs) (hid : j.jobId = l.jobId)
    (h : db.finishLease l j completion retryDelay now = .ok (j', db')) : Changes limits db db' := by
  unfold finishLease at h
  split at h
  · cases h
  · obtain ⟨db₁, hevents, h⟩ := bind_ok.mp h
    obtain ⟨db₂, hop, h⟩ := bind_ok.mp h
    cases h
    obtain ⟨outbox, rfl, hold⟩ := completionEvents_ok hevents
    obtain ⟨operations, hinsert, rfl⟩ := recordOperation_ok hop
    exact .tail (.single (.completes l j completion _ operations retryDelay now hl hactive hj hid rfl rfl rfl hinsert))
      (change_events hold)

theorem changes_completeJob {outcome : JobOutcome} {actualCost : Option Rat} {error : Option String}
    (h : db.completeJob leaseId workerId outcome actualCost error retryDelay now = .ok (j, db')) :
    Changes limits db db' := by
  unfold completeJob at h
  split at h
  · cases h
  · split at h
    · cases h
    · rename_i l hlease
      obtain ⟨hl, rfl⟩ := Table.get?_eq_some.mp hlease
      split at h
      · cases h
      · split at h
        · cases h
        · rename_i row hjob
          obtain ⟨hj, hid⟩ := Table.get?_eq_some.mp hjob
          simp only at h
          split at h
          · split at h
            · cases h
              exact .refl
            · cases h
          · split at h
            · rename_i hcompleted
              split at h
              · cases h
              · obtain ⟨db₁, hop, h⟩ := bind_ok.mp h
                cases h
                obtain ⟨operations, hinsert, rfl⟩ := recordOperation_ok hop
                exact .single (.recovers l _ operations hl hcompleted rfl hinsert)
            · split at h
              · cases h
              · rename_i hactive
                split at h
                · cases h
                · exact changes_finishLease hl (not_not.mp hactive) hj hid h

/-- Jobs that wait for budget differ from `db` in nothing that the tests of `claim_next` read. -/
structure Waits (db db' : Db) (F : Job → Job) : Prop where
  runs : db'.runs = db.runs
  leases : db'.leases = db.leases
  jobs : db.jobs.Mapped F db'.jobs
  spec : ∀ j, j ∈ db.jobs → (F j).spec = j.spec
  claimed : ∀ j, j ∈ db.jobs → ((F j).status = .claimed ↔ j.status = .claimed)
  succeeded : ∀ j, j ∈ db.jobs → ((F j).status = .succeeded ↔ j.status = .succeeded)

namespace Waits

variable {F : Job → Job}

theorem refl : Waits db db fun j => j :=
  ⟨rfl, rfl, Table.Mapped.refl, fun _ _ => rfl, fun _ _ => Iff.rfl, fun _ _ => Iff.rfl⟩

theorem trans {db'' : Db} {G : Job → Job} (h : Waits db db' F) (h' : Waits db' db'' G) :
    Waits db db'' fun j => G (F j) where
  runs := h'.runs.trans h.runs
  leases := h'.leases.trans h.leases
  jobs := h.jobs.trans h'.jobs
  spec j hj := (h'.spec _ (h.jobs.mem_of hj)).trans (h.spec j hj)
  claimed j hj := (h'.claimed _ (h.jobs.mem_of hj)).trans (h.claimed j hj)
  succeeded j hj := (h'.succeeded _ (h.jobs.mem_of hj)).trans (h.succeeded j hj)

theorem isClaimed_eq (h : Waits db db' F) {j : Job} (hj : j ∈ db.jobs) : isClaimed (F j) = isClaimed j := by
  rw [isClaimed, isClaimed, Bool.eq_iff_iff, decide_eq_true_iff, decide_eq_true_iff]
  exact h.claimed j hj

theorem activeByStage_eq (h : Waits db db' F) (stage : String) : db'.activeByStage stage = db.activeByStage stage := by
  unfold activeByStage
  rw [h.jobs.select (p := fun j => isClaimed j && decide (j.spec.stage = stage)), List.length_map]
  intro j hj
  simp only [h.isClaimed_eq hj, h.spec j hj]

theorem activeConflicts_eq (h : Waits db db' F) : db'.activeConflicts = db.activeConflicts := by
  unfold activeConflicts
  rw [h.jobs.select (p := isClaimed) fun j hj => h.isClaimed_eq hj, List.flatMap_map]
  refine List.flatMap_congr fun j hj => ?_
  rw [h.spec j (Table.mem_select.mp hj).1]

theorem dependenciesSucceeded_eq (h : Waits db db' F) (dependsOn : List String) :
    db'.dependenciesSucceeded dependsOn = db.dependenciesSucceeded dependsOn := by
  unfold dependenciesSucceeded
  congr 1
  funext jobId
  rw [h.jobs.get? jobId, Option.any_map]
  cases hjob : db.jobs.get? jobId with
  | none => rfl
  | some j =>
    rw [Option.any_some, Option.any_some, Bool.eq_iff_iff]
    simpa using h.succeeded j (Table.mem_of_get? hjob)

theorem isOpen_eq (h : Waits db db' F) (j : Job) : db'.isOpen limits j = db.isOpen limits j := by
  unfold isOpen
  rw [h.activeByStage_eq, h.activeConflicts_eq, h.dependenciesSucceeded_eq, h.runs]

theorem isAffordable_eq (h : Waits db db' F) (j : Job) : db'.isAffordable j = db.isAffordable j := by
  unfold isAffordable
  rw [h.runs]

end Waits

variable (limits) in
theorem awaitBudget_ok (hj : j ∈ db.jobs) (hstatus : j.status = .ready ∨ j.status = .waitingBudget)
    (h : awaitBudget now db j = .ok db') :
    Changes limits db db' ∧ ∃ F, Waits db db' F ∧ ∀ a, a.jobId ≠ j.jobId → F a = a := by
  unfold awaitBudget at h
  split at h
  · cases h
    exact ⟨.refl, _, .refl, fun _ _ => rfl⟩
  · rename_i hnot
    have hready : j.status = .ready := hstatus.resolve_right hnot
    obtain ⟨outbox, rfl, hold⟩ := event_ok h rfl
    refine ⟨.tail (.single (.awaits j now hj hready)) (change_events hold), _,
      ⟨rfl, rfl, (Table.mapped_update (h := by intro _; rfl)), ?_, ?_, ?_⟩, ?_⟩
    · intro a _
      split <;> rfl
    · intro a ha
      split
      · rename_i hid
        obtain rfl := Table.eq_of_key ha hj (of_decide_eq_true hid)
        simp [withStatus, hready]
      · rfl
    · intro a ha
      split
      · rename_i hid
        obtain rfl := Table.eq_of_key ha hj (of_decide_eq_true hid)
        simp [withStatus, hready]
      · rfl
    · intro a hne
      rw [if_neg]
      simpa using hne

variable (limits) in
theorem changes_await (waiting : List Job) (hnodup : (waiting.map Job.jobId).Nodup)
    (hwaiting : ∀ j ∈ waiting, j ∈ db.jobs ∧ (j.status = .ready ∨ j.status = .waitingBudget))
    (h : waiting.foldlM (awaitBudget now) db = .ok db') :
    Changes limits db db' ∧ ∃ F, Waits db db' F ∧ ∀ a, (∀ j ∈ waiting, a.jobId ≠ j.jobId) → F a = a := by
  induction waiting generalizing db with
  | nil =>
    cases h
    exact ⟨.refl, _, .refl, fun _ _ => rfl⟩
  | cons j waiting ih =>
    rw [List.foldlM_cons] at h
    obtain ⟨db₁, hfirst, hrest⟩ := bind_ok.mp h
    rw [List.map_cons, List.nodup_cons] at hnodup
    rw [List.forall_mem_cons] at hwaiting
    obtain ⟨hchanges, F, hF, hfix⟩ := awaitBudget_ok limits hwaiting.1.1 hwaiting.1.2 hfirst
    have hkept : ∀ j' ∈ waiting, j' ∈ db₁.jobs ∧ (j'.status = .ready ∨ j'.status = .waitingBudget) := by
      intro j' hj'
      have hne : j'.jobId ≠ j.jobId := fun hbad => hnodup.1 (hbad ▸ List.mem_map_of_mem hj')
      have hmem := hF.jobs.mem_of (hwaiting.2 j' hj').1
      rw [hfix j' hne] at hmem
      exact ⟨hmem, (hwaiting.2 j' hj').2⟩
    obtain ⟨hchanges', G, hG, hfix'⟩ := ih hnodup.2 hkept hrest
    refine ⟨hchanges.trans hchanges', _, hF.trans hG, fun a ha => ?_⟩
    rw [List.forall_mem_cons] at ha
    rw [hfix a ha.1, hfix' a ha.2]

theorem claim_ok {l : Lease} (h : db.claim j workerId leaseTime now leaseId = .ok (l, db')) :
    LeaseOf j workerId now l ∧ ∃ leases outbox, db.leases.insert? l = some leases ∧
      db' = { ({ db with leases := leases }.setJob j.jobId (claimedBy l.leaseId workerId now)).setRun
        j.spec.runId (reserve j.spec.estimatedCost now) with outbox := outbox } ∧
      ∀ e, e ∈ outbox → e.payload.isTransition = true → e ∈ db.outbox := by
  unfold claim at h
  dsimp only at h
  split at h
  · cases h
  · split at h
    · cases h
    · rename_i leases hinsert
      obtain ⟨db₁, hevent, h⟩ := bind_ok.mp h
      cases h
      obtain ⟨outbox, rfl, hold⟩ := event_ok hevent rfl
      exact ⟨⟨rfl, rfl, rfl, rfl⟩, leases, outbox, hinsert, rfl, hold⟩

theorem isEligible_status (h : isEligible now j = true) : j.status = .ready ∨ j.status = .waitingBudget :=
  of_decide_eq_true (Bool.and_eq_true_iff.mp h).1

/-- What `claim_next` returns is a lease of a job that passes every test, after jobs have been reconciled and set to
wait. -/
theorem claimNext_ok {l : Option Lease}
    (h : db.claimNext limits workerId leaseTime retryDelay now leaseId = .ok (l, db')) :
    ∃ waiting, Changes limits db waiting ∧ (l = none ∧ db' = waiting ∨
      ∃ j l', l = some l' ∧ j ∈ waiting.jobs ∧ (j.status = .ready ∨ j.status = .waitingBudget) ∧
        waiting.isOpen limits j = true ∧ waiting.isAffordable j = true ∧
        waiting.claim j workerId leaseTime now leaseId = .ok (l', db')) := by
  unfold claimNext at h
  split at h
  · cases h
  · split at h
    · cases h
    · obtain ⟨⟨report, db₁⟩, hreconcile, h⟩ := bind_ok.mp h
      dsimp only at h
      obtain ⟨waiting, hawait, h⟩ := bind_ok.mp h
      have hsorted := sortAsc_perm (fun j : Job => toLex (j.createdAt, j.jobId)) (db₁.jobs.select (isEligible now))
      have hnodup : ((sortAsc (fun j : Job => toLex (j.createdAt, j.jobId))
          (db₁.jobs.select (isEligible now))).map Job.jobId).Nodup :=
        (hsorted.map _).nodup_iff.mpr (Table.select_nodup _ _)
      have hcandidate : ∀ j ∈ sortAsc (fun j : Job => toLex (j.createdAt, j.jobId))
          (db₁.jobs.select (isEligible now)), j ∈ db₁.jobs ∧ (j.status = .ready ∨ j.status = .waitingBudget) := by
        intro j hj
        have hmem := Table.mem_select.mp (hsorted.mem_iff.mp hj)
        exact ⟨hmem.1, isEligible_status hmem.2⟩
      obtain ⟨hchanges, F, hF, hfix⟩ := changes_await limits _
        (hnodup.sublist ((List.filter_sublist.trans List.filter_sublist).map _))
        (fun j hj => hcandidate j (List.mem_of_mem_filter (List.mem_of_mem_filter hj))) hawait
      refine ⟨waiting, (changes_reconcile hreconcile).trans hchanges, ?_⟩
      split at h
      · cases h
        exact .inl ⟨rfl, rfl⟩
      · rename_i j hhead
        obtain ⟨⟨l', db₂⟩, hclaim, h⟩ := bind_ok.mp h
        cases h
        -- the chosen job passes every test, and no job that waits is the chosen one
        have hchosen := (sortAsc_perm _ _).mem_iff.mp (List.mem_of_mem_head? hhead)
        obtain ⟨htested, haffordable⟩ := List.mem_filter.mp hchosen
        obtain ⟨hsort, hopen⟩ := List.mem_filter.mp htested
        obtain ⟨hj, hstatus⟩ := hcandidate j hsort
        have hj' : j ∈ waiting.jobs := by
          have hmem := hF.jobs.mem_of hj
          rwa [hfix j ?_] at hmem
          intro j' hwaiting hid
          obtain ⟨htested', hnot⟩ := List.mem_filter.mp hwaiting
          obtain rfl := Table.eq_of_key hj (hcandidate j' (List.mem_of_mem_filter htested')).1 hid
          rw [haffordable] at hnot
          cases hnot
        exact .inr ⟨j, l', rfl, hj', hstatus, hF.isOpen_eq j ▸ hopen, hF.isAffordable_eq j ▸ haffordable, hclaim⟩

theorem changes_claimNext {l : Option Lease}
    (h : db.claimNext limits workerId leaseTime retryDelay now leaseId = .ok (l, db')) :
    Changes limits db db' := by
  obtain ⟨waiting, hchanges, ⟨_, rfl⟩ | ⟨j, l', _, hj, hstatus, hopen, haffordable, hclaim⟩⟩ := claimNext_ok h
  · exact hchanges
  · obtain ⟨hlease, leases, outbox, hinsert, rfl, hold⟩ := claim_ok hclaim
    exact .tail (.tail hchanges (.claims j workerId now l' leases hj hstatus hopen haffordable hlease hinsert))
      (change_events hold)

theorem changes_of_answer {a : Act} {result : Answer} (h : db.answer limits a = .ok (result, db')) :
    Changes limits db db' := by
  unfold answer at h
  split at h <;> obtain ⟨⟨_, db₁⟩, hcall, h⟩ := map_ok.mp h <;> cases h
  · exact changes_registerRun hcall
  · exact changes_transitionRun hcall
  · exact changes_enqueueJob hcall
  · exact changes_claimNext hcall
  · exact changes_completeJob hcall
  · exact changes_reconcile hcall
  · exact changes_cancelRun hcall
  · exact changes_ackEvent hcall

theorem changes_step (db : Db) (a : Act) : Changes limits db (step limits db a) := by
  unfold step
  split
  · rename_i hanswer
    exact changes_of_answer hanswer
  · exact .refl

theorem of_changes {I : Db → Prop} (hI : ∀ {db db'}, Change limits db db' → I db → I db')
    (hchanges : Changes limits db db') (h : I db) : I db' := by
  induction hchanges with
  | refl => exact h
  | tail _ hchange ih => exact hI hchange ih

theorem step_of_changes {I : Db → Prop} (hI : ∀ {db db'}, Change limits db db' → I db → I db') {db : Db} (a : Act)
    (h : I db) : I (step limits db a) :=
  of_changes hI (changes_step db a) h

end

end Workflow
end DarkFactory
