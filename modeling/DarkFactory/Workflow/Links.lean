import DarkFactory.Workflow.Changes

/-!
# DarkFactory.Workflow.Links

The rows of the runtime that name each other.

* `Links` — jobs and leases: a job is claimed exactly while it has an active lease, and names it.
* `Grows` — what every change keeps: operations, leases that are over, jobs that succeeded, terminal runs.
-/

namespace DarkFactory
namespace Workflow

open Db

structure Links (db : Db) : Prop where
  held : ∀ j, j ∈ db.jobs → j.status = .claimed → ∃ l, l ∈ db.leases ∧ l.jobId = j.jobId ∧ l.status = .active
  holder : ∀ l, l ∈ db.leases → l.status = .active →
    ∃ j, j ∈ db.jobs ∧ j.jobId = l.jobId ∧ j.status = .claimed ∧ j.leaseId = some l.leaseId
  leaseJob : ∀ l, l ∈ db.leases → ∃ j, j ∈ db.jobs ∧ j.jobId = l.jobId ∧ j.spec.runId = l.runId
  jobRun : ∀ j, j ∈ db.jobs → ∃ r, r ∈ db.runs ∧ r.runId = j.spec.runId

namespace Links

variable {db : Db}

theorem empty : Links {} := by
  constructor <;> exact fun _ h => absurd h Table.not_mem_empty

theorem claimed (h : Links db) {l : Lease} {j : Job} (hl : l ∈ db.leases) (hactive : l.status = .active)
    (hj : j ∈ db.jobs) (hid : j.jobId = l.jobId) : j.status = .claimed ∧ j.leaseId = some l.leaseId := by
  obtain ⟨j', hj', hid', hclaimed, hlease⟩ := h.holder l hl hactive
  obtain rfl := Table.eq_of_key hj hj' (hid.trans hid'.symm)
  exact ⟨hclaimed, hlease⟩

theorem active_unique (h : Links db) {l l' : Lease} (hl : l ∈ db.leases) (hactive : l.status = .active)
    (hl' : l' ∈ db.leases) (hactive' : l'.status = .active) (hjob : l'.jobId = l.jobId) : l' = l := by
  obtain ⟨j, hj, hid, _, hlease⟩ := h.holder l hl hactive
  have hlease' := (h.claimed hl' hactive' hj (hid.trans hjob.symm)).2
  exact Table.eq_of_key hl' hl (Option.some.inj (hlease'.symm.trans hlease))

theorem runId_eq (h : Links db) {l : Lease} {j : Job} (hl : l ∈ db.leases) (hj : j ∈ db.jobs)
    (hid : j.jobId = l.jobId) : j.spec.runId = l.runId := by
  obtain ⟨j', hj', hid', hrun⟩ := h.leaseJob l hl
  obtain rfl := Table.eq_of_key hj hj' (hid.trans hid'.symm)
  exact hrun

end Links

/-- Jobs change, and none of them is claimed for it. -/
structure Leaves (t : Table Job.jobId) (F : Job → Job) : Prop where
  spec : ∀ j, j ∈ t → (F j).spec = j.spec
  attempt : ∀ j, j ∈ t → (F j).attempt = j.attempt
  claimed : ∀ j, j ∈ t → (F j).status = .claimed → F j = j
  succeeded : ∀ j, j ∈ t → j.status = .succeeded → F j = j
  of_succeeded : ∀ j, j ∈ t → (F j).status = .succeeded → j.status = .succeeded ∨ j.status = .claimed
  waits : ∀ j, j ∈ t → (F j).status = .ready ∨ (F j).status = .waitingBudget ∨ (F j).status = .retryScheduled →
    (j.status = .ready ∨ j.status = .waitingBudget ∨ j.status = .retryScheduled) ∨ j.attempt < j.spec.maxAttempts

structure Ends (t : Table Lease.leaseId) (G : Lease → Lease) : Prop where
  jobId : ∀ l, l ∈ t → (G l).jobId = l.jobId
  runId : ∀ l, l ∈ t → (G l).runId = l.runId
  workerId : ∀ l, l ∈ t → (G l).workerId = l.workerId
  active : ∀ l, l ∈ t → (G l).status = .active → G l = l
  ended : ∀ l, l ∈ t → l.status ≠ .active → G l = l

theorem Leaves.refl (t : Table Job.jobId) : Leaves t fun j => j :=
  ⟨fun _ _ => rfl, fun _ _ => rfl, fun _ _ _ => rfl, fun _ _ _ => rfl, fun _ _ => .inl, fun _ _ => .inl⟩

theorem Ends.refl (t : Table Lease.leaseId) : Ends t fun l => l :=
  ⟨fun _ _ => rfl, fun _ _ => rfl, fun _ _ => rfl, fun _ _ _ => rfl, fun _ _ _ => rfl⟩

/-- The change makes no job, lease or run and claims nothing. It says the same of an active lease and of its
job. -/
structure Settles (db db' : Db) (F : Job → Job) (G : Lease → Lease) (H : Run → Run) : Prop where
  jobs : db.jobs.Mapped F db'.jobs
  leases : db.leases.Mapped G db'.leases
  runs : db.runs.Mapped H db'.runs
  leaves : Leaves db.jobs F
  ends : Ends db.leases G
  same : ∀ l j, l ∈ db.leases → j ∈ db.jobs → l.status = .active → j.jobId = l.jobId →
    ((G l).status = .active ↔ (F j).status = .claimed)
  terminal : ∀ r, r ∈ db.runs → r.state.isTerminal = true → (H r).state = r.state

theorem Links.settles {db db' : Db} {F : Job → Job} {G : Lease → Lease} {H : Run → Run} (h : Links db)
    (hs : Settles db db' F G H) : Links db' where
  held j' hj' hclaimed := by
    obtain ⟨j, hj, rfl⟩ := hs.jobs.mem hj'
    have hfix := hs.leaves.claimed j hj hclaimed
    obtain ⟨l, hl, hjob, hactive⟩ := h.held j hj (hfix ▸ hclaimed)
    refine ⟨G l, hs.leases.mem_of hl, ?_, (hs.same l j hl hj hactive hjob.symm).mpr hclaimed⟩
    rw [hs.ends.jobId l hl, hjob, hfix]
  holder l' hl' hactive := by
    obtain ⟨l, hl, rfl⟩ := hs.leases.mem hl'
    have hfix := hs.ends.active l hl hactive
    obtain ⟨j, hj, hid, _, hlease⟩ := h.holder l hl (hfix ▸ hactive)
    have hclaimed := (hs.same l j hl hj (hfix ▸ hactive) hid).mp hactive
    refine ⟨F j, hs.jobs.mem_of hj, ?_, hclaimed, ?_⟩
    · rw [hs.jobs.key_eq j hj, hid, hfix]
    · rw [hs.leaves.claimed j hj hclaimed, hlease, hfix]
  leaseJob l' hl' := by
    obtain ⟨l, hl, rfl⟩ := hs.leases.mem hl'
    obtain ⟨j, hj, hid, hrun⟩ := h.leaseJob l hl
    refine ⟨F j, hs.jobs.mem_of hj, ?_, ?_⟩
    · rw [hs.jobs.key_eq j hj, hid, hs.ends.jobId l hl]
    · rw [hs.leaves.spec j hj, hrun, hs.ends.runId l hl]
  jobRun j' hj' := by
    obtain ⟨j, hj, rfl⟩ := hs.jobs.mem hj'
    obtain ⟨r, hr, hid⟩ := h.jobRun j hj
    exact ⟨H r, hs.runs.mem_of hr, by rw [hs.runs.key_eq r hr, hid, hs.leaves.spec j hj]⟩

section

variable {db : Db}

theorem leaves_setJob {j : Job} {f : Job → Job} (hj : j ∈ db.jobs) (hspec : (f j).spec = j.spec)
    (hattempt : (f j).attempt = j.attempt) (hclaimed : (f j).status ≠ .claimed) (hnot : j.status ≠ .succeeded)
    (hsucceeded : (f j).status = .succeeded → j.status = .claimed)
    (hwaits : (f j).status = .ready ∨ (f j).status = .waitingBudget ∨ (f j).status = .retryScheduled →
      (j.status = .ready ∨ j.status = .waitingBudget ∨ j.status = .retryScheduled) ∨
        j.attempt < j.spec.maxAttempts) :
    Leaves db.jobs fun a => if decide (a.jobId = j.jobId) then f a else a := by
  have hcases : ∀ a, a ∈ db.jobs → (if decide (a.jobId = j.jobId) then f a else a) = a ∧ a ≠ j ∨
      (if decide (a.jobId = j.jobId) then f a else a) = f j ∧ a = j := by
    intro a ha
    by_cases hid : a.jobId = j.jobId
    · obtain rfl := Table.eq_of_key ha hj hid
      exact .inr ⟨if_pos (decide_eq_true rfl), rfl⟩
    · refine .inl ⟨if_neg (by simpa using hid), ?_⟩
      rintro rfl
      exact hid rfl
  constructor <;> intro a ha <;> rcases hcases a ha with ⟨he, _⟩ | ⟨he, rfl⟩ <;> rw [he]
  · exact hspec
  · exact hattempt
  · exact fun _ => rfl
  · exact fun h => absurd h hclaimed
  · exact fun _ => rfl
  · exact fun h => absurd h hnot
  · exact .inl
  · exact fun h => .inr (hsucceeded h)
  · exact .inl
  · exact hwaits

theorem leaves_dues {t : Table Job.jobId} {now : Time} :
    Leaves t fun j => if isDue now j then withStatus .ready now none j else j := by
  have hcases : ∀ j, (if isDue now j then withStatus .ready now none j else j) = j ∨
      (if isDue now j then withStatus .ready now none j else j) = withStatus .ready now none j ∧
        j.status = .retryScheduled := by
    intro j
    cases hdue : isDue now j with
    | false => exact .inl (if_neg Bool.false_ne_true)
    | true => exact .inr ⟨if_pos rfl, of_decide_eq_true (Bool.and_eq_true_iff.mp hdue).1⟩
  constructor <;> intro j _ <;> rcases hcases j with he | ⟨he, hstatus⟩ <;> rw [he]
  · rfl
  · rfl
  · exact fun _ => rfl
  · exact nofun
  · exact fun _ => rfl
  · exact fun h => absurd (hstatus.symm.trans h) (by decide)
  · exact .inl
  · exact nofun
  · exact .inl
  · exact fun _ => .inl (.inr (.inr hstatus))

theorem leaves_cancels {t : Table Job.jobId} {runId reason : String} {now : Time} :
    Leaves t fun j =>
      if isOpenOf runId j then withoutLease .cancelled j.readyAt (some reason) now j else j := by
  have hcases : ∀ j, (if isOpenOf runId j then withoutLease .cancelled j.readyAt (some reason) now j else j) = j ∨
      (if isOpenOf runId j then withoutLease .cancelled j.readyAt (some reason) now j else j) =
        withoutLease .cancelled j.readyAt (some reason) now j ∧ j.status ≠ .succeeded := by
    intro j
    cases hopen : isOpenOf runId j with
    | false => exact .inl (if_neg Bool.false_ne_true)
    | true => exact .inr ⟨if_pos rfl, (of_decide_eq_true hopen).2.1⟩
  constructor <;> intro j _ <;> rcases hcases j with he | ⟨he, hstatus⟩ <;> rw [he]
  · rfl
  · rfl
  · exact fun _ => rfl
  · exact nofun
  · exact fun _ => rfl
  · exact fun h => absurd h hstatus
  · exact .inl
  · exact nofun
  · exact .inl
  · intro h
    rcases h with h | h | h <;> cases h

theorem ends_update {t : Table Lease.leaseId} {p : Lease → Bool} {status : LeaseStatus} {now : Time}
    {outcome : Option JobOutcome} (hstatus : status ≠ .active) (hp : ∀ l, l ∈ t → p l = true → l.status = .active) :
    Ends t fun l => if p l then closed status now outcome l else l := by
  constructor <;> intro l hl <;> split
  · rfl
  · rfl
  · rfl
  · rfl
  · rfl
  · rfl
  · exact fun h => absurd h hstatus
  · exact fun _ => rfl
  · rename_i hpl
    exact fun h => absurd (hp l hl hpl) h
  · exact fun _ => rfl

inductive Adds (limits : String → Option Nat) (db : Db) : Db → Prop where
  | run (r : Run) : db.runs.get? r.runId = none → 0 ≤ r.budgetCeiling → r.budgetReserved = 0 → r.budgetSpent = 0 →
      Adds limits db { db with runs := db.runs.insertIgnore r }
  | job (j : Job) (r : Run) (jobs : Table Job.jobId) : r ∈ db.runs → r.runId = j.spec.runId →
      db.jobs.insert? j = some jobs → j.status = .ready → j.attempt = 0 → Adds limits db { db with jobs := jobs }
  | lease (j : Job) (workerId : String) (now : Time) (l : Lease) (leases : Table Lease.leaseId) :
      j ∈ db.jobs → j.status = .ready ∨ j.status = .waitingBudget → db.isOpen limits j = true →
      db.isAffordable j = true → LeaseOf j workerId now l → db.leases.insert? l = some leases →
      Adds limits db (({ db with leases := leases }.setJob j.jobId (claimedBy l.leaseId workerId now)).setRun
        j.spec.runId (reserve j.spec.estimatedCost now))

variable {limits : String → Option Nat} {db' : Db}

theorem Links.same_refl (h : Links db) (l : Lease) (j : Job) (hl : l ∈ db.leases) (hj : j ∈ db.jobs)
    (hactive : l.status = .active) (hid : j.jobId = l.jobId) : l.status = .active ↔ j.status = .claimed :=
  iff_of_true hactive (h.claimed hl hactive hj hid).1

theorem settles_runs {H : Run → Run} (h : Links db) (hjobs : db'.jobs = db.jobs) (hleases : db'.leases = db.leases)
    (hruns : db.runs.Mapped H db'.runs)
    (hterminal : ∀ r, r ∈ db.runs → r.state.isTerminal = true → (H r).state = r.state) :
    Settles db db' (fun j => j) (fun l => l) H where
  jobs := hjobs ▸ .refl
  leases := hleases ▸ .refl
  runs := hruns
  leaves := .refl _
  ends := .refl _
  same := h.same_refl
  terminal := hterminal

theorem settles_transits (h : Links db) {r : Run} {target : WorkflowState} {now : Time}
    {operations : Table Operation.key} {outbox : Table Event.dedupeKey} (hr : r ∈ db.runs)
    (htarget : target ∈ r.state.allowed) : Settles db
      { db.setRun r.runId (withState target now) with operations := operations, outbox := outbox } (fun j => j) (fun l => l)
      fun a => if decide (a.runId = r.runId) then withState target now a else a := by
  refine settles_runs h rfl rfl (Table.mapped_update (h := by intro _; rfl)) fun a ha hterminal => ?_
  split
  · rename_i hid
    obtain rfl := Table.eq_of_key ha hr (of_decide_eq_true hid)
    rw [allowed_of_terminal hterminal] at htarget
    cases htarget
  · rfl

theorem settles_jobs (h : Links db) {F : Job → Job} (hruns : db'.runs = db.runs) (hleases : db'.leases = db.leases)
    (hjobs : db.jobs.Mapped F db'.jobs) (hF : Leaves db.jobs F)
    (hclaimed : ∀ j, j ∈ db.jobs → j.status = .claimed → F j = j) :
    Settles db db' F (fun l => l) fun r => r where
  jobs := hjobs
  leases := hleases ▸ .refl
  runs := hruns ▸ .refl
  leaves := hF
  ends := .refl _
  same l j hl hj hactive hid := by
    have hjob := (h.claimed hl hactive hj hid).1
    rw [hclaimed j hj hjob]
    exact iff_of_true hactive hjob
  terminal _ _ _ := rfl

theorem settles_dues (h : Links db) (now : Time) :
    Settles db { db with jobs := db.jobs.update (isDue now) (withStatus .ready now none) }
      (fun j => if isDue now j then withStatus .ready now none j else j) (fun l => l) fun r => r := by
  refine settles_jobs h rfl rfl (Table.mapped_update (h := by intro _; rfl)) leaves_dues fun j _ hclaimed => if_neg fun hdue => ?_
  have hstatus : j.status = .retryScheduled := of_decide_eq_true (Bool.and_eq_true_iff.mp hdue).1
  exact absurd (hclaimed.symm.trans hstatus) (by decide)

theorem settles_awaits (h : Links db) {j : Job} {now : Time} (hj : j ∈ db.jobs) (hready : j.status = .ready) :
    Settles db (db.setJob j.jobId (withStatus .waitingBudget now (some "budget unavailable")))
      (fun a => if decide (a.jobId = j.jobId) then withStatus .waitingBudget now (some "budget unavailable") a else a)
      (fun l => l) fun r => r := by
  refine settles_jobs h rfl rfl (Table.mapped_update (h := by intro _; rfl)) ?_ fun a ha hclaimed => if_neg fun hid => ?_
  · exact leaves_setJob hj rfl rfl nofun (by rw [hready]; exact nofun) nofun fun _ => .inl (.inl hready)
  · obtain rfl := Table.eq_of_key ha hj (of_decide_eq_true hid)
    exact absurd (hclaimed.symm.trans hready) (by decide)

theorem settles_released (h : Links db) {l : Lease} {j : Job} {status : LeaseStatus} {now : Time}
    {outcome : Option JobOutcome} {fr : Run → Run} {fj : Job → Job} (hr : ∀ r, (fr r).runId = r.runId)
    (hfj : ∀ j, (fj j).jobId = j.jobId) (hl : l ∈ db.leases) (hactive : l.status = .active) (hj : j ∈ db.jobs)
    (hid : j.jobId = l.jobId) (hstatus : status ≠ .active) (hleaves : Leaves db.jobs fun a =>
      if decide (a.jobId = j.jobId) then fj a else a) (hclaimed : (fj j).status ≠ .claimed)
    (hstate : ∀ r, (fr r).state = r.state) :
    Settles db (db.released l (closed status now outcome) fr j fj (fun _ => rfl) hr hfj)
      (fun a => if decide (a.jobId = j.jobId) then fj a else a)
      (fun a => if decide (a.leaseId = l.leaseId) then closed status now outcome a else a)
      fun a => if decide (a.runId = l.runId) then fr a else a where
  jobs := Table.mapped_update (h := hfj)
  leases := (Table.mapped_update (h := by intro _; rfl))
  runs := Table.mapped_update (h := hr)
  leaves := hleaves
  ends := by
    refine ends_update hstatus fun a ha hkey => ?_
    rw [Table.eq_of_key ha hl (of_decide_eq_true hkey)]
    exact hactive
  same l' j' hl' hj' hactive' hid' := by
    by_cases hsame : l'.leaseId = l.leaseId
    · obtain rfl := Table.eq_of_key hl' hl hsame
      obtain rfl := Table.eq_of_key hj' hj (hid'.trans hid.symm)
      simp only [decide_true, if_true]
      exact iff_of_false hstatus hclaimed
    · have hne : j'.jobId ≠ j.jobId := by
        intro hbad
        have hjob : l'.jobId = l.jobId := by rw [← hid', ← hid, hbad]
        exact hsame (congrArg Lease.leaseId (h.active_unique hl hactive hl' hactive' hjob))
      simp only [hsame, hne, decide_false, Bool.false_eq_true, if_false]
      exact h.same_refl l' j' hl' hj' hactive' hid'
  terminal r _ _ := by
    split
    · exact hstate r
    · rfl

theorem expiredJob_status (retryDelay now : Time) (j : Job) :
    (expiredJob retryDelay now j).status = .retryScheduled ∧ j.attempt < j.spec.maxAttempts ∨
      (expiredJob retryDelay now j).status = .failed := by
  unfold expiredJob
  split
  · rename_i hretry
    exact .inl ⟨rfl, of_decide_eq_true hretry⟩
  · exact .inr rfl

theorem settles_expires (h : Links db) {l : Lease} {j : Job} {retryDelay now : Time} (hl : l ∈ db.leases)
    (hactive : l.status = .active) (hj : j ∈ db.jobs) (hid : j.jobId = l.jobId) :
    ∃ F G H, Settles db (db.released l (closed .expired now none) (unreserve j.spec.estimatedCost now) j
        (expiredJob retryDelay now) (fun _ => rfl) (fun _ => rfl) (expiredJob_jobId retryDelay now)) F G H := by
  have hclaimed := (h.claimed hl hactive hj hid).1
  refine ⟨_, _, _, settles_released h _ _ hl hactive hj hid (by decide)
    (leaves_setJob hj (expiredJob_spec _ _ _) ?_ ?_ ?_ ?_ ?_) ?_ fun _ => rfl⟩
  · unfold expiredJob
    split <;> rfl
  · rcases expiredJob_status retryDelay now j with ⟨he, _⟩ | he <;> rw [he] <;> decide
  · rw [hclaimed]
    decide
  · exact fun _ => hclaimed
  · rcases expiredJob_status retryDelay now j with ⟨_, hlt⟩ | he
    · exact fun _ => .inr hlt
    · rw [he]
      rintro (h | h | h) <;> cases h
  · rcases expiredJob_status retryDelay now j with ⟨he, _⟩ | he <;> rw [he] <;> decide

theorem completedJob_status (completion : Completion) (retryDelay now : Time) (j : Job) :
    (completedJob completion retryDelay now j).status = .retryScheduled ∧ j.attempt < j.spec.maxAttempts ∨
      (completedJob completion retryDelay now j).status = .succeeded ∨
        (completedJob completion retryDelay now j).status = .failed ∨
          (completedJob completion retryDelay now j).status = .cancelled := by
  unfold completedJob withoutLease nextStatus
  dsimp only
  split
  · exact .inr (.inl rfl)
  · exact .inr (.inr (.inr rfl))
  · split
    · rename_i hretry
      exact .inl ⟨rfl, of_decide_eq_true hretry⟩
    · exact .inr (.inr (.inl rfl))

theorem settles_completes (h : Links db) {l : Lease} {j : Job} (completion : Completion) (retryDelay now : Time)
    (hl : l ∈ db.leases) (hactive : l.status = .active) (hj : j ∈ db.jobs) (hid : j.jobId = l.jobId) :
    ∃ F G H, Settles db (db.released l (closed .completed now (some completion.outcome))
        (spend j.spec.estimatedCost completion.chargedCost now) j (completedJob completion retryDelay now)
        (fun _ => rfl) (fun _ => rfl) (fun _ => rfl)) F G H := by
  have hclaimed := (h.claimed hl hactive hj hid).1
  refine ⟨_, _, _, settles_released h _ _ hl hactive hj hid (by decide)
    (leaves_setJob hj rfl rfl ?_ ?_ ?_ ?_) ?_ fun _ => rfl⟩
  · rcases completedJob_status completion retryDelay now j with ⟨he, _⟩ | he | he | he <;> rw [he] <;> decide
  · rw [hclaimed]
    decide
  · exact fun _ => hclaimed
  · rcases completedJob_status completion retryDelay now j with ⟨_, hlt⟩ | he | he | he
    · exact fun _ => .inr hlt
    all_goals
      rw [he]
      rintro (h | h | h) <;> cases h
  · rcases completedJob_status completion retryDelay now j with ⟨he, _⟩ | he | he | he <;> rw [he] <;> decide

theorem isActiveOf_iff (h : Links db) (runId : String) {l : Lease} {j : Job} (hl : l ∈ db.leases) (hj : j ∈ db.jobs)
    (hid : j.jobId = l.jobId) (hactive : l.status = .active) :
    isActiveOf (db.jobs.select fun j => decide (j.spec.runId = runId) && isClaimed j) l = true ↔
      j.spec.runId = runId := by
  have hclaimed := (h.claimed hl hactive hj hid).1
  rw [isActiveOf, hactive]
  simp only [decide_true, Bool.true_and, List.any_eq_true, Table.mem_select, Bool.and_eq_true, decide_eq_true_eq]
  constructor
  · rintro ⟨a, ⟨ha, hrun, _⟩, haid⟩
    obtain rfl := Table.eq_of_key ha hj (haid.trans hid.symm)
    exact hrun
  · exact fun hrun => ⟨j, ⟨hj, hrun, decide_eq_true hclaimed⟩, hid⟩

theorem settles_cancels (h : Links db) {r : Run} {reason : String} {now : Time} (hr : r ∈ db.runs)
    (hterminal : r.state.isTerminal = false) :
    Settles db (db.cancelled r.runId reason now)
      (fun j => if isOpenOf r.runId j then withoutLease .cancelled j.readyAt (some reason) now j else j)
      (fun l => if isActiveOf (db.jobs.select fun j => decide (j.spec.runId = r.runId) && isClaimed j) l then
        closed .cancelled now none l else l)
      fun a => if decide (a.runId = r.runId) then withoutReserve now a else a where
  jobs := (Table.mapped_update (h := by intro _; rfl))
  leases := (Table.mapped_update (h := by intro _; rfl))
  runs := (Table.mapped_update (h := by intro _; rfl))
  leaves := leaves_cancels
  ends := ends_update (by decide) fun l _ hactive => of_decide_eq_true (Bool.and_eq_true_iff.mp hactive).1
  same l j hl hj hactive hid := by
    have hiff := isActiveOf_iff h r.runId hl hj hid hactive
    have hclaimed := (h.claimed hl hactive hj hid).1
    by_cases hrun : j.spec.runId = r.runId
    · have hopen : isOpenOf r.runId j = true := by simp [isOpenOf, hrun, hclaimed]
      rw [if_pos (hiff.mpr hrun), if_pos hopen]
      exact iff_of_false nofun nofun
    · have hopen : ¬ isOpenOf r.runId j = true := by simp [isOpenOf, hrun]
      rw [if_neg (mt hiff.mp hrun), if_neg hopen]
      exact iff_of_true hactive hclaimed
  terminal a ha hdone := by
    split
    · rename_i hid
      obtain rfl := Table.eq_of_key ha hr (of_decide_eq_true hid)
      rw [hterminal] at hdone
      cases hdone
    · rfl

theorem settles_or_adds (h : Links db) (hchange : Change limits db db') :
    (∃ F G H, Settles db db' F G H) ∨ Adds limits db db' := by
  cases hchange with
  | outbox => exact .inl ⟨_, _, _, settles_runs h rfl rfl .refl fun _ _ _ => rfl⟩
  | registers r hnone hceiling hreserved hspent => exact .inr (.run r hnone hceiling hreserved hspent)
  | transits r target now op operations outbox hr htarget => exact .inl ⟨_, _, _, settles_transits h hr htarget⟩
  | enqueues j r jobs hr hrun hinsert hready hattempt => exact .inr (.job j r jobs hr hrun hinsert hready hattempt)
  | dues now => exact .inl ⟨_, _, _, settles_dues h now⟩
  | awaits j now hj hready => exact .inl ⟨_, _, _, settles_awaits h hj hready⟩
  | claims j workerId now l leases hj hstatus hopen haffordable hlease hinsert =>
    exact .inr (.lease j workerId now l leases hj hstatus hopen haffordable hlease hinsert)
  | expires l j retryDelay now hl hactive hj hid => exact .inl (settles_expires h hl hactive hj hid)
  | completes l j completion op operations retryDelay now hl hactive hj hid =>
    obtain ⟨F, G, H, hs⟩ := settles_completes h completion retryDelay now hl hactive hj hid
    exact .inl ⟨F, G, H, hs.jobs, hs.leases, hs.runs, hs.leaves, hs.ends, hs.same, hs.terminal⟩
  | recovers => exact .inl ⟨_, _, _, settles_runs h rfl rfl .refl fun _ _ _ => rfl⟩
  | cancels r reason now hr hterminal => exact .inl ⟨_, _, _, settles_cancels h hr hterminal⟩

theorem Links.adds (h : Links db) (hadds : Adds limits db db') : Links db' := by
  cases hadds with
  | run r hnone =>
    refine ⟨h.held, h.holder, h.leaseJob, fun j hj => ?_⟩
    obtain ⟨r', hr', hid⟩ := h.jobRun j hj
    exact ⟨r', Table.mem_insertIgnore.mpr (.inl hr'), hid⟩
  | job j r jobs hr hrun hinsert hready =>
    refine ⟨fun j' hj' hclaimed => ?_, fun l hl hactive => ?_, fun l hl => ?_, fun j' hj' => ?_⟩
    · rcases (Table.mem_of_insert? hinsert).mp hj' with hj' | rfl
      · exact h.held j' hj' hclaimed
      · exact absurd (hready.symm.trans hclaimed) (by decide)
    · obtain ⟨j', hj', hrest⟩ := h.holder l hl hactive
      exact ⟨j', (Table.mem_of_insert? hinsert).mpr (.inl hj'), hrest⟩
    · obtain ⟨j', hj', hrest⟩ := h.leaseJob l hl
      exact ⟨j', (Table.mem_of_insert? hinsert).mpr (.inl hj'), hrest⟩
    · rcases (Table.mem_of_insert? hinsert).mp hj' with hj' | rfl
      · exact h.jobRun j' hj'
      · exact ⟨r, hr, hrun⟩
  | lease j workerId now l leases hj hstatus hopen haffordable hlease hinsert =>
    have hfree : j.status ≠ .claimed := by rcases hstatus with h | h <;> rw [h] <;> decide
    -- a job that is claimed, or whose lease is active, is another one
    have hother : ∀ j' : Job, j' ∈ db.jobs → j'.status = .claimed → j'.jobId ≠ j.jobId := by
      intro j' hj' hclaimed hid
      obtain rfl := Table.eq_of_key hj' hj hid
      exact hfree hclaimed
    have hkeeps : ∀ j' : Job, j' ∈ db.jobs → j'.jobId ≠ j.jobId →
        j' ∈ db.jobs.update (fun a => decide (a.jobId = j.jobId)) (claimedBy l.leaseId workerId now) :=
      fun j' hj' hne => mem_update_key_ne (f := claimedBy l.leaseId workerId now) (fun _ => rfl) hj' hne
    have hmine : claimedBy l.leaseId workerId now j ∈
        db.jobs.update (fun a => decide (a.jobId = j.jobId)) (claimedBy l.leaseId workerId now) :=
      Table.mem_update_of_pos hj (decide_eq_true rfl)
    have hcases : ∀ j', j' ∈ db.jobs.update (fun a => decide (a.jobId = j.jobId)) (claimedBy l.leaseId workerId now) →
        j' ∈ db.jobs ∨ j' = claimedBy l.leaseId workerId now j := by
      intro j' hj'
      rcases Table.mem_update_cases hj' with ⟨hj', _⟩ | ⟨a, ha, hid, rfl⟩
      · exact .inl hj'
      · obtain rfl := Table.eq_of_key ha hj (of_decide_eq_true hid)
        exact .inr rfl
    have hmem : ∀ l', l' ∈ leases ↔ l' ∈ db.leases ∨ l' = l := fun l' => Table.mem_of_insert? hinsert
    constructor
    · intro j' hj' hclaimed
      rcases hcases j' hj' with hj' | rfl
      · obtain ⟨l', hl', hrest⟩ := h.held j' hj' hclaimed
        exact ⟨l', (hmem l').mpr (.inl hl'), hrest⟩
      · exact ⟨l, (hmem l).mpr (.inr rfl), hlease.jobId, hlease.status⟩
    · intro l' hl' hactive
      rcases (hmem l').mp hl' with hl' | rfl
      · obtain ⟨j', hj', hid, hclaimed, hname⟩ := h.holder l' hl' hactive
        exact ⟨j', hkeeps j' hj' (hother j' hj' hclaimed), hid, hclaimed, hname⟩
      · exact ⟨_, hmine, hlease.jobId.symm, rfl, rfl⟩
    · intro l' hl'
      have hjob : ∃ a, a ∈ db.jobs ∧ a.jobId = l'.jobId ∧ a.spec.runId = l'.runId := by
        rcases (hmem l').mp hl' with hl' | rfl
        · exact h.leaseJob l' hl'
        · exact ⟨j, hj, hlease.jobId.symm, hlease.runId.symm⟩
      obtain ⟨a, ha, hid, hrun⟩ := hjob
      by_cases hsame : a.jobId = j.jobId
      · obtain rfl := Table.eq_of_key ha hj hsame
        exact ⟨_, hmine, hid, hrun⟩
      · exact ⟨a, hkeeps a ha hsame, hid, hrun⟩
    · intro j' hj'
      have hrun : ∃ r, r ∈ db.runs ∧ r.runId = j'.spec.runId := by
        rcases hcases j' hj' with hj' | rfl
        · exact h.jobRun j' hj'
        · exact h.jobRun j hj
      obtain ⟨r, hr, hid⟩ := hrun
      refine ⟨_, (Table.mapped_update (f := reserve j.spec.estimatedCost now) (h := fun _ => rfl)).mem_of hr, ?_⟩
      split
      · exact hid
      · exact hid

theorem links_of_change (hchange : Change limits db db') (h : Links db) : Links db' := by
  rcases settles_or_adds h hchange with ⟨F, G, H, hs⟩ | hadds
  · exact h.settles hs
  · exact h.adds hadds

end

end Workflow
end DarkFactory
