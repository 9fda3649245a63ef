import DarkFactory.Workflow.Links

/-!
# DarkFactory.Workflow.Growth

What a database of the runtime never loses.

* `Grows` — operations, leases that are over, jobs that succeeded and terminal runs stay as they are.
* `Recorded` — the completed leases are the ones with a stored completion, which has their `charge`.
-/

namespace DarkFactory
namespace Workflow

open Db

structure Grows (db db' : Db) : Prop where
  operations : ∀ op, op ∈ db.operations → op ∈ db'.operations
  leases : ∀ l, l ∈ db.leases → ∃ l', l' ∈ db'.leases ∧ l'.leaseId = l.leaseId ∧ l'.jobId = l.jobId ∧
    l'.runId = l.runId ∧ (l.status ≠ .active → l' = l)
  jobs : ∀ j, j ∈ db.jobs → ∃ j', j' ∈ db'.jobs ∧ j'.spec = j.spec ∧ (j.status = .succeeded → j' = j)
  runs : ∀ r, r ∈ db.runs → ∃ r', r' ∈ db'.runs ∧ r'.runId = r.runId ∧
    (r.state.isTerminal = true → r'.state = r.state)

namespace Grows

theorem refl (db : Db) : Grows db db :=
  ⟨fun _ h => h, fun l h => ⟨l, h, rfl, rfl, rfl, fun _ => rfl⟩, fun j h => ⟨j, h, rfl, fun _ => rfl⟩,
    fun r h => ⟨r, h, rfl, fun _ => rfl⟩⟩

theorem trans {db db' db'' : Db} (h : Grows db db') (h' : Grows db' db'') : Grows db db'' where
  operations op hop := h'.operations op (h.operations op hop)
  leases l hl := by
    obtain ⟨l₁, hl₁, hid, hjob, hrun, hover⟩ := h.leases l hl
    obtain ⟨l₂, hl₂, hid', hjob', hrun', hover'⟩ := h'.leases l₁ hl₁
    refine ⟨l₂, hl₂, hid'.trans hid, hjob'.trans hjob, hrun'.trans hrun, fun hnot => ?_⟩
    obtain rfl := hover hnot
    exact hover' hnot
  jobs j hj := by
    obtain ⟨j₁, hj₁, hspec, hdone⟩ := h.jobs j hj
    obtain ⟨j₂, hj₂, hspec', hdone'⟩ := h'.jobs j₁ hj₁
    refine ⟨j₂, hj₂, hspec'.trans hspec, fun hsucceeded => ?_⟩
    obtain rfl := hdone hsucceeded
    exact hdone' hsucceeded
  runs r hr := by
    obtain ⟨r₁, hr₁, hid, hstate⟩ := h.runs r hr
    obtain ⟨r₂, hr₂, hid', hstate'⟩ := h'.runs r₁ hr₁
    refine ⟨r₂, hr₂, hid'.trans hid, fun hterminal => ?_⟩
    have hsame := hstate hterminal
    rw [hstate' (hsame ▸ hterminal), hsame]

end Grows

section

variable {limits : String → Option Nat} {db db' : Db}

theorem operations_of_change (hchange : Change limits db db') {op : Operation} (hop : op ∈ db.operations) :
    op ∈ db'.operations := by
  cases hchange with
  | transits _ _ _ _ _ _ _ _ _ _ _ hinsert => exact (Table.mem_of_insert? hinsert).mpr (.inl hop)
  | completes _ _ _ _ _ _ _ _ _ _ _ _ _ _ hinsert => exact (Table.mem_of_insert? hinsert).mpr (.inl hop)
  | recovers _ _ _ _ _ _ hinsert => exact (Table.mem_of_insert? hinsert).mpr (.inl hop)
  | _ => exact hop

theorem grows_of_change (h : Links db) (hchange : Change limits db db') : Grows db db' := by
  have hops : ∀ op, op ∈ db.operations → op ∈ db'.operations := fun _ hop => operations_of_change hchange hop
  rcases settles_or_adds h hchange with ⟨F, G, H, hs⟩ | hadds
  · refine ⟨hops, fun l hl => ?_, fun j hj => ?_, fun r hr => ?_⟩
    · exact ⟨G l, hs.leases.mem_of hl, hs.leases.key_eq l hl, hs.ends.jobId l hl, hs.ends.runId l hl,
        hs.ends.ended l hl⟩
    · exact ⟨F j, hs.jobs.mem_of hj, hs.leaves.spec j hj, hs.leaves.succeeded j hj⟩
    · exact ⟨H r, hs.runs.mem_of hr, hs.runs.key_eq r hr, hs.terminal r hr⟩
  · cases hadds with
    | run r hnone =>
      exact ⟨hops, (Grows.refl db).leases, (Grows.refl db).jobs, fun r hr =>
        ⟨r, Table.mem_insertIgnore.mpr (.inl hr), rfl, fun _ => rfl⟩⟩
    | job j r jobs hr hrun hinsert =>
      exact ⟨hops, (Grows.refl db).leases, fun j hj =>
        ⟨j, (Table.mem_of_insert? hinsert).mpr (.inl hj), rfl, fun _ => rfl⟩, (Grows.refl db).runs⟩
    | lease j workerId now l leases hj hstatus hopen haffordable hlease hinsert =>
      refine ⟨hops, fun l' hl' => ?_, fun j' hj' => ?_, fun r hr => ?_⟩
      · exact ⟨l', (Table.mem_of_insert? hinsert).mpr (.inl hl'), rfl, rfl, rfl, fun _ => rfl⟩
      · refine ⟨_, (Table.mapped_update (f := claimedBy l.leaseId workerId now) (h := fun _ => rfl)).mem_of hj', ?_, ?_⟩
        · split <;> rfl
        · intro hsucceeded
          refine if_neg fun hid => ?_
          obtain rfl := Table.eq_of_key hj' hj (of_decide_eq_true hid)
          rcases hstatus with hstatus | hstatus <;> cases hstatus.symm.trans hsucceeded
      · refine ⟨_, (Table.mapped_update (f := reserve j.spec.estimatedCost now) (h := fun _ => rfl)).mem_of hr, ?_, ?_⟩
        · split <;> rfl
        · intro _
          split <;> rfl

theorem grows_of_changes (hchanges : Changes limits db db') (h : Links db) : Links db' ∧ Grows db db' := by
  induction hchanges with
  | refl => exact ⟨h, .refl db⟩
  | tail _ hchange ih => exact ⟨links_of_change hchange ih.1, ih.2.trans (grows_of_change ih.1 hchange)⟩

theorem links_step (db : Db) (a : Act) (h : Links db) : Links (step limits db a) :=
  step_of_changes links_of_change a h

theorem links_run (limits : String → Option Nat) (acts : List Act) (h : Links db) :
    Links (Runs.run (step limits) db acts) :=
  Runs.run_invariant links_step h acts

theorem grows_run (h : Links db) (acts : List Act) : Grows db (Runs.run (step limits) db acts) :=
  Runs.run_rel (I := Links) Grows.refl Grows.trans links_step
    (fun db a h => (grows_of_changes (changes_step db a) h).2) h acts

end

def Db.charge (db : Db) (l : Lease) : Rat :=
  match (db.operations.get? (completionKey l.leaseId)).map Operation.body with
  | some (.jobCompletion completion _) => completion.chargedCost
  | _ => 0

def Db.estimate (db : Db) (l : Lease) : Rat := ((db.jobs.get? l.jobId).map fun j => j.spec.estimatedCost).getD 0

theorem completionKey_injective {leaseId leaseId' : String} (h : completionKey leaseId = completionKey leaseId') :
    leaseId = leaseId' := by
  have hlist := congrArg String.toList h
  simp only [completionKey, String.toList_append, List.append_assoc] at hlist
  exact String.ext (List.append_cancel_right (List.append_cancel_left hlist))

structure Recorded (db : Db) : Prop where
  completed : ∀ l, l ∈ db.leases → l.status = .completed → ∃ op completion result, op ∈ db.operations ∧
    op.key = completionKey l.leaseId ∧ op.body = .jobCompletion completion result
  completion : ∀ op completion result, op ∈ db.operations → op.body = .jobCompletion completion result →
    ∃ l, l ∈ db.leases ∧ op.key = completionKey l.leaseId ∧ l.status = .completed

section

variable {limits : String → Option Nat} {db db' : Db}

theorem Recorded.empty : Recorded {} :=
  ⟨fun _ h => absurd h Table.not_mem_empty, fun _ _ _ h => absurd h Table.not_mem_empty⟩

theorem charge_of_operation {l : Lease} {op : Operation} {completion : Completion} {result : Job}
    (hop : op ∈ db.operations) (hkey : op.key = completionKey l.leaseId)
    (hbody : op.body = .jobCompletion completion result) : db.charge l = completion.chargedCost := by
  rw [charge, ← hkey, Table.get?_of_mem hop, Option.map_some, hbody]

theorem charge_eq (hr : Recorded db) (hops : ∀ op, op ∈ db.operations → op ∈ db'.operations) {l : Lease}
    (hl : l ∈ db.leases) (hcompleted : l.status = .completed) : db'.charge l = db.charge l := by
  obtain ⟨op, completion, result, hop, hkey, hbody⟩ := hr.completed l hl hcompleted
  rw [charge_of_operation hop hkey hbody, charge_of_operation (hops op hop) hkey hbody]

theorem estimate_of_job {l : Lease} {j : Job} (hj : j ∈ db.jobs) (hid : j.jobId = l.jobId) :
    db.estimate l = j.spec.estimatedCost := by
  rw [estimate, ← hid, Table.get?_of_mem hj]
  rfl

theorem estimate_eq (h : Links db) (hgrows : Grows db db') {l : Lease} (hl : l ∈ db.leases) :
    db'.estimate l = db.estimate l := by
  obtain ⟨j, hj, hid, _⟩ := h.leaseJob l hl
  obtain ⟨j', hj', hspec, _⟩ := hgrows.jobs j hj
  have hid' : j'.jobId = l.jobId := by rw [Job.jobId, hspec, ← hid, Job.jobId]
  rw [estimate_of_job hj hid, estimate_of_job hj' hid', hspec]

theorem Recorded.not_again (hr : Recorded db) {l : Lease} {op : Operation} {operations : Table Operation.key}
    (hl : l ∈ db.leases) (hcompleted : l.status = .completed) (hkey : op.key = completionKey l.leaseId)
    (hinsert : db.operations.insert? op = some operations) : False := by
  obtain ⟨old, _, _, hold, hkey', _⟩ := hr.completed l hl hcompleted
  exact Table.get?_eq_none.mp (Table.insert?_fresh hinsert) old hold (hkey'.trans hkey.symm)

theorem recorded_of_grows (hr : Recorded db) (hgrows : Grows db db')
    (hleases : ∀ l, l ∈ db'.leases → l.status = .completed → l ∈ db.leases)
    (hops : ∀ op completion result, op ∈ db'.operations → op.body = .jobCompletion completion result →
      op ∈ db.operations) : Recorded db' where
  completed l hl hcompleted := by
    obtain ⟨op, completion, result, hop, hrest⟩ := hr.completed l (hleases l hl hcompleted) hcompleted
    exact ⟨op, completion, result, hgrows.operations op hop, hrest⟩
  completion op completion result hop hbody := by
    obtain ⟨l, hl, hkey, hcompleted⟩ := hr.completion op completion result (hops _ _ _ hop hbody) hbody
    obtain ⟨l', hl', _, _, _, hover⟩ := hgrows.leases l hl
    obtain rfl := hover (by rw [hcompleted]; decide)
    exact ⟨l', hl', hkey, hcompleted⟩

theorem mem_closed {t : Table Lease.leaseId} {p : Lease → Bool} {status : LeaseStatus} {now : Time}
    {outcome : Option JobOutcome} {l : Lease} (hl : l ∈ t.update p (closed status now outcome)) :
    l ∈ t ∨ ∃ a, a ∈ t ∧ p a = true ∧ l = closed status now outcome a :=
  (Table.mem_update_cases hl).imp_left And.left

theorem recorded_of_change (hchange : Change limits db db') (h : Links db) (hr : Recorded db) : Recorded db' := by
  have hgrows := grows_of_change h hchange
  cases hchange with
  | transits r target now op operations outbox hrun htarget hnot hbody hsubject hinsert =>
    refine recorded_of_grows hr hgrows (fun _ hl _ => hl) fun op' completion result' hop hbody' => ?_
    rcases (Table.mem_of_insert? hinsert).mp hop with hop | rfl
    · exact hop
    · rw [hbody] at hbody'
      cases hbody'
  | claims j workerId now l leases hj hstatus hopen haffordable hlease hinsert =>
    refine recorded_of_grows hr hgrows (fun l' hl' hcompleted => ?_) fun _ _ _ hop _ => hop
    rcases (Table.mem_of_insert? hinsert).mp hl' with hl' | rfl
    · exact hl'
    · cases hlease.status.symm.trans hcompleted
  | expires l j retryDelay now hl hactive hj hid =>
    refine recorded_of_grows hr hgrows (fun l' hl' hcompleted => ?_) fun _ _ _ hop _ => hop
    rcases mem_closed hl' with hl' | ⟨a, _, _, rfl⟩
    · exact hl'
    · cases hcompleted
  | completes l j completion op operations retryDelay now hl hactive hj hid hkey hsubject hbody hinsert =>
    have hmine : closed .completed now (some completion.outcome) l ∈
        db.leases.update (fun a => decide (a.leaseId = l.leaseId)) (closed .completed now (some completion.outcome)) :=
      Table.mem_update_of_pos hl (decide_eq_true rfl)
    have hnew : op ∈ operations := (Table.mem_of_insert? hinsert).mpr (.inr rfl)
    constructor
    · intro l' hl' hcompleted
      rcases mem_closed hl' with hl' | ⟨a, ha, hname, rfl⟩
      · obtain ⟨op', completion', result', hop', hrest⟩ := hr.completed l' hl' hcompleted
        exact ⟨op', completion', result', hgrows.operations op' hop', hrest⟩
      · exact ⟨op, completion, _, hnew, by rw [hkey, ← of_decide_eq_true hname]; rfl, hbody⟩
    · intro op' completion' result' hop' hbody'
      rcases (Table.mem_of_insert? hinsert).mp hop' with hop' | rfl
      · obtain ⟨l', hl', hkey', hcompleted⟩ := hr.completion op' completion' result' hop' hbody'
        obtain ⟨l'', hl'', _, _, _, hover⟩ := hgrows.leases l' hl'
        obtain rfl := hover (by rw [hcompleted]; decide)
        exact ⟨l'', hl'', hkey', hcompleted⟩
      · exact ⟨_, hmine, hkey, rfl⟩
  | recovers l op operations hl hcompleted hkey hinsert => exact (hr.not_again hl hcompleted hkey hinsert).elim
  | cancels r reason now hrun hterminal =>
    refine recorded_of_grows hr hgrows (fun l' hl' hcompleted => ?_) fun _ _ _ hop _ => hop
    rcases mem_closed hl' with hl' | ⟨a, _, _, rfl⟩
    · exact hl'
    · cases hcompleted
  | _ => exact recorded_of_grows hr hgrows (fun _ hl _ => hl) fun _ _ _ hop _ => hop

theorem recorded_of_changes (hchanges : Changes limits db db') (h : Links db) (hr : Recorded db) : Recorded db' := by
  have hboth : Links db' ∧ Recorded db' := of_changes (I := fun db => Links db ∧ Recorded db)
    (fun hchange hboth => ⟨links_of_change hchange hboth.1, recorded_of_change hchange hboth.1 hboth.2⟩)
    hchanges ⟨h, hr⟩
  exact hboth.2

theorem recorded_run (limits : String → Option Nat) (acts : List Act) (h : Links db) (hr : Recorded db) :
    Recorded (Runs.run (step limits) db acts) := by
  have hboth : Links (Runs.run (step limits) db acts) ∧ Recorded (Runs.run (step limits) db acts) :=
    Runs.run_invariant (I := fun db => Links db ∧ Recorded db)
    (fun db a hboth => ⟨links_step db a hboth.1, recorded_of_changes (changes_step db a) hboth.1 hboth.2⟩)
    ⟨h, hr⟩ acts
  exact hboth.2

/-- In every reachable database jobs, leases and runs fit together, and whatever follows, nothing is lost and nothing
that is over changes. -/
theorem nothing_undone (limits : String → Option Nat) (past acts : List Act) :
    let db := Runs.run (step limits) {} past
    (Links db ∧ Recorded db) ∧ Grows db (Runs.run (step limits) db acts) := by
  intro db
  have hlinks : Links db := links_run limits past .empty
  exact ⟨⟨hlinks, recorded_run limits past .empty .empty⟩, grows_run hlinks acts⟩

end

end Workflow
end DarkFactory
