import DarkFactory.Execution.Manager

/-!
# DarkFactory.Execution.Processes

Several managers on one database file. Their locks are their own, so only the transactions of SQLite
order their statements.

* `Request` — the calls of the processes.
* `processes_run` — if no call writes on the strength of a `SELECT` that would return something else
  by then, the committed balances stay the sums of the active reservations, and no admitted
  reservation takes its budget over the ceiling.
-/

namespace DarkFactory
namespace Execution

open Prog Transactions

inductive Answer where
  | reserved (record : ReservationRow)
  | charged (cost : Rat)
  | released
deriving DecidableEq

inductive Request where
  | reserve (budgetId attemptId : String) (amount leaseSeconds : Rat) (id : String) (t : Readings)
  | commit (reservationId : String) (attempt : AttemptRecord)
  | release (reservationId : String)

namespace Request

/-- The statements of the call; a negative amount is refused before the first one. -/
def prog : Request → Prog Db BudgetError Answer
  | .reserve budgetId attemptId amount leaseSeconds id t => do
    check (amount < 0) .valueError
    let record ← Execution.reserve budgetId attemptId amount leaseSeconds id t
    pure (.reserved record)
  | .commit reservationId attempt => do
    let cost ← Execution.commit reservationId attempt
    pure (.charged cost)
  | .release reservationId => do
    Execution.release reservationId
    pure .released

def AmountInUnits : Request → Prop
  | .reserve _ _ amount _ _ _ => InUnits amount
  | _ => True

end Request

def Requested (p : Prog Db BudgetError Answer) : Prop :=
  ∃ request : Request, request.AmountInUnits ∧ p = request.prog

/-- The budget of every reservation that has been added is within its ceiling. -/
def Admits (db db' : Db) : Prop :=
  ∀ r, r ∈ db'.reservations → db.reservations.get? r.reservationId = none →
    ∀ b, b ∈ db'.budgets → b.budgetId = r.budgetId → b.spent + b.reserved ≤ b.ceiling

variable {db : Db} {reservationId : String}

theorem Admits.of_mapped {db' : Db} (h : ∀ r, r ∈ db'.reservations →
    ∃ q, q ∈ db.reservations ∧ q.reservationId = r.reservationId) : Admits db db' := by
  intro r hr hnew
  obtain ⟨q, hq, hid⟩ := h r hr
  exact absurd hid (Table.get?_eq_none.mp hnew q hq)

theorem Db.mem_setReservation {f : ReservationRow → ReservationRow} (hf : ∀ r, (f r).reservationId = r.reservationId)
    {r : ReservationRow} (hr : r ∈ (Db.setReservation reservationId f hf db).reservations) :
    ∃ q, q ∈ db.reservations ∧ q.reservationId = r.reservationId := by
  rcases Table.mem_update_cases (h := hf) hr with ⟨hq, -⟩ | ⟨q, hq, -, rfl⟩
  · exact ⟨r, hq, rfl⟩
  · exact ⟨q, hq, (hf q).symm⟩

theorem mem_expired {budgetId : Option String} {clock : DateTime} {r : ReservationRow}
    (hr : r ∈ (expired budgetId clock db).reservations) :
    ∃ q, q ∈ db.reservations ∧ q.reservationId = r.reservationId := by
  have h : ∀ (rows : List ReservationRow) (db : Db) (r : ReservationRow),
      r ∈ (rows.foldl expireRow db).reservations →
      ∃ q, q ∈ db.reservations ∧ q.reservationId = r.reservationId := by
    intro rows
    induction rows with
    | nil => exact fun db r hr => ⟨r, hr, rfl⟩
    | cons row rows ih =>
      intro db r hr
      obtain ⟨q, hq, hid⟩ := ih _ r hr
      obtain ⟨q', hq', hid'⟩ :=
        Db.mem_setReservation (f := Db.withStatus .expired) (fun _ => rfl) hq
      exact ⟨q', hq', hid'.trans hid⟩
  exact h _ db r hr

theorem reserve_admits {budgetId attemptId : String} {amount leaseSeconds : Rat} {id : String}
    {t : Readings} {db' : Db} {record : ReservationRow} (h : Books db) (hunits : InUnits amount)
    (hrun : (reserve budgetId attemptId amount leaseSeconds id t).run db = (.ok record, db')) :
    Admits db db' := by
  obtain ⟨row, reservations, hrow, -, hfits, hins, rfl⟩ := reserve_ok hrun
  obtain ⟨h₁, -⟩ := expired_books h (some budgetId) t.expireAt
  obtain ⟨hrm, hrk⟩ := Table.get?_eq_some.mp hrow
  intro r hr hnew b hb hid
  rcases (Table.mem_of_insert? hins).mp hr with hr | rfl
  · obtain ⟨q, hq, hqid⟩ := mem_expired hr
    exact absurd hqid (Table.get?_eq_none.mp hnew q hq)
  · have hceil := hfits.ceiling
    have hres := h₁.reserved_units hrm
    rw [round8_of_units (((h₁.spent_units hrm).add hres).add hunits)] at hceil
    rcases Db.mem_setBudget hb with ⟨-, hne⟩ | ⟨b₀, hb₀, hk, rfl⟩
    · exact absurd hid hne
    · rw [Table.eq_of_key hb₀ hrm (hk.trans hrk.symm)]
      show row.spent + round8 (row.reserved + amount) ≤ row.ceiling
      rw [round8_of_units (hres.add hunits)]
      linarith

theorem commit_admits {attempt : AttemptRecord} {db' : Db}
    {charged : Rat} (hrun : (commit reservationId attempt).run db = (.ok charged, db')) :
    Admits db db' := by
  rcases commit_ok hrun with ⟨rfl, -⟩ | ⟨res, row, cost, attempts, -, -, -, -, -, -, rfl⟩
  · exact .of_mapped fun r hr => ⟨r, hr, rfl⟩
  · exact .of_mapped fun r hr => Db.mem_setReservation (f := Db.withCost _) (fun _ => rfl) hr

theorem release_admits {db' : Db} {u : Unit}
    (hrun : (release reservationId).run db = (.ok u, db')) : Admits db db' := by
  obtain ⟨res, -, -, ⟨-, rfl⟩ | ⟨row, -, rfl⟩⟩ := release_ok hrun
  · exact .of_mapped fun r hr => Db.mem_setReservation (f := Db.withStatus .released) (fun _ => rfl) hr
  · exact .of_mapped fun r hr => Db.mem_setReservation (f := Db.withStatus .released) (fun _ => rfl) hr

theorem requested_run {p : Prog Db BudgetError Answer} (hp : Requested p) {db db' : Db} {a : Answer}
    (h : Books db) (hrun : p.run db = (.ok a, db')) : Books db' ∧ Admits db db' := by
  obtain ⟨request, hunits, rfl⟩ := hp
  cases request with
  | reserve budgetId attemptId amount leaseSeconds id t =>
    simp only [Request.prog, bind_ok] at hrun
    obtain ⟨_, _, hcheck, record, _, hreserve, hret⟩ := hrun
    obtain ⟨hnn, rfl⟩ := check_ok hcheck
    cases hret
    exact ⟨(reserve_books h (not_lt.mp hnn) hunits hreserve).1, reserve_admits h hunits hreserve⟩
  | commit reservationId attempt =>
    simp only [Request.prog, bind_ok] at hrun
    obtain ⟨charged, _, hcommit, hret⟩ := hrun
    cases hret
    exact ⟨(commit_books h hcommit).1, commit_admits hcommit⟩
  | release reservationId =>
    simp only [Request.prog, bind_ok] at hrun
    obtain ⟨u, _, hrelease, hret⟩ := hrun
    cases hret
    exact ⟨(release_books h hrelease).1, release_admits hrelease⟩

theorem requested_atomic {p : Prog Db BudgetError Answer} (hp : Requested p)
    (h : Books db) : Books (p.atomic db) := by
  unfold Prog.atomic
  split
  · rename_i a db' hrun
    exact (requested_run hp h hrun).1
  · exact h

/-- A call of one of the managers, a statement of it, or the end of its wait for the lock. -/
abbrev Event (ι : Type) := Transactions.Event ι Db BudgetError Answer

/-- The managers `ι` on one file. -/
abbrev Processes (ι : Type) := Transactions.System ι Db BudgetError Answer

section

variable {ι : Type} [DecidableEq ι]

theorem processes_run {db : Db} (h : Books db) {events : List (Event ι)}
    (hcalls : ∀ mv ∈ Runs.moves Transactions.step (System.start db : Processes ι) events,
      Calls Requested mv.act)
    (hcurrent : ∀ mv ∈ Runs.moves Transactions.step (System.start db : Processes ι) events,
      Current mv.pre mv.act) :
    (∀ b, b ∈ (Runs.run Transactions.step (System.start db : Processes ι) events).committed.budgets →
      b.reserved = (Runs.run Transactions.step (System.start db : Processes ι)
        events).committed.activeSum b.budgetId) ∧
      ∀ mv ∈ Runs.moves Transactions.step (System.start db : Processes ι) events,
        Admits mv.pre.committed mv.post.committed := by
  have hstep : ∀ (S : Processes ι) e, Serial Requested Books S → Current S e ∧ Calls Requested e →
      Serial Requested Books (Transactions.step S e) :=
    fun S e hS he => serial_step (fun _ _ hp hs => requested_atomic hp hs) e hS he.1 he.2
  have hboth := fun mv hmv => And.intro (hcurrent mv hmv) (hcalls mv hmv)
  refine ⟨(Runs.run_invariant_of hstep (serial_start h) hboth).inv.reserved, fun mv hmv => ?_⟩
  have hpre := Runs.moves_invariant_of hstep (serial_start h) hboth mv hmv
  rw [Runs.post_of_mem hmv]
  by_cases heq : (Transactions.step mv.pre mv.act).committed = mv.pre.committed
  · rw [heq]
    exact .of_mapped fun r hr => ⟨r, hr, rfl⟩
  · obtain ⟨p, a, hp, hrun⟩ := hpre.committed heq
    exact (requested_run hp hpre.inv hrun).2

end

/-! Two managers reserve 60 of a budget of 100. -/

def shared : BudgetRow where
  budgetId := "b"
  ceiling := 100
  concurrencyLimit := 2

def sharedDb : Db := Db.register shared ⟨Table.empty, Table.empty, Table.empty⟩

theorem sharedDb_registered : Registered sharedDb := by
  refine registered_empty.register ⟨by decide, fun w hw => ?_⟩ rfl rfl
  rcases hw with hw | hw <;> cases hw

def reserveSixty (id : String) : Request := .reserve "b" id 60 60 id (readingsAt 0)

def nexts (i : Bool) (n : Nat) : List (Event Bool) := List.replicate n (.next i)

/-- Both calls do their four `SELECT`s before the first of them writes. -/
def racing : List (Event Bool) :=
  [.call true (reserveSixty "1").prog, .call false (reserveSixty "2").prog] ++
    nexts true 4 ++ nexts false 4 ++ nexts true 3 ++ nexts false 3

def inTurn : List (Event Bool) :=
  .call true (reserveSixty "1").prog :: nexts true 7 ++ .call false (reserveSixty "2").prog :: nexts false 7

theorem calls_sixty {es : List (Event Bool)}
    (h : ∀ e ∈ es, (∃ i, e = .next i) ∨ ∃ i id, e = .call i (reserveSixty id).prog)
    {S : Processes Bool} : ∀ mv ∈ Runs.moves Transactions.step S es, Calls Requested mv.act := by
  intro mv hmv
  obtain ⟨before, after, hes, -, -⟩ := Runs.mem_moves hmv
  rcases h mv.act (hes ▸ List.mem_append_right _ (List.mem_cons_self ..)) with
    ⟨i, he⟩ | ⟨i, id, he⟩
  · rw [he]
    trivial
  · rw [he]
    exact ⟨reserveSixty id, inUnits_int 60, rfl⟩

theorem processes_run_inTurn :
    (∀ b, b ∈ (Runs.run Transactions.step (System.start sharedDb : Processes Bool)
        inTurn).committed.budgets →
      b.reserved = (Runs.run Transactions.step (System.start sharedDb : Processes Bool)
        inTurn).committed.activeSum b.budgetId) ∧
      ∀ mv ∈ Runs.moves Transactions.step (System.start sharedDb : Processes Bool) inTurn,
        Admits mv.pre.committed mv.post.committed := by
  refine processes_run sharedDb_registered.books (calls_sixty fun e he => ?_)
    (current_of_solo (by decide +kernel))
  simp only [inTurn, nexts, List.mem_append, List.mem_cons, List.mem_replicate] at he
  rcases he with (rfl | ⟨-, rfl⟩) | rfl | ⟨-, rfl⟩
  · exact .inr ⟨true, "1", rfl⟩
  · exact .inl ⟨true, rfl⟩
  · exact .inr ⟨false, "2", rfl⟩
  · exact .inl ⟨false, rfl⟩

/-- Both are admitted: 120 is reserved, and the budget says 60. -/
theorem lost_reservation :
    Registered sharedDb ∧
      (∀ mv ∈ Runs.moves Transactions.step (System.start sharedDb : Processes Bool) racing,
        Calls Requested mv.act) ∧
      (Runs.run Transactions.step (System.start sharedDb : Processes Bool) racing).writer.isNone ∧
      ∃ b, b ∈ (Runs.run Transactions.step (System.start sharedDb : Processes Bool)
          racing).committed.budgets ∧
        b.reserved ≠ (Runs.run Transactions.step (System.start sharedDb : Processes Bool)
          racing).committed.activeSum b.budgetId := by
  refine ⟨sharedDb_registered, calls_sixty fun e he => ?_, by decide +kernel, by decide +kernel⟩
  simp only [racing, nexts, List.mem_append, List.mem_cons, List.mem_replicate,
    List.not_mem_nil, or_false] at he
  rcases he with ((((rfl | rfl) | ⟨-, rfl⟩) | ⟨-, rfl⟩) | ⟨-, rfl⟩) | ⟨-, rfl⟩
  · exact .inr ⟨true, "1", rfl⟩
  · exact .inr ⟨false, "2", rfl⟩
  · exact .inl ⟨true, rfl⟩
  · exact .inl ⟨false, rfl⟩
  · exact .inl ⟨true, rfl⟩
  · exact .inl ⟨false, rfl⟩

end Execution
end DarkFactory
