import Mathlib.Data.Finset.Sort
import Mathlib.Data.String.Basic
import DarkFactory.Lib.Paging
import DarkFactory.Control.Effects

/-!
# DarkFactory.Control.ActiveProjects

`list_active_projects` of the SQLite store, page by page.

* `listActiveProjects` — one page. SQLite compares texts by their UTF-8 bytes, which is the order of code points.
* `Named` — every run has a project id, as the contracts see to it that write one (`named_of_run`).
-/

namespace DarkFactory
namespace Control

/-- What the contracts check of the calls that write a project id: IntakeCommand its `project_id`, JobKey the
`ticket_id` that materialize_result takes for one. -/
def Op.NamesProject : Op → Prop
  | .accept command _ _ => command.projectId ≠ ""
  | .materializeResult key _ _ => key.ticketId ≠ ""
  | _ => True

namespace Sqlite

/-- `SELECT project_id FROM runs WHERE status = 'active'` -/
def activeProjectIds (s : Store) : List String :=
  (s.runs.select fun r => decide (r.status = .active)).map Run.projectId

/-- `SELECT DISTINCT ... ORDER BY project_id ASC` -/
def distinctAscending (ids : List String) : List String := ids.toFinset.sort

def listActiveProjects (s : Store) (cursor : Option String) (limit : Nat) : List String × Option String :=
  let ids :=
    match cursor with
    | some c => if c ≠ "" then (activeProjectIds s).filter fun p => decide (c < p) else activeProjectIds s
    | none => activeProjectIds s
  let rows := (distinctAscending ids).take limit
  (rows, if rows.length = limit then rows.getLast? else none)

variable {s s' : Store}

theorem mem_activeProjectIds {p : String} :
    p ∈ activeProjectIds s ↔ ∃ r, r ∈ s.runs ∧ r.status = .active ∧ r.projectId = p := by
  simp only [activeProjectIds, List.mem_map, Table.mem_select, decide_eq_true_eq, and_assoc]

theorem mem_distinctAscending {ids : List String} {p : String} : p ∈ distinctAscending ids ↔ p ∈ ids := by
  rw [distinctAscending, Finset.mem_sort, List.mem_toFinset]

theorem distinctAscending_sorted (ids : List String) : (distinctAscending ids).Pairwise (· < ·) :=
  Finset.sortedLT_sort _ |>.pairwise

/-- `WHERE` before `DISTINCT` and `ORDER BY` is `WHERE` after them. -/
theorem distinctAscending_filter (ids : List String) (q : String → Bool) :
    distinctAscending (ids.filter q) = (distinctAscending ids).filter q := by
  have hasymm : ∀ a b : String, a ∈ distinctAscending (ids.filter q) → b ∈ (distinctAscending ids).filter q →
      a < b → b < a → a = b := fun a b _ _ hab hba => absurd (hab.trans hba) (lt_irrefl a)
  refine List.Perm.eq_of_pairwise hasymm ?_ ?_ ?_
  · exact distinctAscending_sorted _
  · exact (distinctAscending_sorted ids).filter q
  · rw [List.perm_ext_iff_of_nodup]
    · intro p
      rw [List.mem_filter, mem_distinctAscending, mem_distinctAscending, List.mem_filter]
    · exact (distinctAscending_sorted _).imp ne_of_lt
    · exact ((distinctAscending_sorted ids).filter q).imp ne_of_lt

theorem listActiveProjects_eq (s : Store) (limit : Nat) {cursor : Option String} (h : cursor ≠ some "") :
    listActiveProjects s cursor limit = Paging.page (distinctAscending (activeProjectIds s)) limit cursor := by
  cases cursor with
  | none => rfl
  | some c =>
    have hc : c ≠ "" := fun hc => h (congrArg some hc)
    unfold listActiveProjects Paging.page
    simp only
    rw [if_pos hc, distinctAscending_filter]
    rfl

def Named (s : Store) : Prop := ∀ r, r ∈ s.runs → r.projectId ≠ ""

theorem Named.of_eq (h : Named s) (heq : s'.runs = s.runs) : Named s' := by
  intro r hr
  exact h r (heq ▸ hr)

theorem Named.of_close {runId : String} {status : RunStatus} {now : DateTime} (h : Named s)
    (heq : s'.runs = (s.closeRun runId status now).runs) : Named s' := by
  intro r' hr'
  obtain ⟨r, hr, rfl⟩ := Store.mem_closeRun.mp (heq ▸ hr')
  split
  · exact h r hr
  · exact h r hr

theorem Named.of_insert {r₀ : Run} (h : Named s) (hins : s.runs.insert? r₀ = some s'.runs)
    (hnew : r₀.projectId ≠ "") : Named s' := by
  intro r hr
  rcases (Table.mem_of_insert? hins).mp hr with hr | rfl
  · exact h r hr
  · exact hnew

theorem Named.reopenRun {runId : String} {resetBudget : Bool} {now : DateTime} (h : Named s)
    (heq : s'.runs = Sqlite.reopenRun s runId resetBudget now) : Named s' := by
  intro r'' hr''
  rw [heq, Sqlite.reopenRun] at hr''
  obtain ⟨r', hr', rfl⟩ := Table.mem_update.mp hr''
  obtain ⟨r, hr, rfl⟩ := Table.mem_update.mp hr'
  have hname := h r hr
  split
  · split
    · exact hname
    · exact hname
  · split
    · exact hname
    · exact hname

theorem Named.closeIfDone (h : Named s) (runId : String) (now : DateTime) :
    Named (Sqlite.closeIfDone runId now s) := by
  unfold Sqlite.closeIfDone
  split
  · exact h.of_close rfl
  · exact h

theorem named_step (env : Env) (s : Store) (op : Op) (h : Named s) (hop : op.NamesProject) :
    Named (apply env s op) := by
  cases hw : op.writesRuns with
  | false => exact h.of_eq (apply_inPlace env s hw).runs
  | true =>
    cases op with
    | accept command ids now =>
      cases hs : accept command ids now s with
      | error e =>
        rw [apply, hs]
        exact h
      | ok r =>
        obtain ⟨receipt, s'⟩ := r
        rw [apply, hs, committed_ok]
        rcases accept_ok hs with rfl | ⟨-, hins, -⟩ | ⟨-, hins, -⟩
        · exact h
        · exact h.of_insert (insertRun_eq_some hins) hop
        · exact h.of_insert (insertRun_eq_some hins) hop
    | finish c result now =>
      cases hs : finish env c result now s with
      | error e =>
        rw [apply, hs]
        exact h
      | ok s' =>
        rw [apply, hs]
        obtain ⟨_, _, _, _, _, rfl⟩ := finish_ok hs
        have hruns := finishApply_runs env c result now s
        split at hruns
        · exact h.of_close hruns
        · exact h.of_eq hruns
    | resumeJob key now =>
      rcases resumeJob_runs key now s with heq | ⟨resetBudget, heq⟩
      · exact h.of_eq heq
      · exact h.reopenRun heq
    | cancelRun runId reason actor now =>
      rcases cancelRun_runs runId reason actor now s with ⟨-, heq⟩ | ⟨-, heq⟩
      · rw [apply, heq]
        exact h
      · exact h.of_close heq
    | materializeResult k result now =>
      cases hs : materializeResult env k result now s with
      | error e =>
        rw [apply, hs]
        exact h
      | ok r =>
        obtain ⟨keys, s'⟩ := r
        rw [apply, hs, committed_ok]
        obtain ⟨s₀, -, hs₀, -, rfl⟩ := materializeResult_ok hs
        have h₀ : Named s₀ := by
          rcases ensureRun_runs hs₀ with heq | ⟨-, hins⟩
          · exact h.of_eq heq
          · exact h.of_insert hins hop
        exact (h₀.of_eq (materialized_runs env k result _ now s₀)).closeIfDone k.runId now
    | _ => cases hw

theorem named_of_run (env : Env) (ops : List Op) (hops : ∀ op ∈ ops, op.NamesProject) :
    Named (Runs.run (apply env) .empty ops) :=
  Runs.run_invariant_of (I := Named) (C := fun _ op => op.NamesProject) (named_step env)
    (fun _ hr => absurd hr Table.not_mem_empty) fun _ hm => hops _ (Runs.act_of_mem hm)

end Sqlite
end Control
end DarkFactory
