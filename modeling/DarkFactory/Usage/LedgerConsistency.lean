import Mathlib.Algebra.BigOperators.Group.Finset.Piecewise
import DarkFactory.Lib.Runs
import DarkFactory.Usage.Ledger

/-!
# DarkFactory.Usage.LedgerConsistency

The three stores of the usage ledger stay in step under every sequence of `record` calls, and what the
reports over them add up to.

* `Consistent` — the kept events are the last invocations, the aggregates their accumulation.
* `consistent_run` — it holds after every sequence of calls.
* `report_counts` — the totals of a report are the totals of the invocations it is about.
* `recentEvents_iff` — when a report lists the last events of its scope.
-/

namespace DarkFactory
namespace Usage

structure Consistent (lower : String → String) (data : UsageData) : Prop where
  events : data.events <:+ data.invocations.rows
  aggregates : data.aggregates = (aggregation lower).group data.invocations.rows

theorem consistent_empty (lower : String → String) : Consistent lower UsageData.empty :=
  ⟨List.suffix_refl _, rfl⟩

variable {lower : String → String} {data : UsageData}

theorem record_of_seen {ledger : ModelUsageLedger}
    {event : ModelCallEvent} (h : data.invocations.get? event.invocationId ≠ none) :
    record lower ledger data event = data := by
  simp only [record, Table.insert?_eq_none.mpr h]

theorem record_of_new {ledger : ModelUsageLedger}
    {event : ModelCallEvent} (h : data.invocations.get? event.invocationId = none) :
    (record lower ledger data event).invocations.rows = data.invocations.rows ++ [event] := by
  obtain ⟨invocations, hinsert⟩ := Table.insert?_isSome h
  simp only [record, hinsert]
  exact Table.rows_of_insert? hinsert

theorem consistent_record (h : Consistent lower data) (ledger : ModelUsageLedger) (event : ModelCallEvent) :
    Consistent lower (record lower ledger data event) := by
  unfold record
  split
  · exact h
  · rename_i invocations hinsert
    have hrows := Table.rows_of_insert? hinsert
    constructor
    · simp only [hrows]
      have hten := ledger.atLeastTen
      rw [sliceFrom_neg, if_neg (by omega)]
      obtain ⟨older, holder⟩ := h.events
      refine (List.drop_suffix _ _).trans ⟨older, ?_⟩
      rw [← List.append_assoc, holder]
    · simp only [hrows, Grouping.group_append, h.aggregates]

/-- One call of `record`, by any process. -/
abbrev RecordCall := ModelUsageLedger × ModelCallEvent

def recordCall (lower : String → String) (data : UsageData) (call : RecordCall) : UsageData :=
  record lower call.1 data call.2

theorem consistent_run (lower : String → String) (calls : List RecordCall) :
    Consistent lower (Runs.run (recordCall lower) UsageData.empty calls) :=
  Runs.run_invariant (I := Consistent lower) (fun _ call h => consistent_record h call.1 call.2)
    (consistent_empty lower) calls

theorem get?_record (lower : String → String) (ledger : ModelUsageLedger) (data : UsageData)
    (event : ModelCallEvent) (k : String) :
    (record lower ledger data event).invocations.get? k ≠ none ↔
      data.invocations.get? k ≠ none ∨ event.invocationId = k := by
  unfold record
  split
  · rename_i hseen
    rw [Table.insert?_eq_none] at hseen
    constructor
    · exact .inl
    · rintro (h | rfl)
      · exact h
      · exact hseen
  · rename_i invocations hinsert
    simp only [Table.get?_of_insert? hinsert]
    split
    · rename_i hk
      simp [hk]
    · rename_i hk
      simp [hk]

theorem seen_run (lower : String → String) (data : UsageData) (calls : List RecordCall) (k : String) :
    (Runs.run (recordCall lower) data calls).invocations.get? k ≠ none ↔
      data.invocations.get? k ≠ none ∨ ∃ call ∈ calls, call.2.invocationId = k := by
  induction calls generalizing data with
  | nil => simp
  | cons call calls ih =>
    rw [Runs.run_cons, ih, recordCall, get?_record, or_assoc]
    simp only [List.mem_cons, exists_eq_or_imp]

abbrev Counts := Nat × Nat × Nat × Nat

def rowCounts (row : ModelUsageAggregate) : Counts :=
  (row.callCount, row.successCount, row.failureCount, row.inputTokens + row.outputTokens)

def eventCounts (event : ModelCallEvent) : Counts :=
  (1, if event.success then 1 else 0, if event.success then 0 else 1,
    event.inputTokens.getD 0 + event.outputTokens.getD 0)

def ModelUsageReport.counts (r : ModelUsageReport) : Counts :=
  (r.totalCalls, r.successfulCalls, r.failedCalls, r.totalTokens)

def countsOf (events : List ModelCallEvent) : Counts := (events.map eventCounts).sum

theorem accumulate_counts (row : ModelUsageAggregate) (event : ModelCallEvent) :
    rowCounts (accumulate row event) = rowCounts row + eventCounts event := by
  simp only [rowCounts, accumulate, eventCounts, Prod.mk_add_mk]
  cases event.success with
  | false =>
    simp only [Bool.false_eq_true, if_false, Nat.add_zero]
    rw [Nat.add_add_add_comm]
  | true =>
    simp only [if_true, Nat.add_zero]
    rw [Nat.add_add_add_comm]

theorem group_counts (lower : String → String) (events : List ModelCallEvent) :
    ((aggregation lower).group events).sum rowCounts = countsOf events :=
  Grouping.sum_group (fun _ => rfl) accumulate_counts events

theorem sum_rowCounts (rows : List ModelUsageAggregate) :
    (rows.map rowCounts).sum =
      ((rows.map ModelUsageAggregate.callCount).sum, (rows.map ModelUsageAggregate.successCount).sum,
        (rows.map ModelUsageAggregate.failureCount).sum,
        (rows.map fun row => row.inputTokens + row.outputTokens).sum) := by
  induction rows with
  | nil => rfl
  | cons row rows ih =>
    simp only [List.map_cons, List.sum_cons, ih]
    rfl

theorem report_counts (lower : String → String) (data : UsageData) (limit : Int) (projectId : Option String) :
    (report lower data limit projectId).counts = (reportScope lower data projectId).1.sum rowCounts := by
  have hperm := sortAsc_perm (reportKey lower) ((reportScope lower data projectId).1.rows.map Prod.snd)
  have hsum := (hperm.map rowCounts).sum_eq
  rw [List.map_map, sum_rowCounts] at hsum
  exact hsum

/-- The invocations a report is about: none is left out for an empty project id. -/
def reported (data : UsageData) (projectId : Option String) : List ModelCallEvent :=
  match projectId with
  | none => data.invocations.rows
  | some p => if p = "" then data.invocations.rows else data.invocations.select (ofProject p)

theorem report_counts_of (h : Consistent lower data) (limit : Int) (projectId : Option String) :
    (report lower data limit projectId).counts = countsOf (reported data projectId) := by
  rw [report_counts]
  unfold reportScope reported
  cases projectId with
  | none =>
    simp only [h.aggregates]
    exact group_counts lower _
  | some p =>
    simp only
    split
    · simp only [h.aggregates]
      exact group_counts lower _
    · exact group_counts lower _

theorem countsOf_fst (events : List ModelCallEvent) : (countsOf events).1 = events.length := by
  induction events with
  | nil => rfl
  | cons e events ih =>
    rw [countsOf, List.map_cons, List.sum_cons, Prod.fst_add, ← countsOf, ih, List.length_cons]
    exact Nat.add_comm 1 _

theorem countsOf_filter_iff (q : ModelCallEvent → Bool) (events : List ModelCallEvent) :
    countsOf events = countsOf (events.filter q) ↔ ∀ e ∈ events, q e = true := by
  constructor
  · intro h
    have hlen := congrArg Prod.fst h
    rw [countsOf_fst, countsOf_fst] at hlen
    exact List.length_filter_eq_length_iff.mp hlen.symm
  · intro h
    rw [List.filter_eq_self.mpr h]

def projects (data : UsageData) : Finset String :=
  (data.invocations.rows.map ModelCallEvent.projectId).toFinset

theorem sum_countsOf_projects (events : List ModelCallEvent) (s : Finset String)
    (hs : ∀ e ∈ events, e.projectId ∈ s) :
    ∑ p ∈ s, countsOf (events.filter (ofProject p)) = countsOf events := by
  induction events with
  | nil => exact Finset.sum_const_zero
  | cons e events ih =>
    rw [List.forall_mem_cons] at hs
    have hcons : ∀ p, countsOf ((e :: events).filter (ofProject p)) =
        (if e.projectId = p then eventCounts e else 0) + countsOf (events.filter (ofProject p)) := by
      intro p
      by_cases hp : e.projectId = p
      · rw [List.filter_cons_of_pos (by simpa [ofProject] using hp), if_pos hp]
        rfl
      · rw [List.filter_cons_of_neg (by simpa [ofProject] using hp), if_neg hp, zero_add]
    simp only [hcons, Finset.sum_add_distrib, ih hs.2, Finset.sum_ite_eq, hs.1, if_true]
    rfl

/-- No recorded event has the empty project id, or all of them do. -/
def EmptyProjectAlone (data : UsageData) : Prop :=
  "" ∈ projects data → ∀ e ∈ data.invocations.rows, e.projectId = ""

theorem projectCounts_iff (h : Consistent lower data) (limit : Int) (p : String) :
    (report lower data limit (some p)).counts = countsOf (data.invocations.select (ofProject p)) ↔
      (p = "" → ∀ e ∈ data.invocations.rows, e.projectId = "") := by
  rw [report_counts_of h]
  simp only [reported]
  split
  · rename_i hp
    subst hp
    rw [Table.select, countsOf_filter_iff]
    simp only [ofProject, decide_eq_true_eq, true_implies]
  · rename_i hp
    exact iff_of_true rfl fun h => absurd h hp

theorem sumCounts_iff (h : Consistent lower data) (limit : Int) :
    ∑ p ∈ projects data, (report lower data limit (some p)).counts =
        (report lower data limit none).counts ↔ EmptyProjectAlone data := by
  have hall : ∀ e ∈ data.invocations.rows, e.projectId ∈ projects data := fun e he =>
    List.mem_toFinset.mpr (List.mem_map_of_mem he)
  have hsum := sum_countsOf_projects data.invocations.rows (projects data) hall
  simp only [report_counts_of h]
  have hne : ∀ p, p ≠ "" → countsOf (reported data (some p)) =
      countsOf (data.invocations.rows.filter (ofProject p)) := by
    intro p hp
    rw [reported, if_neg hp]
    rfl
  unfold EmptyProjectAlone
  by_cases hmem : "" ∈ projects data
  · rw [← Finset.sum_erase_add _ _ hmem] at hsum ⊢
    rw [Finset.sum_congr rfl fun p hp => hne p (Finset.ne_of_mem_erase hp)]
    have hempty : countsOf (reported data (some "")) = countsOf data.invocations.rows := rfl
    rw [hempty, show reported data none = data.invocations.rows from rfl, add_eq_right]
    have hfilter := countsOf_filter_iff (ofProject "") data.invocations.rows
    simp only [ofProject, decide_eq_true_eq] at hfilter
    rw [← hfilter, ← hsum]
    simp only [hmem, true_implies]
    exact add_eq_right.symm
  · refine iff_of_true ?_ fun hm => absurd hm hmem
    rw [Finset.sum_congr rfl fun p hp => hne p fun hp' => hmem (hp' ▸ hp)]
    exact hsum

def keptOf (data : UsageData) : Option String → List ModelCallEvent
  | none => data.events
  | some p => data.events.filter (ofProject p)

/-- The report lists exactly the last `limit` of them, newest first. -/
def RecentExact (lower : String → String) (data : UsageData) (limit : Nat) (projectId : Option String) : Prop :=
  (report lower data limit projectId).recentEvents = ((keptOf data projectId).rtake limit).reverse

/-- A limit of 0 is asked for where there is nothing to list, and the empty project id where the last
events all have it. -/
def RecentSafe (data : UsageData) (limit : Nat) (projectId : Option String) : Prop :=
  (limit = 0 → ∀ e ∈ data.events, ∃ p, projectId = some p ∧ p ≠ "" ∧ e.projectId ≠ p) ∧
    (projectId = some "" → ∀ e ∈ data.events.rtake limit, e.projectId = "")

theorem recentEvents_eq (lower : String → String) (data : UsageData) (limit : Nat) (projectId : Option String) :
    (report lower data limit projectId).recentEvents = (if limit = 0 then (reportScope lower data projectId).2
        else (reportScope lower data projectId).2.rtake limit).reverse := by
  have hmax : max 0 (limit : Int) = limit := by omega
  rw [← sliceFrom_neg, ← hmax]
  rfl

theorem recentEvents_iff (lower : String → String) (data : UsageData) (limit : Nat) (projectId : Option String) :
    RecentExact lower data limit projectId ↔ RecentSafe data limit projectId := by
  rw [RecentExact, recentEvents_eq, List.reverse_inj, RecentSafe]
  cases limit with
  | zero =>
    have hzero : ∀ l : List ModelCallEvent, l.rtake 0 = [] := fun l => by simp [List.rtake]
    simp only [if_true, hzero, true_implies, List.not_mem_nil, false_implies, implies_true, and_true]
    cases projectId with
    | none => simp [reportScope, List.eq_nil_iff_forall_not_mem]
    | some p =>
      simp only [reportScope]
      split
      · rename_i hp
        simp [hp, List.eq_nil_iff_forall_not_mem]
      · rename_i hp
        simp [hp, List.filter_eq_nil_iff, ofProject]
  | succ n =>
    simp only [Nat.succ_ne_zero, if_false, false_implies, true_and]
    cases projectId with
    | none => simp [reportScope, keptOf]
    | some p =>
      simp only [reportScope, keptOf, Option.some.injEq]
      split
      · rename_i hp
        subst hp
        rw [eq_comm, rtake_filter_eq_iff]
        simp only [ofProject, decide_eq_true_eq, true_implies]
      · rename_i hp
        exact iff_of_true rfl fun h => absurd h hp

/-- After every sequence of `record` calls: a call with an id seen before changes nothing, any other adds
its event to the invocations; the kept events are the last of these, the aggregates their accumulation
in order, which recomputing gives again; and which reports give the totals and the last events of what
they are about. -/
theorem ledger_consistent_iff (lower : String → String) (calls : List RecordCall) :
    let data := Runs.run (recordCall lower) UsageData.empty calls
    (∀ call : RecordCall, (∃ c ∈ calls, c.2.invocationId = call.2.invocationId) →
      recordCall lower data call = data) ∧
    (∀ call : RecordCall, (¬ ∃ c ∈ calls, c.2.invocationId = call.2.invocationId) →
      (recordCall lower data call).invocations.rows = data.invocations.rows ++ [call.2]) ∧
    data.events <:+ data.invocations.rows ∧
    data.aggregates = (aggregation lower).group data.invocations.rows ∧
    recomputeAggregates lower data = (data.invocations.rows.length, data) ∧
    (∀ limit p, (report lower data limit (some p)).counts =
      countsOf (data.invocations.select (ofProject p)) ↔
        (p = "" → ∀ e ∈ data.invocations.rows, e.projectId = "")) ∧
    (∀ limit, ∑ p ∈ projects data, (report lower data limit (some p)).counts =
      (report lower data limit none).counts ↔ EmptyProjectAlone data) ∧
    ∀ limit projectId, RecentExact lower data limit projectId ↔ RecentSafe data limit projectId := by
  intro data
  have h : Consistent lower data := consistent_run lower calls
  have hseen : ∀ k, data.invocations.get? k ≠ none ↔ ∃ c ∈ calls, c.2.invocationId = k := fun k =>
    (seen_run lower UsageData.empty calls k).trans (or_iff_right (fun h => h rfl))
  refine ⟨fun call hcall => record_of_seen ((hseen _).mpr hcall), fun call hcall => ?_, h.events,
    h.aggregates, ?_, projectCounts_iff h, sumCounts_iff h, recentEvents_iff lower data⟩
  · exact record_of_new (not_not.mp fun hk => hcall ((hseen _).mp hk))
  · rw [recomputeAggregates, ← h.aggregates]

instance (lower : String → String) (data : UsageData) (limit : Nat) (projectId : Option String) :
    Decidable (RecentExact lower data limit projectId) := inferInstanceAs (Decidable (_ = _))

/-- A report that is asked for no events lists the one that was recorded. -/
theorem recent_zero_lists_all :
    ¬ RecentExact id
      (Runs.run (recordCall id) UsageData.empty
        [(ModelUsageLedger.init 500,
          { invocationId := "invocation-1", provider := "openrouter", model := "deepseek-v4-pro",
            timestamp := "2026-07-20T00:00:00Z" })]) 0 none := by
  decide +kernel

end Usage
end DarkFactory
