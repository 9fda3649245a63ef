import DarkFactory.Lib.Runs
import DarkFactory.Python.JsonValue
import DarkFactory.Workflow.Verification

/-!
# DarkFactory.Workflow.ManualResolution

The probe of a manual dependency, `core/workflow/manual_resolution.py`.

* `refusal`, `failure` — the checks of `execute_manual_probe`, in their order.
* `executeManualProbe` — the dependency and the job it returns, and the store it leaves.
* `Justified` — what a resolution has to rest on.
-/

namespace DarkFactory
namespace Workflow
namespace ManualResolution

open Python Readiness

inductive ProbeJobStatus where
  | pending | running | succeeded | failed | rejected
deriving DecidableEq

structure ProbeJob where
  probeId : String
  dependencyId : String
  status : ProbeJobStatus := .pending
  receiptRef : Option String := none
  detail : Option String := none
  version : Int := 1
  responseRef : String := ""
  operatorIdentity : String := ""
  helpRoute : Option String := none
  payload : Option (List (String × JsonValue)) := none

structure ManualDependency extends Readiness.ManualDependency where
  helpRoute : String
  resolvedAt : Option Rat := none
deriving DecidableEq

/-- `schema_version`, which stands in for the `version` that the contract does not have. -/
def ManualDependency.schemaVersion (_ : ManualDependency) : Int := 1

structure OutboxEvent where
  eventType : String
  aggregateType : String
  aggregateId : String
  probeId : String
  receiptRef : String
  ticketIds : List String
  blockedStages : List WorkflowState
  resolvedAt : Rat
  operatorIdentity : String
  finalProbe : String
deriving DecidableEq

inductive Store where
  | emitOutbox (emitted : List OutboxEvent)
  | outbox (rows : List OutboxEvent)
  | events (rows : List OutboxEvent)
  | list (rows : List OutboxEvent)
  | dict (outbox : Option (List OutboxEvent))
  | other
deriving DecidableEq

inductive Fault where
  | typeError
deriving DecidableEq

/-- `str.lower` and the text of a value. -/
structure Host where
  lower : String → String
  str : JsonValue → String

/-- One call. An evaluator answers or raises with a text. -/
structure Call where
  job : ProbeJob
  probeEvaluator : Option (ProbeJob → ManualDependency → Except String Bool) := none
  probePass : Option Bool := none
  now : Rat := 0

def ProbeJob.rejected (job : ProbeJob) (detail : String) : ProbeJob :=
  { job with status := .rejected, detail := some detail }

def refusal (host : Host) (job : ProbeJob) (dep : ManualDependency) : Option ProbeJob :=
  if job.dependencyId ≠ dep.dependencyId then
    some (job.rejected ("Dependency ID mismatch: job has '" ++ job.dependencyId ++ "', dependency is '" ++
      dep.dependencyId ++ "'"))
  else if job.status = .rejected then some job
  else if job.version < dep.schemaVersion then
    some (job.rejected ("Stale submission: version " ++ toString job.version ++ " is older than dependency version " ++
      toString dep.schemaVersion))
  else if job.helpRoute.any fun route => decide (route ≠ dep.helpRoute) then
    some (job.rejected ("Unauthorized route: divergent from dependency.help_route '" ++ dep.helpRoute ++ "'"))
  else if Text.strip job.operatorIdentity = "" then
    some (job.rejected "Unauthorized identity: missing or empty operator identity")
  else if Text.contains "unauthorized" (host.lower job.operatorIdentity) ||
      Text.contains "anonymous" (host.lower job.operatorIdentity) then
    some (job.rejected "Unauthorized identity: operator identity is not authorized")
  else none

/-- `payload.get("result") in {...}` and the two tests after it. A list or a dict has no hash. -/
def payloadFails (fields : List (String × JsonValue)) : Except Fault Bool :=
  let others := (match JsonValue.field fields "success" with | some (.bool b) => !b | _ => false) ||
    (JsonValue.field fields "error").isSome
  match JsonValue.field fields "result" with
  | some (.arr _) | some (.obj _) => .error .typeError
  | some (.str s) => .ok (decide (s ∈ ["failed", "failure", "rejected"]) || others)
  | _ => .ok others

def payloadReason (host : Host) (fields : List (String × JsonValue)) : String :=
  "Payload indicates failure: " ++ match JsonValue.fieldOr fields "error" with
    | some v => host.str v
    | none => host.str ((JsonValue.field fields "result").getD .null)

def responseFails (host : Host) (job : ProbeJob) : Bool :=
  decide (job.responseRef ∈ ["invalid", "failed", "failure", "error", "rejected"]) ||
    Text.contains "failed" (host.lower job.responseRef)

def indicated (host : Host) (job : ProbeJob) : Except Fault (Option String) := do
  let fields := job.payload.getD []
  if ← (if fields.isEmpty then .ok false else payloadFails fields) then
    return some (payloadReason host fields)
  if responseFails host job then
    return some ("Response ref indicates failure: " ++ job.responseRef)
  return none

def failure (host : Host) (c : Call) (dep : ManualDependency) : Except Fault (Option String) :=
  if c.probePass = some false then .ok (some "Probe execution failed: probe_pass flag is False.")
  else if c.job.status = .failed then .ok (some (c.job.detail.getD "Probe job status was marked as failed."))
  else
    match c.probeEvaluator with
    | some evaluator =>
      match evaluator c.job dep with
      | .ok true => .ok none
      | .ok false => .ok (some "Probe execution failed: evaluator returned False.")
      | .error exc => .ok (some ("Probe evaluator raised exception: " ++ exc))
    | none => indicated host c.job

def receiptRef (job : ProbeJob) : String := "receipt://manual-resolution/" ++ job.probeId

def resolvedDep (job : ProbeJob) (now : Rat) (dep : ManualDependency) : ManualDependency :=
  { dep with status := .resolved, resolvedAt := some now, resolutionReceiptRef := some (receiptRef job) }

def succeededJob (job : ProbeJob) : ProbeJob :=
  { job with
    status := .succeeded, receiptRef := some (receiptRef job)
    detail := some "Probe succeeded and dependency resolved." }

def outboxEvent (job : ProbeJob) (now : Rat) (dep : ManualDependency) : OutboxEvent where
  eventType := "dependency_resolved"
  aggregateType := "manual_dependency"
  aggregateId := dep.dependencyId
  probeId := job.probeId
  receiptRef := receiptRef job
  ticketIds := dep.ticketIds
  blockedStages := dep.blockedStages
  resolvedAt := now
  operatorIdentity := job.operatorIdentity
  finalProbe := dep.finalProbe

def emitToStore (event : OutboxEvent) : Store → Store
  | .emitOutbox emitted => .emitOutbox (emitted ++ [event])
  | .outbox rows => .outbox (rows ++ [event])
  | .events rows => .events (rows ++ [event])
  | .list rows => .list (rows ++ [event])
  | .dict rows => .dict (some (rows.getD [] ++ [event]))
  | .other => .other

abbrev Returned := Except Fault (ManualDependency × ProbeJob)

def executeManualProbe (host : Host) (c : Call) (dep : ManualDependency) (store : Option Store) :
    Returned × Option Store :=
  match refusal host c.job dep with
  | some job => (.ok (dep, job), store)
  | none =>
    match failure host c dep with
    | .error fault => (.error fault, store)
    | .ok (some reason) => (.ok (dep, { c.job with status := .failed, detail := some reason }), store)
    | .ok none =>
      (.ok (resolvedDep c.job c.now dep, succeededJob c.job), store.map (emitToStore (outboxEvent c.job c.now dep)))

structure Justified (host : Host) (c : Call) (dep : ManualDependency) : Prop where
  job : c.job.dependencyId = dep.dependencyId
  notRejected : c.job.status ≠ .rejected
  notFailed : c.job.status ≠ .failed
  fresh : dep.schemaVersion ≤ c.job.version
  route : ∀ route ∈ c.job.helpRoute, route = dep.helpRoute
  named : Text.strip c.job.operatorIdentity ≠ ""
  authorized : Text.contains "unauthorized" (host.lower c.job.operatorIdentity) = false ∧
    Text.contains "anonymous" (host.lower c.job.operatorIdentity) = false
  established : (∃ evaluator, c.probeEvaluator = some evaluator ∧ evaluator c.job dep = .ok true) ∨
    c.probePass = some true

/-- The call returns, and either it failed and nothing has changed or a justified resolution has been made. -/
def FailsClosed (host : Host) (c : Call) (dep : ManualDependency) (store : Option Store) : Prop :=
  ∃ after job, (executeManualProbe host c dep store).1 = .ok (after, job) ∧
    (((job.status = .rejected ∨ job.status = .failed) ∧ after = dep ∧ (executeManualProbe host c dep store).2 = store) ∨
      (Justified host c dep ∧ after.status = .resolved))

/-- A probe that is neither refused nor failed, and has no evaluator, is let through by the flag or stopped by what the
payload or the response says; and the payload can be read. -/
def Guarded (host : Host) (c : Call) (dep : ManualDependency) : Prop :=
  refusal host c.job dep = none → c.probePass ≠ some false → c.job.status ≠ .failed → c.probeEvaluator = none →
    ∃ reason, indicated host c.job = .ok reason ∧ (c.probePass = some true ∨ reason ≠ none)

def Passes (host : Host) (c : Call) (dep : ManualDependency) : Prop :=
  refusal host c.job dep = none ∧ failure host c dep = .ok none

variable {host : Host} {c : Call} {dep : ManualDependency} {store : Option Store}

theorem refusal_eq_none (h : refusal host c.job dep = none) :
    c.job.dependencyId = dep.dependencyId ∧ c.job.status ≠ .rejected ∧ dep.schemaVersion ≤ c.job.version ∧
      (∀ route ∈ c.job.helpRoute, route = dep.helpRoute) ∧ Text.strip c.job.operatorIdentity ≠ "" ∧
      Text.contains "unauthorized" (host.lower c.job.operatorIdentity) = false ∧
      Text.contains "anonymous" (host.lower c.job.operatorIdentity) = false := by
  unfold refusal at h
  split at h
  · cases h
  · rename_i hjob
    split at h
    · cases h
    · rename_i hstatus
      split at h
      · cases h
      · rename_i hversion
        split at h
        · cases h
        · rename_i hroute
          split at h
          · cases h
          · rename_i hnamed
            split at h
            · cases h
            · rename_i hidentity
              rw [Bool.not_eq_true, Bool.or_eq_false_iff] at hidentity
              refine ⟨not_not.mp hjob, hstatus, not_lt.mp hversion, ?_, hnamed, hidentity⟩
              intro route hmem
              rw [hmem, Option.any_some, decide_eq_true_iff] at hroute
              exact not_not.mp hroute

theorem failure_of_evaluator (host : Host) (dep : ManualDependency)
    {evaluator : ProbeJob → ManualDependency → Except String Bool} (hpass : c.probePass ≠ some false)
    (hstatus : c.job.status ≠ .failed) (h : c.probeEvaluator = some evaluator) :
    (failure host c dep = .ok none ∧ evaluator c.job dep = .ok true) ∨
      ∃ reason, failure host c dep = .ok (some reason) := by
  unfold failure
  rw [if_neg hpass, if_neg hstatus, h]
  dsimp only
  split
  · rename_i heval
    exact .inl ⟨rfl, heval⟩
  · exact .inr ⟨_, rfl⟩
  · exact .inr ⟨_, rfl⟩

theorem failure_of_none (host : Host) (dep : ManualDependency) (hpass : c.probePass ≠ some false)
    (hstatus : c.job.status ≠ .failed) (h : c.probeEvaluator = none) : failure host c dep = indicated host c.job := by
  unfold failure
  rw [if_neg hpass, if_neg hstatus, h]

theorem unflagged_of_passes (h : Passes host c dep) : c.probePass ≠ some false ∧ c.job.status ≠ .failed := by
  have hfailure := h.2
  unfold failure at hfailure
  split at hfailure
  · cases hfailure
  · rename_i hpass
    split at hfailure
    · cases hfailure
    · rename_i hstatus
      exact ⟨hpass, hstatus⟩

theorem execute_passes (h : Passes host c dep) :
    executeManualProbe host c dep store = (.ok (resolvedDep c.job c.now dep, succeededJob c.job),
      store.map (emitToStore (outboxEvent c.job c.now dep))) := by
  unfold executeManualProbe
  rw [h.1]
  dsimp only
  rw [h.2]

theorem refusal_rejected {job : ProbeJob} (h : refusal host c.job dep = some job) : job.status = .rejected := by
  unfold refusal at h
  split at h
  · rw [← Option.some.inj h]
    rfl
  · split at h
    · rename_i hstatus
      rw [← Option.some.inj h]
      exact hstatus
    · repeat'
        split at h
        · rw [← Option.some.inj h]
          rfl
      cases h

theorem execute_unchanged (store : Option Store) (h : ¬ Passes host c dep) :
    (executeManualProbe host c dep store).2 = store ∧
      ((∃ job, (job.status = .rejected ∨ job.status = .failed) ∧
          (executeManualProbe host c dep store).1 = .ok (dep, job)) ∨
        refusal host c.job dep = none ∧ ∃ fault, failure host c dep = .error fault) := by
  unfold executeManualProbe
  split
  · rename_i hrefusal
    exact ⟨rfl, .inl ⟨_, .inl (refusal_rejected hrefusal), rfl⟩⟩
  · rename_i hrefusal
    split
    · rename_i fault hfailure
      exact ⟨rfl, .inr ⟨hrefusal, fault, hfailure⟩⟩
    · exact ⟨rfl, .inl ⟨_, .inr rfl, rfl⟩⟩
    · rename_i hfailure
      exact absurd ⟨hrefusal, hfailure⟩ h

theorem justified_of_passes (h : Passes host c dep)
    (hestablished : (∃ evaluator, c.probeEvaluator = some evaluator ∧ evaluator c.job dep = .ok true) ∨
      c.probePass = some true) : Justified host c dep := by
  obtain ⟨hjob, hrejected, hversion, hroute, hnamed, hauthorized⟩ := refusal_eq_none h.1
  exact ⟨hjob, hrejected, (unflagged_of_passes h).2, hversion, hroute, hnamed, hauthorized, hestablished⟩

theorem Guarded.established (hguard : Guarded host c dep) (h : Passes host c dep) :
    (∃ evaluator, c.probeEvaluator = some evaluator ∧ evaluator c.job dep = .ok true) ∨ c.probePass = some true := by
  obtain ⟨hpass, hstatus⟩ := unflagged_of_passes h
  cases hevaluator : c.probeEvaluator with
  | some evaluator =>
    rcases failure_of_evaluator host dep hpass hstatus hevaluator with ⟨-, heval⟩ | ⟨reason, hfails⟩
    · exact .inl ⟨evaluator, rfl, heval⟩
    · have hnone := h.2
      rw [hfails] at hnone
      cases hnone
  | none =>
    obtain ⟨reason, hindicated, hflag | hreason⟩ := hguard h.1 hpass hstatus hevaluator
    · exact .inr hflag
    · have hnone := h.2
      rw [failure_of_none _ _ hpass hstatus hevaluator, hindicated] at hnone
      exact absurd (Except.ok.inj hnone) hreason

theorem Guarded.returns (hguard : Guarded host c dep) (hrefusal : refusal host c.job dep = none) :
    ∃ reason, failure host c dep = .ok reason := by
  by_cases hpass : c.probePass = some false
  · unfold failure
    rw [if_pos hpass]
    exact ⟨_, rfl⟩
  · by_cases hstatus : c.job.status = .failed
    · unfold failure
      rw [if_neg hpass, if_pos hstatus]
      exact ⟨_, rfl⟩
    · cases hevaluator : c.probeEvaluator with
      | some evaluator =>
        rcases failure_of_evaluator host dep hpass hstatus hevaluator with
          ⟨hnone, -⟩ | ⟨reason, hfails⟩
        · exact ⟨none, hnone⟩
        · exact ⟨some reason, hfails⟩
      | none =>
        obtain ⟨reason, hindicated, -⟩ := hguard hrefusal hpass hstatus hevaluator
        rw [failure_of_none _ _ hpass hstatus hevaluator]
        exact ⟨reason, hindicated⟩

theorem failsClosed_of_guarded (hguard : Guarded host c dep) : FailsClosed host c dep store := by
  by_cases h : Passes host c dep
  · refine ⟨resolvedDep c.job c.now dep, succeededJob c.job, ?_, .inr ⟨justified_of_passes h (hguard.established h), rfl⟩⟩
    rw [execute_passes h]
  · obtain ⟨hstore, ⟨job, hstatus, hreturned⟩ | ⟨hrefusal, fault, hfault⟩⟩ := execute_unchanged store h
    · exact ⟨dep, job, hreturned, .inl ⟨hstatus, rfl, hstore⟩⟩
    · obtain ⟨reason, hok⟩ := hguard.returns hrefusal
      rw [hfault] at hok
      cases hok

theorem failsClosed_iff_guarded : FailsClosed host c dep store ↔ Guarded host c dep := by
  refine ⟨?_, failsClosed_of_guarded⟩
  rintro ⟨after, job, hreturned, hcase⟩ hrefusal hpass hstatus hevaluator
  have hfailure := failure_of_none host dep hpass hstatus hevaluator
  cases hindicated : indicated host c.job with
  | error fault =>
    unfold executeManualProbe at hreturned
    rw [hrefusal] at hreturned
    dsimp only at hreturned
    rw [hfailure, hindicated] at hreturned
    cases hreturned
  | ok reason =>
    cases reason with
    | some reason => exact ⟨some reason, rfl, .inr (Option.some_ne_none reason)⟩
    | none =>
      refine ⟨none, rfl, .inl ?_⟩
      have hpasses : Passes host c dep := ⟨hrefusal, hfailure.trans hindicated⟩
      rw [execute_passes hpasses] at hreturned hcase
      obtain ⟨rfl, rfl⟩ := Prod.mk.inj (Except.ok.inj hreturned)
      rcases hcase with ⟨hfailed | hfailed, -⟩ | ⟨hjustified, -⟩
      · cases hfailed
      · cases hfailed
      · rcases hjustified.established with ⟨evaluator, heval, -⟩ | hflag
        · rw [hevaluator] at heval
          cases heval
        · exact hflag

/-- The dependency the last call returned, and the store. A call that raises leaves both. -/
abbrev State := ManualDependency × Option Store

def step (host : Host) (s : State) (c : Call) : State :=
  match executeManualProbe host c s.1 s.2 with
  | (.ok (after, _), store) => (after, store)
  | (.error _, store) => (s.1, store)

def Store.rows : Store → List OutboxEvent
  | .emitOutbox emitted => emitted
  | .outbox rows | .events rows | .list rows => rows
  | .dict rows => rows.getD []
  | .other => []

/-- The `dependency_resolved` events of one dependency. -/
def resolvedEvents (dependencyId : String) (store : Option Store) : List OutboxEvent :=
  ((store.map Store.rows).getD []).filter fun e =>
    decide (e.eventType = "dependency_resolved") && decide (e.aggregateId = dependencyId)

/-- The probe is guarded, and it does not pass on a dependency that is resolved already. -/
structure Orderly (host : Host) (dep : ManualDependency) (c : Call) : Prop where
  guarded : Guarded host c dep
  once : dep.status = .resolved → ¬ Passes host c dep

theorem rows_emitToStore (event : OutboxEvent) (s : Store) :
    (emitToStore event s).rows = s.rows ++ [event] ∨ (emitToStore event s).rows = s.rows := by
  cases s with
  | other => exact .inr rfl
  | _ => exact .inl rfl

theorem resolvedEvents_emit (id : String) (event : OutboxEvent) (store : Option Store) :
    (resolvedEvents id (store.map (emitToStore event))).length ≤ (resolvedEvents id store).length + 1 := by
  cases store with
  | none => exact Nat.le_add_right ..
  | some s =>
    unfold resolvedEvents
    rw [Option.map_some, Option.map_some, Option.map_some, Option.getD_some, Option.getD_some]
    rcases rows_emitToStore event s with h | h
    · rw [h, List.filter_append, List.length_append]
      exact Nat.add_le_add_left (List.length_filter_le ..) _
    · rw [h]
      exact Nat.le_add_right ..

theorem step_passes {s : State} (h : Passes host c s.1) : step host s c =
    (resolvedDep c.job c.now s.1, s.2.map (emitToStore (outboxEvent c.job c.now s.1))) := by
  unfold step
  rw [execute_passes h]

theorem step_unchanged {s : State} (h : ¬ Passes host c s.1) : step host s c = s := by
  obtain ⟨hstore, ⟨job, -, hreturned⟩ | ⟨hrefusal, fault, hfault⟩⟩ := execute_unchanged s.2 h
  · unfold step
    rw [show executeManualProbe host c s.1 s.2 = (.ok (s.1, job), s.2) from Prod.ext hreturned hstore]
  · unfold step executeManualProbe
    rw [hrefusal]
    dsimp only
    rw [hfault]

/-- Until it is resolved nothing is emitted for the dependency, and one event at most when it is. -/
def Emitted (start : State) (s : State) : Prop :=
  (resolvedEvents start.1.dependencyId s.2).length ≤ (resolvedEvents start.1.dependencyId start.2).length ∨
    s.1.status = .resolved ∧
      (resolvedEvents start.1.dependencyId s.2).length ≤ (resolvedEvents start.1.dependencyId start.2).length + 1

theorem emitted_step {start s : State} (h : Emitted start s) (horderly : Orderly host s.1 c) :
    Emitted start (step host s c) := by
  by_cases hpasses : Passes host c s.1
  · rw [step_passes hpasses]
    rcases h with hnone | ⟨hresolved, -⟩
    · exact .inr ⟨rfl, (resolvedEvents_emit ..).trans (Nat.add_le_add_right hnone 1)⟩
    · exact absurd hpasses (horderly.once hresolved)
  · rw [step_unchanged hpasses]
    exact h

/-- A probe fails closed exactly if it is guarded. Over orderly probes of one dependency, each of them fails closed and
one event at most is emitted. -/
theorem probes_fail_closed (host : Host) (dep : ManualDependency) (store : Option Store) :
    (∀ c, FailsClosed host c dep store ↔ Guarded host c dep) ∧
      ∀ calls, (∀ m ∈ Runs.moves (step host) (dep, store) calls, Orderly host m.pre.1 m.act) →
        (∀ m ∈ Runs.moves (step host) (dep, store) calls, FailsClosed host m.act m.pre.1 m.pre.2) ∧
          (resolvedEvents dep.dependencyId (Runs.run (step host) (dep, store) calls).2).length ≤
            (resolvedEvents dep.dependencyId store).length + 1 := by
  refine ⟨fun c => failsClosed_iff_guarded, ?_⟩
  intro calls horderly
  refine ⟨fun m hm => failsClosed_of_guarded (horderly m hm).guarded, ?_⟩
  have hemitted : Emitted (dep, store) (Runs.run (step host) (dep, store) calls) :=
    Runs.run_invariant_of (I := Emitted (dep, store)) (C := fun s c => Orderly host s.1 c)
      (fun s c h hc => emitted_step h hc) (.inl (Nat.le_refl _)) horderly
  rcases hemitted with h | ⟨-, h⟩
  · exact h.trans (Nat.le_add_right ..)
  · exact h

def asciiHost : Host := ⟨Text.asciiLower, fun _ => ""⟩

def waitingDep : ManualDependency where
  dependencyId := "dep-1"
  ticketIds := ["HF-08"]
  finalProbe := "probe"
  createdAt := 0
  helpRoute := "/help"

def bareJob : ProbeJob := { probeId := "probe-1", dependencyId := "dep-1", operatorIdentity := "owner" }

theorem bareJob_accepted : refusal asciiHost bareJob waitingDep = none :=
  Option.isNone_iff_eq_none.mp (by decide)

/-- Without an evaluator and without the flag, a job that names no failure resolves the dependency. -/
theorem bare_probe_resolves : ¬ FailsClosed asciiHost ⟨bareJob, none, none, 0⟩ waitingDep none := by
  intro h
  obtain ⟨reason, hindicated, hflag | hreason⟩ :=
    failsClosed_iff_guarded.mp h bareJob_accepted nofun nofun rfl
  · cases hflag
  · have hnone : indicated asciiHost bareJob = .ok none := rfl
    exact hreason (Except.ok.inj (hindicated.symm.trans hnone))

theorem flagged_probe_emits_once :
    (resolvedEvents "dep-1" (Runs.run (step asciiHost) (waitingDep, some (.list [])) [⟨bareJob, none, some true, 0⟩]).2).length
      ≤ 1 := by
  refine ((probes_fail_closed asciiHost waitingDep (some (.list []))).2 [⟨bareJob, none, some true, 0⟩] ?_).2
  intro m hm
  rw [Runs.moves, Runs.moves, List.mem_singleton] at hm
  rw [hm]
  exact ⟨fun _ _ _ _ => ⟨none, rfl, .inl rfl⟩, fun hresolved => by cases hresolved⟩

end ManualResolution
end Workflow
end DarkFactory
