import Mathlib.Algebra.Group.Int.Defs
import Mathlib.Data.List.Dedup
import DarkFactory.Lib.Loop
import DarkFactory.Python.JsonValue
import DarkFactory.Python.Text

/-!
# DarkFactory.Git.CiChecks

The CI gate of `core/git/ci_checks.py`.

* `Host` — `json.loads`, `str.lower`, `str()` of a JSON value and the texts of a log.
* `parseChecksOutput`, `classifyChecks` — what one `gh pr checks` call says.
* `ensureGreen` — the waiting loop. Its result comes with the state of the loop that gave it.

Times are exact, in units of the smallest positive float, of which every finite float is a multiple.
-/

namespace DarkFactory
namespace Git
namespace CiChecks

open Python (JsonValue)

abbrev Fields := List (String × JsonValue)

structure Host where
  /-- none where `json.loads` raises `JSONDecodeError` -/
  json : String → Option JsonValue
  lower : String → String
  str : JsonValue → String
  sanitize : String → String
  /-- `f"{seconds:.0f}"` -/
  rounded : Int → String

def SECOND : Int := 2 ^ 1074

def DEFAULT_CI_WAIT_SECONDS : Int := 2400 * SECOND

def DEFAULT_POLL_SECONDS : Int := 20 * SECOND

def DEFAULT_NO_CHECKS_GRACE_SECONDS : Int := 30 * SECOND

/-- What a call of `gh` gives back, or the text of what it raises. -/
structure GhResult where
  returncode : Int
  stdout : String
  stderr : String

abbrev Answer := Except String GhResult

inductive CheckState where
  | green
  | pending
  | failed
  | noChecks
  | error
  deriving DecidableEq

def CheckState.text : CheckState → String
  | .green => "green"
  | .pending => "pending"
  | .failed => "failed"
  | .noChecks => "no_checks"
  | .error => "error"

structure CheckSnapshot where
  state : CheckState
  checks : List Fields := []
  failing : List Fields := []
  pending : List Fields := []
  error : String := ""

def errorSnapshot (error : String) : CheckSnapshot := { state := .error, error }

/-- `bucket` values that are neither failures nor still running. -/
def SETTLED_BUCKETS : List String := ["pass", "skipping", "cancel"]

def objectOf : JsonValue → Option Fields
  | .obj fields => some fields
  | _ => none

def bucketFails (check : Fields) : Bool :=
  match JsonValue.field check "bucket" with
  | some (.str bucket) => decide (bucket = "fail")
  | _ => false

/-- `c.get("bucket") not in _SETTLED_BUCKETS`, which raises on a list or a dict. -/
def bucketPending (check : Fields) : Except String Bool :=
  match JsonValue.field check "bucket" with
  | some (.str bucket) => .ok (decide (bucket ∉ SETTLED_BUCKETS))
  | some (.arr _) => .error "unhashable type: 'list'"
  | some (.obj _) => .error "unhashable type: 'dict'"
  | _ => .ok true

def pendingOf : List Fields → Except String (List Fields)
  | [] => .ok []
  | check :: checks => do
    let isPending ← bucketPending check
    let pending ← pendingOf checks
    .ok (if isPending then check :: pending else pending)

def classifyChecks : JsonValue → Except String CheckSnapshot
  | .arr [] => .ok { state := .noChecks }
  | .arr checks =>
    let entries := checks.filterMap objectOf
    if entries.length ≠ checks.length then
      .ok { state := .error, checks := entries, error := "gh pr checks returned a non-object check entry" }
    else
      let failing := entries.filter bucketFails
      if failing ≠ [] then .ok { state := .failed, checks := entries, failing }
      else do
        let pending ← pendingOf entries
        if pending ≠ [] then .ok { state := .pending, checks := entries, pending }
        else .ok { state := .green, checks := entries }
  | _ => .ok (errorSnapshot "gh pr checks returned a non-list payload")

section

variable (py : Host)

/-- What gh says of a pull request without checks. -/
def saysNoChecks (stdout stderr : String) : Bool :=
  let combined := py.lower (stdout ++ "\n" ++ stderr)
  Text.contains "no checks reported" combined || Text.contains "no commit found" combined

def parseStatus (r : GhResult) : CheckSnapshot :=
  if r.returncode ≠ 0 then
    if saysNoChecks py r.stdout r.stderr then { state := .noChecks }
    else errorSnapshot (if Text.strip r.stderr ≠ "" then r.stderr else r.stdout)
  else if Text.strip r.stdout = "" then { state := .noChecks }
  else errorSnapshot "gh pr checks returned invalid JSON"

/-- The JSON on stdout goes before the exit status, unless it is an empty list and the call failed. -/
def parseChecksOutput (r : GhResult) : Except String CheckSnapshot :=
  if Text.strip r.stdout = "" then .ok (parseStatus py r)
  else
    match py.json r.stdout with
    | none => .ok (parseStatus py r)
    | some decoded => do
      let snapshot ← classifyChecks decoded
      if r.returncode = 0 ∨ snapshot.state ≠ .noChecks then .ok snapshot else .ok (parseStatus py r)

def pollChecks (answer : Answer) : CheckSnapshot :=
  match answer with
  | .error raised => errorSnapshot (py.sanitize raised)
  | .ok r =>
    match parseChecksOutput py r with
    | .ok snapshot => snapshot
    | .error raised => errorSnapshot (py.sanitize raised)

/-- `str(d.get(key) or default)` -/
def textOr (fields : Fields) (key default : String) : String :=
  ((JsonValue.fieldOr fields key).map py.str).getD default

def checkLabel (check : Fields) : String :=
  let name := textOr py check "name" "?"
  let workflow := textOr py check "workflow" ""
  if workflow ≠ "" then workflow ++ " / " ++ name else name

def RED_CONCLUSIONS : List String := ["failure", "timed_out", "startup_failure"]

def INCONCLUSIVE_CONCLUSIONS : List String := ["cancelled", "skipped", "stale", ""]

/-- `_load_json`, where an empty stdout is `null`. -/
def loadJson (r : GhResult) : Option JsonValue :=
  if r.returncode ≠ 0 then none else if r.stdout = "" then some .null else py.json r.stdout

def conclusion (fields : Fields) : String := textOr py fields "conclusion" ""

def latestConclusiveRun (answer : Answer) : Option Fields :=
  match answer.toOption.bind (loadJson py) with
  | some (.arr runs) =>
    (runs.filterMap objectOf).find? fun run => decide (conclusion py run ∉ INCONCLUSIVE_CONCLUSIONS)
  | _ => none

def runJobs (answer : Answer) : Option (List Fields) :=
  match answer.toOption.bind (loadJson py) with
  | some (.obj fields) =>
    match JsonValue.field fields "jobs" with
    | some (.arr jobs) => some (jobs.filterMap objectOf)
    | _ => none
  | _ => none

def isRed (fields : Fields) : Bool := decide (conclusion py fields ∈ RED_CONCLUSIONS)

def PR_JOB : String := "pr-validation"

def BASE_JOB : String := "main-validation"

def baseJobCandidates (name : String) : List String :=
  if name = PR_JOB ∨ (PR_JOB ++ " ").toList <+: name.toList then
    [name, BASE_JOB ++ String.ofList (name.toList.drop PR_JOB.length)]
  else [name]

/-- The last conclusive run and its jobs for each workflow, as GitHub answers when it is asked. -/
structure BaseAnswers where
  runs : String → Answer
  jobs : String → Answer

def workflowOf (check : Fields) : String := textOr py check "workflow" ""

def groupIsRed (base : BaseAnswers) (workflow : String) (group : List Fields) : Bool :=
  match latestConclusiveRun py (base.runs workflow) with
  | none => false
  | some run =>
    isRed py run &&
      match runJobs py (base.jobs workflow) with
      | none => false
      | some jobs =>
        let redNames := (jobs.filter (isRed py)).map fun job => textOr py job "name" ""
        group.all fun check => (baseJobCandidates (textOr py check "name" "")).any fun name => decide (name ∈ redNames)

/-- A call that raises counts as not red (`classify_base_red`). -/
def baseBranchIsRed (base : BaseAnswers) (failing : List Fields) : Bool :=
  !failing.isEmpty && ((failing.map (workflowOf py)).dedup.all fun workflow =>
    groupIsRed py base workflow (failing.filter fun check => decide (workflowOf py check = workflow)))

inductive CiStatus where
  | green
  | noChecks
  | pendingTimeout
  | failed
  deriving DecidableEq

structure CiVerdict where
  status : CiStatus
  failedChecks : List String := []
  pendingChecks : List String := []
  logTail : String := ""
  baseRed : Bool := false
  waited : Int
  detail : String := ""
  snapshot : Option CheckSnapshot := none

def CiVerdict.passed (v : CiVerdict) : Bool := decide (v.status = .green ∨ v.status = .noChecks)

/-- The arguments of a call and the two settings of its process, none when they are unset or no number. -/
structure Call where
  timeoutS : Option Int := none
  pollS : Option Int := none
  noChecksGraceS : Option Int := none
  expectedHeadSha : Option String := none
  requireNoWorkflows : Bool := false
  envWait : Option Int := none
  envGrace : Option Int := none

def resolveSeconds (value env : Option Int) (default : Int) : Int := ((value.or env).map (max 0)).getD default

def Call.timeout (c : Call) : Int := resolveSeconds c.timeoutS c.envWait DEFAULT_CI_WAIT_SECONDS

def Call.grace (c : Call) : Int := resolveSeconds c.noChecksGraceS c.envGrace DEFAULT_NO_CHECKS_GRACE_SECONDS

def Call.poll (c : Call) : Int := resolveSeconds c.pollS none DEFAULT_POLL_SECONDS

/-- What each poll meets; a workflow listing is none when it raises `OSError`. The clock is read once before the first
poll and once in each. -/
structure World where
  head : Nat → Answer
  checks : Nat → Answer
  headAfter : Nat → Answer
  workflows : Nat → Option (List String)
  base : Nat → BaseAnswers
  failedLog : Nat → String
  clock : Nat → Int
  clock_le : ∀ n, clock n ≤ clock (n + 1)

def prHeadMatches (expected : String) (answer : Answer) : Bool :=
  match answer with
  | .error _ => false
  | .ok r =>
    if r.returncode ≠ 0 then false
    else
      match py.json (if r.stdout = "" then "\x7b\x7d" else r.stdout) with
      | some (.obj fields) =>
        match JsonValue.field fields "headRefOid" with
        | some (.str sha) => decide (sha = expected)
        | _ => false
      | _ => false

def hasCiWorkflow : Option (List String) → Bool
  | none => true
  | some names => names.any fun name => [".yml", ".yaml"].any fun suffix => suffix.toList.isSuffixOf name.toList

structure Waiting where
  polls : Nat
  slept : Int
  lastError : String

def tailChars (text : String) (limit : Nat) : String := String.ofList (text.toList.drop (text.length - limit))

variable (c : Call) (w : World)

def snapshotAt (n : Nat) : CheckSnapshot :=
  match c.expectedHeadSha with
  | none => pollChecks py (w.checks n)
  | some expected =>
    if prHeadMatches py expected (w.head n) then
      let snapshot := pollChecks py (w.checks n)
      if prHeadMatches py expected (w.headAfter n) then snapshot
      else errorSnapshot "PR head changed while checking CI"
    else errorSnapshot "PR head differs from pushed commit"

def elapsedAt (s : Waiting) : Int := max (w.clock (s.polls + 1) - w.clock 0) s.slept

def failedVerdict (n : Nat) (snapshot : CheckSnapshot) (elapsed : Int) : CiVerdict :=
  let baseRed := baseBranchIsRed py (w.base n) snapshot.failing
  { status := .failed
    failedChecks := snapshot.failing.map (checkLabel py)
    pendingChecks := snapshot.pending.map (checkLabel py)
    logTail := if baseRed then "" else w.failedLog n
    baseRed
    waited := elapsed
    snapshot := some snapshot }

def timeoutVerdict (snapshot : CheckSnapshot) (lastError : String) (elapsed : Int) : CiVerdict :=
  let reason := if snapshot.state = .error ∧ lastError ≠ "" then ": " ++ tailChars (py.sanitize lastError) 300 else ""
  { status := .pendingTimeout
    pendingChecks := snapshot.pending.map (checkLabel py)
    waited := elapsed
    detail := snapshot.state.text ++ " after " ++ py.rounded elapsed ++ "s" ++ reason
    snapshot := some snapshot }

/-- The pause before the next poll: it ends with the timeout, and with the grace while no check is reported. -/
def pauseOf (snapshot : CheckSnapshot) (elapsed : Int) : Int :=
  let remaining := c.timeout - elapsed
  let remaining := if snapshot.state = .noChecks ∧ elapsed < c.grace then min remaining (c.grace - elapsed) else remaining
  max (min c.poll remaining) 0

def pollOnce (s : Waiting) : CiVerdict ⊕ Waiting :=
  let snapshot := snapshotAt py c w s.polls
  let elapsed := elapsedAt w s
  if snapshot.state = .failed then .inl (failedVerdict py w s.polls snapshot elapsed)
  else if snapshot.state = .green then .inl { status := .green, waited := elapsed }
  else if snapshot.state = .noChecks ∧ c.grace ≤ elapsed ∧
      ¬ (c.requireNoWorkflows = true ∧ hasCiWorkflow (w.workflows s.polls) = true) then
    .inl { status := .noChecks, waited := elapsed, detail := "gh reports no checks for the PR" }
  else
    let lastError := if snapshot.state = .error then snapshot.error else s.lastError
    if c.timeout ≤ elapsed then .inl (timeoutVerdict py snapshot lastError elapsed)
    else .inr ⟨s.polls + 1, s.slept + pauseOf c snapshot elapsed, lastError⟩

def ensureGreen (fuel : Nat) : Option (CiVerdict × Waiting) := Loop.run (pollOnce py c w) fuel ⟨0, 0, ""⟩

end

end CiChecks
end Git
end DarkFactory
