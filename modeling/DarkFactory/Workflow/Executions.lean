import Mathlib.Data.String.Basic
import DarkFactory.Lib.Lookup
import DarkFactory.Python.DateTime
import DarkFactory.Python.Json
import DarkFactory.Python.Sort
import DarkFactory.Python.Text

/-!
# DarkFactory.Workflow.Executions

One execution in `core/workflow/execution_registry.py`: the calls that register it, the events they publish, and the
records that the events are folded into.

* `Registry` — the context file of the execution, and what its calls handed to `_publish`.
* A context file that cannot be read, written or deleted is a flag of the call. A sink is there.
-/

namespace DarkFactory
namespace Workflow
namespace Executions

/-- `s[:n]`. -/
def cut (n : Nat) (s : String) : String := String.ofList (s.toList.take n)

/-- `s or default`. -/
def orElse (s default : String) : String := if s = "" then default else s

/-- `s or None`. -/
def orNone (s : String) : Option String := if s = "" then none else some s

/-- `" ".join(s.split())`. -/
def flat (s : String) : String :=
  " ".intercalate (((s.toList.splitBy fun a b => Text.isSpace a == Text.isSpace b).map String.ofList).filter
    fun w => !w.toList.all Text.isSpace)

/-- `s.lower()`, as far as ASCII words are compared: the Kelvin sign is the one other character that becomes a letter. -/
def lower (s : String) : String :=
  String.ofList (s.toList.map fun c => if c.toNat = 0x212a then 'k' else c.toLower)

/-- What the machine of the registry gives: `redact_secrets`, its name, and the answers of `cancel_requested`. -/
structure Machine where
  redact : String → String
  hostname : String
  cancelRequested : String → Bool

def clean (m : Machine) (text : String) (limit : Nat) : String :=
  if text = "" then ""
  else
    let text := flat (m.redact text)
    if limit < text.length then cut (limit - 1) text ++ "…" else text

inductive Kind where
  | start | beat | finish
deriving DecidableEq

def Kind.value : Kind → String
  | .start => "start"
  | .beat => "hb"
  | .finish => "end"

inductive FinalStatus where
  | succeeded | failed | cancelled
deriving DecidableEq

def FinalStatus.value : FinalStatus → String
  | .succeeded => "succeeded"
  | .failed => "failed"
  | .cancelled => "cancelled"

def successWords : List String := ["succeeded", "success", "ok", "completed", "done", "passed", "merged"]

def cancelWords : List String := ["cancelled", "canceled", "aborted", "skipped"]

def normalizeStatus (status : String) : FinalStatus :=
  let word := lower (Text.strip status)
  if word ∈ successWords then .succeeded else if word ∈ cancelWords then .cancelled else .failed

structure Context where
  title : String
  harness : Option String
  metadata : Json.Body
deriving DecidableEq

/-- The context of an execution without a readable file. -/
def unknownContext : Context where
  title := ""
  harness := none
  metadata := [("s", "unknown"), ("g", "unknown"), ("k", "-")]

/-- `body.get(key) or ""`. -/
def value (body : Json.Body) (key : String) : String := ((Lookup.get Prod.fst body key).map Prod.snd).getD ""

/-- `LocalRunEvent`. -/
structure Event where
  runId : String
  ticketId : String
  projectId : String
  title : String
  phase : String
  status : String
  harness : Option String
  worker : String
  causeCode : String
  message : String
  time : DateTime
deriving DecidableEq

def messageBudget : Nat := 380

/-- The body of the message, with the evidence cut at `limit`. -/
def bodyAt (metadata : Json.Body) (text : String) (limit : Nat) : Json.Body :=
  if text = "" then metadata else metadata ++ [("e", cut limit text)]

/-- The loop of `_encode`, at the limit `40 * steps`. -/
def encodeFrom (metadata : Json.Body) (text : String) : Nat → String
  | 0 => cut messageBudget (Json.dumps (bodyAt metadata text 0))
  | steps + 1 =>
    let encoded := Json.dumps (bodyAt metadata text (40 * (steps + 1)))
    if encoded.length ≤ messageBudget then encoded else encodeFrom metadata text steps

/-- `_encode`, of an evidence that is a text. -/
def encode (m : Machine) (metadata : Json.Body) (evidence : String) : String :=
  encodeFrom metadata (m.redact (flat evidence)) 4

/-- The arguments of `_publish`. -/
structure Publication where
  context : Context
  kind : Kind
  status : String
  time : DateTime
  evidence : String := ""
deriving DecidableEq

def Publication.metadata (p : Publication) : Json.Body := p.context.metadata ++ [("x", p.kind.value)]

def execPhase : String := "exec"

/-- The row that `_publish` hands over to the store. -/
def Publication.event (m : Machine) (executionId : String) (p : Publication) : Event where
  runId := cut 160 executionId
  ticketId := cut 64 (orElse (value p.metadata "k") "-")
  projectId := "darkfac"
  title := cut 240 p.context.title
  phase := execPhase
  status := p.status
  harness := p.context.harness.bind orNone
  worker := m.hostname
  causeCode := p.kind.value
  message := encode m p.metadata p.evidence
  time := p.time

structure Registry where
  context : Option Context := none
  publications : List Publication := []

/-- The arguments of `start`. -/
structure Start where
  source : String
  harness : Option String
  stage : String
  ticketId : Option String := none
  parentExecutionId : Option String := none
  model : Option String := none
  title : String := ""
deriving DecidableEq

def Start.metadata (a : Start) (now : DateTime) : Json.Body :=
  [("s", cut 40 (orElse a.source "unknown")), ("g", cut 40 (orElse a.stage "unknown")),
    ("k", cut 64 (orElse (a.ticketId.getD "") "-")), ("p", cut 160 (a.parentExecutionId.getD "")),
    ("m", cut 60 (a.model.getD "")), ("t0", now.isoformat)]

def Start.context (m : Machine) (a : Start) (now : DateTime) : Context where
  title := clean m (orElse a.title (a.source ++ "/" ++ a.stage)) 240
  harness := a.harness
  metadata := a.metadata now

structure Files where
  read : Bool := true
  drop : Bool := true

/-- The calls after `start`. A heartbeat that finds the run cancelled finishes the execution, with files of its own. -/
inductive Call where
  | heartbeat (now : DateTime) (files : Files) (closing : Files)
  | finish (now : DateTime) (status evidence : String) (files : Files)

namespace Registry

def publish (r : Registry) (p : Publication) : Registry := { r with publications := r.publications ++ [p] }

/-- `start`, whose context file is written or not. -/
def start (m : Machine) (a : Start) (now : DateTime) (saved : Bool) : Registry :=
  let context := a.context m now
  publish { context := if saved then some context else none } { context, kind := .start, status := "running", time := now }

def loadContext (r : Registry) (files : Files) : Context := if files.read then r.context.getD unknownContext else unknownContext

def finish (r : Registry) (now : DateTime) (status evidence : String) (files : Files) : Registry :=
  let r := r.publish
    { context := r.loadContext files, kind := .finish, status := (normalizeStatus status).value, time := now, evidence }
  { r with context := if files.drop then none else r.context }

def ticketCancelled (m : Machine) (ticketId : String) : Bool :=
  decide (ticketId ≠ "") && decide (ticketId ≠ "-") && m.cancelRequested ticketId

def heartbeat (m : Machine) (r : Registry) (now : DateTime) (files closing : Files) : Registry :=
  let context := r.loadContext files
  if ticketCancelled m (orElse (value context.metadata "k") "-") then
    r.finish now "cancelled" "run cancelled (USR-326)" closing
  else r.publish { context, kind := .beat, status := "running", time := now }

def call (m : Machine) (r : Registry) : Call → Registry
  | .heartbeat now files closing => heartbeat m r now files closing
  | .finish now status evidence files => r.finish now status evidence files

/-- The execution after `start` and the calls that follow it. -/
def after (m : Machine) (a : Start) (now : DateTime) (saved : Bool) (calls : List Call) : Registry :=
  calls.foldl (call m) (start m a now saved)

def events (m : Machine) (executionId : String) (r : Registry) : List Event :=
  r.publications.map (Publication.event m executionId)

end Registry

inductive ExecutionState where
  | active | lost
  | final (status : FinalStatus)
deriving DecidableEq

structure ExecutionRecord where
  executionId : String
  source : String
  stage : String
  harness : Option String
  model : Option String
  ticketId : Option String
  parentExecutionId : Option String
  title : String
  host : Option String
  state : ExecutionState
  startedAt : String
  lastHeartbeatAt : String
  finishedAt : Option String
  evidence : String
  fixture : Bool
deriving DecidableEq

/-- `_as_dt` of a time: a naive one is read as UTC. -/
def aware (d : DateTime) : DateTime := { d with utcoffset := some (d.utcoffset.getD 0) }

/-- `_as_dt` of a text. -/
def asDt (text : String) : Option DateTime :=
  (DateTime.fromisoformat (Text.replace (Text.strip text) "Z" "+00:00")).map aware

def instant (d : DateTime) : Int := d.wall - d.utcoffset.getD 0

/-- `_meta`: what cannot be read is empty. -/
def metadataOf (e : Event) : Json.Body := (Json.loads e.message).getD []

def fixtureWords : List String := ["teste", "test", "canary", "canario", "fixture", "demo"]

def fixtureSources : List String := ["canary", "canario", "test", "teste", "fixture"]

def separates (c : Char) : Bool := c == '-' || c == '_'

/-- A fixture word between separators; `opened` when one stands before the text. -/
def fixtureTicket (opened : Bool) : List Char → Bool
  | [] => false
  | c :: cs =>
    (opened && fixtureWords.any fun word =>
      match Text.afterList word.toList (c :: cs) with
      | some [] => true
      | some (d :: _) => separates d || d.isDigit
      | none => false) || fixtureTicket (separates c) cs

def isFixture (ticketId : Option String) (source title : String) : Bool :=
  decide (lower (Text.strip source) ∈ fixtureSources) ||
    (ticketId.any fun t => fixtureTicket true (lower (Text.strip t)).toList) ||
      Text.contains "teste da esteira" (lower title)

def stateOf (items : List Event) (now : DateTime) (lostAfterSeconds : Int) (last : Event) : ExecutionState :=
  match items.reverse.find? fun e => decide (e.causeCode = Kind.finish.value) with
  | some e => .final (normalizeStatus e.status)
  | none => if lostAfterSeconds * DateTime.second < instant now - instant last.time then .lost else .active

def startMetadata (items : List Event) (last : Event) : Json.Body :=
  ((items.map metadataOf).find? fun body => decide (value body "t0" ≠ "")).getD (metadataOf last)

def ticketOf (metadata : Json.Body) (first : Event) : Option String :=
  (orNone (orElse (value metadata "k") first.ticketId)).filter fun t => decide (t ≠ "-")

def recordOf (items : List Event) (now : DateTime) (lostAfterSeconds window : Int) (executionId : String) :
    Option ExecutionRecord :=
  match items.head?, items.getLast? with
  | some first, some last =>
    let metadata := startMetadata items last
    let finished := items.reverse.find? fun e => decide (e.causeCode = Kind.finish.value)
    let ticketId := ticketOf metadata first
    let source := orElse (value metadata "s") "unknown"
    if instant last.time < instant now - window then none
    else some {
      executionId := executionId
      source := source
      stage := orElse (value metadata "g") "unknown"
      harness := first.harness.bind orNone
      model := orNone (value metadata "m")
      ticketId := ticketId
      parentExecutionId := orNone (value metadata "p")
      title := first.title
      host := orNone first.worker
      state := stateOf items now lostAfterSeconds last
      startedAt := ((asDt (value metadata "t0")).getD (aware first.time)).isoformat
      lastHeartbeatAt := (aware last.time).isoformat
      finishedAt := finished.map fun e => (aware e.time).isoformat
      evidence := (finished.map fun e => value (metadataOf e) "e").getD ""
      fixture := isFixture ticketId source first.title }
  | _, _ => none

def runIds (rows : List Event) : List String :=
  rows.foldl (fun ids e => if e.runId ∈ ids then ids else ids ++ [e.runId]) []

def itemsOf (rows : List Event) (executionId : String) : List Event :=
  sortAsc (fun e => instant e.time) (rows.filter fun e => decide (e.runId = executionId))

/-- `fold_executions`; the window is in microseconds. -/
def foldExecutions (events : List Event) (now : DateTime) (lostAfterSeconds window : Int) : List ExecutionRecord :=
  let rows := events.filter fun e => decide (e.phase = execPhase) && decide (e.runId ≠ "")
  let records := (runIds rows).filterMap fun id => recordOf (itemsOf rows id) now lostAfterSeconds window id
  sortDesc (fun r => toLex (r.lastHeartbeatAt, r.executionId)) records

end Executions
end Workflow
end DarkFactory
