import DarkFactory.Lib.HashChain
import DarkFactory.Python.Text

/-!
# DarkFactory.Enterprise.AuditChain

`ImmutableAuditChain`: the audit log as the lines of its file, `record_event` and `verify_integrity`.

`sha256` is the hex digest of the UTF-8 text. JSON stays outside: a line of the file is given as what
parsing and `AuditEvent.model_validate` make of it.
-/

namespace DarkFactory
namespace Enterprise

structure AuditEvent where
  eventId : String
  sequence : Int
  actorId : String
  projectId : String
  action : String
  resource : String
  payloadHash : String
  timestamp : String
  prevHash : String
  eventHash : String
deriving DecidableEq

structure AuditChainVerificationResult where
  isValid : Bool
  totalEvents : Nat
  tamperedEventId : Option String := none
  errorMessage : String := ""
  status : String := "intact"
  errorCode : Option String := none
  errorLine : Option Nat := none
deriving DecidableEq

structure AuditReadError where
  code : String
  message : String
  line : Option Nat := none
deriving DecidableEq

inductive Line where
  | blank
  | event (e : AuditEvent)
  | malformed (exc : String)
  /-- Reading the file fails here. -/
  | unreadable (exc : String)
deriving DecidableEq

/-- The file at `path`, if it is one. -/
structure LogFile where
  path : String
  lines : Option (List Line)
deriving DecidableEq

namespace ImmutableAuditChain

def genesisHash : String := String.ofList (List.replicate 64 '0')

def canonical (e : AuditEvent) : String :=
  s!"{e.sequence}|{e.eventId}|{e.actorId}|{e.projectId}|{e.action}|{e.resource}|{e.payloadHash}|{e.timestamp}|{e.prevHash}"

/-- The loop of `_read_strict` from line `idx` on. -/
def readLines (path : String) : Nat → List Line → Except AuditReadError (List AuditEvent)
  | _, [] => .ok []
  | idx, .blank :: rest => readLines path (idx + 1) rest
  | idx, .event e :: rest =>
    match readLines path (idx + 1) rest with
    | .ok events => .ok (e :: events)
    | .error err => .error err
  | idx, .malformed exc :: _ =>
    .error ⟨"malformed_line", s!"Malformed audit line {idx} in {path}: {exc}", some idx⟩
  | _, .unreadable exc :: _ => .error ⟨"read_failure", s!"Cannot read {path}: {exc}", none⟩

def readStrict (log : LogFile) : Except AuditReadError (List AuditEvent) :=
  match log.lines with
  | none => .ok []
  | some lines => readLines log.path 0 lines

/-- `events[-1].event_hash if events else GENESIS_HASH`. -/
def lastHash (events : List AuditEvent) : String :=
  match events.getLast? with
  | some e => e.eventHash
  | none => genesisHash

/-- The event `_append_locked` writes after `events`; `payload` is the JSON text of the payload, empty
for none. -/
def nextEvent (sha256 : String → String) (actorId projectId action resource payload eid ts : String)
    (events : List AuditEvent) : AuditEvent :=
  let seq := events.length
  let prevHash := lastHash events
  let payloadHash := sha256 payload
  let canonical :=
    s!"{seq}|{eid}|{actorId}|{projectId}|{action}|{resource}|{payloadHash}|{ts}|{prevHash}"
  { eventId := eid
    sequence := seq
    actorId := actorId
    projectId := projectId
    action := action
    resource := resource
    payloadHash := payloadHash
    timestamp := ts
    prevHash := prevHash
    eventHash := sha256 canonical }

def recordEvent (sha256 : String → String) (actorId projectId action resource payload eid ts : String)
    (log : LogFile) : Except AuditReadError (AuditEvent × LogFile) :=
  match readStrict log with
  | .error err => .error err
  | .ok events =>
    let event := nextEvent sha256 actorId projectId action resource payload eid ts events
    .ok (event, { log with lines := some (log.lines.getD [] ++ [.event event]) })

/-- `s[:12]`. -/
def first12 (s : String) : String := String.ofList (s.toList.take 12)

/-- The result for the first violation from event `idx` on, if there is one. -/
def checkChain (sha256 : String → String) (total : Nat) :
    Nat → String → List AuditEvent → Option AuditChainVerificationResult
  | _, _, [] => none
  | idx, expectedPrev, evt :: rest =>
    if evt.sequence ≠ idx then
      some
        { isValid := false
          totalEvents := total
          tamperedEventId := some evt.eventId
          status := "tampered"
          errorCode := some "chain_violation"
          errorMessage := s!"Sequence anomaly: expected {idx}, got {evt.sequence}." }
    else if evt.prevHash ≠ expectedPrev then
      some
        { isValid := false
          totalEvents := total
          tamperedEventId := some evt.eventId
          status := "tampered"
          errorCode := some "chain_violation"
          errorMessage := s!"Broken hash link at event {evt.eventId}. Expected prev_hash " ++
            s!"{first12 expectedPrev}..., got {first12 evt.prevHash}..." }
    else if sha256 (canonical evt) ≠ evt.eventHash then
      some
        { isValid := false
          totalEvents := total
          tamperedEventId := some evt.eventId
          status := "tampered"
          errorCode := some "chain_violation"
          errorMessage := s!"Tampered content at event {evt.eventId}. Recomputed hash " ++
            s!"{first12 (sha256 (canonical evt))}... does not match recorded " ++
            s!"{first12 evt.eventHash}..." }
    else checkChain sha256 total (idx + 1) evt.eventHash rest

def verifyIntegrity (sha256 : String → String) (projectId : Option String) (log : LogFile) :
    AuditChainVerificationResult :=
  match readStrict log with
  | .error err =>
    { isValid := false
      totalEvents := 0
      errorMessage := err.message
      status := "unreadable"
      errorCode := some err.code
      errorLine := err.line }
  | .ok [] =>
    { isValid := true
      totalEvents := 0
      errorMessage := "Audit chain is empty (valid genesis state)."
      status := if log.lines.isNone then "absent" else "intact" }
  | .ok (evt :: rest) =>
    match checkChain sha256 (evt :: rest).length 0 genesisHash (evt :: rest) with
    | some violation => violation
    | none =>
      { isValid := true
        totalEvents := ((evt :: rest).filter fun e =>
          projectId.isNone || decide (projectId = some e.projectId)).length
        errorMessage := "Cryptographic audit chain fully verified; 0 anomalies detected." }

end ImmutableAuditChain
end Enterprise
end DarkFactory
