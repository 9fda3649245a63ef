import DarkFactory.Workflow.Executions

/-!
# DarkFactory.Workflow.Outbox

The resend queue of `core/workflow/execution_registry.py`: `_publish` with `_flush_outbox`, `_adopt_orphans`, `_enqueue`
and `_trim_outbox`, for any number of processes on one directory.

* `step` — one operation. What it meets is chosen by `Choice`: an `OSError`, an orphan, the answer of the store.
-/

namespace DarkFactory
namespace Workflow
namespace Outbox

open Executions

inductive Line where
  | event (e : Executions.Event)
  /-- Not an event; it may still speak of a heartbeat. -/
  | corrupt (beat : Bool)
deriving DecidableEq

/-- The line boundaries that JSON leaves as they are, and `splitlines` does not. -/
def breaks (text : String) : Nat := text.toList.countP fun c => decide (c.toNat = 0x85 ∨ c.toNat = 0x2028 ∨ c.toNat = 0x2029)

def breaksBefore (e : Executions.Event) : Nat :=
  breaks e.runId + breaks e.ticketId + breaks e.title + breaks (e.harness.getD "") + breaks e.worker

def intact (e : Executions.Event) : Bool := decide (breaksBefore e + breaks e.message = 0)

def Line.isBeat : Line → Bool
  | .event e => decide (e.causeCode = Kind.beat.value)
  | .corrupt beat => beat

/-- What `splitlines` makes of a line; of the pieces of an event one has its cause code. -/
def Line.pieces : Line → List Line
  | .event e =>
    if intact e then [.event e]
    else
      List.replicate (breaksBefore e) (.corrupt false) ++
        .corrupt (Line.event e).isBeat :: List.replicate (breaks e.message) (.corrupt false)
  | .corrupt beat => [.corrupt beat]

/-- Files by number; a number is never used again. -/
structure Disk where
  outbox : Option Nat := none
  /-- The `.sending` files, by name. -/
  sending : List (Nat × Nat) := []
  content : Nat → List Line := fun _ => []
  next : Nat := 0

namespace Disk

def lines (d : Disk) : List Line := (d.outbox.toList ++ d.sending.map Prod.snd).flatMap d.content

def fileOf (d : Disk) (name : Nat) : Option Nat := (Lookup.get Prod.fst d.sending name).map Prod.snd

def put (d : Disk) (file : Nat) (ls : List Line) : Disk :=
  { d with content := fun i => if i = file then ls else d.content i }

/-- `path.open("a")`. -/
def openOutbox (d : Disk) : Nat × Disk :=
  match d.outbox with
  | some file => (file, d)
  | none => (d.next, { d.put d.next [] with outbox := some d.next, next := d.next + 1 })

def append (d : Disk) (file : Nat) (ls : List Line) : Disk := d.put file (d.content file ++ ls)

/-- `path.replace(claimed)`. -/
def claim (d : Disk) : Option (Nat × Disk) :=
  d.outbox.map fun file =>
    (d.next, { d with outbox := none, sending := d.sending ++ [(d.next, file)], next := d.next + 1 })

/-- `orphan.replace(mine)`. -/
def adopt (d : Disk) (name : Nat) : Option (Nat × Disk) :=
  (d.fileOf name).map fun _ =>
    (d.next, { d with sending := d.sending.map fun s => if s.1 = name then (d.next, s.2) else s
                      next := d.next + 1 })

/-- `read_text` of a `.sending` file. -/
def text (d : Disk) (name : Nat) : Option (List Line) := (d.fileOf name).map d.content

/-- `read_text().splitlines()`. -/
def readFile (d : Disk) (file : Nat) : List Line := (d.content file).flatMap Line.pieces

/-- That of a `.sending` file. -/
def read (d : Disk) (name : Nat) : Option (List Line) := (d.fileOf name).map d.readFile

def unlink (d : Disk) (name : Nat) : Disk := { d with sending := d.sending.filter fun s => decide (s.1 ≠ name) }

end Disk

def outboxMaxLines : Nat := 1000

def Line.isBeatOf (runId : String) : Line → Bool
  | .event e => decide (e.causeCode = Kind.beat.value) && decide (e.runId = runId)
  | .corrupt _ => false

/-- Whether a line stays that is followed by `later`: of the heartbeats of an execution, the newest. -/
def Line.stays (later : List Line) : Line → Bool
  | .event e => decide (e.causeCode ≠ Kind.beat.value) || !later.any (Line.isBeatOf e.runId)
  | .corrupt beat => !beat

def keptLines : List Line → List Line
  | [] => []
  | l :: later => if l.stays later then l :: keptLines later else keptLines later

/-- `kept[-OUTBOX_MAX_LINES:]`. -/
def trimmed (ls : List Line) : List Line := (keptLines ls).rtake outboxMaxLines

/-- What follows on a trim: the end of `_publish`, or the unlink of an adopted file. -/
inductive After where
  | done
  | adopt (e : Executions.Event) (rest : List Nat) (mine : Nat)

/-- What a process does next; `e` is the event it publishes. -/
inductive Stage where
  | idle
  | glob (e : Executions.Event)
  | adopt (e : Executions.Event) (candidates : List Nat)
  | adoptRead (e : Executions.Event) (rest : List Nat) (mine : Nat)
  | adoptOpen (e : Executions.Event) (rest : List Nat) (mine : Nat) (ls : List Line)
  | adoptWrite (e : Executions.Event) (rest : List Nat) (mine : Nat) (ls : List Line) (file : Nat)
  | adoptUnlink (e : Executions.Event) (rest : List Nat) (mine : Nat)
  | claim (e : Executions.Event)
  | claimedRead (e : Executions.Event) (mine : Nat)
  | send (e : Executions.Event) (mine : Nat) (ls : List Line)
  | restOpen (e : Executions.Event) (mine : Nat) (rest : List Line)
  | restWrite (e : Executions.Event) (mine : Nat) (rest : List Line) (file : Nat)
  | claimedUnlink (e : Executions.Event) (mine : Nat) (reachable : Bool)
  | write (e : Executions.Event)
  | enqueueOpen (e : Executions.Event)
  | enqueueWrite (e : Executions.Event) (file : Nat)
  | trimRead (k : After)
  | trimOpen (k : After) (kept : List Line)
  | trimWrite (k : After) (kept : List Line) (file : Nat)

/-- A write to the store; a late one is stored though it has timed out. -/
inductive Outcome where
  | written | failed | late
deriving DecidableEq

structure Choice where
  fault : Bool := false
  adopts : Bool := false
  outcome : Outcome := .written

structure World where
  disk : Disk := {}
  store : List Executions.Event := []
  /-- The events of all calls of `_publish`. -/
  handed : List Executions.Event := []
  stage : Nat → Stage := fun _ => .idle

namespace World

def set (w : World) (p : Nat) (s : Stage) : World := { w with stage := fun q => if q = p then s else w.stage q }

def save (w : World) (e : Executions.Event) : World := { w with store := w.store ++ [e] }

/-- The `except OSError` around a trim. -/
def trimFailed (w : World) (p : Nat) : After → World
  | .done => w.set p .idle
  | .adopt e rest _ => w.set p (.adopt e rest)

def trimDone (w : World) (p : Nat) : After → World
  | .done => w.set p .idle
  | .adopt e rest mine => w.set p (.adoptUnlink e rest mine)

/-- `path.write_text`, which empties the file first. -/
def truncate (w : World) : Nat × World :=
  let opened := w.disk.openOutbox
  (opened.1, { w with disk := opened.2.put opened.1 [] })

def proceed (w : World) (p : Nat) (c : Choice) : Stage → World
  | .idle => w
  | .glob e => if c.fault then w.set p (.claim e) else w.set p (.adopt e (w.disk.sending.map Prod.fst))
  | .adopt e [] => w.set p (.claim e)
  | .adopt e (name :: rest) =>
    if c.adopts then
      match w.disk.adopt name with
      | some (mine, disk) => if c.fault then w.set p (.adopt e rest) else { w with disk }.set p (.adoptRead e rest mine)
      | none => w.set p (.adopt e rest)
    else w.set p (.adopt e rest)
  | .adoptRead e rest mine =>
    match w.disk.text mine with
    | some ls =>
      if c.fault then w.set p (.adopt e rest)
      else if ls = [] then w.set p (.adoptUnlink e rest mine)
      else w.set p (.adoptOpen e rest mine ls)
    | none => w.set p (.adopt e rest)
  | .adoptOpen e rest mine ls =>
    if c.fault then w.set p (.adopt e rest)
    else { w with disk := w.disk.openOutbox.2 }.set p (.adoptWrite e rest mine ls w.disk.openOutbox.1)
  | .adoptWrite e rest mine ls file =>
    if c.fault then w.set p (.adopt e rest)
    else { w with disk := w.disk.append file ls }.set p (.trimRead (.adopt e rest mine))
  | .adoptUnlink e rest mine =>
    if c.fault then w.set p (.adopt e rest) else { w with disk := w.disk.unlink mine }.set p (.adopt e rest)
  | .claim e =>
    match w.disk.claim with
    | some (mine, disk) => if c.fault then w.set p (.write e) else { w with disk }.set p (.claimedRead e mine)
    | none => w.set p (.write e)
  | .claimedRead e mine =>
    match w.disk.read mine with
    -- outside of any `try`: the call is over
    | some ls => if c.fault then w.set p .idle else w.set p (.send e mine ls)
    | none => w.set p .idle
  | .send e mine [] => w.set p (.claimedUnlink e mine true)
  | .send e mine (.corrupt _ :: ls) => w.set p (.send e mine ls)
  | .send e mine (.event x :: ls) =>
    match c.outcome with
    | .written => (w.save x).set p (.send e mine ls)
    | .failed => w.set p (.restOpen e mine (.event x :: ls))
    | .late => (w.save x).set p (.restOpen e mine (.event x :: ls))
  | .restOpen e mine rest =>
    if c.fault then w.set p (.claimedUnlink e mine false)
    else { w with disk := w.disk.openOutbox.2 }.set p (.restWrite e mine rest w.disk.openOutbox.1)
  | .restWrite e mine rest file =>
    if c.fault then w.set p (.claimedUnlink e mine false)
    else { w with disk := w.disk.append file rest }.set p (.claimedUnlink e mine false)
  | .claimedUnlink e mine reachable =>
    (if c.fault then w else { w with disk := w.disk.unlink mine }).set p
      (if reachable then .write e else .enqueueOpen e)
  | .write e =>
    match c.outcome with
    | .written => (w.save e).set p .idle
    | .failed => w.set p (.enqueueOpen e)
    | .late => (w.save e).set p (.enqueueOpen e)
  | .enqueueOpen e =>
    if c.fault then w.set p .idle
    else { w with disk := w.disk.openOutbox.2 }.set p (.enqueueWrite e w.disk.openOutbox.1)
  | .enqueueWrite e file =>
    if c.fault then w.set p .idle
    else { w with disk := w.disk.append file [.event e] }.set p (.trimRead .done)
  | .trimRead k =>
    match w.disk.outbox with
    | some file =>
      if c.fault then w.trimFailed p k
      else if (w.disk.readFile file).length ≤ outboxMaxLines then w.trimDone p k
      else w.set p (.trimOpen k (trimmed (w.disk.readFile file)))
    | none => w.trimFailed p k
  | .trimOpen k kept =>
    if c.fault then w.trimFailed p k else w.truncate.2.set p (.trimWrite k kept w.truncate.1)
  | .trimWrite k kept file =>
    if c.fault then w.trimFailed p k else { w with disk := w.disk.put file kept }.trimDone p k

end World

inductive Act where
  | publish (p : Nat) (e : Executions.Event)
  | go (p : Nat) (c : Choice)
  | crash (p : Nat)

def step (w : World) : Act → World
  | .publish p e =>
    match w.stage p with
    | .idle => { w with handed := w.handed ++ [e] }.set p (.glob e)
    | _ => w
  | .go p c => w.proceed p c (w.stage p)
  | .crash p => w.set p .idle

end Outbox
end Workflow
end DarkFactory
