import Mathlib.Algebra.Order.Ring.Rat
import DarkFactory.Lib.Runs

/-!
# DarkFactory.Line.LineLock

`LineLock` as its steps on the file system, taken by any number of processes in any order.

* `Machine` — the lock file, the temporary file of the heartbeats, the file each process has renamed
  aside, and the program counters of the processes and of their heartbeat threads.
* `step` — one atomic step of one process. `now` is what `time.time()` returns, `io` is false where
  the file operation of the step raises an `OSError` that the code catches.

The file a process has opened is followed by its inode number. `owner`, the process that has made a
file, is not read by any step.
-/

namespace DarkFactory
namespace Line

structure LineLockInfo where
  pid : Int
  ticketId : String
  hostname : String
  startedAt : Rat
  heartbeatAt : Rat
deriving DecidableEq

/-- `content` is none as long as it is not the JSON of an info. -/
structure File where
  ino : Nat
  owner : Int
  content : Option LineLockInfo
deriving DecidableEq

def HEARTBEAT_STALE_PID_ALIVE_SEC : Rat := 1800

/-- Where a process is in `acquire` and `release`. -/
inductive Pc where
  | idle
  | inherited
  /-- `raise LineLockHeld(holder)`. -/
  | refused (holder : LineLockInfo)
  | create (attempts : Nat) (info : LineLockInfo)
  | read (attempts : Nat) (info : LineLockInfo)
  | check (attempts : Nat) (info : LineLockInfo) (existing : Option LineLockInfo)
  -- `_recover_stale`
  | rename (attempts : Nat) (info : LineLockInfo) (observed : Option LineLockInfo)
  | blocked (attempts : Nat) (info : LineLockInfo) (observed : Option LineLockInfo)
  | reread (attempts : Nat) (info : LineLockInfo) (observed : Option LineLockInfo)
  | dropStale (attempts : Nat) (info : LineLockInfo)
  | probe (attempts : Nat) (info : LineLockInfo) (renamed observed : Option LineLockInfo)
  | putBack (attempts : Nat) (info : LineLockInfo) (renamed observed : Option LineLockInfo)
  | dropAside (attempts : Nat) (info : LineLockInfo) (renamed observed : Option LineLockInfo)
  | answer (attempts : Nat) (info : LineLockInfo) (renamed observed : Option LineLockInfo)
  -- after both attempts
  | lastRead (info : LineLockInfo)
  -- the file has been created
  | write (ino : Nat) (info : LineLockInfo)
  | coordinate (info : LineLockInfo)
  | holding (info : LineLockInfo)
  | releasing (info : LineLockInfo)
deriving DecidableEq

/-- A heartbeat thread: between beats, before `_write_lock`, or between its two file operations. -/
inductive Phase where
  | waiting | woken | wrote
deriving DecidableEq

structure Beat where
  info : LineLockInfo
  phase : Phase
  stop : Bool
deriving DecidableEq

structure Process where
  pc : Pc
  beats : List Beat
deriving DecidableEq

structure Machine where
  path : Option File
  tmp : Option File
  aside : Int → Option File
  nextIno : Nat
  alive : Int → Bool
  procs : Int → Process

/-- How the reservation of the cycle in the control store ends, if there is one to make. -/
inductive Coordination where
  | reserved
  /-- `ReservationConflictError`, also where a required reservation fails closed. -/
  | conflict
  | error
deriving DecidableEq

inductive Event where
  | acquire (p : Int) (ticketId hostname : String) (inherited : Bool) (now : Rat)
  | main (p : Int) (now : Rat) (io : Bool)
  | coordinate (p : Int) (outcome : Coordination) (io : Bool)
  | beat (p : Int) (k : Nat) (now : Rat) (io : Bool)
  | release (p : Int)
  | die (p : Int)
deriving DecidableEq

namespace Machine

def pidAlive (S : Machine) (pid : Int) : Bool := decide (0 < pid) && S.alive pid

def readLock (file : Option File) : Option LineLockInfo := file.bind File.content

def isStale (S : Machine) (info : LineLockInfo) (now : Rat) : Bool :=
  !S.pidAlive info.pid || decide (HEARTBEAT_STALE_PID_ALIVE_SEC < now - info.heartbeatAt)

def sameOwner : Option LineLockInfo → Option LineLockInfo → Bool
  | none, none => true
  | some a, some b => decide (a.pid = b.pid) && decide (a.startedAt = b.startedAt)
  | _, _ => false

def setPc (S : Machine) (p : Int) (pc : Pc) : Machine :=
  { S with procs := Function.update S.procs p { S.procs p with pc := pc } }

def setBeats (S : Machine) (p : Int) (beats : List Beat) : Machine :=
  { S with procs := Function.update S.procs p { S.procs p with beats := beats } }

def setAside (S : Machine) (p : Int) (file : Option File) : Machine :=
  { S with aside := Function.update S.aside p file }

/-- `path.unlink()`, with its errors suppressed. -/
def unlink (S : Machine) (io : Bool) : Machine := { S with path := if io then none else S.path }

/-- The file `ino` gets its content, wherever it is by now. -/
def fill (ino : Nat) (info : LineLockInfo) (file : Option File) : Option File :=
  file.map fun f => if f.ino = ino then { f with content := some info } else f

end Machine

/-- The next turn of `for _ in range(2)`. -/
def retry (attempts : Nat) (info : LineLockInfo) : Pc :=
  if 1 < attempts then .create (attempts - 1) info else .lastRead info

/-- `_recover_stale` has returned. -/
def recovered (attempts : Nat) (info : LineLockInfo) : Option LineLockInfo → Pc
  | some holder => .refused holder
  | none => retry attempts info

def unknownInfo (now : Rat) : LineLockInfo where
  pid := -1
  ticketId := "desconhecido"
  hostname := "desconhecido"
  startedAt := now
  heartbeatAt := now

open Machine

/-- The next step of `acquire`, or of `release` after the heartbeat has been told to stop. -/
def mainStep (S : Machine) (p : Int) (now : Rat) (io : Bool) : Machine :=
  match (S.procs p).pc with
  | .create attempts info =>
    match S.path with
    | none =>
      { S with path := some ⟨S.nextIno, p, none⟩, nextIno := S.nextIno + 1 }.setPc p
        (.write S.nextIno info)
    | some _ => S.setPc p (.read attempts info)
  | .read attempts info => S.setPc p (.check attempts info (readLock S.path))
  | .check attempts info none => S.setPc p (.rename attempts info none)
  | .check attempts info (some existing) =>
    if S.isStale existing now then S.setPc p (.rename attempts info (some existing))
    else S.setPc p (.refused existing)
  | .rename attempts info observed =>
    if io then
      match S.path with
      | none => S.setPc p (retry attempts info)
      | some f =>
        ({ S with path := none }.setAside p (some f)).setPc p (.reread attempts info observed)
    else S.setPc p (.blocked attempts info observed)
  | .blocked attempts info observed =>
    S.setPc p (recovered attempts info ((readLock S.path).or observed))
  | .reread attempts info observed =>
    if sameOwner (readLock (S.aside p)) observed then S.setPc p (.dropStale attempts info)
    else S.setPc p (.probe attempts info (readLock (S.aside p)) observed)
  | .dropStale attempts info =>
    (if io then S.setAside p none else S).setPc p (retry attempts info)
  | .probe attempts info renamed observed =>
    if S.path.isNone then S.setPc p (.putBack attempts info renamed observed)
    else S.setPc p (.dropAside attempts info renamed observed)
  | .putBack attempts info renamed observed =>
    match io, S.aside p with
    | true, some f =>
      ({ S with path := some f }.setAside p none).setPc p (.answer attempts info renamed observed)
    | _, _ => S.setPc p (.answer attempts info renamed observed)
  | .dropAside attempts info renamed observed =>
    (if io then S.setAside p none else S).setPc p (.answer attempts info renamed observed)
  | .answer attempts info renamed observed =>
    S.setPc p (recovered attempts info ((renamed.or (readLock S.path)).or observed))
  | .lastRead info =>
    S.setPc p (.refused ((readLock S.path).getD (unknownInfo info.startedAt)))
  | .write ino info =>
    { S with
      path := fill ino info S.path
      aside := fun q => fill ino info (S.aside q) }.setPc p (.coordinate info)
  | .releasing _ => (S.unlink io).setPc p .idle
  | _ => S

/-- The reservation of the cycle; without one to make it is `reserved` at once. -/
def coordinateStep (S : Machine) (p : Int) (outcome : Coordination) (io : Bool) : Machine :=
  match (S.procs p).pc with
  | .coordinate info =>
    match outcome with
    | .reserved =>
      (S.setBeats p ((S.procs p).beats ++ [⟨info, .waiting, false⟩])).setPc p (.holding info)
    | .conflict => (S.unlink io).setPc p .idle
    | .error => S.setPc p .idle
  | _ => S

/-- The next step of the heartbeat thread `k` of process `p`. -/
def beatStep (S : Machine) (p : Int) (k : Nat) (now : Rat) (io : Bool) : Machine :=
  match (S.procs p).beats[k]? with
  | none => S
  | some b =>
    match b.phase with
    | .waiting =>
      if b.stop then S.setBeats p ((S.procs p).beats.eraseIdx k)
      else S.setBeats p ((S.procs p).beats.set k { b with phase := .woken })
    | .woken =>
      if io then
        { S with
          tmp := some ⟨S.nextIno, p, some { b.info with heartbeatAt := now }⟩
          nextIno := S.nextIno + 1 }.setBeats p
            ((S.procs p).beats.set k { b with phase := .wrote })
      else S.setBeats p ((S.procs p).beats.set k { b with phase := .waiting })
    | .wrote =>
      match io, S.tmp with
      | true, some t =>
        { S with path := some t, tmp := none }.setBeats p
          ((S.procs p).beats.set k { b with phase := .waiting })
      | _, _ => S.setBeats p ((S.procs p).beats.set k { b with phase := .waiting })

/-- The first attempt of a process that does not inherit the lock of its run. -/
def startAcquire (S : Machine) (p : Int) (ticketId hostname : String) (inherited : Bool)
    (now : Rat) : Machine :=
  if inherited then S.setPc p .inherited
  else S.setPc p (.create 2 ⟨p, ticketId, hostname, now, now⟩)

/-- `acquire` begins; a process that holds the lock or inherits it returns at once. -/
def acquireStep (S : Machine) (p : Int) (ticketId hostname : String) (inherited : Bool) (now : Rat) : Machine :=
  match (S.procs p).pc with
  | .idle => startAcquire S p ticketId hostname inherited now
  | .refused _ => startAcquire S p ticketId hostname inherited now
  | _ => S

/-- `release` begins: the heartbeat is told to stop. Joining its thread may time out. -/
def releaseStep (S : Machine) (p : Int) : Machine :=
  match (S.procs p).pc with
  | .inherited => S.setPc p .idle
  | .holding info =>
    (S.setBeats p ((S.procs p).beats.map fun b => { b with stop := true })).setPc p (.releasing info)
  | _ => S

def step (S : Machine) : Event → Machine
  | .acquire p ticketId hostname inherited now =>
    if S.pidAlive p then acquireStep S p ticketId hostname inherited now else S
  | .main p now io => if S.pidAlive p then mainStep S p now io else S
  | .coordinate p outcome io => if S.pidAlive p then coordinateStep S p outcome io else S
  | .beat p k now io => if S.pidAlive p then beatStep S p k now io else S
  | .release p => if S.pidAlive p then releaseStep S p else S
  | .die p => { S with alive := Function.update S.alive p false }

end Line
end DarkFactory
