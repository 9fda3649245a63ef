import DarkFactory.Harness.SingleFlight
import DarkFactory.Harness.VerdictCache

/-!
# DarkFactory.Harness.HandOff

`_run_with_cache` of `core/harness/runner.py` on two hosts that want one key: the holder from the
execution of its steps on, the waiter from its poll on.

* The holder, its heartbeat thread and the waiter take turns; a call of `cache.py` on the claim is a
  transaction of `Harness.Inflight`, a read of a table a step of its own.
* The execution of the holder passes. The wait of the waiter stays below its deadline.
* `hand_off` — what the waiter ends with, when its claim checks meet `Covered`.
-/

namespace DarkFactory
namespace Harness
namespace HandOff

open Inflight (Process Claim Session)

inductive Line where
  | heartbeat (n : Nat)
  | release
  | claim (second : Bool)
deriving DecidableEq

structure Parties where
  holder : Process
  holderLease : Int
  waiter : Process
  waiterLease : Int
  /-- What `build_record` makes of the run of the holder. -/
  record : Record

inductive HolderPc where
  /-- `_timed_execute`. -/
  | executing
  /-- `stop_heartbeat.set()` is done. -/
  | stopping
  /-- `release_inflight`. -/
  | releasing
  /-- `store_verdict`: `set_local_verdict`, then `set_remote_verdict`. -/
  | storingLocal
  | storingRemote
  | returned
deriving DecidableEq

/-- `heartbeat_inflight`. -/
inductive HeartbeatPc where
  | waiting (n : Nat)
  | refreshing (n : Nat)
  | ended
deriving DecidableEq

inductive WaiterPc where
  /-- `poll_for_remote_verdict`, the first time or the `second`: `get_remote_verdict`. -/
  | pollingVerdict (second : Bool)
  /-- `get_inflight_claim` begins its transaction. -/
  | pollingClaim (second : Bool)
  | readingClaim (second : Bool) (timestamp : Int)
  | sleeping (second : Bool)
  /-- The poll has found no claim; `suite_lock`. -/
  | locking
  /-- `get_verdict`: `get_local_verdict`, then `get_remote_verdict`. -/
  | checkingLocal
  | checkingRemote
  /-- `acquire_inflight`, the first time or the `second`. -/
  | claiming (second : Bool)
  /-- `set_local_verdict` of a record from the remote table. -/
  | reusing (record : Record)
  /-- `_emit_cache_hit`. -/
  | emitted (record : Record)
  /-- `_timed_execute`. -/
  | executing
deriving DecidableEq

structure System where
  /-- `harness_inflight`. -/
  db : Inflight.State Line
  /-- `harness_verdicts`. -/
  remote : Option Record := none
  holderLocal : Option Record := none
  waiterLocal : Option Record := none
  holder : HolderPc := .executing
  heartbeat : HeartbeatPc := .waiting 0
  waiter : WaiterPc

namespace System

def transact (s : System) (a : Inflight.Act Line) : System := { s with db := Inflight.step s.db a }

def holderStep (c : Parties) (s : System) : System :=
  match s.holder with
  | .executing => { s with holder := .stopping }
  | .stopping => { s.transact (.start .release c.holder .release) with holder := .releasing }
  | .releasing =>
    match s.db.sessions .release with
    | .returned _ => { s with holder := .storingLocal }
    | _ => s.transact (.advance .release)
  | .storingLocal => { s with holderLocal := some c.record, holder := .storingRemote }
  | .storingRemote => { s with remote := some (setRemoteVerdict s.remote c.record), holder := .returned }
  | .returned => s

def heartbeatStep (c : Parties) (s : System) : System :=
  match s.heartbeat with
  | .waiting n =>
    if s.holder ≠ .executing then { s with heartbeat := .ended }
    else
      { s.transact (.start (.heartbeat n) c.holder (.refresh c.holderLease)) with
        heartbeat := .refreshing n }
  | .refreshing n =>
    match s.db.sessions (.heartbeat n) with
    | .returned stillOwned =>
      { s with heartbeat := if stillOwned then .waiting (n + 1) else .ended }
    | _ => s.transact (.advance (.heartbeat n))
  | .ended => s

def afterPoll (c : Parties) (second : Bool) (s : System) : System :=
  if second then
    { s.transact (.start (.claim true) c.waiter (.acquire c.waiterLease)) with waiter := .claiming true }
  else { s with waiter := .locking }

def waiterStep (c : Parties) (s : System) : System :=
  match s.waiter with
  | .pollingVerdict second =>
    match s.remote with
    | some record => { s with waiter := .reusing record }
    | none => { s with waiter := .pollingClaim second }
  | .pollingClaim second => { s with waiter := .readingClaim second s.db.now }
  | .readingClaim second timestamp =>
    match s.db.row with
    | none => s.afterPoll c second
    | some row =>
      if row.expiresAt < timestamp then s.afterPoll c second else { s with waiter := .sleeping second }
  | .sleeping second => { s with waiter := .pollingVerdict second }
  | .locking => { s with waiter := .checkingLocal }
  | .checkingLocal =>
    match s.waiterLocal with
    | some record => { s with waiter := .emitted record }
    | none => { s with waiter := .checkingRemote }
  | .checkingRemote =>
    match s.remote with
    | some record => { s with waiter := .reusing record }
    | none =>
      { s.transact (.start (.claim false) c.waiter (.acquire c.waiterLease)) with
        waiter := .claiming false }
  | .claiming second =>
    match s.db.sessions (.claim second) with
    | .returned owned =>
      { s with waiter := if second || owned then .executing else .pollingVerdict true }
    | _ => s.transact (.advance (.claim second))
  | .reusing record => { s with waiterLocal := some record, waiter := .emitted record }
  | .emitted _ | .executing => s

end System

inductive Act where
  | holder
  | heartbeat
  | waiter
  | tick (d : Nat)
deriving DecidableEq

def step (c : Parties) (s : System) : Act → System
  | .holder => s.holderStep c
  | .heartbeat => s.heartbeatStep c
  | .waiter => s.waiterStep c
  | .tick d => s.transact (.tick d)

/-- The holder has taken the claim and starts its steps; the waiter begins its poll. -/
def System.begin (c : Parties) (now expiresAt : Int) : System where
  db :=
    { now := now
      row := some ⟨c.holder, expiresAt⟩
      told := fun p => if p = c.holder then some expiresAt else none }
  waiter := .pollingVerdict false

structure HandsOff (c : Parties) (s : System) (acts : List Act) : Prop where
  neverExecutes : ∀ m ∈ Runs.moves (step c) s acts, m.post.waiter ≠ .executing
  verdict : ∀ m ∈ Runs.moves (step c) s acts, ∀ record, m.post.waiter = .emitted record → record = c.record
  /-- It ends, six of its own steps after the holder has returned. -/
  ends : ∀ before after, acts = before ++ after → (Runs.run (step c) s before).holder = .returned →
    6 ≤ after.count .waiter → (Runs.run (step c) s acts).waiter = .emitted c.record

end HandOff
end Harness
end DarkFactory
