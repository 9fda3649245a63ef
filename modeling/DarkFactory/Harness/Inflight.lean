import DarkFactory.Lib.Runs

/-!
# DarkFactory.Harness.Inflight

`acquire_inflight`, `release_inflight` and `refresh_inflight` of `core/harness/cache.py` on the row of one
key, as transactions of any number of processes under READ COMMITTED.

* A statement sees what is committed when it runs. `SELECT ... FOR UPDATE`, `UPDATE`, `DELETE` and
  `ON CONFLICT DO UPDATE` lock the row they find; a statement that has to wait for a lock runs when it is free.
* An uncommitted `INSERT` is seen by no one, and only another `INSERT` of the key waits for it.
* `CURRENT_TIMESTAMP` is the start of the transaction. Times are in microseconds.
* `told` is no part of the database: the leases that the processes have been told they own.
-/

namespace DarkFactory
namespace Harness
namespace Inflight

/-- `socket.gethostname()` and `os.getpid()`. -/
structure Process where
  host : String
  pid : Nat
deriving DecidableEq

/-- The row of the key in `harness_inflight`. -/
structure Claim where
  owner : Process
  expiresAt : Int
deriving DecidableEq

inductive Call where
  | acquire (expiresIn : Int)
  | release
  | refresh (expiresIn : Int)
deriving DecidableEq

inductive Session where
  | absent
  /-- `acquire_inflight`, about to `SELECT ... FOR UPDATE`. -/
  | selecting (p : Process) (expiresIn timestamp : Int)
  /-- About to `SELECT %s < CURRENT_TIMESTAMP`. -/
  | checking (p : Process) (expiresIn timestamp : Int) (row : Claim)
  /-- About to commit and return `False`. -/
  | refusing (p : Process)
  /-- About to `INSERT ... ON CONFLICT DO UPDATE`, with the row that was selected. -/
  | upserting (p : Process) (expiresIn timestamp : Int) (row : Option Claim)
  /-- About to commit and return `True`. -/
  | upserted (p : Process) (expiresIn timestamp : Int) (row : Option Claim)
  /-- `release_inflight`, about to `DELETE`. -/
  | deleting (p : Process)
  | deleted (p : Process) (matched : Bool)
  /-- `refresh_inflight`, about to `UPDATE`. -/
  | updating (p : Process) (expiresIn timestamp : Int)
  | updated (p : Process) (expiresIn timestamp : Int) (matched : Bool)
  /-- The call has returned; a release returns nothing. -/
  | returned (answer : Bool)
deriving DecidableEq

structure State (τ : Type) where
  now : Int
  /-- The committed row. -/
  row : Option Claim := none
  /-- The transaction that has locked the row, or inserted one. -/
  lock : Option τ := none
  told : Process → Option Int := fun _ => none
  sessions : τ → Session := fun _ => .absent

section

variable {τ : Type} [DecidableEq τ]

namespace State

def setSession (s : State τ) (t : τ) (c : Session) : State τ :=
  { s with sessions := fun t' => if t' = t then c else s.sessions t' }

def tell (s : State τ) (p : Process) (e : Option Int) : State τ :=
  { s with told := fun q => if q = p then e else s.told q }

def isFree (s : State τ) (t : τ) : Bool := decide (s.lock = none) || decide (s.lock = some t)

def start (s : State τ) (t : τ) (p : Process) : Call → State τ
  | .acquire expiresIn => s.setSession t (.selecting p expiresIn s.now)
  | .release => s.setSession t (.deleting p)
  | .refresh expiresIn => s.setSession t (.updating p expiresIn s.now)

def advance (s : State τ) (t : τ) : State τ :=
  match s.sessions t with
  | .absent | .returned _ => s
  | .selecting p expiresIn timestamp =>
    match s.row with
    | none => s.setSession t (.upserting p expiresIn timestamp none)
    | some row =>
      if s.isFree t then
        { s with lock := some t }.setSession t (.checking p expiresIn timestamp row)
      else s
  | .checking p expiresIn timestamp row =>
    if row.expiresAt < timestamp then s.setSession t (.upserting p expiresIn timestamp (some row))
    else s.setSession t (.refusing p)
  | .refusing _ => { s with lock := none }.setSession t (.returned false)
  | .upserting p expiresIn timestamp row =>
    if s.isFree t then
      { s with lock := some t }.setSession t (.upserted p expiresIn timestamp row)
    else s
  | .upserted p expiresIn timestamp _ =>
    ({ s with row := some ⟨p, timestamp + expiresIn⟩, lock := none }.tell p
      (some (timestamp + expiresIn))).setSession t (.returned true)
  | .deleting p =>
    if s.row.any fun row => decide (row.owner.pid = p.pid) then
      if s.isFree t then
        ({ s with lock := some t }.tell p none).setSession t (.deleted p true)
      else s
    else (s.tell p none).setSession t (.deleted p false)
  | .deleted _ matched =>
    if matched then { s with row := none, lock := none }.setSession t (.returned true)
    else s.setSession t (.returned true)
  | .updating p expiresIn timestamp =>
    if s.row.any fun row => decide (row.owner = p) then
      if s.isFree t then
        { s with lock := some t }.setSession t (.updated p expiresIn timestamp true)
      else s
    else s.setSession t (.updated p expiresIn timestamp false)
  | .updated p expiresIn timestamp matched =>
    if matched then
      ({ s with row := some ⟨p, timestamp + expiresIn⟩, lock := none }.tell p
        (some (timestamp + expiresIn))).setSession t (.returned true)
    else s.setSession t (.returned false)

def Holds (s : State τ) (p : Process) : Prop := ∃ e, s.told p = some e ∧ s.now ≤ e

end State

inductive Act (τ : Type) where
  /-- A process makes a call. -/
  | start (t : τ) (p : Process) (c : Call)
  /-- The transaction of a call goes on. -/
  | advance (t : τ)
  | tick (d : Nat)
deriving DecidableEq

def step (s : State τ) : Act τ → State τ
  | .start t p c =>
    match s.sessions t with
    | .absent => s.start t p c
    | _ => s
  | .advance t => s.advance t
  | .tick d => { s with now := s.now + d }

end

end Inflight
end Harness
end DarkFactory
