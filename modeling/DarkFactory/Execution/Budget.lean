import DarkFactory.Lib.Total
import DarkFactory.Lib.Transactions
import DarkFactory.Python.DateTime
import DarkFactory.Python.Round

/-!
# DarkFactory.Execution.Budget

`ExecutionBudgetManager`: the three tables of `_init_schema`, and each method as the sequence of SQL
statements inside its `with self._conn` block. Amounts are exact numbers. A time is stored as the text
of its UTC value; `Readings` are the values `self._clock()` returns during one call.

The exceptions carry no text here: theirs hold float values.
-/

namespace DarkFactory
namespace Execution

inductive UnknownCostPolicy where
  | reject | estimate | conservativeMax
deriving DecidableEq

inductive AttemptOutcome where
  | pending | succeeded | failed | cancelled | deadlineExceeded | budgetExceeded
deriving DecidableEq

inductive ReservationStatus where
  | active | committed | released | expired
deriving DecidableEq

inductive BudgetError where
  | budgetNotFound | budgetExceeded | windowBudgetExceeded | deadlineExceeded
  | maxAttemptsExceeded | concurrencyLimitExceeded | unknownCostRejected | invalidReservation
  /-- `ValueError`: a negative amount. -/
  | valueError
  /-- `TypeError`: a naive clock meets the aware deadline. -/
  | typeError
  | integrityError
  | validationError
deriving DecidableEq

/-- An attempt as pydantic accepts it. `measured_cost` has no lower bound. -/
structure AttemptRecord where
  attemptId : String
  invocationId : Option String := none
  inputArtifactHash : String
  outputArtifactHash : Option String := none
  mode : String := "live"
  tokens : Nat := 0
  measuredCost : Option Rat := none
  estimatedCost : Rat := 0
  latency : Rat := 0
  outcome : AttemptOutcome := .succeeded
  timestamp : DateTime
  estimated_nonneg : 0 ≤ estimatedCost

structure Window where
  duration : Nat
  ceiling : Rat
deriving DecidableEq

structure BudgetRow where
  budgetId : String
  currency : String := "USD"
  ceiling : Rat
  reserved : Rat := 0
  spent : Rat := 0
  unknownCostPolicy : UnknownCostPolicy := .reject
  maxAttempts : Nat := 3
  deadline : Option DateTime := none
  concurrencyLimit : Nat := 1
  shortWindow : Option Window := none
  longWindow : Option Window := none
deriving DecidableEq

structure ReservationRow where
  reservationId : String
  budgetId : String
  attemptId : String
  amount : Rat
  status : ReservationStatus
  createdAt : DateTime
  expiresAt : Option DateTime
  committedCost : Option Rat := none
deriving DecidableEq

structure AttemptRow where
  budgetId : String
  record : AttemptRecord
  chargedCost : Rat

def AttemptRow.attemptId (a : AttemptRow) : String := a.record.attemptId

structure Db where
  budgets : Table BudgetRow.budgetId
  reservations : Table ReservationRow.reservationId
  attempts : Table AttemptRow.attemptId

abbrev Call := Prog Db BudgetError

/-- What `self._clock()` returns in a call: at its begin, for the expiry and for the two windows. -/
structure Readings where
  now : DateTime
  expireAt : DateTime
  shortAt : DateTime
  longAt : DateTime
deriving DecidableEq

namespace Db

/-- `budget_id = ? AND status = 'active'`. -/
def isActiveOf (budgetId : String) (r : ReservationRow) : Bool :=
  decide (r.budgetId = budgetId) && decide (r.status = .active)

def activeSum (db : Db) (budgetId : String) : Rat :=
  db.reservations.total (isActiveOf budgetId) ReservationRow.amount

def activeCount (db : Db) (budgetId : String) : Nat :=
  (db.reservations.select (isActiveOf budgetId)).length

def attemptCount (db : Db) (budgetId : String) : Nat :=
  (db.attempts.select fun a => decide (a.budgetId = budgetId)).length

/-- `timestamp >= cutoff`, on the texts. -/
def inWindow (budgetId : String) (duration : Nat) (clock : DateTime) (a : AttemptRow) : Bool :=
  decide (a.budgetId = budgetId) &&
    (clock.addSeconds (-duration)).astimezoneUtc.textLe a.record.timestamp.astimezoneUtc

def windowSum (db : Db) (budgetId : String) (duration : Nat) (clock : DateTime) : Rat :=
  db.attempts.total (inWindow budgetId duration clock) AttemptRow.chargedCost

/-- `status = 'active' AND expires_at IS NOT NULL AND expires_at <= ?`, and the budget if given. -/
def isStale (budgetId : Option String) (clock : DateTime) (r : ReservationRow) : Bool :=
  decide (r.status = .active) &&
    (match r.expiresAt with
      | none => false
      | some t => t.textLe clock.astimezoneUtc) &&
    (match budgetId with
      | none => true
      | some b => decide (r.budgetId = b))

def setBudget (budgetId : String) (f : BudgetRow → BudgetRow)
    (hf : ∀ b, (f b).budgetId = b.budgetId) (db : Db) : Db :=
  { db with budgets := db.budgets.update (fun b => decide (b.budgetId = budgetId)) f hf }

def setReservation (reservationId : String) (f : ReservationRow → ReservationRow)
    (hf : ∀ r, (f r).reservationId = r.reservationId) (db : Db) : Db :=
  { db with
    reservations := db.reservations.update (fun r => decide (r.reservationId = reservationId)) f hf }

def withReserved (reserved : Rat) (b : BudgetRow) : BudgetRow := { b with reserved := reserved }

def withBalances (reserved spent : Rat) (b : BudgetRow) : BudgetRow :=
  { b with reserved := reserved, spent := spent }

def withStatus (status : ReservationStatus) (r : ReservationRow) : ReservationRow :=
  { r with status := status }

def withCost (cost : Rat) (r : ReservationRow) : ReservationRow :=
  { r with status := .committed, committedCost := some cost }

def withAmount (amount : Rat) (r : ReservationRow) : ReservationRow := { r with amount := amount }

/-- `UPDATE budgets SET reserved = ?`. -/
def setReserved (budgetId : String) (reserved : Rat) : Db → Db :=
  setBudget budgetId (withReserved reserved) fun _ => rfl

def setStatus (reservationId : String) (status : ReservationStatus) : Db → Db :=
  setReservation reservationId (withStatus status) fun _ => rfl

def insertReservation (r : ReservationRow) (db : Db) : Except BudgetError Db :=
  match db.reservations.insert? r with
  | none => .error .integrityError
  | some reservations => .ok { db with reservations := reservations }

def insertAttempt (a : AttemptRow) (db : Db) : Except BudgetError Db :=
  match db.attempts.insert? a with
  | none => .error .integrityError
  | some attempts => .ok { db with attempts := attempts }

end Db

open Prog

/-- `if failed: raise error`. -/
def check (failed : Prop) [Decidable failed] (error : BudgetError) : Call Unit :=
  if failed then raise error else pure ()

/-- `fetchone()`, with the exception for a missing row. -/
def fetch {α : Type} (q : Db → Option α) (error : BudgetError) : Call α := do
  match ← query q with
  | some a => pure a
  | none => raise error

/-- The loop of `_expire_stale_unlocked`. -/
def expireRows : List ReservationRow → Call Unit
  | [] => pure ()
  | row :: rows => do
    update (Db.setStatus row.reservationId .expired)
    let activeSum ← query fun db => db.activeSum row.budgetId
    update (Db.setReserved row.budgetId (round8 activeSum))
    expireRows rows

/-- `_expire_stale_unlocked`. -/
def expireStale (budgetId : Option String) (clock : DateTime) : Call Nat := do
  let rows ← query fun db => db.reservations.select (Db.isStale budgetId clock)
  expireRows rows
  pure rows.length

/-- `_compute_window_spent_unlocked`. -/
def computeWindowSpent (budgetId : String) (duration : Nat) (clock : DateTime) : Call Rat :=
  query fun db => round8 (db.windowSum budgetId duration clock)

def checkWindow (budgetId : String) (window : Option Window) (clock : DateTime)
    (reserved additional : Rat) : Call Unit :=
  match window with
  | none => pure ()
  | some w => do
    let spent ← computeWindowSpent budgetId w.duration clock
    check (w.ceiling < round8 (spent + reserved + additional)) .windowBudgetExceeded

def checkCeilings (row : BudgetRow) (t : Readings) (additional : Rat) : Call Unit := do
  check (row.ceiling < round8 (row.spent + row.reserved + additional)) .budgetExceeded
  checkWindow row.budgetId row.shortWindow t.shortAt row.reserved additional
  checkWindow row.budgetId row.longWindow t.longAt row.reserved additional

def checkUpgrade (row : BudgetRow) (t : Readings) (additional : Rat) : Call Unit :=
  if 0 < additional then checkCeilings row t additional else pure ()

def checkDeadline (row : BudgetRow) (now : DateTime) : Call Unit :=
  match row.deadline with
  | none => pure ()
  | some deadline => do
    check (now.utcoffset = none) .typeError
    check (deadline.le now = true) .deadlineExceeded

/-- `now + timedelta(seconds=lease_seconds)`, if that is positive. -/
def leaseEnd (now : DateTime) (leaseSeconds : Rat) : Option DateTime :=
  if 0 < leaseSeconds then
    some { now with wall := now.wall + roundHalfEven (leaseSeconds * 1000000) }
  else none

/-- `reserve`, for an amount that is not negative; `id` is the uuid drawn. -/
def reserve (budgetId attemptId : String) (amount leaseSeconds : Rat) (id : String) (t : Readings) :
    Call ReservationRow := do
  let _ ← expireStale (some budgetId) t.expireAt
  let row ← fetch (fun db => db.budgets.get? budgetId) .budgetNotFound
  checkDeadline row t.now
  let attempts ← query fun db => db.attemptCount budgetId
  check (row.maxAttempts ≤ attempts) .maxAttemptsExceeded
  let active ← query fun db => db.activeCount budgetId
  check (row.concurrencyLimit ≤ active) .concurrencyLimitExceeded
  checkCeilings row t amount
  let expiresAt := leaseEnd t.now leaseSeconds
  let record : ReservationRow :=
    { reservationId := "res-" ++ id
      budgetId := budgetId
      attemptId := attemptId
      amount := amount
      status := .active
      createdAt := t.now
      expiresAt := expiresAt }
  tryWrite (Db.insertReservation { record with
    createdAt := t.now.astimezoneUtc
    expiresAt := expiresAt.map DateTime.astimezoneUtc })
  update (Db.setReserved budgetId (round8 (row.reserved + amount)))
  pure record

def chargedCost (policy : UnknownCostPolicy) (amount : Rat) (attempt : AttemptRecord) : Except BudgetError Rat :=
  match attempt.measuredCost with
  | some cost => .ok cost
  | none =>
    match policy with
    | .reject => .error .unknownCostRejected
    | .estimate => .ok attempt.estimatedCost
    | .conservativeMax => .ok (max amount (attempt.estimatedCost * 1.5))

/-- `commit`. An attempt that is recorded already is answered from its row. -/
def commit (reservationId : String) (attempt : AttemptRecord) : Call Rat := do
  let res ← fetch (fun db => db.reservations.get? reservationId) .invalidReservation
  match ← query fun db => db.attempts.get? attempt.attemptId with
  | some existing =>
    if existing.record.outcome = attempt.outcome then pure existing.chargedCost
    else raise .invalidReservation
  | none => do
    check (res.status ≠ .active) .invalidReservation
    let row ← fetch (fun db => db.budgets.get? res.budgetId) .budgetNotFound
    match chargedCost row.unknownCostPolicy res.amount attempt with
    | .error e => raise e
    | .ok cost => do
      let charged := round8 cost
      tryWrite (Db.insertAttempt
        { budgetId := res.budgetId
          record := { attempt with timestamp := attempt.timestamp.astimezoneUtc }
          chargedCost := charged })
      update (Db.setReservation reservationId (Db.withCost charged) fun _ => rfl)
      update (Db.setBudget res.budgetId
        (Db.withBalances (max 0 (round8 (row.reserved - res.amount))) (round8 (row.spent + charged)))
        fun _ => rfl)
      pure charged

def release (reservationId : String) : Call Unit := do
  let res ← fetch (fun db => db.reservations.get? reservationId) .invalidReservation
  check (res.status ≠ .active) .invalidReservation
  update (Db.setStatus reservationId .released)
  match ← query fun db => db.budgets.get? res.budgetId with
  | none => pure ()
  | some row =>
    update (Db.setReserved res.budgetId (max 0 (round8 (row.reserved - res.amount))))

/-- `upgrade_reservation`, for an amount that is not negative. -/
def upgradeReservation (reservationId : String) (newAmount : Rat) (t : Readings) :
    Call ReservationRow := do
  let res ← fetch (fun db => db.reservations.get? reservationId) .invalidReservation
  check (res.status ≠ .active) .invalidReservation
  let row ← fetch (fun db => db.budgets.get? res.budgetId) .budgetNotFound
  let additional := round8 (newAmount - res.amount)
  checkUpgrade row t additional
  update (Db.setReservation reservationId (Db.withAmount newAmount) fun _ => rfl)
  update (Db.setReserved res.budgetId (max 0 (round8 (row.reserved + additional))))
  pure { res with amount := newAmount }

/-- `Budget` as `get_budget` returns it; the windows are the two configured ones with what is spent in
them. -/
structure Budget where
  row : BudgetRow
  shortSpent : Option Rat
  longSpent : Option Rat
deriving DecidableEq

def windowSpent (budgetId : String) (window : Option Window) (clock : DateTime) : Call (Option Rat) :=
  match window with
  | none => pure none
  | some w => do
    let spent ← computeWindowSpent budgetId w.duration clock
    check (spent < 0) .validationError
    pure (some spent)

/-- `get_budget`. It has no `with` block: what it expires stays uncommitted. -/
def getBudget (budgetId : String) (t : Readings) : Call (Option Budget) := do
  let _ ← expireStale (some budgetId) t.expireAt
  match ← query fun db => db.budgets.get? budgetId with
  | none => pure none
  | some row => do
    let shortSpent ← windowSpent budgetId row.shortWindow t.shortAt
    let longSpent ← windowSpent budgetId row.longWindow t.longAt
    check (row.reserved < 0 ∨ row.spent < 0) .validationError
    pure (some ⟨row, shortSpent, longSpent⟩)

end Execution
end DarkFactory
