import DarkFactory.Lib.Reservations
import DarkFactory.Python.Text

/-!
# DarkFactory.Line.AdmissionStore

`AdmissionStore`: the open failures, the reservations of attempts and the recovery latch of the dispatchers.

Each function is one transaction on the store. Times are microseconds; the texts of times compare as the times do. A
hash is what it is made of, and a token is the number of its drawing.
-/

namespace DarkFactory
namespace Line
namespace AdmissionStore

open Reservations

def SECOND : Nat := 1000000

/-- What `_scope` hashes. -/
structure Scope where
  projectId : String
  ticketId : String
  candidateDigest : String
  contextDigest : String
  resourceVersion : String
deriving DecidableEq

def recoveryScope : Scope := ⟨"__recovery__", "global", "1", "1", "1"⟩

structure AdmissionFingerprint where
  scope : Scope
  errorClass : String
deriving DecidableEq

/-- A row of `failures`. -/
structure Failure where
  fingerprint : AdmissionFingerprint
  isOpen : Bool
  occurrences : Nat
deriving DecidableEq

structure Proof where
  ticketId : String
  runId : String
  candidateDigest : String
  evidence : String
deriving DecidableEq

/-- What `build_receipt` makes of the evidence; it stamps the time of the observation. -/
structure Receipt where
  proof : Proof
  observedAt : Nat
deriving DecidableEq

/-- The row of `dispatcher_recovery`; the digest of a receipt is the receipt. -/
structure Recovery where
  active : Bool
  cause : String
  fingerprint : Option AdmissionFingerprint
  successes : Nat
  receiptCause : String := ""
  receiptDigest : Option Receipt := none
  recoveredCandidateDigest : String := ""
deriving DecidableEq

abbrev Slot := Claim Scope Nat

abbrev Row := Reservation Scope Nat

structure Store where
  failures : List Failure
  reservations : List Row
  recovery : Option Recovery

def isFailureOpen (s : Store) (scope : Scope) (errorClass : Option String) : Bool :=
  s.failures.any fun f =>
    decide (f.fingerprint.scope = scope) && f.isOpen && errorClass.all fun e => decide (f.fingerprint.errorClass = e)

def recordFailure (fingerprint : AdmissionFingerprint) (s : Store) : Nat × Store :=
  match s.failures.find? fun f => decide (f.fingerprint = fingerprint) with
  | none => (1, { s with failures := s.failures ++ [⟨fingerprint, true, 1⟩] })
  | some row =>
    (row.occurrences + 1, { s with
        failures := s.failures.map fun f =>
          if f.fingerprint = fingerprint then ⟨fingerprint, true, row.occurrences + 1⟩ else f })

/-- `recovery_state()["active"]`. -/
def recoveryActive (s : Store) : Bool := s.recovery.any Recovery.active

def successes (s : Store) : Nat := (s.recovery.map Recovery.successes).getD 0

def setRecovery (active : Bool) (cause : String) (fingerprint : Option AdmissionFingerprint) (success : Bool)
    (s : Store) : Store :=
  match s.recovery with
  | none =>
    { s with
      recovery := some { active := active, cause := cause, fingerprint := fingerprint, successes := success.toNat } }
  | some row =>
    { s with
      recovery := some { row with
        active := active
        cause := cause
        fingerprint := fingerprint
        successes := row.successes + success.toNat
        receiptCause := if active && !row.active then "" else row.receiptCause } }

def recordRecoveryReceiptCause (safeCause : String) (s : Store) : Store :=
  { s with
    recovery := s.recovery.map fun row => if row.active then { row with receiptCause := safeCause } else row }

/-- `none`: the candidate is blank. -/
def completeRecovery (digest : Receipt) (candidateDigest : String) (s : Store) : Option Store :=
  if Text.strip candidateDigest = "" then none
  else
    match s.recovery with
    | none => some s
    | some row =>
      if !row.active then some s
      else if row.receiptDigest = some digest then some s
      else
        some { s with
          recovery := some { row with
            active := false
            successes := row.successes + 1
            receiptCause := ""
            receiptDigest := some digest
            recoveredCandidateDigest := Text.strip candidateDigest } }

/-- `none`: another attempt has the reservation. -/
def reserve (reservationTtlSec now token : Nat) (scope : Scope) (s : Store) : Option Store :=
  (acquire now (max 1 reservationTtlSec * SECOND) ⟨scope, token⟩ s.reservations).map fun rows =>
    { s with reservations := rows }

def RECOVERY_LEASE_SEC : Nat := 90

def reserveRecovery (now token : Nat) (s : Store) : Option Store :=
  (acquire now (RECOVERY_LEASE_SEC * SECOND) ⟨recoveryScope, token⟩ s.reservations).map fun rows =>
    { s with reservations := rows }

def heartbeatRecovery (now token : Nat) (s : Store) : Store :=
  { s with
    reservations := renew ⟨recoveryScope, token⟩ (now + RECOVERY_LEASE_SEC * SECOND) s.reservations }

def release (scope : Scope) (token : Nat) (s : Store) : Store :=
  { s with reservations := Reservations.release ⟨scope, token⟩ s.reservations }

def releaseRecovery (token : Nat) (s : Store) : Store := release recoveryScope token s

end AdmissionStore
end Line
end DarkFactory
