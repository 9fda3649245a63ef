import DarkFactory.Python.DateTime
import DarkFactory.Python.Text

/-!
# DarkFactory.Control.Contracts

The contract models of `control_contracts.py`: job keys, stage results, claims, the intake command
and its receipt, external operations, and the exceptions of the control store.

`Env` holds what the store reads from outside the database: its own settings, the process
environment, the project registry, and the library functions whose tables are not reproduced
(SHA-1, `str.lower`, `datetime.fromisoformat`). Every theorem holds for every `Env`.
-/

namespace DarkFactory
namespace Control

structure Env where
  leaseDurationSec : Int
  fleetManagedEnabled : Bool
  /-- `_required_capabilities_json(ticket_id, stage)`, as the list it encodes. -/
  requiredCapabilities : String → String → List String
  /-- `load_routing_config().run_caps.wall_clock_hours`. -/
  wallClockHours : Rat
  fromisoformat : String → Option DateTime
  lower : String → String
  sha1 : String → String

inductive ErrorClass where
  | idempotencyConflict
  | staleLeaseError
  | storeUnavailableError
  | invalidResultError
  | reservationConflictError
  | hostBusyError
  | ticketAlreadyActiveError
  | fleetCapacityExceededError
  | integrityError
  | validationError
  /-- `UnboundLocalError`: `now_comp` is not assigned when a naive expiry meets an aware `now`. -/
  | unboundLocalError
deriving DecidableEq

/-- A raised exception. `existingExecution` is the attribute of `TicketAlreadyActiveError`. -/
structure Raised where
  cls : ErrorClass
  message : String
  existingExecution : List (String × String) := []
deriving DecidableEq

structure JobKey where
  runId : String
  ticketId : String
  planVersion : String
  stage : String
  iteration : Nat
deriving DecidableEq

namespace JobKey

def canonicalKey (k : JobKey) : String :=
  k.runId ++ ":" ++ k.ticketId ++ ":" ++ k.planVersion ++ ":" ++ k.stage ++ ":" ++ toString k.iteration

def atStage (k : JobKey) (stage : String) (iteration : Nat) : JobKey :=
  { k with stage := stage, iteration := iteration }

@[simp] theorem atStage_runId (k : JobKey) (stage : String) (n : Nat) : (k.atStage stage n).runId = k.runId := rfl

@[simp] theorem atStage_stage (k : JobKey) (stage : String) (n : Nat) : (k.atStage stage n).stage = stage := rfl

@[simp] theorem atStage_iteration (k : JobKey) (stage : String) (n : Nat) : (k.atStage stage n).iteration = n := rfl

end JobKey

inductive Outcome where
  | success | retry | replan | waitingDependency | waitingHuman | cancelled | failed
deriving DecidableEq

structure StageResult where
  outcome : Outcome
  outputRefs : List String := []
  evidenceRefs : List String := []
  actualCost : Rat := 0
  causeCode : Option String := none
  success_refs : outcome = .success → outputRefs ≠ [] := by decide
  cost_nonneg : 0 ≤ actualCost := by decide

instance : DecidableEq StageResult := fun ⟨o, r, e, c, k, _, _⟩ ⟨o', r', e', c', k', _, _⟩ =>
  decidable_of_iff (o = o' ∧ r = r' ∧ e = e' ∧ c = c' ∧ k = k') (by simp)

def CAUSE_CODE_MAX_LEN : Nat := 64

/-- A cause code of more than 64 characters becomes its first line cut to 55 characters, `~` and 8
hex digits of its SHA-1; shorter ones pass untouched. -/
def normalizeCauseCode (env : Env) (causeCode : Option String) : Option String :=
  match causeCode with
  | none => none
  | some c =>
    if c.length ≤ CAUSE_CODE_MAX_LEN then some c
    else some (String.ofList ((Text.firstLine c).take (CAUSE_CODE_MAX_LEN - 9)) ++ "~" ++ env.sha1 c)

theorem normalizeCauseCode_of_le (env : Env) {c : String} (h : c.length ≤ CAUSE_CODE_MAX_LEN) :
    normalizeCauseCode env (some c) = some c := by
  simp [normalizeCauseCode, h]

/-- What is stored fits `VARCHAR(64)`, for a hash that is cut to 8 characters. -/
theorem normalizeCauseCode_length (env : Env) (hs : ∀ c, (env.sha1 c).length = 8)
    {causeCode : Option String} {c : String} (h : normalizeCauseCode env causeCode = some c) :
    c.length ≤ CAUSE_CODE_MAX_LEN := by
  cases causeCode with
  | none => simp [normalizeCauseCode] at h
  | some c₀ =>
    simp only [normalizeCauseCode] at h
    split at h
    · rename_i hle
      cases h
      exact hle
    · rw [← Option.some.inj h]
      have hcut : ((Text.firstLine c₀).take (CAUSE_CODE_MAX_LEN - 9)).length ≤ 55 := by
        rw [List.length_take]
        exact Nat.min_le_left _ _
      have htilde : ("~" : String).length = 1 := by decide
      rw [String.length_append, String.length_append, String.length_ofList, hs, htilde]
      exact Nat.add_le_add_right (Nat.add_le_add_right hcut 1) 8

structure Claim where
  jobKey : JobKey
  leaseId : String
  owner : String
  fencingToken : Nat
  expiresAt : DateTime
  reservationId : String := ""
  routeRef : String := ""
  acquiredAt : Option DateTime := none
deriving DecidableEq

/-- `claim.reservation_id and claim.reservation_id.startswith("fres-")`: the claim works under a
fleet cycle reservation. -/
def Claim.fleetBound (c : Claim) : Bool := Text.startsWith c.reservationId "fres-"

inductive Mode where
  | autonomous | documentary
deriving DecidableEq

/-- `payload` is what the store reads of the intake payload: its JSON text, the digest of its
canonical form, and the text of its `ticket_id` when that is truthy. -/
structure Payload where
  text : String
  digest : String
  ticketId : Option String
deriving DecidableEq

structure IntakeCommand where
  projectId : String
  channel : String
  externalId : String
  payload : Payload
  mode : Mode
  policyRef : String
deriving DecidableEq

structure IntakeReceipt where
  demandId : String
  demandVersion : String
  runId : Option String
  initialJobId : Option String
  mode : Mode
  committedAt : DateTime
deriving DecidableEq

inductive OperationStatus where
  | prepared | sent | unknown | succeeded | failed
deriving DecidableEq

/-- `observedAt` is `none` for the empty string, which reads as the current time. -/
structure ExternalOperation where
  operationKey : String
  requestDigest : String
  provider : String
  externalId : Option String
  status : OperationStatus
  observedAt : Option DateTime
  responseDigest : Option String
  errorDetails : Option String
  claimLeaseId : Option String := none
  fencingToken : Nat := 0
deriving DecidableEq

def RESERVATION_PENDING_GRACE_SEC : Int := 300

end Control
end DarkFactory
