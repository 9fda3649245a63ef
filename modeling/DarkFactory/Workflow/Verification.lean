import DarkFactory.Lib.Lookup
import DarkFactory.Python.Text
import DarkFactory.Workflow.Contracts

/-!
# DarkFactory.Workflow.Verification

The handoff of `core/workflow/contracts.py` and the context of `core/workflow/verification.py`, as the readiness gate
reads them.

* Times are seconds on one clock.
* `VerificationContext` — the mappings in their order. Receipts that its constructor refuses as conflicting do not
  come together in one.
-/

namespace DarkFactory
namespace Workflow
namespace Readiness

inductive ReadinessState where
  | notReady | readyForSpec | readyForHandoff | validatedInSimulation | readyForRelease | operationallyVerified
  | delivered | waitingHuman | blocked
deriving DecidableEq

inductive EnvironmentKind where
  | realLab | targetEnvironment | mockOnly
deriving DecidableEq

inductive EvidenceResult where
  | passed | failed | blocked | pending
deriving DecidableEq

inductive EvidenceFreshness where
  | current | stale | invalid
deriving DecidableEq

inductive ManualDependencyStatus where
  | waiting | resolved | blocked
deriving DecidableEq

inductive PlannerTier where
  | high | economy
deriving DecidableEq

inductive ValidationMode where
  | documentary | simulation | targetEnvironment | notApplicable
deriving DecidableEq

structure SanitizedIdentity where
  subject : String
  role : String
deriving DecidableEq

structure GrillDecision where
  decisionId : String
  selectedAlternativeId : Option String := none
  response : Option String := none
  decisionSource : String
  isMaterial : Bool := true
  reusedDecisionRef : Option String := none
deriving DecidableEq

/-- `bool(text and text.strip())`. -/
def filled (text : Option String) : Bool := text.any fun t => decide (Text.strip t ≠ "")

def GrillDecision.isAnswered (d : GrillDecision) : Bool :=
  (d.selectedAlternativeId.isSome || filled d.response || filled d.reusedDecisionRef) && filled (some d.decisionSource)

structure GrillRecord where
  readyForSpec : Bool := false
  decisions : List GrillDecision := []
deriving DecidableEq

structure EnvironmentManifest where
  environmentRef : String
  kind : EnvironmentKind
  workerIdentity : SanitizedIdentity
deriving DecidableEq

structure EnvironmentEvidence where
  evidenceId : String
  environmentRef : String
  identity : SanitizedIdentity
  result : EvidenceResult
  freshness : EvidenceFreshness := .current
  observedAt : Rat
  evidenceRef : String
deriving DecidableEq

structure ManualDependency where
  dependencyId : String
  ticketIds : List String
  status : ManualDependencyStatus := .waiting
  finalProbe : String
  createdAt : Rat
  resolutionReceiptRef : Option String := none
  blockedStages : List WorkflowState := []
deriving DecidableEq

structure EvidenceRequirement where
  evidenceId : String
  requiredFor : ReadinessState
deriving DecidableEq

structure WorkflowHandoff where
  ticketId : String
  plannerTier : PlannerTier
  approvalReference : String
  grill : GrillRecord
  environment : EnvironmentManifest
  environmentEvidence : List EnvironmentEvidence := []
  manualDependencies : List ManualDependency := []
  requiredEvidence : List EvidenceRequirement := []
  state : WorkflowState := .readyForHandoff
deriving DecidableEq

/-- `validate_dependency`. -/
def ManualDependency.valid (d : ManualDependency) : Bool :=
  decide d.ticketIds.Nodup && !d.ticketIds.isEmpty &&
    if d.status = .resolved then d.resolutionReceiptRef.any fun ref => decide (ref ≠ "")
    else d.resolutionReceiptRef.isNone

/-- `validate_handoff`, and the validators of its parts. -/
def WorkflowHandoff.valid (h : WorkflowHandoff) : Bool :=
  decide (h.environmentEvidence.map EnvironmentEvidence.evidenceId).Nodup &&
    decide (h.manualDependencies.map ManualDependency.dependencyId).Nodup &&
    decide (h.requiredEvidence.map EvidenceRequirement.evidenceId).Nodup &&
    h.manualDependencies.all ManualDependency.valid &&
    (!h.grill.readyForSpec || h.grill.decisions.all fun d => !d.isMaterial || d.isAnswered) &&
    (decide (h.state ≠ .delivered) ||
      h.requiredEvidence.all fun req =>
        h.environmentEvidence.any fun item => decide (item.evidenceId = req.evidenceId))

structure PlanApproval where
  plannerTier : PlannerTier
  planDigest : String
  approvedBy : SanitizedIdentity
  enabledCapabilities : List String := []
deriving DecidableEq

structure EvidenceReceipt where
  producer : SanitizedIdentity
  subject : String
  requirement : String
  artifactHash : String
  result : EvidenceResult
  mode : ValidationMode
  observedAt : Rat
  planDigest : Option String := none
  candidateDigest : Option String := none
  configVersion : Option String := none
  environmentRef : Option String := none
  route : Option String := none
  capabilities : List String := []
deriving DecidableEq

structure PolicyExemption where
  ticketId : String
  version : String
  requirement : String
  isOperational : Bool := false
  expiresAt : Option Rat := none
deriving DecidableEq

def PolicyExemption.isValidAt (x : PolicyExemption) (now : Rat) : Bool :=
  match x.expiresAt with
  | none => true
  | some expiresAt => decide (now ≤ expiresAt)

structure GatePolicy where
  stageRequirements : List (WorkflowState × List String) := []
  enabledRoles : List String := []
  maxAgeSeconds : List (String × Int) := []
  defaultMaxAgeSeconds : Int := 86400
deriving DecidableEq

def GatePolicy.requirementsForStage (p : GatePolicy) (stage : WorkflowState) : List String :=
  ((Lookup.get Prod.fst p.stageRequirements stage).map Prod.snd).getD []

def GatePolicy.getMaxAge (p : GatePolicy) (requirement : String) : Int :=
  ((Lookup.get Prod.fst p.maxAgeSeconds requirement).map Prod.snd).getD p.defaultMaxAgeSeconds

structure VerificationContext where
  now : Rat
  policyVersion : String := "1"
  planDigest : String
  candidateDigest : String
  configVersion : String
  expectedEnvironmentRef : String
  expectedIdentity : SanitizedIdentity
  expectedRoute : String
  approvals : List (String × PlanApproval) := []
  receipts : List (String × EvidenceReceipt) := []
  exemptions : List (String × PolicyExemption) := []
  policy : Option GatePolicy := none
  /-- `conflicting receipts detected for requirement`. -/
  receiptsAgree : ∀ e ∈ receipts, ∀ e' ∈ receipts, e.2.requirement = e'.2.requirement →
    e.2.result = e'.2.result ∧ e.2.artifactHash = e'.2.artifactHash

/-- The value under a name, or the first one that meets the condition. -/
def lookupOr {β : Type} (entries : List (String × β)) (name : String) (ofName : β → Bool) : Option β :=
  ((Lookup.get Prod.fst entries name).map Prod.snd).or ((entries.map Prod.snd).find? ofName)

namespace VerificationContext

def resolveApproval (c : VerificationContext) (approvalRef : String) : Option PlanApproval :=
  (Lookup.get Prod.fst c.approvals approvalRef).map Prod.snd

def resolveReceipt (c : VerificationContext) (requirementOrRef : String) : Option EvidenceReceipt :=
  lookupOr c.receipts requirementOrRef fun r => decide (r.requirement = requirementOrRef)

def resolveExemption (c : VerificationContext) (requirement : String) : Option PolicyExemption :=
  lookupOr c.exemptions requirement fun x => decide (x.requirement = requirement)

/-- `context.policy.get_max_age(name) if context.policy is not None else 86400`. -/
def maxAge (c : VerificationContext) (name : String) : Int := (c.policy.map fun p => p.getMaxAge name).getD 86400

def age (c : VerificationContext) (observedAt : Rat) : Rat := c.now - observedAt

def roleDisabled (c : VerificationContext) (role : String) : Bool :=
  c.policy.any fun p => !p.enabledRoles.isEmpty && decide (role ∉ p.enabledRoles)

end VerificationContext

end Readiness
end Workflow
end DarkFactory
