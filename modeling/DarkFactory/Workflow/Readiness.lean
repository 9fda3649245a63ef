import DarkFactory.Python.Sort
import DarkFactory.Workflow.Verification

/-!
# DarkFactory.Workflow.Readiness

`ReadinessGate` of `core/workflow/readiness.py` and `mark_delivered`.

* A reason is a constructor with what its text is made of.
* A checker gives what it appends to the lists of the report, in order.
-/

namespace DarkFactory
namespace Workflow
namespace Readiness

inductive Reason where
  | illegalTransition (current target : WorkflowState)
  | cancelled
  | failed
  | contextRequired
  | grillNotReady
  | decisionUnanswered (decisionId : String)
  -- manual dependencies
  | dependencyUnresolved (dependencyId : String)
  | dependencyWithoutContext (dependencyId : String)
  | dependencyWithoutReceiptRef (dependencyId : String)
  | dependencyReceiptNotFound (dependencyId receiptRef : String)
  | dependencyNotPassed (dependencyId : String)
  | probeMismatch (dependencyId finalProbe probe : String)
  | dependencySubject (dependencyId subject : String)
  | dependencyEnvironment (dependencyId environmentRef expected : String)
  | dependencyConfigVersion (dependencyId configVersion expected : String)
  | dependencyRole (dependencyId role : String)
  | dependencyOlder (dependencyId : String)
  | dependencyFuture (dependencyId : String) (age : Rat)
  | dependencyExpired (dependencyId : String) (age : Rat) (maxAge : Int)
  -- plan approval
  | approvalNotFound (approvalReference : String)
  | approvalDigest
  | economyPlanner
  | approvalTier (approved planner : PlannerTier)
  | economyApproval
  | approverRole (role : String)
  -- evidence
  | emptyEvidence
  | operationalExemption (evidenceId : String)
  | exemptionExpired (evidenceId : String)
  | receiptMissing (evidenceId : String)
  | receiptNotPassed (evidenceId : String)
  | receiptFuture (evidenceId : String) (observedAt now : Rat)
  | receiptExpired (evidenceId : String) (age : Rat) (maxAge : Int)
  | receiptSubject (evidenceId subject ticketId : String)
  | receiptPlanDigest (evidenceId : String)
  | receiptCandidateDigest (evidenceId : String)
  | candidateUnbound (evidenceId : String)
  | receiptConfigVersion (evidenceId : String)
  | receiptEnvironment (evidenceId : String)
  | handoffEnvironment (evidenceId : String)
  | receiptRoute (evidenceId : String)
  | receiptRole (role evidenceId : String)
  | receiptCapabilities (evidenceId : String) (unauthorized : List String)
  | artifactHashMissing (evidenceId : String)
  | notTargetEnvironment (evidenceId : String) (mode : ValidationMode)
  | evidenceMissing (evidenceId : String)
  | evidenceEnvironment (evidenceId : String)
  | evidenceNotPassed (evidenceId : String)
  | evidenceIdentity (evidenceId : String)
  | evidenceNotCurrent (evidenceId : String)
  | evidenceStale (evidenceId : String)
  | evidenceWithoutRef (evidenceId : String)
  -- delivery
  | notIndependentReview
  | environmentNotTarget
  | mockOnly
  | reviewMissing
  | targetProofMissing
deriving DecidableEq

structure Findings where
  reasons : List Reason := []
  missingEvidence : List String := []
  blockingDependencies : List String := []
  verifiedEvidence : List String := []
deriving DecidableEq

def Findings.append (f g : Findings) : Findings where
  reasons := f.reasons ++ g.reasons
  missingEvidence := f.missingEvidence ++ g.missingEvidence
  blockingDependencies := f.blockingDependencies ++ g.blockingDependencies
  verifiedEvidence := f.verifiedEvidence ++ g.verifiedEvidence

def Findings.concat (fs : List Findings) : Findings := fs.foldr Findings.append {}

/-- `STAGE_READINESS_APPLICABILITY`. -/
def applicability : WorkflowState → List ReadinessState
  | .needsSpec | .planningHigh => [.readyForSpec]
  | .readyForHandoff | .implementingEconomy => [.readyForSpec, .readyForHandoff]
  | .validating => [.readyForSpec, .readyForHandoff, .validatedInSimulation]
  | .independentReview =>
    [.readyForSpec, .readyForHandoff, .validatedInSimulation, .readyForRelease, .operationallyVerified]
  | .delivered =>
    [.readyForSpec, .readyForHandoff, .validatedInSimulation, .readyForRelease, .operationallyVerified, .delivered]
  | _ => []

def when (p : Bool) (r : Reason) : List Reason := if p then [r] else []

def checkStateAndGrill (handoff : WorkflowHandoff) (target : Option WorkflowState)
    (context : Option VerificationContext) : List Reason :=
  (match target with
    | some target =>
      when (decide (target ≠ handoff.state) && decide (target ∉ handoff.state.allowed))
        (.illegalTransition handoff.state target)
    | none => []) ++
  (if handoff.state = .cancelled then [.cancelled] else if handoff.state = .failed then [.failed] else []) ++
  when context.isNone .contextRequired ++
  when (!handoff.grill.readyForSpec) .grillNotReady ++
  (handoff.grill.decisions.filter fun d => d.isMaterial && !d.isAnswered).map fun d => .decisionUnanswered d.decisionId

/-- `a and b and a != b`. -/
def mismatch (a : Option String) (b : String) : Option String :=
  a.filter fun x => decide (x ≠ "") && decide (b ≠ "") && decide (x ≠ b)

def manualDependencyReceiptIssue (handoff : WorkflowHandoff) (d : ManualDependency) (c : VerificationContext)
    (r : EvidenceReceipt) : Option Reason :=
  if r.result ≠ .passed then some (.dependencyNotPassed d.dependencyId)
  else if r.requirement ≠ d.finalProbe ∧ r.requirement ≠ d.dependencyId then
    some (.probeMismatch d.dependencyId d.finalProbe r.requirement)
  else if r.subject ∉ handoff.ticketId :: d.dependencyId :: d.ticketIds then
    some (.dependencySubject d.dependencyId r.subject)
  else
    match mismatch r.environmentRef c.expectedEnvironmentRef with
    | some environmentRef => some (.dependencyEnvironment d.dependencyId environmentRef c.expectedEnvironmentRef)
    | none =>
      match mismatch r.configVersion c.configVersion with
      | some configVersion => some (.dependencyConfigVersion d.dependencyId configVersion c.configVersion)
      | none =>
        if c.roleDisabled r.producer.role then some (.dependencyRole d.dependencyId r.producer.role)
        else if r.observedAt < d.createdAt then some (.dependencyOlder d.dependencyId)
        else if c.age r.observedAt < 0 then some (.dependencyFuture d.dependencyId (c.age r.observedAt))
        else if (c.maxAge d.dependencyId : Rat) < c.age r.observedAt then
          some (.dependencyExpired d.dependencyId (c.age r.observedAt) (c.maxAge d.dependencyId))
        else none

def blocked (d : ManualDependency) (r : Reason) : Findings :=
  { reasons := [r], blockingDependencies := [d.dependencyId] }

/-- The loop body of `_check_manual_dependencies`. -/
def checkManualDependency (handoff : WorkflowHandoff) (requested : WorkflowState)
    (context : Option VerificationContext) (d : ManualDependency) : Findings :=
  if handoff.ticketId ∉ d.ticketIds then {}
  else if d.blockedStages ≠ [] ∧ requested ∉ d.blockedStages then {}
  else if d.status ≠ .resolved then blocked d (.dependencyUnresolved d.dependencyId)
  else
    match context with
    | none => blocked d (.dependencyWithoutContext d.dependencyId)
    | some c =>
      match d.resolutionReceiptRef.filter fun ref => decide (ref ≠ "") with
      | none => blocked d (.dependencyWithoutReceiptRef d.dependencyId)
      | some ref =>
        match c.resolveReceipt ref with
        | none => blocked d (.dependencyReceiptNotFound d.dependencyId ref)
        | some r =>
          match manualDependencyReceiptIssue handoff d c r with
          | some issue => blocked d issue
          | none => {}

def checkManualDependencies (handoff : WorkflowHandoff) (requested : WorkflowState)
    (context : Option VerificationContext) : Findings :=
  .concat (handoff.manualDependencies.map (checkManualDependency handoff requested context))

def checkPlanApproval (handoff : WorkflowHandoff) (context : Option VerificationContext) : List Reason :=
  match context with
  | none => []
  | some c =>
    match c.resolveApproval handoff.approvalReference with
    | none => [.approvalNotFound handoff.approvalReference]
    | some approval =>
      when (decide (approval.planDigest ≠ c.planDigest)) .approvalDigest ++
      when (decide (handoff.plannerTier = .economy)) .economyPlanner ++
      when (decide (approval.plannerTier ≠ handoff.plannerTier)) (.approvalTier approval.plannerTier handoff.plannerTier) ++
      when (decide (approval.plannerTier = .economy)) .economyApproval ++
      when (c.roleDisabled approval.approvedBy.role) (.approverRole approval.approvedBy.role)

def receiptAuthorizationIssue (handoff : WorkflowHandoff) (reqId : String) (requested : WorkflowState)
    (c : VerificationContext) (r : EvidenceReceipt) : Option Reason :=
  let unauthorized :=
    match c.resolveApproval handoff.approvalReference with
    | some approval => r.capabilities.filter fun cap => decide (cap ∉ approval.enabledCapabilities)
    | none => []
  if c.roleDisabled r.producer.role then some (.receiptRole r.producer.role reqId)
  else if unauthorized ≠ [] then some (.receiptCapabilities reqId unauthorized)
  else if Text.strip r.artifactHash = "" then some (.artifactHashMissing reqId)
  else if requested = .delivered ∧ r.mode ≠ .targetEnvironment then some (.notTargetEnvironment reqId r.mode)
  else none

/-- `a is not None and a != b`. -/
def differs (a : Option String) (b : String) : Bool := a.any fun x => decide (x ≠ b)

def receiptBindingIssue (handoff : WorkflowHandoff) (reqId : String) (requested : WorkflowState)
    (c : VerificationContext) (r : EvidenceReceipt) : Option Reason :=
  if differs r.planDigest c.planDigest then some (.receiptPlanDigest reqId)
  else if differs r.candidateDigest c.candidateDigest then some (.receiptCandidateDigest reqId)
  else if requested = .delivered ∧ r.candidateDigest = none then some (.candidateUnbound reqId)
  else if differs r.configVersion c.configVersion then some (.receiptConfigVersion reqId)
  else if differs r.environmentRef c.expectedEnvironmentRef then some (.receiptEnvironment reqId)
  else if differs r.environmentRef handoff.environment.environmentRef then some (.handoffEnvironment reqId)
  else if differs r.route c.expectedRoute then some (.receiptRoute reqId)
  else receiptAuthorizationIssue handoff reqId requested c r

def contextReceiptIssue (handoff : WorkflowHandoff) (reqId : String) (requested : WorkflowState)
    (c : VerificationContext) (r : EvidenceReceipt) : Option Reason :=
  if r.result ≠ .passed then some (.receiptNotPassed reqId)
  else if c.age r.observedAt < 0 then some (.receiptFuture reqId r.observedAt c.now)
  else if (c.maxAge reqId : Rat) < c.age r.observedAt then
    some (.receiptExpired reqId (c.age r.observedAt) (c.maxAge reqId))
  else if r.subject ≠ handoff.ticketId then some (.receiptSubject reqId r.subject handoff.ticketId)
  else receiptBindingIssue handoff reqId requested c r

def missing (reqId : String) (r : Reason) : Findings := { reasons := [r], missingEvidence := [reqId] }

def checkContextEvidence (handoff : WorkflowHandoff) (requested : WorkflowState) (c : VerificationContext)
    (reqId : String) : Findings :=
  match c.resolveExemption reqId with
  | some exemption =>
    if requested = .delivered ∧ exemption.isOperational = true then missing reqId (.operationalExemption reqId)
    else if exemption.isValidAt c.now = false then missing reqId (.exemptionExpired reqId)
    else { verifiedEvidence := [reqId] }
  | none =>
    match c.resolveReceipt reqId with
    | none => missing reqId (.receiptMissing reqId)
    | some r =>
      match contextReceiptIssue handoff reqId requested c r with
      | some issue => missing reqId issue
      | none => { verifiedEvidence := [reqId] }

/-- Without a context, at the time of the clock. -/
def checkHandoffEvidence (clock : Rat) (handoff : WorkflowHandoff) (reqId : String) : Findings :=
  -- the last one of the id
  match handoff.environmentEvidence.reverse.find? fun item => decide (item.evidenceId = reqId) with
  | none => missing reqId (.evidenceMissing reqId)
  | some item =>
    if item.environmentRef ≠ handoff.environment.environmentRef then { reasons := [.evidenceEnvironment reqId] }
    else if item.result ≠ .passed then { reasons := [.evidenceNotPassed reqId] }
    else if item.identity.subject ≠ handoff.environment.workerIdentity.subject then
      { reasons := [.evidenceIdentity reqId] }
    else if item.freshness ≠ .current then { reasons := [.evidenceNotCurrent reqId] }
    else if clock - item.observedAt < 0 ∨ 86400 < clock - item.observedAt then { reasons := [.evidenceStale reqId] }
    else if Text.strip item.evidenceRef = "" then { reasons := [.evidenceWithoutRef reqId] }
    else { verifiedEvidence := [reqId] }

def requiredIds (handoff : WorkflowHandoff) (requested : WorkflowState) (context : Option VerificationContext) :
    List String :=
  let policyIds := ((context.bind VerificationContext.policy).map fun p => p.requirementsForStage requested).getD []
  let candidateIds := (handoff.requiredEvidence.filter fun req =>
    decide (req.requiredFor ∈ applicability requested)).map EvidenceRequirement.evidenceId
  sortAsc id (policyIds ++ candidateIds).dedup

def checkEvidence (clock : Rat) (handoff : WorkflowHandoff) (requested : WorkflowState)
    (context : Option VerificationContext) : Findings :=
  let ids := requiredIds handoff requested context
  Findings.append
    { reasons := when (decide (requested = .delivered) && ids.isEmpty && handoff.environmentEvidence.isEmpty)
        .emptyEvidence }
    (.concat (ids.map fun reqId =>
      match context with
      | some c => checkContextEvidence handoff requested c reqId
      | none => checkHandoffEvidence clock handoff reqId))

def reviewRequirements : List String := ["review", "independent_review", "code_review"]

def reviewRoles : List String := ["reviewer", "supervisor", "independent_reviewer"]

/-- The receipts that `_delivery_receipt_proofs` goes by. -/
def provesDelivery (handoff : WorkflowHandoff) (c : VerificationContext) (r : EvidenceReceipt) : Bool :=
  decide (r.result = .passed) && !differs r.candidateDigest c.candidateDigest && decide (0 ≤ c.age r.observedAt) &&
    decide (c.age r.observedAt ≤ (c.maxAge r.requirement : Rat)) && decide (r.subject = handoff.ticketId)

def isReview (c : VerificationContext) (r : EvidenceReceipt) : Bool :=
  decide (r.producer.subject ≠ c.expectedIdentity.subject) &&
    (decide (r.requirement ∈ reviewRequirements) || decide (r.producer.role ∈ reviewRoles))

def deliveryReceiptProofs (handoff : WorkflowHandoff) (c : VerificationContext) : Bool × Bool :=
  let proofs := (c.receipts.map Prod.snd).filter (provesDelivery handoff c)
  (proofs.any (isReview c), proofs.any fun r => decide (r.mode = .targetEnvironment))

def checkDelivery (handoff : WorkflowHandoff) (requested : WorkflowState) (context : Option VerificationContext) :
    List Reason :=
  if requested ≠ .delivered then []
  else
    when (decide (handoff.state ≠ .independentReview) && decide (handoff.state ≠ .delivered)) .notIndependentReview ++
    when (decide (handoff.environment.kind ≠ .targetEnvironment)) .environmentNotTarget ++
    when (decide (handoff.environment.kind = .mockOnly)) .mockOnly ++
    match context with
    | none => []
    | some c =>
      let (hasIndependentReview, hasTargetProof) := deliveryReceiptProofs handoff c
      when (!hasIndependentReview) .reviewMissing ++ when (!hasTargetProof) .targetProofMissing

structure ReadinessReport where
  ticketId : String
  state : WorkflowState
  readiness : ReadinessState
  eligible : Bool
  findings : Findings

def readinessState (handoff : WorkflowHandoff) (requested : WorkflowState) (eligible : Bool)
    (blockingDependencies : List String) : ReadinessState :=
  if requested = .delivered then if eligible then .operationallyVerified else .blocked
  else if handoff.state = .cancelled ∨ handoff.state = .failed then .blocked
  else if !eligible then if blockingDependencies ≠ [] then .waitingHuman else .notReady
  else if handoff.environment.kind = .mockOnly then .validatedInSimulation
  else if requested = .needsSpec ∨ requested = .planningHigh then .readyForSpec
  else if requested = .readyForHandoff then .readyForHandoff
  else .readyForRelease

def evaluate (clock : Rat) (handoff : WorkflowHandoff) (context : Option VerificationContext)
    (target : Option WorkflowState) : ReadinessReport :=
  let requested := target.getD handoff.state
  let findings := Findings.concat [
    { reasons := checkStateAndGrill handoff target context },
    checkManualDependencies handoff requested context,
    { reasons := checkPlanApproval handoff context },
    checkEvidence clock handoff requested context,
    { reasons := checkDelivery handoff requested context }]
  let eligible := findings.reasons.isEmpty
  { ticketId := handoff.ticketId
    state := handoff.state
    readiness := readinessState handoff requested eligible findings.blockingDependencies
    eligible := eligible
    findings := findings }

def requireDelivery (clock : Rat) (handoff : WorkflowHandoff) (context : Option VerificationContext) :
    Except (List Reason) ReadinessReport :=
  let report := evaluate clock handoff context (some .delivered)
  if report.eligible then .ok report else .error report.findings.reasons

def markDelivered (clock : Rat) (handoff : WorkflowHandoff) (context : Option VerificationContext) :
    Except (List Reason) WorkflowHandoff := do
  let _ ← requireDelivery clock handoff context
  return { handoff with state := .delivered }

end Readiness
end Workflow
end DarkFactory
