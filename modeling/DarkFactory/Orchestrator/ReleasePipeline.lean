import Mathlib.Tactic.Common

/-!
# DarkFactory.Orchestrator.ReleasePipeline

The release pipeline of `core/orchestrator/release_pipeline.py`: build, staging, client acceptance, production and
rollback, kept in memory by one service.

* `BuildArtifact`, `ClientAcceptanceReceipt`, `RollbackReceipt` — only values that pass the checks of their fields.
* `deployStaging`, `recordClientAcceptance`, `deployProduction`, `handleProductionFailure`, `rollbackToPrevious`,
  `promoteWithEvidenceChain` — the calls, each with what it returns or raises and the service it leaves.
* `Call`, `step` — a call of the service.
-/

namespace DarkFactory
namespace Orchestrator
namespace ReleasePipeline

inductive ProjectTier where
  | commercialPaid
  | internalFree
  deriving DecidableEq

structure CanonicalProjectProfile where
  preflightChecks : List String
  stagingScenarios : List String
  productionScenarios : List String

def CANONICAL_TARGET_PROFILES : String → Option CanonicalProjectProfile
  | "darkfac" => some {
      preflightChecks := ["db_connectivity", "port_available", "env_vars_set", "ssl_cert_active"]
      stagingScenarios := ["coordinator_health_probe", "dbos_database_connectivity"]
      productionScenarios := ["coordinator_health_probe", "dbos_database_connectivity", "worker_execution_roundtrip",
        "metrics_telemetry_emit"] }
  | "site-ggcampos" => some {
      preflightChecks := ["dokploy_webhook", "static_dist_ready", "dns_resolved"]
      stagingScenarios := ["homepage_http_200", "asset_integrity_audit"]
      productionScenarios := ["homepage_http_200", "asset_integrity_audit", "seo_and_opengraph_validation",
        "astro_thinking_collection_route"] }
  | "segundo-cerebro" => some {
      preflightChecks := ["sqlite_integrity", "chroma_collection", "mcp_stdio_available"]
      stagingScenarios := ["mcp_client_health_available", "semantic_retrieval_query"]
      productionScenarios := ["mcp_client_health_available", "semantic_retrieval_query", "rag_provenance_audit"] }
  | "jarvis" => some {
      preflightChecks := ["process_probe", "port_8088_available", "whisper_model_cached"]
      stagingScenarios := ["daemon_process_running", "local_port_http_200"]
      productionScenarios := ["daemon_process_running", "local_port_http_200", "audio_neural_pipeline_ready",
        "budget_fail_closed_validation"] }
  | _ => none

inductive DeploymentStage where
  | built
  | stagingDeployed
  | awaitingClientAcceptance
  | productionDeployed
  | delivered
  | rolledBack
  | recoveryInProgress
  deriving DecidableEq

inductive ErrorKind where
  | releasePipeline
  | clientAcceptanceRequired
  | stagingValidationFailed
  | productionDeploymentFailed
  | evidenceMismatch
  | simulationNotPromoted
  | value
  | validation
  deriving DecidableEq

structure Raised where
  kind : ErrorKind
  message : String

/-- `artifact_digest[:12]` -/
def short (digest : String) : String := String.ofList (digest.toList.take 12)

structure BuildArtifact where
  projectId : String
  gitSha : String
  artifactDigest : String
  manifestDigest : String
  imageTag : String
  valid : projectId ≠ "" ∧ 7 ≤ gitSha.length ∧ gitSha.length ≤ 64 ∧ artifactDigest.length = 64 ∧
    manifestDigest.length = 64 ∧ imageTag ≠ ""

structure ClientAcceptanceReceipt where
  receiptId : String
  projectId : String
  artifactDigest : String
  clientId : String
  approvedBy : String
  termsAccepted : Bool
  signatureHash : String
  valid : receiptId ≠ "" ∧ projectId ≠ "" ∧ artifactDigest.length = 64 ∧ clientId ≠ "" ∧ approvedBy ≠ "" ∧
    signatureHash.length = 64

structure DestinationPreflight where
  environmentName : String
  passed : Bool
  checks : List String
  details : List (String × String)

structure JourneySmokeTest where
  testId : String
  targetEnvironment : String
  artifactDigest : String
  scenariosExecuted : List String
  passed : Bool
  diagnosticSummary : String

structure RollbackReceipt where
  projectId : String
  failedArtifactDigest : String
  restoredArtifactDigest : Option String
  triggerReason : String
  valid : projectId ≠ "" ∧ failedArtifactDigest.length = 64 ∧ triggerReason ≠ ""

def RollbackReceipt.make? (projectId failed : String) (restored : Option String) (reason : String) :
    Option RollbackReceipt :=
  if h : projectId ≠ "" ∧ failed.length = 64 ∧ reason ≠ "" then some ⟨projectId, failed, restored, reason, h⟩ else none

structure DeploymentRecord where
  projectId : String
  environment : String
  artifactDigest : String
  stage : DeploymentStage
  preflight : DestinationPreflight
  smokeTest : Option JourneySmokeTest
  acceptanceReceiptId : Option String

/-- The stores of `ReleasePipelineService`. -/
structure Service where
  artifacts : String → Option BuildArtifact
  acceptances : String → Option ClientAcceptanceReceipt
  deployments : String → List DeploymentRecord
  currentStable : String → Option String
  stableHistory : String → List String
  rollbacks : List RollbackReceipt

def Service.new : Service := ⟨fun _ => none, fun _ => none, fun _ => [], fun _ => none, fun _ => [], []⟩

/-- The keyword arguments of a deployment, with the id drawn for its smoke test. -/
structure Checks where
  preflightChecks : Option (List String)
  preflightPassed : Bool
  scenariosExecuted : Option (List String)
  smokePassed : Bool
  testId : String

def build (sha256 : String → String) (s : Service) (projectId gitSha manifest : String) (imageTag : Option String) :
    Except Raised BuildArtifact × Service :=
  let manifestDigest := sha256 manifest
  let artifactDigest := sha256 (projectId ++ ":" ++ gitSha ++ ":" ++ manifestDigest)
  let tag := (imageTag.filter (· ≠ "")).getD (projectId ++ ":" ++ String.ofList (gitSha.toList.take 8))
  if h : projectId ≠ "" ∧ 7 ≤ gitSha.length ∧ gitSha.length ≤ 64 ∧ artifactDigest.length = 64 ∧
      manifestDigest.length = 64 ∧ tag ≠ "" then
    let artifact : BuildArtifact := ⟨projectId, gitSha, artifactDigest, manifestDigest, tag, h⟩
    (.ok artifact, { s with artifacts := Function.update s.artifacts artifactDigest (some artifact) })
  else (.error ⟨.validation, "BuildArtifact"⟩, s)

def Service.record (s : Service) (r : DeploymentRecord) : Service :=
  { s with deployments := Function.update s.deployments r.projectId (s.deployments r.projectId ++ [r]) }

def deployStaging (s : Service) (artifact : BuildArtifact) (checks : Checks) :
    Except Raised DeploymentRecord × Service :=
  let profile := CANONICAL_TARGET_PROFILES artifact.projectId
  let preflight : DestinationPreflight := {
    environmentName := "staging"
    passed := checks.preflightPassed
    checks := checks.preflightChecks.getD
      ((profile.map (·.preflightChecks)).getD ["db_connectivity", "port_available", "env_vars_set"])
    details := [("host", "staging.internal"), ("network", "dokploy-staging")] }
  let smoke : JourneySmokeTest := {
    testId := checks.testId
    targetEnvironment := "staging"
    artifactDigest := artifact.artifactDigest
    scenariosExecuted := checks.scenariosExecuted.getD
      ((profile.map (·.stagingScenarios)).getD ["health_probe", "data_roundtrip", "auth_smoke"])
    passed := checks.smokePassed
    diagnosticSummary :=
      if checks.smokePassed then "All staging journey smoke checks completed" else "Staging smoke failed" }
  if checks.preflightPassed = false then
    (.error ⟨.stagingValidationFailed, "Staging preflight failed for artifact " ++ short artifact.artifactDigest⟩, s)
  else if checks.smokePassed = false then
    (.error ⟨.stagingValidationFailed, "Staging journey smoke test failed for " ++ short artifact.artifactDigest⟩, s)
  else
    let record : DeploymentRecord := {
      projectId := artifact.projectId
      environment := "staging"
      artifactDigest := artifact.artifactDigest
      stage := .stagingDeployed
      preflight := preflight
      smokeTest := some smoke
      acceptanceReceiptId := none }
    (.ok record, s.record record)

def recordClientAcceptance (sha256 : String → String) (s : Service)
    (projectId artifactDigest clientId approvedBy receiptId : String) :
    Except Raised ClientAcceptanceReceipt × Service :=
  match s.artifacts artifactDigest with
  | none => (.error ⟨.value, "Unknown artifact digest: " ++ artifactDigest⟩, s)
  | some art =>
    if art.projectId ≠ projectId then
      (.error ⟨.value, "Artifact " ++ artifactDigest ++ " belongs to " ++ art.projectId ++ ", not " ++ projectId⟩, s)
    else
      let sigHash := sha256 (projectId ++ ":" ++ artifactDigest ++ ":" ++ clientId ++ ":" ++ approvedBy)
      if h : receiptId ≠ "" ∧ projectId ≠ "" ∧ artifactDigest.length = 64 ∧ clientId ≠ "" ∧ approvedBy ≠ "" ∧
          sigHash.length = 64 then
        let receipt : ClientAcceptanceReceipt :=
          ⟨receiptId, projectId, artifactDigest, clientId, approvedBy, true, sigHash, h⟩
        (.ok receipt, { s with acceptances := Function.update s.acceptances artifactDigest (some receipt) })
      else (.error ⟨.validation, "ClientAcceptanceReceipt"⟩, s)

def handleProductionFailure (s : Service) (artifact : BuildArtifact) (reason : String) :
    Except Raised RollbackReceipt × Service :=
  let previousStable := s.currentStable artifact.projectId
  match RollbackReceipt.make? artifact.projectId artifact.artifactDigest previousStable reason with
  | none => (.error ⟨.validation, "RollbackReceipt"⟩, s)
  | some rollback =>
    let record : DeploymentRecord := {
      projectId := artifact.projectId
      environment := "production"
      artifactDigest := artifact.artifactDigest
      stage := if (previousStable.filter (· ≠ "")).isSome then .rolledBack else .recoveryInProgress
      preflight := ⟨"production", false, ["deployment_failed"], []⟩
      smokeTest := none
      acceptanceReceiptId := none }
    (.ok rollback, { s with rollbacks := s.rollbacks ++ [rollback] }.record record)

def Service.promoted (s : Service) (artifact : BuildArtifact) : Service :=
  let history := s.stableHistory artifact.projectId
  { s with
    currentStable := Function.update s.currentStable artifact.projectId (some artifact.artifactDigest)
    stableHistory := Function.update s.stableHistory artifact.projectId
      (if history.getLast? = some artifact.artifactDigest then history else history ++ [artifact.artifactDigest]) }

def deployProduction (s : Service) (artifact : BuildArtifact) (tier : ProjectTier) (checks : Checks) :
    Except Raised DeploymentRecord × Service :=
  let profile := CANONICAL_TARGET_PROFILES artifact.projectId
  let acceptance := if tier = .commercialPaid then s.acceptances artifact.artifactDigest else none
  let preflight : DestinationPreflight := {
    environmentName := "production"
    passed := checks.preflightPassed
    checks := checks.preflightChecks.getD ((profile.map (·.preflightChecks)).getD
      ["db_connectivity", "port_available", "env_vars_set", "ssl_cert_active"])
    details := [("host", "api.darkfactory.prod"), ("network", "dokploy-production")] }
  let smoke : JourneySmokeTest := {
    testId := checks.testId
    targetEnvironment := "production"
    artifactDigest := artifact.artifactDigest
    scenariosExecuted := checks.scenariosExecuted.getD ((profile.map (·.productionScenarios)).getD
      ["health_probe", "customer_flow", "order_lifecycle", "metrics_telemetry"])
    passed := checks.smokePassed
    diagnosticSummary :=
      if checks.smokePassed then "All production journey smoke tests passed" else "Production smoke failed" }
  if tier = .commercialPaid ∧ acceptance.isNone then
    (.error ⟨.clientAcceptanceRequired, "Commercial paid project '" ++ artifact.projectId ++
      "' requires client acceptance receipt before production deploy. Artifact " ++ artifact.artifactDigest ++
      " has not been approved by client."⟩, s)
  else if checks.preflightPassed = false then
    match handleProductionFailure s artifact "Production preflight checks failed (ports/db/network unreachable)" with
    | (.error e, s) => (.error e, s)
    | (.ok _, s) => (.error ⟨.productionDeploymentFailed, "Production preflight checks failed"⟩, s)
  else if checks.smokePassed = false then
    match handleProductionFailure s artifact
        ("Production journey smoke test failed (test_id: " ++ checks.testId ++ ")") with
    | (.error e, s) => (.error e, s)
    | (.ok rollback, s) =>
      (.error ⟨.productionDeploymentFailed, "Production smoke test failed for artifact " ++
        short artifact.artifactDigest ++ ". Automatic rollback executed to " ++
        (rollback.restoredArtifactDigest.filter (· ≠ "")).getD "none" ++ "."⟩, s)
  else
    let record : DeploymentRecord := {
      projectId := artifact.projectId
      environment := "production"
      artifactDigest := artifact.artifactDigest
      stage := .delivered
      preflight := preflight
      smokeTest := some smoke
      acceptanceReceiptId := acceptance.map (·.receiptId) }
    (.ok record, (s.promoted artifact).record record)

/-- The history and the pointer move first; the receipt, which may be refused for an empty reason, comes after. -/
def rollbackToPrevious (s : Service) (projectId reason : String) : Except Raised RollbackReceipt × Service :=
  let history := s.stableHistory projectId
  match (s.currentStable projectId).filter (· ≠ "") with
  | none => (.error ⟨.releasePipeline, "No stable artifact found for project " ++ projectId⟩, s)
  | some current =>
    let (target, rest) :=
      if 2 ≤ history.length then (history.dropLast.getLast?, history.dropLast) else (none, [])
    let s := { s with
      stableHistory := Function.update s.stableHistory projectId rest
      currentStable := Function.update s.currentStable projectId target }
    match RollbackReceipt.make? projectId current target reason with
    | none => (.error ⟨.validation, "RollbackReceipt"⟩, s)
    | some rollback => (.ok rollback, { s with rollbacks := s.rollbacks ++ [rollback] })

/-- The arguments of `promote_with_evidence_chain`. -/
structure Promotion where
  artifactDigest : String
  tier : ProjectTier
  checks : Checks
  isSimulation : Bool
  callerApprovalFlag : Option Bool
  providedAcceptanceReceipt : Option ClientAcceptanceReceipt

def Promotion.candidate (p : Promotion) (s : Service) : Except Raised BuildArtifact :=
  if p.isSimulation then
    .error ⟨.simulationNotPromoted, "Artifact " ++ short p.artifactDigest ++
      " is marked as simulation; cannot promote simulation to production."⟩
  else if p.callerApprovalFlag = some false then
    .error ⟨.simulationNotPromoted, "Caller approval flag is False; promotion denied for " ++
      short p.artifactDigest ++ "."⟩
  else match s.artifacts p.artifactDigest with
    | none => .error ⟨.evidenceMismatch, "Artifact digest '" ++ p.artifactDigest ++ "' not found in registry."⟩
    | some artifact =>
      match p.providedAcceptanceReceipt with
      | none => .ok artifact
      | some receipt =>
        if receipt.artifactDigest ≠ p.artifactDigest then
          .error ⟨.evidenceMismatch, "Acceptance receipt digest '" ++ receipt.artifactDigest ++
            "' does not match candidate artifact digest '" ++ p.artifactDigest ++ "'."⟩
        else .ok artifact

/-- A provided receipt takes the place of the one on record, whatever project it names. -/
def Promotion.provide (p : Promotion) (s : Service) : Service :=
  match p.providedAcceptanceReceipt with
  | none => s
  | some receipt => { s with acceptances := Function.update s.acceptances p.artifactDigest (some receipt) }

def Promotion.refusal (p : Promotion) (s : Service) (artifact : BuildArtifact) : Option Raised :=
  if p.tier = .commercialPaid then
    match s.acceptances p.artifactDigest with
    | none => some ⟨.clientAcceptanceRequired, "Commercial paid project '" ++ artifact.projectId ++
        "' requires client acceptance receipt matching artifact digest '" ++ p.artifactDigest ++ "'."⟩
    | some acc =>
      if acc.artifactDigest ≠ p.artifactDigest then
        some ⟨.evidenceMismatch, "Recorded acceptance receipt digest '" ++ acc.artifactDigest ++
          "' mismatch with '" ++ p.artifactDigest ++ "'."⟩
      else none
  else none

def promoteWithEvidenceChain (s : Service) (p : Promotion) : Except Raised DeploymentRecord × Service :=
  match p.candidate s with
  | .error e => (.error e, s)
  | .ok artifact =>
    let s := p.provide s
    match p.refusal s artifact with
    | some e => (.error e, s)
    | none => deployProduction s artifact p.tier p.checks

inductive Call where
  | build (projectId gitSha manifest : String) (imageTag : Option String)
  | deployStaging (artifact : BuildArtifact) (checks : Checks)
  | recordClientAcceptance (projectId artifactDigest clientId approvedBy receiptId : String)
  | deployProduction (artifact : BuildArtifact) (tier : ProjectTier) (checks : Checks)
  | rollbackToPrevious (projectId reason : String)
  | promoteWithEvidenceChain (p : Promotion)

inductive Answer where
  | artifact (a : BuildArtifact)
  | deployment (r : DeploymentRecord)
  | acceptance (r : ClientAcceptanceReceipt)
  | rollback (r : RollbackReceipt)

def call (sha256 : String → String) (s : Service) : Call → Except Raised Answer × Service
  | .build projectId gitSha manifest imageTag =>
    (build sha256 s projectId gitSha manifest imageTag).map (·.map .artifact) id
  | .deployStaging artifact checks => (deployStaging s artifact checks).map (·.map .deployment) id
  | .recordClientAcceptance projectId artifactDigest clientId approvedBy receiptId =>
    (recordClientAcceptance sha256 s projectId artifactDigest clientId approvedBy receiptId).map (·.map .acceptance) id
  | .deployProduction artifact tier checks => (deployProduction s artifact tier checks).map (·.map .deployment) id
  | .rollbackToPrevious projectId reason => (rollbackToPrevious s projectId reason).map (·.map .rollback) id
  | .promoteWithEvidenceChain p => (promoteWithEvidenceChain s p).map (·.map .deployment) id

def step (sha256 : String → String) (s : Service) (c : Call) : Service := (call sha256 s c).2

end ReleasePipeline
end Orchestrator
end DarkFactory
