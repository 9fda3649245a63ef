import DarkFactory.Lib.Runs
import DarkFactory.Orchestrator.ReleasePipeline
import Mathlib.Data.List.Chain

/-!
# DarkFactory.Orchestrator.ReleaseRuns

Runs of the release pipeline, from a new service.

* `Did` — what a call did, one constructor for each way it may go.
* `Inv` — the pointer is the last of the history, whose neighbours differ.
-/

namespace DarkFactory
namespace Orchestrator
namespace ReleasePipeline

section

variable (sha256 : String → String)

structure Deployment where
  artifact : BuildArtifact
  tier : ProjectTier
  checks : Checks
  receipt : Option ClientAcceptanceReceipt

def Checks.passed (checks : Checks) : Bool := checks.preflightPassed && checks.smokePassed

/-- The deployment behind the acceptance gate of `deployProduction`. -/
def accepted (s : Service) (artifact : BuildArtifact) (tier : ProjectTier) (checks : Checks) : Option Deployment :=
  if tier = .commercialPaid ∧ (s.acceptances artifact.artifactDigest).isNone then none
  else some ⟨artifact, tier, checks, s.acceptances artifact.artifactDigest⟩

def Call.deploys (s : Service) : Call → Option Deployment
  | .deployProduction artifact tier checks => accepted s artifact tier checks
  | .promoteWithEvidenceChain p =>
    match p.candidate s with
    | .error _ => none
    | .ok artifact =>
      match p.refusal (p.provide s) artifact with
      | some _ => none
      | none => accepted (p.provide s) artifact p.tier p.checks
  | _ => none

def Call.provided (s : Service) : Call → Service
  | .promoteWithEvidenceChain p =>
    match p.candidate s with
    | .error _ => s
    | .ok _ => p.provide s
  | _ => s

theorem handleProductionFailure_ok (s : Service) (artifact : BuildArtifact) {reason : String} (h : reason ≠ "") :
    ∃ rollback record, handleProductionFailure s artifact reason =
        (.ok rollback, { s with rollbacks := s.rollbacks ++ [rollback] }.record record) ∧
      rollback.projectId = artifact.projectId ∧ rollback.failedArtifactDigest = artifact.artifactDigest ∧
      rollback.restoredArtifactDigest = s.currentStable artifact.projectId ∧
      record.projectId = artifact.projectId ∧ record.stage ≠ .stagingDeployed := by
  have hvalid : artifact.projectId ≠ "" ∧ artifact.artifactDigest.length = 64 ∧ reason ≠ "" :=
    ⟨artifact.valid.1, artifact.valid.2.2.2.1, h⟩
  have hmake : RollbackReceipt.make? artifact.projectId artifact.artifactDigest (s.currentStable artifact.projectId)
      reason = some ⟨_, _, _, _, hvalid⟩ := dif_pos hvalid
  unfold handleProductionFailure
  dsimp only
  rw [hmake]
  refine ⟨_, _, rfl, rfl, rfl, rfl, rfl, ?_⟩
  dsimp only
  split <;> nofun

structure Failed (s : Service) (d : Deployment) (s' : Service) : Prop where
  passed : d.checks.passed = false
  recorded : ∃ rollback record, s' = { s with rollbacks := s.rollbacks ++ [rollback] }.record record ∧
    rollback.projectId = d.artifact.projectId ∧ rollback.failedArtifactDigest = d.artifact.artifactDigest ∧
    rollback.restoredArtifactDigest = s.currentStable d.artifact.projectId ∧
    record.projectId = d.artifact.projectId ∧ record.stage ≠ .stagingDeployed

structure Delivered (s : Service) (d : Deployment) (s' : Service) : Prop where
  passed : d.checks.passed = true
  recorded : ∃ record, s' = (s.promoted d.artifact).record record ∧ record.projectId = d.artifact.projectId ∧
    record.stage ≠ .stagingDeployed

theorem deployProduction_cases (s : Service) (artifact : BuildArtifact) (tier : ProjectTier) (checks : Checks) :
    (accepted s artifact tier checks = none ∧
      ∃ e, deployProduction s artifact tier checks = (.error e, s) ∧ e.kind ≠ .productionDeploymentFailed) ∨
    (∃ d, accepted s artifact tier checks = some d ∧ d.artifact = artifact ∧ ∃ e s',
      deployProduction s artifact tier checks = (.error e, s') ∧ e.kind = .productionDeploymentFailed ∧
        Failed s d s') ∨
    (∃ d, accepted s artifact tier checks = some d ∧ d.artifact = artifact ∧ ∃ r s',
      deployProduction s artifact tier checks = (.ok r, s') ∧ Delivered s d s') := by
  by_cases hgate : tier = .commercialPaid ∧ (s.acceptances artifact.artifactDigest).isNone
  · left
    refine ⟨if_pos hgate, ?_⟩
    have hgate' : tier = .commercialPaid ∧
        (if tier = .commercialPaid then s.acceptances artifact.artifactDigest else none).isNone := by
      rw [if_pos hgate.1]
      exact hgate
    unfold deployProduction
    dsimp only
    rw [if_pos hgate']
    exact ⟨_, rfl, nofun⟩
  · right
    have hgate' : ¬ (tier = .commercialPaid ∧
        (if tier = .commercialPaid then s.acceptances artifact.artifactDigest else none).isNone) := by
      intro h
      rw [if_pos h.1] at h
      exact hgate h
    have haccepted : accepted s artifact tier checks =
        some ⟨artifact, tier, checks, s.acceptances artifact.artifactDigest⟩ := if_neg hgate
    unfold deployProduction
    dsimp only
    rw [if_neg hgate']
    cases hpre : checks.preflightPassed with
    | false =>
      have hreason : "Production preflight checks failed (ports/db/network unreachable)" ≠ "" := by decide
      obtain ⟨rollback, record, heq, hrecorded⟩ := handleProductionFailure_ok s artifact hreason
      rw [if_pos rfl, heq]
      exact Or.inl ⟨_, haccepted, rfl, _, _, rfl, rfl, by simp [Checks.passed, hpre], rollback, record, rfl, hrecorded⟩
    | true =>
      rw [if_neg (by decide)]
      cases hsmoke : checks.smokePassed with
      | false =>
        have hreason : "Production journey smoke test failed (test_id: " ++ checks.testId ++ ")" ≠ "" := by
          intro h
          have := congrArg String.length h
          simp at this
        obtain ⟨rollback, record, heq, hrecorded⟩ := handleProductionFailure_ok s artifact hreason
        rw [if_pos rfl, heq]
        exact Or.inl ⟨_, haccepted, rfl, _, _, rfl, rfl, by simp [Checks.passed, hsmoke], rollback, record, rfl,
          hrecorded⟩
      | true =>
        rw [if_neg (by decide)]
        exact Or.inr ⟨_, haccepted, rfl, _, _, rfl, by simp [Checks.passed, hpre, hsmoke], _, rfl, rfl, nofun⟩

structure RolledBack (s : Service) (projectId : String) (s' : Service) : Prop where
  current : (s.currentStable projectId).isSome
  moved : ∃ receipts, s' = { s with
      stableHistory := Function.update s.stableHistory projectId (s.stableHistory projectId).dropLast
      currentStable := Function.update s.currentStable projectId (s.stableHistory projectId).dropLast.getLast?
      rollbacks := s.rollbacks ++ receipts } ∧
    ∀ r ∈ receipts, r.projectId = projectId ∧ some r.failedArtifactDigest = s.currentStable projectId ∧
      r.restoredArtifactDigest = (s.stableHistory projectId).dropLast.getLast?

inductive Did (s : Service) : Call → Except Raised Answer → Service → Prop where
  | built (projectId gitSha manifest : String) (imageTag : Option String) (a : BuildArtifact) :
      Did s (.build projectId gitSha manifest imageTag) (.ok (.artifact a))
        { s with artifacts := Function.update s.artifacts a.artifactDigest (some a) }
  | staged (a : BuildArtifact) (checks : Checks) (r : DeploymentRecord) (hproject : r.projectId = a.projectId)
      (hdigest : r.artifactDigest = a.artifactDigest) (hstage : r.stage = .stagingDeployed) :
      Did s (.deployStaging a checks) (.ok (.deployment r)) (s.record r)
  | accepted (projectId artifactDigest clientId approvedBy receiptId : String) (a : BuildArtifact)
      (r : ClientAcceptanceReceipt) (ha : s.artifacts artifactDigest = some a) (hproject : a.projectId = projectId)
      (hdigest : r.artifactDigest = artifactDigest) :
      Did s (.recordClientAcceptance projectId artifactDigest clientId approvedBy receiptId) (.ok (.acceptance r))
        { s with acceptances := Function.update s.acceptances artifactDigest (some r) }
  | refused (c : Call) (e : Raised) (hdeploys : c.deploys s = none) (hkind : e.kind ≠ .productionDeploymentFailed)
      (hrollback : ∀ projectId reason, c = .rollbackToPrevious projectId reason →
        (s.currentStable projectId).filter (· ≠ "") = none) : Did s c (.error e) (c.provided s)
  | failed (c : Call) (d : Deployment) (e : Raised) (s' : Service) (hdeploys : c.deploys s = some d)
      (hkind : e.kind = .productionDeploymentFailed) (h : Failed (c.provided s) d s') : Did s c (.error e) s'
  | delivered (c : Call) (d : Deployment) (r : DeploymentRecord) (s' : Service) (hdeploys : c.deploys s = some d)
      (h : Delivered (c.provided s) d s') : Did s c (.ok (.deployment r)) s'
  | rolledBack (projectId reason : String) (answer : Except Raised Answer) (s' : Service)
      (hkind : ∀ e, answer = .error e → e.kind ≠ .productionDeploymentFailed) (h : RolledBack s projectId s') :
      Did s (.rollbackToPrevious projectId reason) answer s'

variable {history : List String} {s s' : Service} {c : Call} {artifact : BuildArtifact} {d : Deployment}

theorem history_back :
    (if 2 ≤ history.length then (history.dropLast.getLast?, history.dropLast) else (none, [])) =
      (history.dropLast.getLast?, history.dropLast) := by
  split
  · rfl
  · rename_i hlen
    have hnil : history.dropLast = [] := by
      rw [← List.length_eq_zero_iff, List.length_dropLast]
      omega
    rw [hnil]
    rfl

theorem rollbackToPrevious_did (s : Service) (projectId reason : String) :
    Did s (.rollbackToPrevious projectId reason) ((rollbackToPrevious s projectId reason).1.map .rollback)
      (rollbackToPrevious s projectId reason).2 := by
  unfold rollbackToPrevious
  dsimp only
  rw [history_back]
  cases hcurrent : (s.currentStable projectId).filter (· ≠ "") with
  | none =>
    refine .refused _ _ rfl nofun ?_
    rintro _ _ ⟨⟩
    exact hcurrent
  | some current =>
    have hsome : s.currentStable projectId = some current := (Option.filter_eq_some_iff.mp hcurrent).1
    dsimp only
    cases hmake : RollbackReceipt.make? projectId current (s.stableHistory projectId).dropLast.getLast? reason with
    | none =>
      refine .rolledBack _ _ _ _ ?_ ⟨by rw [hsome]; rfl, [], by rw [List.append_nil], nofun⟩
      rintro _ ⟨⟩
      nofun
    | some rollback =>
      refine .rolledBack _ _ _ _ nofun ⟨by rw [hsome]; rfl, [rollback], rfl, ?_⟩
      intro r hr
      rw [List.mem_singleton.mp hr, hsome]
      unfold RollbackReceipt.make? at hmake
      split at hmake
      · cases hmake
        exact ⟨rfl, rfl, rfl⟩
      · cases hmake

theorem deployProduction_did {s₀ : Service} {tier : ProjectTier} {checks : Checks}
    (hdeploys : c.deploys s₀ = accepted s artifact tier checks) (hprovided : c.provided s₀ = s)
    (hrollback : ∀ projectId reason, c ≠ .rollbackToPrevious projectId reason) :
    Did s₀ c ((deployProduction s artifact tier checks).1.map .deployment) (deployProduction s artifact tier checks).2 := by
  subst hprovided
  rcases deployProduction_cases (c.provided s₀) artifact tier checks with ⟨hnone, e, heq, hkind⟩ |
    ⟨d, hd, -, e, s', heq, hkind, hfailed⟩ | ⟨d, hd, -, r, s', heq, hdelivered⟩
  · rw [heq]
    exact .refused c e (hdeploys.trans hnone) hkind fun projectId reason h => absurd h (hrollback projectId reason)
  · rw [heq]
    exact .failed c d e s' (hdeploys.trans hd) hkind hfailed
  · rw [heq]
    exact .delivered c d r s' (hdeploys.trans hd) hdelivered

theorem refusal_kind {p : Promotion} {e : Raised}
    (h : p.refusal s artifact = some e) : e.kind ≠ .productionDeploymentFailed := by
  unfold Promotion.refusal at h
  split at h
  · split at h
    · cases h
      nofun
    · split at h
      · cases h
        nofun
      · cases h
  · cases h

theorem candidate_kind {p : Promotion} {e : Raised} (h : p.candidate s = .error e) :
    e.kind ≠ .productionDeploymentFailed := by
  unfold Promotion.candidate at h
  split at h
  · cases h
    nofun
  · split at h
    · cases h
      nofun
    · split at h
      · cases h
        nofun
      · split at h
        · cases h
        · split at h
          · cases h
            nofun
          · cases h

theorem candidate_ok {p : Promotion} (h : p.candidate s = .ok artifact) :
    s.artifacts p.artifactDigest = some artifact ∧
      ∀ r, p.providedAcceptanceReceipt = some r → r.artifactDigest = p.artifactDigest := by
  unfold Promotion.candidate at h
  split at h
  · cases h
  · split at h
    · cases h
    · split at h
      · cases h
      · rename_i a ha
        split at h
        · rename_i hreceipt
          cases h
          refine ⟨ha, ?_⟩
          intro r hr
          rw [hreceipt] at hr
          cases hr
        · rename_i receipt hreceipt
          split at h
          · cases h
          · rename_i hdigest
            cases h
            refine ⟨ha, ?_⟩
            intro r hr
            rw [hreceipt] at hr
            cases hr
            exact not_not.mp hdigest

theorem promote_did (s : Service) (p : Promotion) :
    Did s (.promoteWithEvidenceChain p) ((promoteWithEvidenceChain s p).1.map .deployment)
      (promoteWithEvidenceChain s p).2 := by
  unfold promoteWithEvidenceChain
  cases hcandidate : p.candidate s with
  | error e =>
    have hprovided : Call.provided s (.promoteWithEvidenceChain p) = s := by simp only [Call.provided, hcandidate]
    have hdid := Did.refused (s := s) (.promoteWithEvidenceChain p) e (by simp only [Call.deploys, hcandidate])
      (candidate_kind hcandidate) nofun
    rw [hprovided] at hdid
    exact hdid
  | ok artifact =>
    have hprovided : Call.provided s (.promoteWithEvidenceChain p) = p.provide s := by
      simp only [Call.provided, hcandidate]
    dsimp only
    cases hrefusal : p.refusal (p.provide s) artifact with
    | some e =>
      have hdid := Did.refused (s := s) (.promoteWithEvidenceChain p) e
        (by simp only [Call.deploys, hcandidate, hrefusal]) (refusal_kind hrefusal) nofun
      rw [hprovided] at hdid
      exact hdid
    | none =>
      have hdeploys : Call.deploys s (.promoteWithEvidenceChain p) = accepted (p.provide s) artifact p.tier p.checks := by
        simp only [Call.deploys, hcandidate, hrefusal]
      exact deployProduction_did hdeploys hprovided nofun

theorem build_did (s : Service) (projectId gitSha manifest : String) (imageTag : Option String) :
    Did s (.build projectId gitSha manifest imageTag)
      ((build sha256 s projectId gitSha manifest imageTag).1.map .artifact)
      (build sha256 s projectId gitSha manifest imageTag).2 := by
  unfold build
  dsimp only
  split
  · exact .built _ _ _ _ _
  · exact .refused _ _ rfl nofun nofun

theorem deployStaging_did (s : Service) (artifact : BuildArtifact) (checks : Checks) :
    Did s (.deployStaging artifact checks) ((deployStaging s artifact checks).1.map .deployment)
      (deployStaging s artifact checks).2 := by
  unfold deployStaging
  dsimp only
  split
  · exact .refused _ _ rfl nofun nofun
  · split
    · exact .refused _ _ rfl nofun nofun
    · exact .staged _ _ _ rfl rfl rfl

theorem recordClientAcceptance_did (s : Service) (projectId artifactDigest clientId approvedBy receiptId : String) :
    Did s (.recordClientAcceptance projectId artifactDigest clientId approvedBy receiptId)
      ((recordClientAcceptance sha256 s projectId artifactDigest clientId approvedBy receiptId).1.map .acceptance)
      (recordClientAcceptance sha256 s projectId artifactDigest clientId approvedBy receiptId).2 := by
  unfold recordClientAcceptance
  split
  · exact .refused _ _ rfl nofun nofun
  · rename_i a ha
    split
    · exact .refused _ _ rfl nofun nofun
    · rename_i hproject
      dsimp only
      split
      · exact .accepted _ _ _ _ _ a _ ha (not_not.mp hproject) rfl
      · exact .refused _ _ rfl nofun nofun

theorem call_did (s : Service) (c : Call) : Did s c (call sha256 s c).1 (step sha256 s c) := by
  cases c with
  | build projectId gitSha manifest imageTag => exact build_did sha256 s projectId gitSha manifest imageTag
  | deployStaging artifact checks => exact deployStaging_did s artifact checks
  | recordClientAcceptance projectId artifactDigest clientId approvedBy receiptId =>
    exact recordClientAcceptance_did sha256 s projectId artifactDigest clientId approvedBy receiptId
  | deployProduction artifact tier checks => exact deployProduction_did rfl rfl nofun
  | rollbackToPrevious projectId reason => exact rollbackToPrevious_did s projectId reason
  | promoteWithEvidenceChain p => exact promote_did s p

def Call.project (s : Service) : Call → Option String
  | .build projectId _ _ _ => some projectId
  | .deployStaging artifact _ => some artifact.projectId
  | .recordClientAcceptance projectId _ _ _ _ => some projectId
  | .deployProduction artifact _ _ => some artifact.projectId
  | .rollbackToPrevious projectId _ => some projectId
  | .promoteWithEvidenceChain p => (s.artifacts p.artifactDigest).map (·.projectId)

def Call.production (s : Service) : Call → Option (BuildArtifact × ProjectTier)
  | .deployProduction artifact tier _ => some (artifact, tier)
  | .promoteWithEvidenceChain p => (s.artifacts p.artifactDigest).map fun artifact => (artifact, p.tier)
  | _ => none

theorem accepted_some {tier : ProjectTier} {checks : Checks}
    (h : accepted s artifact tier checks = some d) : d.artifact = artifact ∧ d.tier = tier ∧
      d.receipt = s.acceptances artifact.artifactDigest ∧ (tier = .commercialPaid → d.receipt.isSome) := by
  unfold accepted at h
  split at h
  · cases h
  · rename_i hgate
    cases h
    refine ⟨rfl, rfl, rfl, ?_⟩
    intro htier
    rw [Option.isSome_iff_ne_none]
    intro hnone
    exact hgate ⟨htier, Option.isNone_iff_eq_none.mpr hnone⟩

structure Deploys (s : Service) (c : Call) (d : Deployment) : Prop where
  production : c.production s = some (d.artifact, d.tier)
  project : c.project s = some d.artifact.projectId
  receipt : d.receipt = (c.provided s).acceptances d.artifact.artifactDigest
  paid : d.tier = .commercialPaid → d.receipt.isSome

theorem deploys_some (h : c.deploys s = some d) : Deploys s c d := by
  cases c with
  | deployProduction artifact tier checks =>
    obtain ⟨rfl, rfl, hreceipt, hpaid⟩ := accepted_some h
    exact ⟨rfl, rfl, hreceipt, hpaid⟩
  | promoteWithEvidenceChain p =>
    unfold Call.deploys at h
    dsimp only at h
    split at h
    · cases h
    · rename_i artifact hcandidate
      split at h
      · cases h
      · obtain ⟨rfl, htier, hreceipt, hpaid⟩ := accepted_some h
        have hartifact := (candidate_ok hcandidate).1
        refine ⟨?_, ?_, ?_, ?_⟩
        · simp only [Call.production, hartifact, Option.map_some, htier]
        · simp only [Call.project, hartifact, Option.map_some]
        · simp only [Call.provided, hcandidate, hreceipt]
        · rw [htier]
          exact hpaid
  | build => cases h
  | deployStaging => cases h
  | recordClientAcceptance => cases h
  | rollbackToPrevious => cases h

theorem provided_cases (s : Service) (c : Call) : c.provided s = s ∨ ∃ p a r, c = .promoteWithEvidenceChain p ∧
    s.artifacts p.artifactDigest = some a ∧ r.artifactDigest = p.artifactDigest ∧
      c.provided s = { s with acceptances := Function.update s.acceptances p.artifactDigest (some r) } := by
  cases c with
  | promoteWithEvidenceChain p =>
    unfold Call.provided
    dsimp only
    split
    · exact Or.inl rfl
    · rename_i a hcandidate
      obtain ⟨ha, hdigest⟩ := candidate_ok hcandidate
      unfold Promotion.provide
      split
      · exact Or.inl rfl
      · rename_i r hr
        exact Or.inr ⟨p, a, r, rfl, ha, hdigest r hr, rfl⟩
  | _ => exact Or.inl rfl

section

variable {s s' : Service} {c : Call} {answer : Except Raised Answer} {d : Deployment}

theorem Did.of_deploys (h : Did s c answer s') (hd : c.deploys s = some d) :
    (Delivered (c.provided s) d s' ∧ ∃ r, answer = .ok (.deployment r)) ∨
      (Failed (c.provided s) d s' ∧ ∃ e, answer = .error e ∧ e.kind = .productionDeploymentFailed) := by
  cases h with
  | failed _ d' e _ hdeploys hkind h =>
    rw [hd] at hdeploys
    cases hdeploys
    exact Or.inr ⟨h, e, rfl, hkind⟩
  | delivered _ d' r _ hdeploys h =>
    rw [hd] at hdeploys
    cases hdeploys
    exact Or.inl ⟨h, r, rfl⟩
  | refused _ _ hdeploys => rw [hd] at hdeploys; cases hdeploys
  | built => cases hd
  | staged => cases hd
  | accepted => cases hd
  | rolledBack => cases hd

theorem Did.of_ok (h : Did s c answer s') {a : BuildArtifact} {tier : ProjectTier} {x : Answer}
    (hproduction : c.production s = some (a, tier)) (hok : answer = .ok x) :
    ∃ d, c.deploys s = some d ∧ d.artifact = a ∧ d.tier = tier ∧ Delivered (c.provided s) d s' := by
  cases h with
  | delivered _ d r _ hdeploys h =>
    have heq := (deploys_some hdeploys).production
    rw [hproduction] at heq
    cases heq
    exact ⟨d, hdeploys, rfl, rfl, h⟩
  | failed => cases hok
  | refused => cases hok
  | built => cases hproduction
  | staged => cases hproduction
  | accepted => cases hproduction
  | rolledBack => cases hproduction

theorem Did.of_failed (h : Did s c answer s') {a : BuildArtifact} {tier : ProjectTier} {e : Raised}
    (hproduction : c.production s = some (a, tier)) (herror : answer = .error e)
    (hkind : e.kind = .productionDeploymentFailed) :
    ∃ d, c.deploys s = some d ∧ d.artifact = a ∧ Failed (c.provided s) d s' := by
  cases h with
  | failed _ d _ _ hdeploys _ h =>
    have heq := (deploys_some hdeploys).production
    rw [hproduction] at heq
    cases heq
    exact ⟨d, hdeploys, rfl, h⟩
  | refused _ e' _ hkind' =>
    cases herror
    exact absurd hkind hkind'
  | delivered => cases herror
  | built => cases hproduction
  | staged => cases hproduction
  | accepted => cases hproduction
  | rolledBack => cases hproduction

theorem Did.of_rollback {projectId reason : String} (h : Did s (.rollbackToPrevious projectId reason) answer s')
    (hcurrent : (s.currentStable projectId).filter (· ≠ "") ≠ none) : RolledBack s projectId s' := by
  cases h with
  | refused _ _ _ _ hnone => exact absurd (hnone projectId reason rfl) hcurrent
  | failed _ _ _ _ hdeploys => cases hdeploys
  | delivered _ _ _ _ hdeploys => cases hdeploys
  | rolledBack _ _ _ _ _ hback => exact hback

end

structure Inv (s : Service) : Prop where
  pointer : ∀ projectId, s.currentStable projectId = (s.stableHistory projectId).getLast?
  chain : ∀ projectId, (s.stableHistory projectId).IsChain (· ≠ ·)
  nonempty : ∀ projectId, ∀ d ∈ s.stableHistory projectId, d ≠ ""
  registry : ∀ d a, s.artifacts d = some a → a.artifactDigest = d
  receipts : ∀ d r, s.acceptances d = some r → r.artifactDigest = d

theorem inv_new : Inv .new := ⟨fun _ => rfl, fun _ => .nil, nofun, nofun, nofun⟩

theorem Inv.accept (h : Inv s) {digest : String} {r : ClientAcceptanceReceipt}
    (hr : r.artifactDigest = digest) : Inv { s with acceptances := Function.update s.acceptances digest (some r) } where
  pointer := h.pointer
  chain := h.chain
  nonempty := h.nonempty
  registry := h.registry
  receipts := by
    intro d r' hr'
    dsimp only at hr'
    by_cases hd : d = digest
    · subst hd
      rw [Function.update_self] at hr'
      cases hr'
      exact hr
    · rw [Function.update_of_ne hd] at hr'
      exact h.receipts d r' hr'

theorem Inv.provided (h : Inv s) (c : Call) : Inv (c.provided s) := by
  rcases provided_cases s c with heq | ⟨p, a, r, -, -, hr, heq⟩
  · rw [heq]
    exact h
  · rw [heq]
    exact h.accept hr

theorem isChain_snoc {d : String} (h : history.IsChain (· ≠ ·)) (hd : history.getLast? ≠ some d) :
    (history ++ [d]).IsChain (· ≠ ·) := by
  rw [List.isChain_append]
  refine ⟨h, .singleton d, ?_⟩
  intro x hx y hy
  cases hy
  rintro rfl
  exact hd hx

theorem Inv.promoted (h : Inv s) (a : BuildArtifact) : Inv (s.promoted a) where
  pointer := by
    intro q
    unfold Service.promoted
    dsimp only
    by_cases hq : q = a.projectId
    · subst hq
      rw [Function.update_self, Function.update_self]
      split
      · rename_i hlast
        exact hlast.symm
      · rw [List.getLast?_concat]
    · rw [Function.update_of_ne hq, Function.update_of_ne hq]
      exact h.pointer q
  chain := by
    intro q
    unfold Service.promoted
    dsimp only
    by_cases hq : q = a.projectId
    · subst hq
      rw [Function.update_self]
      split
      · exact h.chain _
      · rename_i hlast
        exact isChain_snoc (h.chain _) hlast
    · rw [Function.update_of_ne hq]
      exact h.chain q
  nonempty := by
    intro q d hd
    unfold Service.promoted at hd
    dsimp only at hd
    by_cases hq : q = a.projectId
    · subst hq
      rw [Function.update_self] at hd
      split at hd
      · exact h.nonempty _ d hd
      · rcases List.mem_append.mp hd with hd | hd
        · exact h.nonempty _ d hd
        · rw [List.mem_singleton.mp hd]
          intro hempty
          have hlength := a.valid.2.2.2.1
          rw [hempty] at hlength
          cases hlength
    · rw [Function.update_of_ne hq] at hd
      exact h.nonempty q d hd
  registry := h.registry
  receipts := h.receipts

theorem Inv.rolledBack (h : Inv s) {projectId : String} (hback : RolledBack s projectId s') : Inv s' := by
  obtain ⟨receipts, rfl, -⟩ := hback.moved
  have hsub : ∀ q, Function.update s.stableHistory projectId (s.stableHistory projectId).dropLast q <+: s.stableHistory q := by
    intro q
    by_cases hq : q = projectId
    · subst hq
      rw [Function.update_self]
      exact List.dropLast_prefix _
    · have hsame := Function.update_of_ne hq (s.stableHistory projectId).dropLast s.stableHistory
      exact hsame ▸ List.prefix_refl _
  have hchain : ∀ q, (Function.update s.stableHistory projectId (s.stableHistory projectId).dropLast q).IsChain
      (· ≠ ·) := by
    intro q
    obtain ⟨rest, hrest⟩ := hsub q
    exact (hrest ▸ h.chain q).left_of_append
  refine ⟨?_, hchain, fun q d hd => h.nonempty q d ((hsub q).subset hd), h.registry, h.receipts⟩
  intro q
  dsimp only
  by_cases hq : q = projectId
  · subst hq
    rw [Function.update_self, Function.update_self]
  · rw [Function.update_of_ne hq, Function.update_of_ne hq]
    exact h.pointer q

theorem Inv.record (h : Inv s) (r : DeploymentRecord) : Inv (s.record r) :=
  ⟨h.pointer, h.chain, h.nonempty, h.registry, h.receipts⟩

theorem Inv.rollback (h : Inv s) (r : RollbackReceipt) : Inv { s with rollbacks := s.rollbacks ++ [r] } :=
  ⟨h.pointer, h.chain, h.nonempty, h.registry, h.receipts⟩

theorem Inv.step (h : Inv s) (c : Call) : Inv (step sha256 s c) := by
  generalize hanswer : (call sha256 s c).1 = answer
  generalize hs' : ReleasePipeline.step sha256 s c = s'
  have hdid := call_did sha256 s c
  rw [hanswer, hs'] at hdid
  cases hdid with
  | built projectId gitSha manifest imageTag a =>
    refine ⟨h.pointer, h.chain, h.nonempty, ?_, h.receipts⟩
    intro d a' ha'
    dsimp only at ha'
    by_cases hd : d = a.artifactDigest
    · subst hd
      rw [Function.update_self] at ha'
      cases ha'
      rfl
    · rw [Function.update_of_ne hd] at ha'
      exact h.registry d a' ha'
  | staged a checks r => exact h.record r
  | accepted _ _ _ _ _ a r ha hproject hdigest => exact h.accept hdigest
  | refused => exact h.provided c
  | failed _ d e _ _ _ hfailed =>
    obtain ⟨rollback, record, rfl, -⟩ := hfailed.recorded
    exact ((h.provided c).rollback rollback).record record
  | delivered _ d r _ _ hdelivered =>
    obtain ⟨record, rfl, -⟩ := hdelivered.recorded
    exact ((h.provided c).promoted d.artifact).record record
  | rolledBack projectId reason _ _ _ hback => exact h.rolledBack hback

/-- Nothing of a project differs: its pointer, its history, its records, its rollbacks, its artifacts and their
acceptances. -/
structure SameFor (projectId : String) (s s' : Service) : Prop where
  currentStable : s'.currentStable projectId = s.currentStable projectId
  stableHistory : s'.stableHistory projectId = s.stableHistory projectId
  deployments : s'.deployments projectId = s.deployments projectId
  rollbacks : s'.rollbacks.filter (fun r => decide (r.projectId = projectId)) =
    s.rollbacks.filter (fun r => decide (r.projectId = projectId))
  artifacts : ∀ d a, s.artifacts d = some a → a.projectId = projectId →
    s'.artifacts d = some a ∧ s'.acceptances d = s.acceptances d

structure Rollback where
  projectId : String
  failed : String
  /-- what was stable before -/
  earlier : List String

/-- The rollback that a call makes: the requested one, or the automatic one of a failed production deployment. -/
def Call.rollback (s : Service) : Call → Option Rollback
  | .rollbackToPrevious projectId _ =>
    (s.currentStable projectId).map fun current => ⟨projectId, current, (s.stableHistory projectId).dropLast⟩
  | c =>
    match (call sha256 s c).1, c.production s with
    | .error e, some (a, _) =>
      if e.kind = .productionDeploymentFailed then some ⟨a.projectId, a.artifactDigest, s.stableHistory a.projectId⟩
      else none
    | _, _ => none

/-- The project is back on an artifact that was stable before and is not the failed one; when there was none, on no
artifact. The receipts say so. -/
structure Restored (rollback : Rollback) (s s' : Service) : Prop where
  target : (rollback.earlier = [] ∧ s'.currentStable rollback.projectId = none) ∨
    ∃ d ∈ rollback.earlier, s'.currentStable rollback.projectId = some d ∧ d ≠ rollback.failed
  receipts : ∃ receipts, s'.rollbacks = s.rollbacks ++ receipts ∧ ∀ r ∈ receipts, r.projectId = rollback.projectId ∧
    r.failedArtifactDigest = rollback.failed ∧ r.restoredArtifactDigest = s'.currentStable rollback.projectId

def reached (before : List Call) : Service := Runs.run (step sha256) .new before

def StagedBefore (before : List Call) (a : BuildArtifact) : Prop :=
  ∃ m ∈ Runs.moves (step sha256) .new before, ∃ a' checks answer, m.act = .deployStaging a' checks ∧
    (call sha256 m.pre m.act).1 = .ok answer ∧ a'.projectId = a.projectId ∧ a'.artifactDigest = a.artifactDigest

/-- What a call owes that comes after the calls `before`. -/
structure Kept (before : List Call) (c : Call) : Prop where
  pointer : ∀ projectId, (step sha256 (reached sha256 before) c).currentStable projectId =
    ((step sha256 (reached sha256 before) c).stableHistory projectId).getLast?
  isolated : (∀ projectId gitSha manifest imageTag, c ≠ .build projectId gitSha manifest imageTag) →
    ∀ projectId, c.project (reached sha256 before) ≠ some projectId →
      SameFor projectId (reached sha256 before) (step sha256 (reached sha256 before) c)
  staged : ∀ a tier answer, c.production (reached sha256 before) = some (a, tier) →
    (call sha256 (reached sha256 before) c).1 = .ok answer → StagedBefore sha256 before a
  accepted : ∀ a answer, c.production (reached sha256 before) = some (a, .commercialPaid) →
    (call sha256 (reached sha256 before) c).1 = .ok answer →
      ∃ r, (step sha256 (reached sha256 before) c).acceptances a.artifactDigest = some r ∧
        r.artifactDigest = a.artifactDigest ∧ r.projectId = a.projectId
  restored : ∀ rollback, c.rollback sha256 (reached sha256 before) = some rollback →
    Restored rollback (reached sha256 before) (step sha256 (reached sha256 before) c)

def Staged (s : Service) (a : BuildArtifact) : Prop :=
  ∃ r ∈ s.deployments a.projectId, r.stage = .stagingDeployed ∧ r.artifactDigest = a.artifactDigest

/-- A deployment that the gates let through passes its checks only for a staged artifact and, for a paying project,
with a receipt of that project; and fails them only when it is not of the stable artifact itself. -/
structure Sound (s : Service) (c : Call) : Prop where
  staged : ∀ d, c.deploys s = some d → d.checks.passed = true → Staged s d.artifact
  accepted : ∀ d r, c.deploys s = some d → d.checks.passed = true → d.tier = .commercialPaid → d.receipt = some r →
    r.projectId = d.artifact.projectId
  fresh : ∀ d, c.deploys s = some d → d.checks.passed = false →
    s.currentStable d.artifact.projectId ≠ some d.artifact.artifactDigest

section

variable {q : String} {s s' s'' : Service}

theorem SameFor.refl (q : String) (s : Service) : SameFor q s s := ⟨rfl, rfl, rfl, rfl, fun _ _ h _ => ⟨h, rfl⟩⟩

theorem SameFor.trans (h : SameFor q s s') (h' : SameFor q s' s'') : SameFor q s s'' where
  currentStable := h'.currentStable.trans h.currentStable
  stableHistory := h'.stableHistory.trans h.stableHistory
  deployments := h'.deployments.trans h.deployments
  rollbacks := h'.rollbacks.trans h.rollbacks
  artifacts := by
    intro d a ha hq
    obtain ⟨ha', hacceptances⟩ := h.artifacts d a ha hq
    obtain ⟨ha'', hacceptances'⟩ := h'.artifacts d a ha' hq
    exact ⟨ha'', hacceptances'.trans hacceptances⟩

theorem sameFor_record {r : DeploymentRecord} (hr : r.projectId ≠ q) : SameFor q s (s.record r) :=
  ⟨rfl, rfl, Function.update_of_ne (Ne.symm hr) _ _, rfl, fun _ _ h _ => ⟨h, rfl⟩⟩

theorem filter_rollbacks {rollbacks receipts : List RollbackReceipt} (h : ∀ r ∈ receipts, r.projectId ≠ q) :
    (rollbacks ++ receipts).filter (fun r => decide (r.projectId = q)) =
      rollbacks.filter (fun r => decide (r.projectId = q)) := by
  rw [List.filter_append, List.append_right_eq_self, List.filter_eq_nil_iff]
  intro r hr
  rw [decide_eq_true_eq]
  exact h r hr

theorem sameFor_rollbacks {receipts : List RollbackReceipt} (h : ∀ r ∈ receipts, r.projectId ≠ q) :
    SameFor q s { s with rollbacks := s.rollbacks ++ receipts } :=
  ⟨rfl, rfl, rfl, filter_rollbacks h, fun _ _ h _ => ⟨h, rfl⟩⟩

theorem sameFor_promoted {a : BuildArtifact} (ha : a.projectId ≠ q) : SameFor q s (s.promoted a) :=
  ⟨Function.update_of_ne (Ne.symm ha) _ _, Function.update_of_ne (Ne.symm ha) _ _, rfl, rfl, fun _ _ h _ => ⟨h, rfl⟩⟩

theorem sameFor_accept {digest : String} {a : BuildArtifact} {r : ClientAcceptanceReceipt}
    (ha : s.artifacts digest = some a) (hq : a.projectId ≠ q) :
    SameFor q s { s with acceptances := Function.update s.acceptances digest (some r) } := by
  refine ⟨rfl, rfl, rfl, rfl, ?_⟩
  intro d a' ha' hq'
  refine ⟨ha', Function.update_of_ne ?_ _ _⟩
  rintro rfl
  rw [ha] at ha'
  cases ha'
  exact hq hq'

theorem sameFor_provided {c : Call} (hq : c.project s ≠ some q) : SameFor q s (c.provided s) := by
  rcases provided_cases s c with heq | ⟨p, a, r, rfl, ha, -, heq⟩
  · rw [heq]
    exact .refl q s
  · rw [heq]
    refine sameFor_accept ha ?_
    rintro rfl
    exact hq (by simp only [Call.project, ha, Option.map_some])

theorem sameFor_rolledBack {projectId : String} (h : RolledBack s projectId s') (hq : projectId ≠ q) : SameFor q s s' := by
  obtain ⟨receipts, rfl, hreceipts⟩ := h.moved
  refine ⟨Function.update_of_ne (Ne.symm hq) _ _, Function.update_of_ne (Ne.symm hq) _ _, rfl, filter_rollbacks ?_,
    fun _ _ h _ => ⟨h, rfl⟩⟩
  intro r hr
  rw [(hreceipts r hr).1]
  exact hq

end

theorem call_isolated {q : String}
    (hbuild : ∀ projectId gitSha manifest imageTag, c ≠ .build projectId gitSha manifest imageTag)
    (hq : c.project s ≠ some q) : SameFor q s (step sha256 s c) := by
  generalize hanswer : (call sha256 s c).1 = answer
  generalize hs' : step sha256 s c = s'
  have hdid := call_did sha256 s c
  rw [hanswer, hs'] at hdid
  cases hdid with
  | built => exact absurd rfl (hbuild _ _ _ _)
  | staged a checks r hproject =>
    refine sameFor_record ?_
    rw [hproject]
    exact fun h => hq (congrArg some h)
  | accepted _ _ _ _ _ a r ha hproject =>
    refine sameFor_accept ha ?_
    rw [hproject]
    exact fun h => hq (congrArg some h)
  | refused => exact sameFor_provided hq
  | failed _ d _ _ hdeploys _ hfailed =>
    obtain ⟨rollback, record, rfl, hproject, -, -, hrecord, -⟩ := hfailed.recorded
    have hne : d.artifact.projectId ≠ q := by
      rintro rfl
      exact hq (deploys_some hdeploys).project
    refine (sameFor_provided hq).trans (.trans (sameFor_rollbacks ?_) (sameFor_record (hrecord ▸ hne)))
    intro r hr
    rw [List.mem_singleton.mp hr, hproject]
    exact hne
  | delivered _ d r _ hdeploys hdelivered =>
    obtain ⟨record, rfl, hrecord, -⟩ := hdelivered.recorded
    have hne : d.artifact.projectId ≠ q := by
      rintro rfl
      exact hq (deploys_some hdeploys).project
    exact (sameFor_provided hq).trans (.trans (sameFor_promoted hne) (sameFor_record (hrecord ▸ hne)))
  | rolledBack projectId _ _ _ _ hback => exact sameFor_rolledBack hback fun h => hq (congrArg some h)

theorem staged_record {r : DeploymentRecord} {a : BuildArtifact} : Staged (s.record r) a ↔
    Staged s a ∨ (r.projectId = a.projectId ∧ r.stage = .stagingDeployed ∧ r.artifactDigest = a.artifactDigest) := by
  unfold Staged Service.record
  dsimp only
  by_cases hproject : r.projectId = a.projectId
  · rw [← hproject, Function.update_self]
    simp only [List.mem_append, List.mem_singleton, or_and_right, exists_or, exists_eq_left, true_and]
  · rw [Function.update_of_ne (Ne.symm hproject)]
    simp only [hproject, false_and, or_false]

theorem staged_step (s : Service) (c : Call) (a : BuildArtifact) : Staged (step sha256 s c) a ↔
    Staged s a ∨ ∃ a' checks answer, c = .deployStaging a' checks ∧ (call sha256 s c).1 = .ok answer ∧
      a'.projectId = a.projectId ∧ a'.artifactDigest = a.artifactDigest := by
  generalize hanswer : (call sha256 s c).1 = answer
  generalize hs' : step sha256 s c = s'
  have hdid := call_did sha256 s c
  rw [hanswer, hs'] at hdid
  have hprovided : Staged (c.provided s) a ↔ Staged s a := by
    rcases provided_cases s c with heq | ⟨_, _, _, _, _, _, heq⟩
    · rw [heq]
    · rw [heq]
      exact Iff.rfl
  have hnone : ∀ {s' : Service}, (Staged s' a ↔ Staged s a) →
      (∀ a' checks, c ≠ .deployStaging a' checks) ∨ (∃ e, answer = .error e) →
      (Staged s' a ↔ Staged s a ∨ ∃ a' checks answer', c = .deployStaging a' checks ∧ answer = .ok answer' ∧
        a'.projectId = a.projectId ∧ a'.artifactDigest = a.artifactDigest) := by
    intro s' h hc
    rw [h, or_iff_left]
    rintro ⟨a', checks, answer', hstaging, hok, -⟩
    rcases hc with hc | ⟨e, he⟩
    · exact hc a' checks hstaging
    · rw [hok] at he
      cases he
  cases hdid with
  | built => exact hnone Iff.rfl (Or.inl fun _ _ h => by cases h)
  | accepted => exact hnone Iff.rfl (Or.inl fun _ _ h => by cases h)
  | refused => exact hnone hprovided (Or.inr ⟨_, rfl⟩)
  | failed _ d _ _ _ _ hfailed =>
    obtain ⟨rollback, record, rfl, -, -, -, -, hstage⟩ := hfailed.recorded
    refine hnone ?_ (Or.inr ⟨_, rfl⟩)
    rw [staged_record, or_iff_left (fun h => hstage h.2.1)]
    exact hprovided
  | delivered _ d _ _ hdeploys hdelivered =>
    obtain ⟨record, rfl, -, hstage⟩ := hdelivered.recorded
    refine hnone ?_ (Or.inl ?_)
    · rw [staged_record, or_iff_left (fun h => hstage h.2.1)]
      exact hprovided
    · rintro _ _ rfl
      cases hdeploys
  | rolledBack _ _ _ _ _ hback =>
    obtain ⟨receipts, rfl, -⟩ := hback.moved
    exact hnone Iff.rfl (Or.inl fun _ _ h => by cases h)
  | staged a' checks r hproject hdigest hstage =>
    rw [staged_record, hproject, hdigest]
    constructor
    · rintro (h | ⟨h, -, h'⟩)
      · exact Or.inl h
      · exact Or.inr ⟨a', checks, _, rfl, rfl, h, h'⟩
    · rintro (h | ⟨a'', checks', _, heq, -, h, h'⟩)
      · exact Or.inl h
      · cases heq
        exact Or.inr ⟨h, hstage, h'⟩

theorem stagedBefore_iff (before : List Call) (a : BuildArtifact) :
    StagedBefore sha256 before a ↔ Staged (reached sha256 before) a := by
  induction before using List.reverseRecOn with
  | nil =>
    constructor
    · rintro ⟨m, hm, -⟩
      cases hm
    · rintro ⟨r, hr, -⟩
      cases hr
  | append_singleton before c ih =>
    have hreached : reached sha256 (before ++ [c]) = step sha256 (reached sha256 before) c := Runs.run_append ..
    rw [hreached, staged_step, ← ih]
    unfold StagedBefore
    rw [Runs.moves_append]
    simp only [List.mem_append, or_and_right, exists_or, Runs.moves, List.mem_singleton, exists_eq_left]
    exact Iff.rfl

theorem inv_reached (before : List Call) : Inv (reached sha256 before) :=
  Runs.run_invariant (fun _ c h => h.step sha256 c) inv_new before

theorem provided_kept (s : Service) (c : Call) : (c.provided s).currentStable = s.currentStable ∧
    (c.provided s).stableHistory = s.stableHistory ∧ (c.provided s).rollbacks = s.rollbacks := by
  rcases provided_cases s c with heq | ⟨_, _, _, _, _, _, heq⟩ <;> rw [heq] <;> exact ⟨rfl, rfl, rfl⟩

theorem last_ne (h : history.IsChain (· ≠ ·)) {c d : String} (hc : history.getLast? = some c)
    (hd : history.dropLast.getLast? = some d) : d ≠ c := by
  have hne : history ≠ [] := by
    rintro rfl
    cases hc
  rw [List.getLast?_eq_some_getLast hne] at hc
  have hsplit : history.dropLast ++ [c] = history := by
    rw [← Option.some.inj hc]
    exact List.dropLast_append_getLast hne
  rw [← hsplit, List.isChain_append] at h
  exact h.2.2 d hd c rfl

theorem rollback_cases {rollback : Rollback} (h : c.rollback sha256 s = some rollback) :
    (∃ projectId reason current, c = .rollbackToPrevious projectId reason ∧ s.currentStable projectId = some current ∧
      rollback = ⟨projectId, current, (s.stableHistory projectId).dropLast⟩) ∨
    ∃ a tier e, c.production s = some (a, tier) ∧ (call sha256 s c).1 = .error e ∧
      e.kind = .productionDeploymentFailed ∧ rollback = ⟨a.projectId, a.artifactDigest, s.stableHistory a.projectId⟩ := by
  unfold Call.rollback at h
  split at h
  · rename_i projectId reason
    obtain ⟨current, hcurrent, rfl⟩ := Option.map_eq_some_iff.mp h
    exact Or.inl ⟨projectId, reason, current, rfl, hcurrent, rfl⟩
  · split at h
    · rename_i e a tier herror hproduction
      split at h
      · rename_i hkind
        cases h
        exact Or.inr ⟨a, tier, e, hproduction, herror, hkind, rfl⟩
      · cases h
    · cases h

theorem rollback_failed {e : Raised} (hd : c.deploys s = some d)
    (herror : (call sha256 s c).1 = .error e) (hkind : e.kind = .productionDeploymentFailed) :
    c.rollback sha256 s =
      some ⟨d.artifact.projectId, d.artifact.artifactDigest, s.stableHistory d.artifact.projectId⟩ := by
  unfold Call.rollback
  split
  · cases hd
  · rw [herror, (deploys_some hd).production]
    exact if_pos hkind

theorem requested_restored (hinv : Inv s) {projectId : String} (h : RolledBack s projectId s')
    {current : String} (hcurrent : s.currentStable projectId = some current) :
    Restored ⟨projectId, current, (s.stableHistory projectId).dropLast⟩ s s' := by
  obtain ⟨receipts, rfl, hreceipts⟩ := h.moved
  refine ⟨?_, receipts, rfl, ?_⟩
  · dsimp only
    rw [Function.update_self]
    cases htarget : (s.stableHistory projectId).dropLast.getLast? with
    | none => exact Or.inl ⟨List.getLast?_eq_none_iff.mp htarget, rfl⟩
    | some d =>
      have hlast : (s.stableHistory projectId).getLast? = some current := (hinv.pointer projectId).symm.trans hcurrent
      exact Or.inr ⟨d, List.mem_of_getLast? htarget, rfl, last_ne (hinv.chain projectId) hlast htarget⟩
  · intro r hr
    obtain ⟨hproject, hfailed, hrestored⟩ := hreceipts r hr
    rw [hcurrent] at hfailed
    dsimp only
    rw [Function.update_self]
    exact ⟨hproject, Option.some.inj hfailed, hrestored⟩

theorem Failed.currentStable (h : Failed (c.provided s) d s') : s'.currentStable = s.currentStable := by
  obtain ⟨rollback, record, rfl, -⟩ := h.recorded
  exact (provided_kept s c).1

theorem automatic_restored (hinv : Inv s) {c : Call} {d : Deployment} (h : Failed (c.provided s) d s') :
    Restored ⟨d.artifact.projectId, d.artifact.artifactDigest, s.stableHistory d.artifact.projectId⟩ s s' ↔
      s.currentStable d.artifact.projectId ≠ some d.artifact.artifactDigest := by
  have hcurrent := h.currentStable
  constructor
  · intro hrestored hstable
    rcases hrestored.target with ⟨-, hnone⟩ | ⟨digest, -, hsome, hne⟩
    · rw [hcurrent] at hnone
      dsimp only at hnone
      rw [hstable] at hnone
      cases hnone
    · rw [hcurrent] at hsome
      dsimp only at hsome hne
      rw [hstable] at hsome
      exact hne (Option.some.inj hsome).symm
  · intro hne
    refine ⟨?_, ?_⟩
    · rw [hcurrent]
      dsimp only
      cases hstable : s.currentStable d.artifact.projectId with
      | none => exact Or.inl ⟨List.getLast?_eq_none_iff.mp ((hinv.pointer _).symm.trans hstable), rfl⟩
      | some digest =>
        refine Or.inr ⟨digest, List.mem_of_getLast? ((hinv.pointer _).symm.trans hstable), rfl, ?_⟩
        rintro rfl
        exact hne hstable
    · obtain ⟨rollback, record, rfl, hproject, hfailed, hrestored, -⟩ := h.recorded
      obtain ⟨hcurrent', -, hrollbacks⟩ := provided_kept s c
      refine ⟨[rollback], congrArg (· ++ [rollback]) hrollbacks, ?_⟩
      intro r hr
      rw [List.mem_singleton.mp hr]
      exact ⟨hproject, hfailed, hrestored⟩

theorem Delivered.acceptances (h : Delivered s d s') : s'.acceptances = s.acceptances := by
  obtain ⟨record, rfl, -⟩ := h.recorded
  rfl

theorem Sound.kept {before : List Call} (h : Sound (reached sha256 before) c) : Kept sha256 before c := by
  have hinv := inv_reached sha256 before
  have hdid := call_did sha256 (reached sha256 before) c
  constructor
  case pointer => exact (hinv.step sha256 c).pointer
  case isolated =>
    intro hbuild projectId hproject
    exact call_isolated sha256 hbuild hproject
  case staged =>
    intro a tier answer hproduction hok
    obtain ⟨d, hd, rfl, -, hdelivered⟩ := hdid.of_ok hproduction hok
    exact (stagedBefore_iff sha256 before d.artifact).mpr (h.staged d hd hdelivered.passed)
  case accepted =>
    intro a answer hproduction hok
    obtain ⟨d, hd, rfl, htier, hdelivered⟩ := hdid.of_ok hproduction hok
    have hdeploys := deploys_some hd
    obtain ⟨r, hr⟩ := Option.isSome_iff_exists.mp (hdeploys.paid htier)
    have hrecord := hdeploys.receipt.symm.trans hr
    rw [hdelivered.acceptances]
    exact ⟨r, hrecord, (hinv.provided c).receipts _ _ hrecord, h.accepted d r hd hdelivered.passed htier hr⟩
  case restored =>
    intro rollback hrollback
    rcases rollback_cases sha256 hrollback with ⟨projectId, reason, current, rfl, hcurrent, rfl⟩ |
      ⟨a, tier, e, hproduction, herror, hkind, rfl⟩
    · refine requested_restored hinv (hdid.of_rollback ?_) hcurrent
      have hnonempty := hinv.nonempty projectId current
        (List.mem_of_getLast? ((hinv.pointer projectId).symm.trans hcurrent))
      rw [hcurrent, Option.filter_some, if_pos (decide_eq_true hnonempty)]
      nofun
    · obtain ⟨d, hd, rfl, hfailed⟩ := hdid.of_failed hproduction herror hkind
      exact (automatic_restored hinv hfailed).mpr (h.fresh d hd hfailed.passed)

theorem Kept.sound {before : List Call} (h : Kept sha256 before c) : Sound (reached sha256 before) c := by
  have hinv := inv_reached sha256 before
  have hdid := call_did sha256 (reached sha256 before) c
  constructor
  case staged =>
    intro d hd hpassed
    rcases hdid.of_deploys hd with ⟨-, r, hok⟩ | ⟨hfailed, -⟩
    · exact (stagedBefore_iff sha256 before d.artifact).mp (h.staged _ _ _ (deploys_some hd).production hok)
    · rw [hfailed.passed] at hpassed
      cases hpassed
  case accepted =>
    intro d r hd hpassed htier hr
    rcases hdid.of_deploys hd with ⟨hdelivered, answer, hok⟩ | ⟨hfailed, -⟩
    · have hdeploys := deploys_some hd
      have hproduction := hdeploys.production
      rw [htier] at hproduction
      obtain ⟨r', hr', -, hproject⟩ := h.accepted _ _ hproduction hok
      rw [hdelivered.acceptances, ← hdeploys.receipt, hr] at hr'
      cases hr'
      exact hproject
    · rw [hfailed.passed] at hpassed
      cases hpassed
  case fresh =>
    intro d hd hpassed
    rcases hdid.of_deploys hd with ⟨hdelivered, -⟩ | ⟨hfailed, e, herror, hkind⟩
    · rw [hdelivered.passed] at hpassed
      cases hpassed
    · exact (automatic_restored hinv hfailed).mp (h.restored _ (rollback_failed sha256 hd herror hkind))

/-- Every call of a run keeps what it owes exactly if every one is sound. -/
theorem releases_kept (calls : List Call) :
    (∀ before c after, calls = before ++ c :: after → Kept sha256 before c) ↔
      ∀ before c after, calls = before ++ c :: after → Sound (reached sha256 before) c := by
  constructor
  · intro h before c after heq
    exact (h before c after heq).sound
  · intro h before c after heq
    exact (h before c after heq).kept

end

def zeros : String := "0000000000000000000000000000000000000000000000000000000000000000"

theorem zeros_length : zeros.length = 64 := by
  rw [← String.length_toList]
  unfold zeros
  rw [String.toList_ofList]
  rfl

def shopArtifact : BuildArtifact :=
  ⟨"shop", "1234567", zeros, zeros, "shop:1", by decide, by decide, by decide, zeros_length, zeros_length, by decide⟩

def otherReceipt : ClientAcceptanceReceipt :=
  ⟨"acc_1", "bank", zeros, "cfo", "Alice", true, zeros, by decide, by decide, zeros_length, by decide, by decide,
    zeros_length⟩

def checksOf (smokePassed : Bool) : Checks := ⟨none, true, none, smokePassed, "smk_prd_1"⟩

def shopBuild : Call := .build "shop" "1234567" "\x7b\x7d" (some "shop:1")

def shopPromotion : Promotion := ⟨zeros, .commercialPaid, checksOf true, false, none, some otherReceipt⟩

/-- A paying project goes to production on the receipt of another one; an artifact goes there that was never staged; and
the stable artifact, failing a second deployment, is "restored" by its own rollback. -/
theorem promoted_on_other_receipt :
    ¬ Kept (fun _ => zeros) [shopBuild, .deployStaging shopArtifact (checksOf true)]
      (.promoteWithEvidenceChain shopPromotion) ∧
    ¬ Kept (fun _ => zeros) [shopBuild] (.deployProduction shopArtifact .internalFree (checksOf true)) ∧
    ¬ Kept (fun _ => zeros)
      [shopBuild, .deployStaging shopArtifact (checksOf true),
        .deployProduction shopArtifact .internalFree (checksOf true)]
      (.deployProduction shopArtifact .internalFree (checksOf false)) := by
  refine ⟨?_, ?_, ?_⟩
  · intro h
    have hproject := h.sound.accepted ⟨shopArtifact, .commercialPaid, checksOf true, some otherReceipt⟩ otherReceipt
      (by rfl) rfl rfl rfl
    exact absurd hproject (by decide)
  · intro h
    obtain ⟨r, hr, -⟩ := h.sound.staged ⟨shopArtifact, .internalFree, checksOf true, none⟩ (by rfl) rfl
    cases hr
  · intro h
    exact h.sound.fresh ⟨shopArtifact, .internalFree, checksOf false, none⟩ (by rfl) rfl (by rfl)

end ReleasePipeline
end Orchestrator
end DarkFactory
