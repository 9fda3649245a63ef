import Mathlib.Data.List.Dedup
import DarkFactory.Lib.Calls
import DarkFactory.Workflow.Readiness

/-!
# DarkFactory.Workflow.DeliveryGate

What `mark_delivered` vouches for when it returns.

* `Reviewed`, `Covered`, `Resolved`, `Approved` — the four proofs of a delivery.
-/

namespace DarkFactory
namespace Workflow
namespace Readiness

open Calls

variable {handoff : WorkflowHandoff} {c : VerificationContext}

/-- Observed in the past, and no longer ago than what is allowed for the name. -/
structure Recent (c : VerificationContext) (name : String) (r : EvidenceReceipt) : Prop where
  past : 0 ≤ c.age r.observedAt
  unexpired : c.age r.observedAt ≤ (c.maxAge name : Rat)

/-- A review of the ticket by someone else than the implementer, of no other candidate. -/
structure Reviewed (handoff : WorkflowHandoff) (c : VerificationContext) (r : EvidenceReceipt) : Prop where
  passed : r.result = .passed
  recent : Recent c r.requirement r
  ticket : r.subject = handoff.ticketId
  independent : r.producer.subject ≠ c.expectedIdentity.subject
  candidate : ∀ digest, r.candidateDigest = some digest → digest = c.candidateDigest
  review : r.requirement ∈ reviewRequirements ∨ r.producer.role ∈ reviewRoles

/-- Evidence from the target environment, of this ticket and candidate. -/
structure Covered (handoff : WorkflowHandoff) (c : VerificationContext) (reqId : String) (r : EvidenceReceipt) :
    Prop where
  passed : r.result = .passed
  recent : Recent c reqId r
  ticket : r.subject = handoff.ticketId
  candidate : r.candidateDigest = some c.candidateDigest
  target : r.mode = .targetEnvironment

structure Resolved (handoff : WorkflowHandoff) (c : VerificationContext) (d : ManualDependency) (r : EvidenceReceipt) :
    Prop where
  passed : r.result = .passed
  probe : r.requirement = d.finalProbe ∨ r.requirement = d.dependencyId
  subject : r.subject ∈ handoff.ticketId :: d.dependencyId :: d.ticketIds
  later : d.createdAt ≤ r.observedAt
  recent : Recent c d.dependencyId r

structure Approved (handoff : WorkflowHandoff) (c : VerificationContext) (approval : PlanApproval) : Prop where
  digest : approval.planDigest = c.planDigest
  tier : approval.plannerTier = handoff.plannerTier
  planner : approval.plannerTier ≠ .economy

theorem when_eq_nil {p : Bool} {r : Reason} : when p r = [] ↔ p = false := by
  unfold when
  cases p <;> simp

theorem issue_none {p : Prop} [Decidable p] {r : Reason} {o : Option Reason} :
    (if p then some r else o) = none ↔ ¬p ∧ o = none := by
  split
  · rename_i hp
    simp [hp]
  · rename_i hp
    simp [hp]

theorem concat_reasons (fs : List Findings) : (Findings.concat fs).reasons = fs.flatMap Findings.reasons := by
  induction fs with
  | nil => rfl
  | cons f fs ih =>
    rw [List.flatMap_cons, ← ih]
    rfl

theorem concat_clear {fs : List Findings} (h : (Findings.concat fs).reasons = []) : ∀ f ∈ fs, f.reasons = [] := by
  rw [concat_reasons, List.flatMap_eq_nil_iff] at h
  exact h

variable {r : EvidenceReceipt} {reqId : String} {context : Option VerificationContext}

theorem dependencyReceipt_clear {d : ManualDependency}
    (h : manualDependencyReceiptIssue handoff d c r = none) : Resolved handoff c d r := by
  unfold manualDependencyReceiptIssue at h
  simp only [issue_none] at h
  obtain ⟨hpassed, hprobe, hsubject, h⟩ := h
  split at h
  · cases h
  · split at h
    · cases h
    · simp only [issue_none] at h
      obtain ⟨_, holder, hfuture, hexpired, _⟩ := h
      refine ⟨not_not.mp hpassed, ?_, not_not.mp hsubject, not_lt.mp holder, not_lt.mp hfuture, not_lt.mp hexpired⟩
      by_cases hfinal : r.requirement = d.finalProbe
      · exact .inl hfinal
      · exact .inr (not_not.mp fun hne => hprobe ⟨hfinal, hne⟩)

theorem manualDependency_clear {requested : WorkflowState} {d : ManualDependency}
    (h : (checkManualDependency handoff requested (some c) d).reasons = []) (hticket : handoff.ticketId ∈ d.ticketIds)
    (hstage : d.blockedStages = [] ∨ requested ∈ d.blockedStages) :
    d.status = .resolved ∧ ∃ ref r, d.resolutionReceiptRef = some ref ∧ c.resolveReceipt ref = some r ∧
      Resolved handoff c d r := by
  unfold checkManualDependency at h
  have hblocks : ¬ (d.blockedStages ≠ [] ∧ requested ∉ d.blockedStages) := by
    rintro ⟨hne, hnot⟩
    rcases hstage with hnil | hmem
    · exact hne hnil
    · exact hnot hmem
  rw [if_neg (not_not.mpr hticket), if_neg hblocks] at h
  split at h
  · cases h
  · rename_i hstatus
    split at h
    · cases h
    · rename_i c' heq
      cases heq
      split at h
      · cases h
      · rename_i ref href
        split at h
        · cases h
        · rename_i r hr
          split at h
          · cases h
          · rename_i hissue
            exact ⟨not_not.mp hstatus, ref, r, (Option.filter_eq_some_iff.mp href).1, hr,
              dependencyReceipt_clear hissue⟩

theorem planApproval_clear (h : checkPlanApproval handoff (some c) = []) :
    ∃ approval, c.resolveApproval handoff.approvalReference = some approval ∧ Approved handoff c approval := by
  unfold checkPlanApproval at h
  dsimp only at h
  split at h
  · cases h
  · rename_i approval happroval
    simp only [List.append_eq_nil_iff, when_eq_nil, decide_eq_false_iff_not, not_not] at h
    obtain ⟨⟨⟨⟨hdigest, _⟩, htier⟩, heconomy⟩, _⟩ := h
    exact ⟨approval, happroval, hdigest, htier, heconomy⟩

theorem not_differs {a : Option String} {b : String} (h : ¬ differs a b = true) : ∀ x, a = some x → x = b := by
  rintro x rfl
  exact not_not.mp fun hne => h (decide_eq_true hne)

theorem receiptAuthorization_clear
    (h : receiptAuthorizationIssue handoff reqId .delivered c r = none) : r.mode = .targetEnvironment := by
  unfold receiptAuthorizationIssue at h
  simp only [issue_none] at h
  obtain ⟨_, _, _, htarget, _⟩ := h
  exact not_not.mp fun hne => htarget ⟨trivial, hne⟩

theorem receiptBinding_clear (h : receiptBindingIssue handoff reqId .delivered c r = none) :
    r.candidateDigest = some c.candidateDigest ∧ r.mode = .targetEnvironment := by
  unfold receiptBindingIssue at h
  simp only [issue_none] at h
  obtain ⟨_, hcandidate, hbound, _, _, _, _, hauthorized⟩ := h
  refine ⟨?_, receiptAuthorization_clear hauthorized⟩
  cases hdigest : r.candidateDigest with
  | none => exact absurd ⟨trivial, hdigest⟩ hbound
  | some digest => rw [not_differs hcandidate digest hdigest]

theorem contextReceipt_clear
    (h : contextReceiptIssue handoff reqId .delivered c r = none) : Covered handoff c reqId r := by
  unfold contextReceiptIssue at h
  simp only [issue_none] at h
  obtain ⟨hpassed, hfuture, hexpired, hticket, hbinding⟩ := h
  obtain ⟨hdigest, htarget⟩ := receiptBinding_clear hbinding
  exact ⟨not_not.mp hpassed, ⟨not_lt.mp hfuture, not_lt.mp hexpired⟩, not_not.mp hticket, hdigest, htarget⟩

theorem contextEvidence_clear (h : (checkContextEvidence handoff .delivered c reqId).reasons = []) :
    (∃ exemption, c.resolveExemption reqId = some exemption ∧ exemption.isOperational = false ∧
      exemption.isValidAt c.now = true) ∨
    ∃ r, c.resolveReceipt reqId = some r ∧ Covered handoff c reqId r := by
  unfold checkContextEvidence at h
  split at h
  · rename_i exemption hexemption
    split at h
    · cases h
    · rename_i hoperational
      split at h
      · cases h
      · rename_i hvalid
        refine .inl ⟨exemption, hexemption, ?_, ?_⟩
        · rw [← Bool.not_eq_true]
          exact fun htrue => hoperational ⟨rfl, htrue⟩
        · rwa [Bool.not_eq_false] at hvalid
  · split at h
    · cases h
    · rename_i r hr
      split at h
      · cases h
      · rename_i hissue
        exact .inr ⟨r, hr, contextReceipt_clear hissue⟩

theorem mem_requiredIds {requested : WorkflowState} :
    reqId ∈ requiredIds handoff requested context ↔
      (∃ c policy, context = some c ∧ c.policy = some policy ∧ reqId ∈ policy.requirementsForStage requested) ∨
        ∃ req ∈ handoff.requiredEvidence, req.evidenceId = reqId ∧ req.requiredFor ∈ applicability requested := by
  unfold requiredIds
  rw [(sortAsc_perm id _).mem_iff, List.mem_dedup, List.mem_append]
  refine or_congr ?_ ?_
  · cases context with
    | none => simp
    | some c => cases hpolicy : c.policy <;> simp [hpolicy]
  · simp only [List.mem_map, List.mem_filter, decide_eq_true_eq]
    constructor
    · rintro ⟨req, ⟨hmem, happlies⟩, rfl⟩
      exact ⟨req, hmem, rfl, happlies⟩
    · rintro ⟨req, hmem, rfl, happlies⟩
      exact ⟨req, ⟨hmem, happlies⟩, rfl⟩

theorem delivery_clear (h : checkDelivery handoff .delivered (some c) = []) :
    (handoff.state = .independentReview ∨ handoff.state = .delivered) ∧
      ∃ e ∈ c.receipts, Reviewed handoff c e.2 := by
  unfold checkDelivery deliveryReceiptProofs at h
  rw [if_neg (not_not.mpr rfl)] at h
  simp only [List.append_eq_nil_iff, when_eq_nil] at h
  obtain ⟨⟨⟨hstate, _⟩, _⟩, hreview, _⟩ := h
  constructor
  · by_cases hindependent : handoff.state = .independentReview
    · exact .inl hindependent
    · right
      rw [decide_eq_true hindependent, Bool.true_and, decide_eq_false_iff_not, not_not] at hstate
      exact hstate
  · rw [Bool.not_eq_false', List.any_eq_true] at hreview
    obtain ⟨r, hr, hreview⟩ := hreview
    obtain ⟨hmem, hproves⟩ := List.mem_filter.mp hr
    obtain ⟨e, he, rfl⟩ := List.mem_map.mp hmem
    unfold provesDelivery at hproves
    unfold isReview at hreview
    simp only [Bool.and_eq_true, Bool.or_eq_true, decide_eq_true_eq, Bool.not_eq_true'] at hproves hreview
    obtain ⟨⟨⟨⟨hpassed, hcandidate⟩, hpast⟩, hunexpired⟩, hticket⟩ := hproves
    obtain ⟨hindependent, hkind⟩ := hreview
    exact ⟨e, he, hpassed, ⟨hpast, hunexpired⟩, hticket, hindependent,
      not_differs (by rw [hcandidate]; exact Bool.false_ne_true), hkind⟩

theorem markDelivered_clear {clock : Rat} {delivered : WorkflowHandoff}
    (h : markDelivered clock handoff context = .ok delivered) :
    delivered = { handoff with state := .delivered } ∧ ∃ c, context = some c ∧
      (checkManualDependencies handoff .delivered (some c)).reasons = [] ∧ checkPlanApproval handoff (some c) = [] ∧
      (checkEvidence clock handoff .delivered (some c)).reasons = [] ∧ checkDelivery handoff .delivered (some c) = [] := by
  unfold markDelivered at h
  obtain ⟨report, hreport, h⟩ := bind_ok.mp h
  cases h
  refine ⟨rfl, ?_⟩
  unfold requireDelivery at hreport
  dsimp only at hreport
  split at hreport
  · rename_i heligible
    have hclear := concat_clear (List.isEmpty_iff.mp heligible)
    simp only [List.mem_cons, List.not_mem_nil, or_false, forall_eq_or_imp, forall_eq] at hclear
    obtain ⟨hstate, hmanual, happroval, hevidence, hdelivery⟩ := hclear
    cases context with
    | none =>
      -- `CONTEXT_REQUIRED` is among the reasons
      unfold checkStateAndGrill at hstate
      simp [when] at hstate
    | some c => exact ⟨c, rfl, hmanual, happroval, hevidence, hdelivery⟩
  · cases hreport

theorem markDelivered_of_eligible {clock : Rat}
    (h : (evaluate clock handoff context (some .delivered)).eligible = true) :
    markDelivered clock handoff context = .ok { handoff with state := .delivered } := by
  unfold markDelivered requireDelivery
  dsimp only
  rw [if_pos h]
  rfl

/-- Two evidences are required, one of them for a stage that delivery does not ask for. -/
def lentHandoff : WorkflowHandoff where
  ticketId := "T-1"
  plannerTier := .high
  approvalReference := "plan"
  grill := { readyForSpec := true }
  environment := ⟨"prod", .targetEnvironment, ⟨"worker", "implementer"⟩⟩
  requiredEvidence := [⟨"smoke", .delivered⟩, ⟨"load", .notReady⟩]
  state := .independentReview

/-- The smoke receipt is of another requirement, the sign-off of no candidate, the exemption of another ticket. -/
def lentContext : VerificationContext where
  now := 60
  planDigest := "plan-1"
  candidateDigest := "candidate-2"
  configVersion := "1"
  expectedEnvironmentRef := "prod"
  expectedIdentity := ⟨"worker", "implementer"⟩
  expectedRoute := "direct"
  approvals := [("plan", { plannerTier := .high, planDigest := "plan-1", approvedBy := ⟨"owner", "owner"⟩ })]
  receipts := [
    ("smoke", { producer := ⟨"probe", "operator"⟩, subject := "T-1", requirement := "login", artifactHash := "a1"
                result := .passed, mode := .targetEnvironment, observedAt := 30
                candidateDigest := some "candidate-2" }),
    ("sign-off", { producer := ⟨"lead", "supervisor"⟩, subject := "T-1", requirement := "budget", artifactHash := "b1"
                   result := .passed, mode := .documentary, observedAt := 30 })]
  exemptions := [("audit", { ticketId := "T-7", version := "0", requirement := "audit" })]
  policy := some { stageRequirements := [(.delivered, ["audit"])] }
  receiptsAgree := by decide

end Readiness
end Workflow
end DarkFactory
