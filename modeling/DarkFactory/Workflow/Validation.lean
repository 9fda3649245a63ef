import DarkFactory.Workflow.DeliveryGate

/-!
# DarkFactory.Workflow.Validation

`ImplementationCycleService.run_validation` of `core/workflow/cycle.py`: what the gate is asked, and what the cycle
certifies.

* `runValidation` — up to the result. The moves of the run and of the loop tracker that follow do not change it.
* `sha256` is a parameter.
-/

namespace DarkFactory
namespace Workflow
namespace Validation

open Readiness

structure ImplementationCandidate where
  ticketId : String
  runId : String
  candidateDigest : String
deriving DecidableEq

inductive ProbeStatus where
  | passed | firewallBlocked | scopeDenied | authFailed
deriving DecidableEq

structure ExternalTargetProbe where
  probeId : String
  firewallAllowed : Bool := true
  status : ProbeStatus := .passed
  message : String := "Probe successful"
deriving DecidableEq

def ExternalTargetProbe.passes (p : ExternalTargetProbe) : Bool := p.firewallAllowed && decide (p.status = .passed)

structure ObservedEvidence extends EnvironmentEvidence where
  requirement : String

inductive BlockingReason where
  | targetProbe (p : ExternalTargetProbe)
  | unitTests
  | gate (r : Reason)
deriving DecidableEq

inductive ValidationError where
  /-- `conflicting receipts detected for requirement`. -/
  | conflictingReceipts
deriving DecidableEq

structure ValidationCycleResult where
  ticketId : String
  runId : String
  unitTestsPass : Bool
  targetProbePass : Bool
  eligibleForReview : Bool
  report : ReadinessReport
  evidence : List ObservedEvidence
  blockingReasons : List BlockingReason

def defaultTester : SanitizedIdentity where
  role := "tester"
  subject := "agent_tester_subagent"

def supervisor : SanitizedIdentity where
  role := "supervisor"
  subject := "supervisor_antigravity"

def unitEvidence (clock : Rat) (c : ImplementationCandidate) (manifest : EnvironmentManifest)
    (tester : SanitizedIdentity) (unitTestsPass : Bool) : ObservedEvidence where
  evidenceId := "ev_unit_" ++ c.ticketId
  environmentRef := manifest.environmentRef
  requirement := "unit_tests"
  identity := tester
  result := if unitTestsPass then .passed else .failed
  freshness := .current
  evidenceRef := "audit/unit_tests/" ++ String.ofList (c.candidateDigest.toList.take 16)
  observedAt := clock

def targetEvidence (clock : Rat) (c : ImplementationCandidate) (manifest : EnvironmentManifest)
    (tester : SanitizedIdentity) (p : ExternalTargetProbe) : ObservedEvidence where
  evidenceId := "ev_target_" ++ c.ticketId
  environmentRef := manifest.environmentRef
  requirement := "external_integration"
  identity := tester
  result := if p.passes then .passed else .failed
  freshness := .current
  evidenceRef := "audit/probes/" ++ p.probeId
  observedAt := clock

def addedReceipt (sha256 : String → String) (handoff : WorkflowHandoff) (c : ImplementationCandidate)
    (context : VerificationContext) (evidenceId : String) : EvidenceReceipt where
  producer := supervisor
  subject := handoff.ticketId
  requirement := evidenceId
  result := .passed
  mode := .targetEnvironment
  candidateDigest := some c.candidateDigest
  observedAt := context.now
  artifactHash := sha256 evidenceId

/-- `updated_receipts`. -/
def withReceipts (receipt : String → EvidenceReceipt) (receipts : List (String × EvidenceReceipt))
    (required : List EvidenceRequirement) : List (String × EvidenceReceipt) :=
  required.foldl (fun receipts req =>
    if (Lookup.get Prod.fst receipts req.evidenceId).isSome then receipts
    else receipts ++ [(req.evidenceId, receipt req.evidenceId)]) receipts

def Agree (receipts : List (String × EvidenceReceipt)) : Prop :=
  ∀ e ∈ receipts, ∀ e' ∈ receipts, e.2.requirement = e'.2.requirement →
    e.2.result = e'.2.result ∧ e.2.artifactHash = e'.2.artifactHash

instance (receipts : List (String × EvidenceReceipt)) : Decidable (Agree receipts) :=
  inferInstanceAs (Decidable (∀ e ∈ receipts, ∀ e' ∈ receipts, e.2.requirement = e'.2.requirement →
    e.2.result = e'.2.result ∧ e.2.artifactHash = e'.2.artifactHash))

def rebuilt (sha256 : String → String) (handoff : WorkflowHandoff) (c : ImplementationCandidate)
    (context : VerificationContext) : Except ValidationError VerificationContext :=
  let receipts := withReceipts (addedReceipt sha256 handoff c context) context.receipts handoff.requiredEvidence
  if h : Agree receipts then
    .ok { context with candidateDigest := c.candidateDigest, receipts := receipts, receiptsAgree := h }
  else .error .conflictingReceipts

def evalContext (sha256 : String → String) (handoff : WorkflowHandoff) (c : ImplementationCandidate)
    (context : Option VerificationContext) (pass : Bool) : Except ValidationError (Option VerificationContext) :=
  match context with
  | none => .ok none
  | some context => if pass then (rebuilt sha256 handoff c context).map some else .ok (some context)

/-- `target_probe_pass`. -/
def probePass (targetProbe : Option ExternalTargetProbe) : Bool := targetProbe.all ExternalTargetProbe.passes

def evidenceList (clock : Rat) (c : ImplementationCandidate) (manifest : EnvironmentManifest)
    (tester : SanitizedIdentity) (unitTestsPass : Bool) (targetProbe : Option ExternalTargetProbe) :
    List ObservedEvidence :=
  unitEvidence clock c manifest tester unitTestsPass ::
    (targetProbe.map (targetEvidence clock c manifest tester)).toList

def updatedHandoff (handoff : WorkflowHandoff) (manifest : EnvironmentManifest) (evidence : List ObservedEvidence) :
    WorkflowHandoff :=
  { handoff with
    environment := manifest
    state := .validating
    environmentEvidence := handoff.environmentEvidence ++ evidence.map ObservedEvidence.toEnvironmentEvidence }

def blockingReasons (unitTestsPass : Bool) (targetProbe : Option ExternalTargetProbe) (report : ReadinessReport) :
    List BlockingReason :=
  ((targetProbe.filter fun p => !p.passes).map .targetProbe).toList ++
  (if unitTestsPass then [] else [.unitTests]) ++
  (if report.eligible then [] else report.findings.reasons.map .gate)

def runValidation (sha256 : String → String) (clock : Rat) (handoff : WorkflowHandoff)
    (candidate : ImplementationCandidate) (unitTestsPass : Bool) (targetProbe : Option ExternalTargetProbe)
    (reconciledManifest : Option EnvironmentManifest) (testerIdentity : Option SanitizedIdentity)
    (context : Option VerificationContext) : Except ValidationError ValidationCycleResult := do
  let tester := testerIdentity.getD defaultTester
  let manifest := reconciledManifest.getD handoff.environment
  let evidence := evidenceList clock candidate manifest tester unitTestsPass targetProbe
  let context ← evalContext sha256 handoff candidate context (unitTestsPass && probePass targetProbe)
  let report := evaluate clock (updatedHandoff handoff manifest evidence) context (some .independentReview)
  return {
    ticketId := candidate.ticketId
    runId := candidate.runId
    unitTestsPass := unitTestsPass
    targetProbePass := probePass targetProbe
    eligibleForReview := unitTestsPass && probePass targetProbe && report.eligible
    report := report
    evidence := evidence
    blockingReasons := blockingReasons unitTestsPass targetProbe report }

def Observed (evidence : List ObservedEvidence) (evidenceId : String) : Prop :=
  ∃ e ∈ evidence, e.result = .passed ∧ (e.evidenceId = evidenceId ∨ e.requirement = evidenceId)

def Receipted (c : VerificationContext) (evidenceId : String) : Prop :=
  ∃ r, c.resolveReceipt evidenceId = some r ∧ r.result = .passed

def TargetVerified (c : VerificationContext) (evidenceId : String) : Prop :=
  c.resolveExemption evidenceId = none ∧
    ∃ r, c.resolveReceipt evidenceId = some r ∧ r.result = .passed ∧ r.mode = .targetEnvironment

/-- What the gate verified in the context `c'` that the method built was observed, by the caller or in this call. -/
structure Certified (context : Option VerificationContext) (targetProbe : Option ExternalTargetProbe)
    (c' : Option VerificationContext) (r : ValidationCycleResult) : Prop where
  backed : ∀ id ∈ r.report.findings.verifiedEvidence,
    (∃ c, context = some c ∧ (Receipted c id ∨ (c.resolveExemption id).isSome)) ∨ Observed r.evidence id
  target : targetProbe.any ExternalTargetProbe.passes = false → ∀ id ∈ r.report.findings.verifiedEvidence,
    ∀ built, c' = some built → TargetVerified built id → ∃ c, context = some c ∧ TargetVerified c id

/-- The ids that evidence of a call with a passed probe goes under. -/
def observedIds (c : ImplementationCandidate) : List String :=
  ["ev_unit_" ++ c.ticketId, "unit_tests", "ev_target_" ++ c.ticketId, "external_integration"]

def Known (candidate : ImplementationCandidate) (targetProbe : Option ExternalTargetProbe) (c : VerificationContext)
    (evidenceId : String) : Prop :=
  (c.resolveExemption evidenceId).isSome = true ∨
  (∃ r, c.resolveReceipt evidenceId = some r ∧
    (targetProbe.any ExternalTargetProbe.passes = false → r.mode = .targetEnvironment)) ∨
  targetProbe.any ExternalTargetProbe.passes = true ∧ evidenceId ∈ observedIds candidate

section

variable (receipt : String → EvidenceReceipt) (receipts : List (String × EvidenceReceipt))

theorem withReceipts_append (required : List EvidenceRequirement) :
    ∃ added, withReceipts receipt receipts required = receipts ++ added ∧
      ∀ e ∈ added, e.2 = receipt e.1 ∧ Lookup.get Prod.fst receipts e.1 = none ∧
        ∃ req ∈ required, req.evidenceId = e.1 := by
  unfold withReceipts
  induction required generalizing receipts with
  | nil => exact ⟨[], (List.append_nil _).symm, fun e he => absurd he (List.not_mem_nil)⟩
  | cons req required ih =>
    rw [List.foldl_cons]
    split
    · obtain ⟨added, hadded, hall⟩ := ih receipts
      refine ⟨added, hadded, fun e he => ?_⟩
      obtain ⟨hreceipt, hnone, req', hreq', hid⟩ := hall e he
      exact ⟨hreceipt, hnone, req', List.mem_cons_of_mem _ hreq', hid⟩
    · rename_i hkey
      obtain ⟨added, hadded, hall⟩ := ih (receipts ++ [(req.evidenceId, receipt req.evidenceId)])
      refine ⟨(req.evidenceId, receipt req.evidenceId) :: added, by rw [hadded, List.append_assoc]; rfl, ?_⟩
      intro e he
      cases List.mem_cons.mp he with
      | inl heq =>
        subst heq
        exact ⟨rfl, Option.not_isSome_iff_eq_none.mp hkey, req, List.mem_cons_self, rfl⟩
      | inr he =>
        obtain ⟨hreceipt, hnone, req', hreq', hid⟩ := hall e he
        rw [Lookup.get_append, Option.or_eq_none_iff] at hnone
        exact ⟨hreceipt, hnone.1, req', List.mem_cons_of_mem _ hreq', hid⟩

theorem withReceipts_named {required : List EvidenceRequirement} {req : EvidenceRequirement} (h : req ∈ required) :
    (Lookup.get Prod.fst (withReceipts receipt receipts required) req.evidenceId).isSome = true := by
  unfold withReceipts
  induction required generalizing receipts with
  | nil => cases h
  | cons req' required ih =>
    rw [List.foldl_cons]
    cases List.mem_cons.mp h with
    | inr h => exact ih _ h
    | inl heq =>
      subst heq
      -- what has a name keeps it
      obtain ⟨added, hadded, -⟩ := withReceipts_append receipt
        (if (Lookup.get Prod.fst receipts req.evidenceId).isSome then receipts
          else receipts ++ [(req.evidenceId, receipt req.evidenceId)]) required
      unfold withReceipts at hadded
      rw [hadded, Lookup.get_append, Option.isSome_or]
      refine Bool.or_eq_true_iff.mpr (.inl ?_)
      split
      · assumption
      · rw [Lookup.get_append, Option.isSome_or, Lookup.get_cons, if_pos rfl]
        exact Bool.or_true _

end

section

variable {sha256 : String → String} {handoff : WorkflowHandoff} {candidate : ImplementationCandidate}
  {c built : VerificationContext}

theorem rebuilt_ok (h : rebuilt sha256 handoff candidate c = .ok built) :
    built.receipts = withReceipts (addedReceipt sha256 handoff candidate c) c.receipts handoff.requiredEvidence ∧
      built.exemptions = c.exemptions ∧ built.policy = c.policy := by
  unfold rebuilt at h
  dsimp only at h
  split at h
  · cases h
    exact ⟨rfl, rfl, rfl⟩
  · cases h

theorem rebuilt_exemption (h : rebuilt sha256 handoff candidate c = .ok built) (id : String) :
    built.resolveExemption id = c.resolveExemption id := by
  unfold VerificationContext.resolveExemption
  rw [(rebuilt_ok h).2.1]

theorem rebuilt_added (h : rebuilt sha256 handoff candidate c = .ok built) {req : EvidenceRequirement}
    (hreq : req ∈ handoff.requiredEvidence) (hnone : Lookup.get Prod.fst c.receipts req.evidenceId = none) :
    (req.evidenceId, addedReceipt sha256 handoff candidate c req.evidenceId) ∈ built.receipts ∧
    built.resolveReceipt req.evidenceId = some (addedReceipt sha256 handoff candidate c req.evidenceId) := by
  obtain ⟨added, hadded, hall⟩ := withReceipts_append (addedReceipt sha256 handoff candidate c)
    c.receipts handoff.requiredEvidence
  have hnamed := withReceipts_named (addedReceipt sha256 handoff candidate c) c.receipts hreq
  rw [hadded, Lookup.get_append, hnone, Option.none_or] at hnamed
  obtain ⟨e, he⟩ := Option.isSome_iff_exists.mp hnamed
  obtain ⟨hmem, hkey⟩ := Lookup.get_key he
  have heq : e = (req.evidenceId, addedReceipt sha256 handoff candidate c req.evidenceId) :=
    Prod.ext hkey (by rw [(hall e hmem).1, hkey])
  have hreceipts : built.receipts = c.receipts ++ added := (rebuilt_ok h).1.trans hadded
  refine ⟨by rw [hreceipts, ← heq]; exact List.mem_append_right _ hmem, ?_⟩
  unfold VerificationContext.resolveReceipt lookupOr
  rw [hreceipts, Lookup.get_append, hnone, Option.none_or, he, heq]
  rfl

theorem rebuilt_kept (h : rebuilt sha256 handoff candidate c = .ok built) {id : String}
    (hkept : (∃ req ∈ handoff.requiredEvidence, req.evidenceId = id) → Lookup.get Prod.fst c.receipts id ≠ none) :
    built.resolveReceipt id = c.resolveReceipt id := by
  obtain ⟨added, hadded, hall⟩ := withReceipts_append (addedReceipt sha256 handoff candidate c)
    c.receipts handoff.requiredEvidence
  have hreceipts : built.receipts = c.receipts ++ added := (rebuilt_ok h).1.trans hadded
  unfold VerificationContext.resolveReceipt lookupOr
  rw [hreceipts, Lookup.get_append, List.map_append, List.find?_append]
  cases hget : Lookup.get Prod.fst c.receipts id with
  | some e => rfl
  | none =>
    have hlisted : ¬∃ req ∈ handoff.requiredEvidence, req.evidenceId = id := fun hlisted => hkept hlisted hget
    have hnotNamed : Lookup.get Prod.fst added id = none :=
      Lookup.get_eq_none.mpr fun e he heq => hlisted (heq ▸ (hall e he).2.2)
    have hnotFound : (added.map Prod.snd).find? (fun r => decide (r.requirement = id)) = none := by
      rw [List.find?_eq_none]
      intro r hr heq
      obtain ⟨e, he, rfl⟩ := List.mem_map.mp hr
      rw [(hall e he).1] at heq
      exact hlisted (of_decide_eq_true heq ▸ (hall e he).2.2)
    rw [hnotNamed, hnotFound, Option.or_none, Option.or_none]

theorem rebuilt_agrees (h : rebuilt sha256 handoff candidate c = .ok built) {req : EvidenceRequirement}
    (hreq : req ∈ handoff.requiredEvidence) (hnone : Lookup.get Prod.fst c.receipts req.evidenceId = none)
    {r : EvidenceReceipt} (hr : c.resolveReceipt req.evidenceId = some r) : r.result = .passed := by
  obtain ⟨added, hadded, -⟩ := withReceipts_append (addedReceipt sha256 handoff candidate c)
    c.receipts handoff.requiredEvidence
  have hreceipts : built.receipts = c.receipts ++ added := (rebuilt_ok h).1.trans hadded
  unfold VerificationContext.resolveReceipt lookupOr at hr
  rw [hnone] at hr
  have hfound : (c.receipts.map Prod.snd).find? (fun r => decide (r.requirement = req.evidenceId)) = some r := hr
  obtain ⟨e, he, rfl⟩ := List.mem_map.mp (List.mem_of_find?_eq_some hfound)
  have hrequirement : e.2.requirement = req.evidenceId := of_decide_eq_true (List.find?_some hfound :)
  have hmem : e ∈ built.receipts := by
    rw [hreceipts]
    exact List.mem_append_left _ he
  exact (built.receiptsAgree e hmem _ (rebuilt_added h hreq hnone).1 hrequirement).1

end

section

variable {handoff : WorkflowHandoff}

theorem concat_verified (fs : List Findings) :
    (Findings.concat fs).verifiedEvidence = fs.flatMap Findings.verifiedEvidence := by
  induction fs with
  | nil => rfl
  | cons f fs ih =>
    rw [List.flatMap_cons, ← ih]
    rfl

theorem manualDependency_verifies_nothing (requested : WorkflowState) (context : Option VerificationContext)
    (d : ManualDependency) : (checkManualDependency handoff requested context d).verifiedEvidence = [] := by
  unfold checkManualDependency blocked
  repeat' split
  all_goals rfl

theorem manualDependencies_verify_nothing (requested : WorkflowState) (context : Option VerificationContext) :
    (checkManualDependencies handoff requested context).verifiedEvidence = [] := by
  unfold checkManualDependencies
  rw [concat_verified, List.flatMap_eq_nil_iff]
  intro f hf
  obtain ⟨d, -, rfl⟩ := List.mem_map.mp hf
  exact manualDependency_verifies_nothing requested context d

variable {c : VerificationContext} {target : WorkflowState}

theorem contextReceipt_passed {reqId : String} {requested : WorkflowState}
    {r : EvidenceReceipt} (h : contextReceiptIssue handoff reqId requested c r = none) : r.result = .passed := by
  unfold contextReceiptIssue at h
  rw [issue_none] at h
  exact not_not.mp h.1

theorem contextEvidence_cases (handoff : WorkflowHandoff) (requested : WorkflowState) (c : VerificationContext)
    (reqId : String) :
    (checkContextEvidence handoff requested c reqId).verifiedEvidence = [reqId] ∧
      ((c.resolveExemption reqId).isSome = true ∨ c.resolveExemption reqId = none ∧ Receipted c reqId) ∨
    (checkContextEvidence handoff requested c reqId).verifiedEvidence = [] ∧
      (checkContextEvidence handoff requested c reqId).reasons ≠ [] := by
  unfold checkContextEvidence missing
  split
  · rename_i exemption hexemption
    split
    · exact .inr ⟨rfl, List.cons_ne_nil _ _⟩
    · split
      · exact .inr ⟨rfl, List.cons_ne_nil _ _⟩
      · exact .inl ⟨rfl, .inl (by rw [hexemption]; rfl)⟩
  · rename_i hexemption
    split
    · exact .inr ⟨rfl, List.cons_ne_nil _ _⟩
    · rename_i r hr
      split
      · exact .inr ⟨rfl, List.cons_ne_nil _ _⟩
      · rename_i hissue
        exact .inl ⟨rfl, .inr ⟨hexemption, r, hr, contextReceipt_passed hissue⟩⟩

theorem eligible_required {clock : Rat}
    (h : (evaluate clock handoff (some c) (some target)).eligible = true) {id : String}
    (hid : id ∈ requiredIds handoff target (some c)) :
    (checkContextEvidence handoff target c id).verifiedEvidence = [id] ∧
      ((c.resolveExemption id).isSome = true ∨ c.resolveExemption id = none ∧ Receipted c id) := by
  have hclear : ∀ f ∈ _, Findings.reasons f = [] := concat_clear (List.isEmpty_iff.mp h)
  have hevidence : (checkEvidence clock handoff target (some c)).reasons = [] :=
    hclear _ (.tail _ (.tail _ (.tail _ (.head _))))
  unfold checkEvidence at hevidence
  have hall := concat_clear (List.append_eq_nil_iff.mp hevidence).2
  cases contextEvidence_cases handoff target c id with
  | inl hcase => exact hcase
  | inr hcase =>
    exact absurd (hall _ (List.mem_map_of_mem (f := fun reqId => checkContextEvidence handoff target c reqId) hid))
      hcase.2

theorem eligible_verified {clock : Rat}
    (h : (evaluate clock handoff (some c) (some target)).eligible = true) (id : String) :
    id ∈ (evaluate clock handoff (some c) (some target)).findings.verifiedEvidence ↔
      id ∈ requiredIds handoff target (some c) := by
  have hverified : (evaluate clock handoff (some c) (some target)).findings.verifiedEvidence =
      (checkEvidence clock handoff target (some c)).verifiedEvidence := by
    unfold evaluate
    dsimp only [Option.getD_some]
    rw [concat_verified]
    simp only [List.flatMap_cons, List.flatMap_nil, manualDependencies_verify_nothing, List.nil_append, List.append_nil]
  rw [hverified]
  unfold checkEvidence
  dsimp only [Findings.append]
  rw [List.nil_append, concat_verified, List.mem_flatMap]
  constructor
  · rintro ⟨f, hf, hid⟩
    obtain ⟨reqId, hreq, rfl⟩ := List.mem_map.mp hf
    rw [(eligible_required h hreq).1] at hid
    exact List.mem_singleton.mp hid ▸ hreq
  · intro hid
    refine ⟨_, List.mem_map_of_mem (f := fun reqId => checkContextEvidence handoff target c reqId) hid, ?_⟩
    exact (eligible_required h hid).1 ▸ List.mem_singleton_self id

theorem eligible_context {clock : Rat} {context : Option VerificationContext}
    (h : (evaluate clock handoff context (some target)).eligible = true) : context ≠ none := by
  rintro rfl
  have hclear : ∀ f ∈ _, Findings.reasons f = [] := concat_clear (List.isEmpty_iff.mp h)
  have hstate : checkStateAndGrill handoff (some target) none = [] := hclear _ (.head _)
  unfold checkStateAndGrill at hstate
  simp only [List.append_eq_nil_iff, when_eq_nil] at hstate
  exact absurd hstate.1.1.2 (by decide)

end

section

variable {sha256 : String → String} {clock : Rat} {handoff : WorkflowHandoff} {candidate : ImplementationCandidate}
  {unitTestsPass : Bool} {targetProbe : Option ExternalTargetProbe} {reconciledManifest : Option EnvironmentManifest}
  {testerIdentity : Option SanitizedIdentity} {context : Option VerificationContext} {r : ValidationCycleResult}

/-- A call that reports eligibility had a context, its tests and its probe passed, and what it counts as verified is
what the review stage requires, each by the context it built. -/
structure Eligible (sha256 : String → String) (handoff : WorkflowHandoff) (candidate : ImplementationCandidate)
    (targetProbe : Option ExternalTargetProbe) (context : Option VerificationContext) (r : ValidationCycleResult)
    (c built : VerificationContext) : Prop where
  caller : context = some c
  probe : probePass targetProbe = true
  built_ok : rebuilt sha256 handoff candidate c = .ok built
  verified : ∀ id, id ∈ r.report.findings.verifiedEvidence ↔ id ∈ requiredIds handoff .independentReview context
  resolved : ∀ id ∈ r.report.findings.verifiedEvidence,
    (built.resolveExemption id).isSome = true ∨ built.resolveExemption id = none ∧ Receipted built id

variable {c built : VerificationContext}

theorem requiredIds_rebuilt (h : rebuilt sha256 handoff candidate c = .ok built)
    (manifest : EnvironmentManifest) (evidence : List ObservedEvidence) (requested : WorkflowState) :
    requiredIds (updatedHandoff handoff manifest evidence) requested (some built) =
      requiredIds handoff requested (some c) := by
  unfold requiredIds
  simp only [Option.bind_some, (rebuilt_ok h).2.2]
  rfl

theorem runValidation_eligible
    (h : runValidation sha256 clock handoff candidate unitTestsPass targetProbe reconciledManifest testerIdentity
      context = .ok r)
    (heligible : r.eligibleForReview = true) :
    unitTestsPass = true ∧
      r.evidence = evidenceList clock candidate (reconciledManifest.getD handoff.environment)
        (testerIdentity.getD defaultTester) true targetProbe ∧
      ∃ c built, Eligible sha256 handoff candidate targetProbe context r c built := by
  unfold runValidation at h
  dsimp only at h
  obtain ⟨context', hcontext, h⟩ := Calls.bind_ok.mp h
  cases h
  dsimp only at heligible ⊢
  rw [Bool.and_eq_true, Bool.and_eq_true] at heligible
  obtain ⟨⟨hunit, hprobe⟩, hgate⟩ := heligible
  subst hunit
  refine ⟨rfl, rfl, ?_⟩
  rw [hprobe] at hcontext
  unfold evalContext at hcontext
  cases context with
  | none =>
    cases hcontext
    exact absurd rfl (eligible_context hgate)
  | some c =>
    dsimp only at hcontext
    rw [Bool.and_self, if_pos rfl] at hcontext
    cases hbuilt : rebuilt sha256 handoff candidate c with
    | error e =>
      rw [hbuilt] at hcontext
      cases hcontext
    | ok built =>
      rw [hbuilt] at hcontext
      cases hcontext
      have hverified := eligible_verified hgate
      refine ⟨c, built, rfl, hprobe, hbuilt, fun id => ?_, fun id hid => ?_⟩
      · rw [hverified id, requiredIds_rebuilt hbuilt]
      · exact (eligible_required hgate ((hverified id).mp hid)).2

theorem probe_cases (h : probePass targetProbe = true) :
    targetProbe = none ∨ ∃ p, targetProbe = some p ∧ p.passes = true := by
  cases targetProbe with
  | none => exact .inl rfl
  | some p => exact .inr ⟨p, rfl, h⟩

theorem observed_iff (clock : Rat) (candidate : ImplementationCandidate) (h : probePass targetProbe = true)
    (manifest : EnvironmentManifest) (tester : SanitizedIdentity) (id : String) :
    Observed (evidenceList clock candidate manifest tester true targetProbe) id ↔
      (id = "ev_unit_" ++ candidate.ticketId ∨ id = "unit_tests") ∨
        targetProbe.any ExternalTargetProbe.passes = true ∧
          (id = "ev_target_" ++ candidate.ticketId ∨ id = "external_integration") := by
  unfold Observed evidenceList
  rcases probe_cases h with rfl | ⟨p, rfl, hp⟩
  · simp [unitEvidence, eq_comm]
  · simp [unitEvidence, targetEvidence, hp, eq_comm]

theorem known_of_certified {c' : Option VerificationContext}
    (he : Eligible sha256 handoff candidate targetProbe context r c built) (hc' : c' = some built)
    (hobserved : ∀ id, Observed r.evidence id ↔ (id = "ev_unit_" ++ candidate.ticketId ∨ id = "unit_tests") ∨
      targetProbe.any ExternalTargetProbe.passes = true ∧
        (id = "ev_target_" ++ candidate.ticketId ∨ id = "external_integration"))
    (h : Certified context targetProbe c' r) {req : EvidenceRequirement} (hreq : req ∈ handoff.requiredEvidence)
    (hrequired : req.evidenceId ∈ requiredIds handoff .independentReview context)
    (hnone : Lookup.get Prod.fst c.receipts req.evidenceId = none) :
    Known candidate targetProbe c req.evidenceId := by
  have hverified := (he.verified _).mpr hrequired
  cases hexemption : c.resolveExemption req.evidenceId with
  | some x => exact .inl (by rw [hexemption]; rfl)
  | none =>
    cases hprobe : targetProbe.any ExternalTargetProbe.passes with
    | false =>
      -- the added receipt is one of the target environment
      have hbuilt : TargetVerified built req.evidenceId :=
        ⟨(rebuilt_exemption he.built_ok _).trans hexemption, _, (rebuilt_added he.built_ok hreq hnone).2, rfl, rfl⟩
      obtain ⟨_, heq, _, receipt, hreceipt, _, hmode⟩ := h.target hprobe _ hverified built hc' hbuilt
      cases he.caller.symm.trans heq
      exact .inr (.inl ⟨receipt, hreceipt, fun _ => hmode⟩)
    | true =>
      cases h.backed _ hverified with
      | inl hcaller =>
        obtain ⟨_, heq, hcaller⟩ := hcaller
        cases he.caller.symm.trans heq
        cases hcaller with
        | inl hreceipt =>
          obtain ⟨receipt, hreceipt, -⟩ := hreceipt
          exact .inr (.inl ⟨receipt, hreceipt, fun hfalse => by rw [hprobe] at hfalse; cases hfalse⟩)
        | inr hexempt =>
          rw [hexemption] at hexempt
          cases hexempt
      | inr hevidence =>
        refine .inr (.inr ⟨hprobe, ?_⟩)
        unfold observedIds
        simp only [List.mem_cons, List.not_mem_nil, or_false]
        rcases (hobserved _).mp hevidence with (h | h) | ⟨-, h | h⟩
        · exact .inl h
        · exact .inr (.inl h)
        · exact .inr (.inr (.inl h))
        · exact .inr (.inr (.inr h))

theorem certified_of_known {c' : Option VerificationContext}
    (he : Eligible sha256 handoff candidate targetProbe context r c built) (hc' : c' = some built)
    (hobserved : ∀ id, Observed r.evidence id ↔ (id = "ev_unit_" ++ candidate.ticketId ∨ id = "unit_tests") ∨
      targetProbe.any ExternalTargetProbe.passes = true ∧
        (id = "ev_target_" ++ candidate.ticketId ∨ id = "external_integration"))
    (h : ∀ req ∈ handoff.requiredEvidence, req.evidenceId ∈ requiredIds handoff .independentReview context →
      Lookup.get Prod.fst c.receipts req.evidenceId = none → Known candidate targetProbe c req.evidenceId) :
    Certified context targetProbe c' r := by
  -- either the receipt is the caller's, or the id is known
  have hcases : ∀ id ∈ r.report.findings.verifiedEvidence, built.resolveReceipt id = c.resolveReceipt id ∨
      Known candidate targetProbe c id ∧ ∀ receipt, c.resolveReceipt id = some receipt → receipt.result = .passed := by
    intro id hid
    by_cases hadded : (∃ req ∈ handoff.requiredEvidence, req.evidenceId = id) ∧
        Lookup.get Prod.fst c.receipts id = none
    · obtain ⟨⟨req, hreq, rfl⟩, hnone⟩ := hadded
      exact .inr ⟨h req hreq ((he.verified _).mp hid) hnone, fun _ => rebuilt_agrees he.built_ok hreq hnone⟩
    · exact .inl (rebuilt_kept he.built_ok fun hlisted hnone => hadded ⟨hlisted, hnone⟩)
  constructor
  · intro id hid
    have hresolved := he.resolved id hid
    rw [rebuilt_exemption he.built_ok] at hresolved
    cases hresolved with
    | inl hexempt => exact .inl ⟨c, he.caller, .inr hexempt⟩
    | inr hreceipt =>
      obtain ⟨-, receipt, hreceipt, hpassed⟩ := hreceipt
      cases hcases id hid with
      | inl heq => exact .inl ⟨c, he.caller, .inl ⟨receipt, heq ▸ hreceipt, hpassed⟩⟩
      | inr hknown =>
        obtain ⟨hknown, hagrees⟩ := hknown
        rcases hknown with hexempt | ⟨receipt', hreceipt', -⟩ | ⟨hprobe, hid⟩
        · exact .inl ⟨c, he.caller, .inr hexempt⟩
        · exact .inl ⟨c, he.caller, .inl ⟨receipt', hreceipt', hagrees _ hreceipt'⟩⟩
        · unfold observedIds at hid
          simp only [List.mem_cons, List.not_mem_nil, or_false] at hid
          refine .inr ((hobserved id).mpr ?_)
          rcases hid with h | h | h | h
          · exact .inl (.inl h)
          · exact .inl (.inr h)
          · exact .inr ⟨hprobe, .inl h⟩
          · exact .inr ⟨hprobe, .inr h⟩
  · rintro hprobe id hid _ hsome ⟨hexemption, receipt, hreceipt, hpassed, hmode⟩
    cases hc'.symm.trans hsome
    rw [rebuilt_exemption he.built_ok] at hexemption
    refine ⟨c, he.caller, hexemption, ?_⟩
    cases hcases id hid with
    | inl heq => exact ⟨receipt, heq ▸ hreceipt, hpassed, hmode⟩
    | inr hknown =>
      obtain ⟨hknown, hagrees⟩ := hknown
      rcases hknown with hexempt | ⟨receipt', hreceipt', hmode'⟩ | ⟨hpasses, -⟩
      · rw [hexemption] at hexempt
        cases hexempt
      · exact ⟨receipt', hreceipt', hagrees _ hreceipt', hmode' hprobe⟩
      · rw [hprobe] at hpasses
        cases hpasses

/-- A validation that reports eligibility certifies only what was observed, exactly when every id that the review stage
requires, and that the handoff lists, either names a receipt of the caller's context or is known to it otherwise. -/
theorem eligible_certifies_iff {c' : Option VerificationContext}
    (h : runValidation sha256 clock handoff candidate unitTestsPass targetProbe reconciledManifest testerIdentity
      context = .ok r)
    (hc' : evalContext sha256 handoff candidate context (unitTestsPass && probePass targetProbe) = .ok c')
    (heligible : r.eligibleForReview = true) :
    Certified context targetProbe c' r ↔
      ∀ c, context = some c → ∀ req ∈ handoff.requiredEvidence,
        req.evidenceId ∈ requiredIds handoff .independentReview context →
        Lookup.get Prod.fst c.receipts req.evidenceId = none → Known candidate targetProbe c req.evidenceId := by
  obtain ⟨hunit, hevidence, c, built, he⟩ := runValidation_eligible h heligible
  have hobserved := observed_iff clock candidate he.probe
    (reconciledManifest.getD handoff.environment) (testerIdentity.getD defaultTester)
  rw [← hevidence] at hobserved
  have hbuilt : c' = some built := by
    rw [hunit, he.probe, he.caller] at hc'
    unfold evalContext at hc'
    dsimp only at hc'
    rw [Bool.and_self, if_pos rfl, he.built_ok] at hc'
    cases hc'
    rfl
  constructor
  · rintro hcertified _ heq req hreq hrequired hnone
    cases he.caller.symm.trans heq
    exact known_of_certified he hbuilt hobserved hcertified hreq hrequired hnone
  · intro hknown
    exact certified_of_known he hbuilt hobserved (hknown c he.caller)

end

def smokeHash : String := "bea9ca8d4577403bc8001d5e1e977369c3b8df3ec5323299e3088e4a44a0c3c2"

def smokeCandidate : ImplementationCandidate where
  ticketId := "T-1"
  runId := "T-1"
  candidateDigest := "8f2c41d0aa97"

def smokeHandoff : WorkflowHandoff where
  ticketId := "T-1"
  plannerTier := .high
  approvalReference := "plan-1"
  grill := { readyForSpec := true }
  environment := { environmentRef := "env_v1", kind := .realLab, workerIdentity := ⟨"worker", "implementer"⟩ }
  requiredEvidence := [⟨"deploy_smoke", .readyForRelease⟩]
  state := .validating

def smokeContext (receipts : List (String × EvidenceReceipt)) (h : Agree receipts) : VerificationContext where
  now := 100
  planDigest := "plan-digest"
  candidateDigest := "8f2c41d0aa97"
  configVersion := "v1"
  expectedEnvironmentRef := "env_v1"
  expectedIdentity := ⟨"worker", "implementer"⟩
  expectedRoute := "claude"
  approvals := [("plan-1", ⟨.high, "plan-digest", ⟨"planner", "supervisor"⟩, []⟩)]
  receipts := receipts
  receiptsAgree := h

def blindContext : VerificationContext := smokeContext [] (by decide)

def seenContext : VerificationContext :=
  smokeContext [("deploy_smoke", { producer := ⟨"lab", "tester"⟩, subject := "T-1", requirement := "deploy_smoke"
                                   artifactHash := "c0ffee", result := .passed, mode := .simulation
                                   observedAt := 90 })] (by decide)

def smokeRun (c : VerificationContext) : Except ValidationError ValidationCycleResult :=
  runValidation (fun _ => smokeHash) 100 smokeHandoff smokeCandidate true none none none (some c)

def smokeEval (c : VerificationContext) : Except ValidationError (Option VerificationContext) :=
  evalContext (fun _ => smokeHash) smokeHandoff smokeCandidate (some c) true

theorem smokeRun_eligible (c : VerificationContext)
    (h : (smokeRun c).toOption.map (fun r => (r.eligibleForReview, r.report.findings.verifiedEvidence)) =
      some (true, ["deploy_smoke"])) :
    ∃ r c', smokeRun c = .ok r ∧ smokeEval c = .ok c' ∧ r.eligibleForReview = true ∧
      r.report.findings.verifiedEvidence = ["deploy_smoke"] := by
  obtain ⟨r, hrun, heq⟩ := Calls.ok_of_toOption h
  have hbind := hrun
  unfold smokeRun runValidation at hbind
  obtain ⟨c', hc', -⟩ := Calls.bind_ok.mp hbind
  exact ⟨r, c', hrun, hc', congrArg Prod.fst heq, congrArg Prod.snd heq⟩

/-- No receipt at all, and yet the smoke test is verified. -/
theorem unseen_smoke_verified :
    smokeHandoff.valid = true ∧ blindContext.receipts = [] ∧ blindContext.exemptions = [] ∧
    ∃ r c', smokeRun blindContext = .ok r ∧ smokeEval blindContext = .ok c' ∧ r.eligibleForReview = true ∧
      r.report.findings.verifiedEvidence = ["deploy_smoke"] ∧ ¬ Certified (some blindContext) none c' r := by
  refine ⟨by decide, rfl, rfl, ?_⟩
  obtain ⟨r, c', hrun, hc', heligible, hverified⟩ := smokeRun_eligible blindContext (by decide +kernel)
  refine ⟨r, c', hrun, hc', heligible, hverified, fun h => ?_⟩
  obtain ⟨-, hevidence, -⟩ := runValidation_eligible hrun heligible
  have hbacked := h.backed "deploy_smoke" (hverified ▸ List.mem_singleton_self _)
  rw [hevidence] at hbacked
  rcases hbacked with ⟨c, heq, hreceipt | hexempt⟩ | hobserved
  · cases heq
    obtain ⟨receipt, hreceipt, -⟩ := hreceipt
    cases hreceipt
  · cases heq
    cases hexempt
  · rw [observed_iff _ _ rfl] at hobserved
    exact absurd hobserved (by decide)

theorem seen_smoke_certified :
    ∃ r c', smokeRun seenContext = .ok r ∧ smokeEval seenContext = .ok c' ∧
      Certified (some seenContext) none c' r := by
  obtain ⟨r, c', hrun, hc', heligible, -⟩ := smokeRun_eligible seenContext (by decide +kernel)
  refine ⟨r, c', hrun, hc', (eligible_certifies_iff hrun hc' heligible).mpr ?_⟩
  rintro _ ⟨⟩ req hreq - hnone
  -- its name is a key of the receipts
  cases List.mem_singleton.mp hreq
  cases hnone

end Validation
end Workflow
end DarkFactory
