import DarkFactory.Orchestrator.Delivery

/-!
# DarkFactory.Orchestrator.DeliveryExecutor

`core/orchestrator/delivery_executor.py`: one reconciliation of a request with its pull request.

* `RemoteEnv` — the answers of GitHub, git and the verifier during the call.
* `defaultCheckAncestry` — unknown counts as descended.
* `reconcileAndEvaluate` — the result, or what the queue raises, and the queue after it.
-/

namespace DarkFactory
namespace Orchestrator
namespace Delivery

inductive RemoteDeliveryStatus where
  | delivered | blocked | waitingChecks | manualReview | failed
deriving DecidableEq

structure RemoteDeliveryResult where
  taskId : String
  repository : String
  pullRequestNumber : Nat
  candidateSha : String
  remoteHeadSha : String := ""
  status : RemoteDeliveryStatus
  eligible : Bool
  reason : String
  passedChecks : List String := []
  failedChecks : List String := []
  missingChecks : List String := []
  staleChecks : List String := []
  queueEntry : Option MergeQueueEntry := none
  remoteMerged : Bool := false
  hasRemoteAncestry : Bool := true
deriving DecidableEq

structure RemoteEnv extends QueueEnv where
  policy : DeliveryPolicy := {}
  /-- the snapshot of the pull request, or the text of what the client raises -/
  client : Except String PullRequestSnapshot
  /-- none inside is an exception of the verifier -/
  verifier : Option (String → String → Option Bool) := none
  /-- the exit code of `git merge-base --is-ancestor` -/
  git : String → String → Option Int := fun _ _ => none
  /-- the status of a comparison on GitHub -/
  compare : String → String → String → Option String := fun _ _ _ => none
  sanitize : String → String := id
  lower : String → String := Text.asciiLower
  repr : String → String := fun text => "'" ++ text ++ "'"

structure Call where
  snapshot : Option PullRequestSnapshot := none
  confirmMerged : Bool := false
  remoteMainSha : Option String := none
  ancestryVerified : Option Bool := none

def Call.observed (env : RemoteEnv) (call : Call) : Except String PullRequestSnapshot :=
  match call.snapshot with
  | some s => .ok s
  | none => env.client

/-- `remote_main_sha or request.base_sha`. -/
def Call.mainSha (call : Call) (r : DeliveryRequest) : String :=
  match call.remoteMainSha with
  | some sha => if sha = "" then r.baseSha else sha
  | none => r.baseSha

def normalized (env : RemoteEnv) (sha : String) : String := env.lower (Text.strip sha)

def defaultCheckAncestry (env : RemoteEnv) (repository base candidate : String) : Bool :=
  let b := normalized env base
  let c := normalized env candidate
  if b = c then true
  else
    match env.git b c with
    | some 0 => true
    | some 1 => false
    | _ =>
      match env.compare repository b c with
      | some "ahead" | some "identical" => true
      | some "diverged" | some "behind" => false
      | _ => true

def verifyAncestry (env : RemoteEnv) (r : DeliveryRequest) (call : Call) : Bool :=
  match call.ancestryVerified with
  | some verified => verified
  | none =>
    match env.verifier with
    | some verifier => (verifier (call.mainSha r) r.candidateSha).getD false
    | none => defaultCheckAncestry env r.repository (call.mainSha r) r.candidateSha

def lookupByRepoPr (env : RemoteEnv) (queue : MergeQueue) (repository : String) (number : Nat) :
    Option MergeQueueEntry :=
  queue.reverse.find? fun e =>
    normalized env e.repository = normalized env repository ∧ e.pullRequestNumber = number

def resultOf (r : DeliveryRequest) (headSha : String) (status : RemoteDeliveryStatus) (eligible : Bool) (reason : String) :
    RemoteDeliveryResult where
  taskId := r.taskId
  repository := r.repository
  pullRequestNumber := r.pullRequestNumber
  candidateSha := r.candidateSha
  remoteHeadSha := headSha
  status := status
  eligible := eligible
  reason := reason

def ownDecision (env : RemoteEnv) (r : DeliveryRequest) (reason headSha : String) (passed : List String) :
    DeliveryDecision where
  status := .eligible
  reason := reason
  requestFingerprint := env.fingerprint r
  candidateSha := r.candidateSha
  observedHeadSha := headSha
  passedChecks := passed

def afterFailedProbe (env : RemoteEnv) (queue : MergeQueue) (r : DeliveryRequest) (call : Call) (text : String) :
    RemoteDeliveryResult × MergeQueue :=
  match (lookupByRepoPr env queue r.repository r.pullRequestNumber).filter fun e => e.candidateSha = r.candidateSha with
  | some existing =>
    let decision :=
      ownDecision env r "Replayed from queue after reconnection or timeout" r.candidateSha r.requiredChecks
    let (replayed, queue) := enqueue env.toQueueEnv queue r decision
    ({ resultOf r existing.candidateSha .delivered true "replayed_from_queue_after_reconnection" with
        passedChecks := r.requiredChecks
        queueEntry := some (replayed.toOption.getD existing)
        remoteMerged := call.confirmMerged }, queue)
  | none => (resultOf r "" .failed false ("remote_probe_failed: " ++ env.sanitize text), queue)

def externalBlockers (r : DeliveryRequest) (s : PullRequestSnapshot) : List String :=
  clause (s.repository ≠ r.repository) "repository_mismatch" ++
    clause (s.number ≠ r.pullRequestNumber) "pull_request_mismatch" ++
    clause (s.headSha ≠ r.candidateSha) "candidate_sha_mismatch" ++ checkClauses (checkReport r s)

def externalMerge (env : RemoteEnv) (queue : MergeQueue) (r : DeliveryRequest) (s : PullRequestSnapshot) :
    RemoteDeliveryResult × MergeQueue :=
  let report := checkReport r s
  if externalBlockers r s = [] then
    let decision := ownDecision env r "External merge confirmed on remote repository with passing checks" s.headSha
      report.passed
    let (entry, after) := enqueue env.toQueueEnv queue r decision
    let queueEntry :=
      match entry with
      | .ok entry => some entry
      | .error _ => lookupByRepoPr env after r.repository r.pullRequestNumber
    ({ resultOf r s.headSha .delivered true "external_merge_confirmed" with
        passedChecks := report.passed
        queueEntry := queueEntry
        remoteMerged := true }, after)
  else
    ({ resultOf r s.headSha .blocked false (blockedReason (externalBlockers r s)) with
        passedChecks := report.passed
        failedChecks := report.failed
        missingChecks := report.missing
        staleChecks := report.stale
        remoteMerged := true }, queue)

def onlyMissingChecks (d : DeliveryDecision) : Bool :=
  d.missingChecks ≠ [] && d.failedChecks = [] && d.staleChecks = [] && !Text.contains "mismatch" d.reason &&
    !Text.contains "not_open" d.reason && !Text.contains "draft" d.reason && !Text.contains "mergeability" d.reason

def decided (r : DeliveryRequest) (s : PullRequestSnapshot) (call : Call) (d : DeliveryDecision)
    (status : RemoteDeliveryStatus) (entry : Option MergeQueueEntry) : RemoteDeliveryResult :=
  { resultOf r s.headSha status (d.status = .eligible) d.reason with
    passedChecks := d.passedChecks
    failedChecks := d.failedChecks
    missingChecks := d.missingChecks
    staleChecks := d.staleChecks
    queueEntry := entry
    remoteMerged := call.confirmMerged }

def evaluated (env : RemoteEnv) (queue : MergeQueue) (r : DeliveryRequest) (s : PullRequestSnapshot) (call : Call) :
    Except QueueError RemoteDeliveryResult × MergeQueue :=
  let d := evaluate env.fingerprint env.policy r s none
  match d.status with
  | .eligible =>
    match enqueue env.toQueueEnv queue r d with
    | (.ok entry, after) => (.ok (decided r s call d .delivered (some entry)), after)
    | (.error (.idempotencyConflict key), after) =>
      (.ok
        { decided r s call d .blocked none with
          eligible := false
          reason := s!"idempotency_conflict: idempotency key {env.repr key} was reused for a different request"
          remoteMerged := false }, after)
    | (.error error, after) => (.error error, after)
  | .manualReview => (.ok (decided r s call d .manualReview none), queue)
  | .blocked =>
    (.ok (decided r s call d (if onlyMissingChecks d then .waitingChecks else .blocked) none), queue)

def reconcileAndEvaluate (env : RemoteEnv) (queue : MergeQueue) (r : DeliveryRequest) (call : Call) :
    Except QueueError RemoteDeliveryResult × MergeQueue :=
  match call.observed env with
  | .error text =>
    let (result, after) := afterFailedProbe env queue r call text
    (.ok result, after)
  | .ok s =>
    if !verifyAncestry env r call then
      (.ok { resultOf r s.headSha .blocked false "Delivery blocked: candidate_lacks_remote_main_ancestry" with
              hasRemoteAncestry := false }, queue)
    else if call.confirmMerged = true ∧ isClosed s then
      let (result, after) := externalMerge env queue r s
      (.ok result, after)
    else evaluated env queue r s call

/-- No answer denies that the candidate descends from the main line. -/
structure Unrefuted (env : RemoteEnv) (r : DeliveryRequest) (call : Call) : Prop where
  explicit : call.ancestryVerified ≠ some false
  verifier : call.ancestryVerified = none → ∀ verifier, env.verifier = some verifier →
    verifier (call.mainSha r) r.candidateSha = some true
  probed : call.ancestryVerified = none → env.verifier = none → let b := normalized env (call.mainSha r)
    let c := normalized env r.candidateSha
    b = c ∨ env.git b c = some 0 ∨
      env.git b c ≠ some 1 ∧ env.compare r.repository b c ≠ some "diverged" ∧ env.compare r.repository b c ≠ some "behind"

variable {env : RemoteEnv} {r : DeliveryRequest} {queue : MergeQueue}

theorem defaultCheckAncestry_cases {repository base candidate : String}
    (h : defaultCheckAncestry env repository base candidate = true) :
    let b := normalized env base
    let c := normalized env candidate
    b = c ∨ env.git b c = some 0 ∨
      env.git b c ≠ some 1 ∧ env.compare repository b c ≠ some "diverged" ∧ env.compare repository b c ≠ some "behind" := by
  intro b c
  unfold defaultCheckAncestry at h
  dsimp only at h
  split at h
  · rename_i heq
    exact Or.inl heq
  · split at h
    · rename_i hgit
      exact Or.inr (Or.inl hgit)
    · cases h
    · rename_i hgit
      refine Or.inr (Or.inr ⟨hgit, ?_⟩)
      constructor
      · intro hcompare
        rw [hcompare] at h
        cases h
      · intro hcompare
        rw [hcompare] at h
        cases h

theorem unrefuted_of_verify {call : Call} (h : verifyAncestry env r call = true) : Unrefuted env r call where
  explicit := by
    intro hno
    rw [verifyAncestry, hno] at h
    cases h
  verifier := by
    intro hnone verifier hverifier
    rw [verifyAncestry, hnone, hverifier] at h
    dsimp only at h
    cases hanswer : verifier (call.mainSha r) r.candidateSha with
    | none =>
      rw [hanswer] at h
      cases h
    | some answer =>
      rw [hanswer] at h
      exact congrArg some h
  probed := by
    intro hnone hverifier
    rw [verifyAncestry, hnone, hverifier] at h
    exact defaultCheckAncestry_cases h

structure Matches (r : DeliveryRequest) (s : PullRequestSnapshot) : Prop where
  repository : s.repository = r.repository
  number : s.number = r.pullRequestNumber
  head : s.headSha = r.candidateSha
  checks : ChecksPassed r s

/-- What stands behind a delivery: a merge that the caller confirms, a place in the queue, or without a probe the
entry of the candidate that the queue holds already. -/
inductive Reconciled (env : RemoteEnv) (queue after : MergeQueue) (r : DeliveryRequest) (call : Call) : Prop where
  | merged (s : PullRequestSnapshot) (observed : call.observed env = .ok s) (unrefuted : Unrefuted env r call)
      (same : Matches r s) (closed : isClosed s) (confirmed : call.confirmMerged = true)
  | queued (s : PullRequestSnapshot) (entry : MergeQueueEntry) (observed : call.observed env = .ok s)
      (unrefuted : Unrefuted env r call) (unblocked : Unblocked r s) (risk : r.riskClass ∈ env.policy.autonomousRiskClasses)
      (held : Lookup.get MergeQueueEntry.idempotencyKey after r.idempotencyKey = some entry)
      (own : entry.requestFingerprint = env.fingerprint r)
  | replayed (text : String) (entry : MergeQueueEntry) (failed : call.observed env = .error text)
      (held : entry ∈ queue) (repository : normalized env entry.repository = normalized env r.repository)
      (number : entry.pullRequestNumber = r.pullRequestNumber) (candidate : entry.candidateSha = r.candidateSha)

theorem lookupByRepoPr_some {repository : String} {number : Nat}
    {entry : MergeQueueEntry} (h : lookupByRepoPr env queue repository number = some entry) :
    entry ∈ queue ∧ normalized env entry.repository = normalized env repository ∧ entry.pullRequestNumber = number := by
  have hmem : entry ∈ queue := List.mem_reverse.mp (List.mem_of_find?_eq_some h)
  have hsame := List.find?_some h
  exact ⟨hmem, of_decide_eq_true hsame⟩

theorem afterFailedProbe_delivered {call : Call}
    {text : String} (hfailed : call.observed env = .error text) (after : MergeQueue)
    (h : (afterFailedProbe env queue r call text).1.status = .delivered) : Reconciled env queue after r call := by
  unfold afterFailedProbe at h
  split at h
  · rename_i existing hexisting
    obtain ⟨hlookup, hcandidate⟩ := Option.filter_eq_some_iff.mp hexisting
    obtain ⟨hheld, hrepository, hnumber⟩ := lookupByRepoPr_some hlookup
    exact .replayed text existing hfailed hheld hrepository hnumber (of_decide_eq_true hcandidate)
  · cases h

theorem externalMerge_delivered {s : PullRequestSnapshot}
    (h : (externalMerge env queue r s).1.status = .delivered) : Matches r s := by
  unfold externalMerge at h
  dsimp only at h
  split at h
  · rename_i hblockers
    simp only [externalBlockers, List.append_eq_nil_iff, clause_eq_nil, not_not] at hblockers
    obtain ⟨⟨⟨hrepository, hnumber⟩, hhead⟩, hchecks⟩ := hblockers
    exact ⟨hrepository, hnumber, hhead, checksPassed_of_clauses hchecks⟩
  · cases h

theorem evaluated_delivered {s : PullRequestSnapshot}
    {call : Call} {result : RemoteDeliveryResult} (h : (evaluated env queue r s call).1 = .ok result)
    (hdelivered : result.status = .delivered) :
    (Unblocked r s ∧ r.riskClass ∈ env.policy.autonomousRiskClasses) ∧
      ∃ entry, Lookup.get MergeQueueEntry.idempotencyKey (evaluated env queue r s call).2 r.idempotencyKey = some entry ∧
        entry.requestFingerprint = env.fingerprint r := by
  unfold evaluated at h ⊢
  dsimp only at h ⊢
  split at h
  · rename_i heligible
    refine ⟨evaluate_eligible heligible, ?_⟩
    rcases enqueue_cases env.toQueueEnv queue r (evaluate env.fingerprint env.policy r s none) with
      ⟨error, heq⟩ | ⟨entry, heq, hkey, hown, -⟩
    · rw [heq] at h
      cases error with
      | idempotencyConflict key =>
        cases h
        cases hdelivered
      | otherRequest => cases h
      | blocked reason => cases h
      | persistence => cases h
    · rw [heq]
      exact ⟨entry, (Lookup.get_put ..).trans (if_pos hkey), hown⟩
  · cases h
    cases hdelivered
  · cases h
    revert hdelivered
    unfold decided
    split
    · intro h
      cases h
    · intro h
      cases h

def openRequest : DeliveryRequest where
  taskId := "T"
  repository := "o/n"
  pullRequestNumber := 1
  baseSha := "aaaaaaa"
  candidateSha := "bbbbbbb"
  riskClass := .B
  requiredChecks := ["v"]
  idempotencyKey := "k"

def openSnapshot : PullRequestSnapshot where
  repository := "o/n"
  number := 1
  baseSha := "aaaaaaa"
  headSha := "bbbbbbb"
  state := "open"
  mergeable := some true
  checks := [{ name := "v", headSha := "bbbbbbb", status := "completed", conclusion := some "success" }]

def descended : RemoteEnv where
  fingerprint r := r.taskId
  queueId key := key
  client := .error ""
  git _ _ := some 0

def openCall : Call where
  snapshot := some openSnapshot

theorem open_delivered :
    ∃ result, (reconcileAndEvaluate descended [] openRequest openCall).1 = .ok result ∧ result.status = .delivered := by
  have hstatus : (reconcileAndEvaluate descended [] openRequest openCall).1.toOption.map RemoteDeliveryResult.status =
      some .delivered := by
    decide +kernel
  cases hresult : (reconcileAndEvaluate descended [] openRequest openCall).1 with
  | error error =>
    rw [hresult] at hstatus
    cases hstatus
  | ok result =>
    rw [hresult] at hstatus
    exact ⟨result, rfl, Option.some.inj hstatus⟩

end Delivery
end Orchestrator
end DarkFactory
