import DarkFactory.Lib.Lookup
import DarkFactory.Lib.Runs
import DarkFactory.Python.Text

/-!
# DarkFactory.Orchestrator.Delivery

`core/orchestrator/delivery.py`: the delivery policy and the merge queue, with the pull-request facts of
`core/integrations/github.py` that they read.

* A request and a snapshot hold what their validators have normalized.
* `checkReport` — the required checks by what is known of them. Of the runs of one name the last counts.
* `enqueue` — the queue by idempotency key; `saves` says whether its file can be written. `enqueue_cases` is
  what it leaves.
-/

namespace DarkFactory
namespace Orchestrator
namespace Delivery

inductive DeliveryRisk where
  | A | B | C | D
deriving DecidableEq

def DeliveryRisk.value : DeliveryRisk → String
  | .A => "A"
  | .B => "B"
  | .C => "C"
  | .D => "D"

inductive DeliveryStatus where
  | eligible | blocked | manualReview
deriving DecidableEq

structure GitHubCheck where
  name : String
  headSha : String
  status : String
  conclusion : Option String := none
deriving DecidableEq

def GitHubCheck.passed (c : GitHubCheck) : Bool :=
  Text.asciiLower c.status = "completed" && c.conclusion = some "success"

structure PullRequestSnapshot where
  repository : String
  number : Nat
  baseSha : String
  headSha : String
  state : String
  draft : Bool := false
  mergeable : Option Bool := none
  checks : List GitHubCheck := []
deriving DecidableEq

structure DeliveryRequest where
  taskId : String
  repository : String
  pullRequestNumber : Nat
  baseSha : String
  candidateSha : String
  riskClass : DeliveryRisk
  requiredChecks : List String := ["trusted-pr-policy", "pr-validation"]
  idempotencyKey : String
  someCheck : requiredChecks ≠ [] := by decide
deriving DecidableEq

structure PolicyDecision where
  status : String
  reasonCode : String
  matchedGrantId : Option String := none
deriving DecidableEq

structure DeliveryDecision where
  status : DeliveryStatus
  reason : String
  requestFingerprint : String
  candidateSha : String
  observedHeadSha : String
  passedChecks : List String := []
  missingChecks : List String := []
  staleChecks : List String := []
  failedChecks : List String := []
deriving DecidableEq

/-- Classes C and D are never autonomous. -/
structure DeliveryPolicy where
  autonomousRiskClasses : List DeliveryRisk := [.A, .B]
  bound : ∀ risk ∈ autonomousRiskClasses, risk = .A ∨ risk = .B := by decide

structure CheckReport where
  passed : List String
  missing : List String
  stale : List String
  failed : List String

/-- `checks_by_name.get(name)`. -/
def checkByName (s : PullRequestSnapshot) (name : String) : Option GitHubCheck :=
  s.checks.reverse.find? fun c => c.name = name

def checkReport (r : DeliveryRequest) (s : PullRequestSnapshot) : CheckReport where
  missing := r.requiredChecks.filter fun name => (checkByName s name).isNone
  stale := r.requiredChecks.filter fun name => (checkByName s name).any fun c => c.headSha ≠ r.candidateSha
  failed := r.requiredChecks.filter fun name =>
    (checkByName s name).any fun c => c.headSha = r.candidateSha && !c.passed
  passed := r.requiredChecks.filter fun name =>
    (checkByName s name).any fun c => c.headSha = r.candidateSha && c.passed

def clause (p : Prop) [Decidable p] (text : String) : List String := if p then [text] else []

def checkClauses (report : CheckReport) : List String :=
  clause (report.missing ≠ []) ("missing_checks=" ++ ",".intercalate report.missing) ++
    clause (report.stale ≠ []) ("stale_checks=" ++ ",".intercalate report.stale) ++
    clause (report.failed ≠ []) ("failed_checks=" ++ ",".intercalate report.failed)

def isOpen (s : PullRequestSnapshot) : Prop := Text.asciiLower s.state = "open"

def isClosed (s : PullRequestSnapshot) : Prop := Text.asciiLower s.state = "closed"

instance (s : PullRequestSnapshot) : Decidable (isOpen s) := inferInstanceAs (Decidable (_ = _))

instance (s : PullRequestSnapshot) : Decidable (isClosed s) := inferInstanceAs (Decidable (_ = _))

def blockers (r : DeliveryRequest) (s : PullRequestSnapshot) : List String :=
  clause (s.repository ≠ r.repository) "repository_mismatch" ++
    clause (s.number ≠ r.pullRequestNumber) "pull_request_mismatch" ++
    clause (s.baseSha ≠ r.baseSha) "base_sha_mismatch" ++
    clause (s.headSha ≠ r.candidateSha) "candidate_sha_mismatch" ++
    clause (¬ isOpen s) "pull_request_not_open" ++
    clause s.draft "draft_pull_request" ++
    clause (s.mergeable ≠ some true) "mergeability_not_confirmed" ++
    checkClauses (checkReport r s)

def blockedReason (blockers : List String) : String := "Delivery blocked: " ++ "; ".intercalate blockers

def verdict (p : DeliveryPolicy) (r : DeliveryRequest) (s : PullRequestSnapshot) (policyDecision : Option PolicyDecision) :
    DeliveryStatus × String :=
  if blockers r s ≠ [] then (.blocked, blockedReason (blockers r s))
  else
    match policyDecision with
    | some d =>
      if d.status = "allowed" then
        (.eligible, "All required checks passed on the exact candidate SHA; authorized by policy grant " ++
          d.matchedGrantId.getD "None")
      else (.blocked, s!"Delivery blocked by policy ({d.status}): {d.reasonCode}")
    | none =>
      if r.riskClass ∈ p.autonomousRiskClasses then (.eligible, "All required checks passed on the exact candidate SHA")
      else (.manualReview, s!"Risk class {r.riskClass.value} requires manual review")

/-- `fingerprint` is the hash of a request. -/
def evaluate (fingerprint : DeliveryRequest → String) (p : DeliveryPolicy) (r : DeliveryRequest)
    (s : PullRequestSnapshot) (policyDecision : Option PolicyDecision) : DeliveryDecision where
  status := (verdict p r s policyDecision).1
  reason := (verdict p r s policyDecision).2
  requestFingerprint := fingerprint r
  candidateSha := r.candidateSha
  observedHeadSha := s.headSha
  passedChecks := (checkReport r s).passed
  missingChecks := (checkReport r s).missing
  staleChecks := (checkReport r s).stale
  failedChecks := (checkReport r s).failed

theorem clause_eq_nil {p : Prop} [Decidable p] {text : String} : clause p text = [] ↔ ¬ p := by
  unfold clause
  split
  · rename_i h
    exact iff_of_false (List.cons_ne_nil text []) (not_not.mpr h)
  · rename_i h
    exact iff_of_true rfl h

def ChecksPassed (r : DeliveryRequest) (s : PullRequestSnapshot) : Prop :=
  ∀ name ∈ r.requiredChecks, ∃ c ∈ s.checks, c.name = name ∧ c.headSha = r.candidateSha ∧ c.passed = true

variable {r : DeliveryRequest} {s : PullRequestSnapshot}

theorem checksPassed_of_report (hmissing : (checkReport r s).missing = [])
    (hstale : (checkReport r s).stale = []) (hfailed : (checkReport r s).failed = []) : ChecksPassed r s := by
  intro name hname
  cases hcheck : checkByName s name with
  | none =>
    have hm := List.filter_eq_nil_iff.mp hmissing name hname
    rw [hcheck] at hm
    exact absurd rfl hm
  | some c =>
    have hs := List.filter_eq_nil_iff.mp hstale name hname
    have hf := List.filter_eq_nil_iff.mp hfailed name hname
    rw [hcheck] at hs hf
    have hsha : c.headSha = r.candidateSha := by simpa using hs
    have hpassed : c.passed = true := by simpa [hsha] using hf
    have hmem : c ∈ s.checks := List.mem_reverse.mp (List.mem_of_find?_eq_some hcheck)
    exact ⟨c, hmem, of_decide_eq_true (List.find?_some hcheck :), hsha, hpassed⟩

theorem checksPassed_of_clauses (h : checkClauses (checkReport r s) = []) : ChecksPassed r s := by
  simp only [checkClauses, List.append_eq_nil_iff, clause_eq_nil, not_not] at h
  exact checksPassed_of_report h.1.1 h.1.2 h.2

structure Unblocked (r : DeliveryRequest) (s : PullRequestSnapshot) : Prop where
  repository : s.repository = r.repository
  number : s.number = r.pullRequestNumber
  base : s.baseSha = r.baseSha
  head : s.headSha = r.candidateSha
  opened : isOpen s
  ready : s.draft = false
  mergeable : s.mergeable = some true
  checks : ChecksPassed r s

theorem unblocked_of_blockers (h : blockers r s = []) : Unblocked r s := by
  simp only [blockers, List.append_eq_nil_iff, clause_eq_nil, not_not, Bool.not_eq_true] at h
  obtain ⟨⟨⟨⟨⟨⟨⟨hrepository, hnumber⟩, hbase⟩, hhead⟩, hopen⟩, hdraft⟩, hmergeable⟩, hchecks⟩ := h
  exact ⟨hrepository, hnumber, hbase, hhead, hopen, hdraft, hmergeable, checksPassed_of_clauses hchecks⟩

theorem evaluate_eligible {fingerprint : DeliveryRequest → String} {p : DeliveryPolicy}
    (h : (evaluate fingerprint p r s none).status = .eligible) :
    Unblocked r s ∧ r.riskClass ∈ p.autonomousRiskClasses := by
  unfold evaluate verdict at h
  dsimp only at h
  split at h
  · cases h
  · rename_i hblockers
    split at h
    · rename_i hrisk
      exact ⟨unblocked_of_blockers (not_not.mp hblockers), hrisk⟩
    · cases h

structure MergeQueueEntry where
  queueId : String
  idempotencyKey : String
  requestFingerprint : String
  taskId : String
  repository : String
  pullRequestNumber : Nat
  candidateSha : String
  replayed : Bool := false
  replayCount : Nat := 0
deriving DecidableEq

inductive QueueError where
  | otherRequest
  | blocked (reason : String)
  | idempotencyConflict (key : String)
  | persistence
deriving DecidableEq

structure QueueEnv where
  fingerprint : DeliveryRequest → String
  queueId : String → String
  saves : Bool := true

abbrev MergeQueue := List MergeQueueEntry

def newEntry (env : QueueEnv) (r : DeliveryRequest) : MergeQueueEntry where
  queueId := env.queueId r.idempotencyKey
  idempotencyKey := r.idempotencyKey
  requestFingerprint := env.fingerprint r
  taskId := r.taskId
  repository := r.repository
  pullRequestNumber := r.pullRequestNumber
  candidateSha := r.candidateSha

/-- What the queue holds for a key after its write, which a failed save takes back. -/
def stored (env : QueueEnv) (queue : MergeQueue) (entry : MergeQueueEntry) : Except QueueError MergeQueueEntry × MergeQueue :=
  if env.saves then (.ok entry, Lookup.put MergeQueueEntry.idempotencyKey queue entry) else (.error .persistence, queue)

def enqueue (env : QueueEnv) (queue : MergeQueue) (r : DeliveryRequest) (d : DeliveryDecision) :
    Except QueueError MergeQueueEntry × MergeQueue :=
  if d.requestFingerprint ≠ env.fingerprint r then (.error .otherRequest, queue)
  else if d.status ≠ .eligible then (.error (.blocked d.reason), queue)
  else
    match Lookup.get MergeQueueEntry.idempotencyKey queue r.idempotencyKey with
    | some existing =>
      if existing.requestFingerprint ≠ env.fingerprint r then (.error (.idempotencyConflict r.idempotencyKey), queue)
      else stored env queue { existing with replayed := true, replayCount := existing.replayCount + 1 }
    | none => stored env queue (newEntry env r)

theorem enqueue_cases (env : QueueEnv) (queue : MergeQueue) (r : DeliveryRequest) (d : DeliveryDecision) :
    (∃ error, enqueue env queue r d = (.error error, queue)) ∨
      ∃ entry, enqueue env queue r d = (.ok entry, Lookup.put MergeQueueEntry.idempotencyKey queue entry) ∧
        entry.idempotencyKey = r.idempotencyKey ∧ entry.requestFingerprint = env.fingerprint r ∧
        d.status = .eligible := by
  unfold enqueue
  split
  · exact Or.inl ⟨_, rfl⟩
  · split
    · exact Or.inl ⟨_, rfl⟩
    · rename_i heligible
      split
      · rename_i existing hget
        split
        · exact Or.inl ⟨_, rfl⟩
        · rename_i hsame
          unfold stored
          split
          · exact Or.inr ⟨_, rfl, (Lookup.get_key hget).2, not_not.mp hsame, not_not.mp heligible⟩
          · exact Or.inl ⟨_, rfl⟩
      · unfold stored
        split
        · exact Or.inr ⟨_, rfl, rfl, rfl, not_not.mp heligible⟩
        · exact Or.inl ⟨_, rfl⟩

def MergeQueueEntry.again (entry : MergeQueueEntry) : MergeQueueEntry :=
  { entry with replayed := true, replayCount := entry.replayCount + 1 }

theorem enqueue_writes (env : QueueEnv) (queue : MergeQueue) (r : DeliveryRequest) (d : DeliveryDecision) :
    (∃ error, enqueue env queue r d = (.error error, queue)) ∨
      ∃ entry, enqueue env queue r d = (.ok entry, Lookup.put MergeQueueEntry.idempotencyKey queue entry) ∧
        ((Lookup.get MergeQueueEntry.idempotencyKey queue r.idempotencyKey = none ∧ entry = newEntry env r) ∨
          ∃ old, Lookup.get MergeQueueEntry.idempotencyKey queue r.idempotencyKey = some old ∧
            old.requestFingerprint = env.fingerprint r ∧ entry = old.again) := by
  unfold enqueue stored
  repeat' split
  all_goals first
    | exact .inl ⟨_, rfl⟩
    | exact .inr ⟨_, rfl, .inl ⟨‹_›, rfl⟩⟩
    | exact .inr ⟨_, rfl, .inr ⟨_, ‹_›, not_not.mp ‹_›, rfl⟩⟩

/-- One `enqueue`, next to the requests accepted so far. -/
def offer (env : QueueEnv) (s : MergeQueue × List DeliveryRequest) (call : DeliveryRequest × DeliveryDecision × Bool) :
    MergeQueue × List DeliveryRequest :=
  match enqueue { env with saves := call.2.2 } s.1 call.1 call.2.1 with
  | (.ok _, queue) => (queue, s.2 ++ [call.1])
  | (.error _, queue) => (queue, s.2)

/-- The entry of the first request, which counts the others. -/
def tally (env : QueueEnv) : List DeliveryRequest → Option MergeQueueEntry
  | [] => none
  | r :: repeats => some { newEntry env r with replayed := !repeats.isEmpty, replayCount := repeats.length }

theorem tally_concat (env : QueueEnv) (rs : List DeliveryRequest) (r : DeliveryRequest) :
    tally env (rs ++ [r]) = some (((tally env rs).map MergeQueueEntry.again).getD (newEntry env r)) := by
  cases rs with
  | nil => rfl
  | cons r' rs => simp [tally, MergeQueueEntry.again]

/-- The entry of a key is the tally of the requests accepted under it, which all have its fingerprint. -/
def Tallied (env : QueueEnv) (s : MergeQueue × List DeliveryRequest) (key : String) : Prop :=
  Lookup.get MergeQueueEntry.idempotencyKey s.1 key = tally env (s.2.filter fun r => r.idempotencyKey = key) ∧
    ∀ r ∈ s.2, r.idempotencyKey = key → ∀ entry, Lookup.get MergeQueueEntry.idempotencyKey s.1 key = some entry →
      entry.requestFingerprint = env.fingerprint r

theorem offer_tallied (env : QueueEnv) (s : MergeQueue × List DeliveryRequest)
    (call : DeliveryRequest × DeliveryDecision × Bool) (h : ∀ key, Tallied env s key) (key : String) :
    Tallied env (offer env s call) key := by
  obtain ⟨hget, hsame⟩ := h key
  rcases enqueue_writes { env with saves := call.2.2 } s.1 call.1 call.2.1 with ⟨_, heq⟩ | ⟨entry, heq, hentry⟩
  · rw [offer, heq]
    exact ⟨hget, hsame⟩
  · have hkey : entry.idempotencyKey = call.1.idempotencyKey := by
      rcases hentry with ⟨-, rfl⟩ | ⟨old, hold, -, rfl⟩
      · rfl
      · exact (Lookup.get_key hold).2
    rw [offer, heq]
    unfold Tallied
    simp only [Lookup.get_put, hkey, List.filter_append, List.filter_singleton, List.mem_append, List.mem_singleton]
    by_cases hk : call.1.idempotencyKey = key
    · subst hk
      simp only [if_true, decide_true, cond_true, tally_concat, ← hget, Option.some.injEq]
      rcases hentry with ⟨hnone, rfl⟩ | ⟨old, hold, hprint, rfl⟩
      · refine ⟨by rw [hnone]; rfl, ?_⟩
        rintro r (hr | rfl) hrk _ rfl
        · rw [hnone] at hget
          cases hfilter : s.2.filter fun r => r.idempotencyKey = call.1.idempotencyKey with
          | nil => exact absurd (decide_eq_true hrk) (List.filter_eq_nil_iff.mp hfilter r hr)
          | cons r' rs =>
            rw [hfilter] at hget
            cases hget
        · rfl
      · refine ⟨by rw [hold]; rfl, ?_⟩
        rintro r (hr | rfl) hrk _ rfl
        · exact hsame r hr hrk old hold
        · exact hprint
    · simp only [hk, if_false, decide_false, cond_false, List.append_nil]
      refine ⟨hget, fun r hr hrk => ?_⟩
      rcases hr with hr | rfl
      · exact hsame r hr hrk
      · exact absurd hrk hk

/-- After any calls, whether they can save or not. -/
theorem enqueued_once (env : QueueEnv) (calls : List (DeliveryRequest × DeliveryDecision × Bool)) (key : String) :
    Tallied env (Runs.run (offer env) ([], []) calls) key :=
  Runs.run_invariant (I := fun s => ∀ key, Tallied env s key) (offer_tallied env)
    (fun _ => ⟨rfl, fun _ hr => absurd hr List.not_mem_nil⟩) calls key

end Delivery
end Orchestrator
end DarkFactory
