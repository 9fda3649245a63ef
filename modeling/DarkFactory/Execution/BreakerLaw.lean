import DarkFactory.Execution.CircuitProtection

/-!
# DarkFactory.Execution.BreakerLaw

The state machine of one `CircuitBreaker` under any order of its five methods, outcomes of requests that were
admitted in an earlier state included. The breaker does not know whose outcome it is told: a success closes a
half-open circuit whichever request it belongs to.
-/

namespace DarkFactory
namespace Execution
namespace Resilience
namespace CircuitBreaker

def reset (c : CircuitBreaker) : CircuitBreaker :=
  { c with
    state := .closed
    failureCount := 0
    consecutiveSuccesses := 0
    lastFailureTime := 0
    halfOpenTrialsLeft := 0 }

/-- A call of a method. Requests are numbered by their callers; the breaker sees none of the numbers. -/
inductive Method where
  | allowRequest (request : Nat)
  | recordSuccess (request : Nat)
  | recordFailure (request : Nat)
  /-- A read of the property `state`. -/
  | readState
  | reset
deriving DecidableEq

structure Act where
  time : Rat
  method : Method
deriving DecidableEq

def step (c : CircuitBreaker) (a : Act) : CircuitBreaker :=
  match a.method with
  | .allowRequest _ => (c.allowRequest a.time).2
  | .recordSuccess _ => c.recordSuccess
  | .recordFailure _ => c.recordFailure a.time
  | .readState => c.evaluateState a.time
  | .reset => c.reset

def admittedBy (c : CircuitBreaker) (a : Act) : List Nat :=
  match a.method with
  | .allowRequest request => if (c.allowRequest a.time).1 then [request] else []
  | _ => []

def admitted : CircuitBreaker → List Act → List Nat
  | _, [] => []
  | c, a :: acts => admittedBy c a ++ admitted (step c a) acts

def lastFailure (acts : List Act) : Option Rat :=
  acts.foldl (fun last a =>
    match a.method with
    | .recordFailure _ => some a.time
    | _ => last) none

/-- The first act half-opens an open circuit, and none of the acts leaves that state. -/
def Episode (c : CircuitBreaker) (acts : List Act) : Prop :=
  acts ≠ [] ∧ c.state = .opened ∧ ∀ m ∈ Runs.moves step c acts, m.post.state = .halfOpen

instance (c : CircuitBreaker) (acts : List Act) : Decidable (Episode c acts) :=
  inferInstanceAs (Decidable (_ ∧ _ ∧ _))

def AdmittedInEpisode (c : CircuitBreaker) (acts : List Act) (request : Nat) : Prop :=
  ∃ n < acts.length, Episode (Runs.run step c (acts.take n)) (acts.drop n) ∧
    request ∈ admitted (Runs.run step c (acts.take n)) (acts.drop n)

instance (c : CircuitBreaker) (acts : List Act) (request : Nat) : Decidable (AdmittedInEpisode c acts request) :=
  inferInstanceAs (Decidable (∃ _ < _, _))

variable {c : CircuitBreaker}

theorem evaluateState_state {now : Rat} (h : c.state ≠ .opened) : c.evaluateState now = c :=
  if_neg fun hopen => h hopen.1

theorem evaluateState_cases (now : Rat) (c : CircuitBreaker) :
    (c.evaluateState now = c ∧ (c.state = .opened → ¬ c.recoveryTimeoutSeconds ≤ now - c.lastFailureTime)) ∨
      (c.state = .opened ∧ c.recoveryTimeoutSeconds ≤ now - c.lastFailureTime ∧
        c.evaluateState now = { c with state := .halfOpen, halfOpenTrialsLeft := c.halfOpenTrials }) := by
  unfold evaluateState
  split
  · rename_i h
    exact .inr ⟨h.1, h.2, rfl⟩
  · rename_i h
    exact .inl ⟨rfl, fun hopen helapsed => h ⟨hopen, helapsed⟩⟩

theorem allowRequest_cases (now : Rat) (c : CircuitBreaker) :
    ((c.evaluateState now).state = .closed ∧ c.allowRequest now = (true, c.evaluateState now)) ∨
      ((c.evaluateState now).state = .halfOpen ∧ 0 < (c.evaluateState now).halfOpenTrialsLeft ∧
        c.allowRequest now = (true, { c.evaluateState now with
          halfOpenTrialsLeft := (c.evaluateState now).halfOpenTrialsLeft - 1 })) ∨
      ((c.evaluateState now).state ≠ .closed ∧ c.allowRequest now = (false, c.evaluateState now)) := by
  unfold allowRequest
  simp only
  split
  · rename_i hclosed
    exact .inl ⟨hclosed, rfl⟩
  · rename_i hhalf
    split
    · rename_i hleft
      exact .inr (.inl ⟨hhalf, hleft, rfl⟩)
    · exact .inr (.inr ⟨by rw [hhalf]; decide, rfl⟩)
  · rename_i hopen
    exact .inr (.inr ⟨by rw [hopen]; decide, rfl⟩)

theorem allowRequest_post (now : Rat) (c : CircuitBreaker) :
    ∃ left, (c.allowRequest now).2 = { c.evaluateState now with halfOpenTrialsLeft := left } := by
  rcases allowRequest_cases now c with ⟨-, h⟩ | ⟨-, -, h⟩ | ⟨-, h⟩
  · exact ⟨_, congrArg Prod.snd h⟩
  · exact ⟨_, congrArg Prod.snd h⟩
  · exact ⟨_, congrArg Prod.snd h⟩

/-- What holds of the breaker `c` that the acts leave, when they started it as `start`. -/
structure Watched (start : CircuitBreaker) (acts : List Act) (c : CircuitBreaker) : Prop where
  threshold : c.failureThreshold = start.failureThreshold
  timeout : c.recoveryTimeoutSeconds = start.recoveryTimeoutSeconds
  trials : c.halfOpenTrials = start.halfOpenTrials
  below : c.state = .closed → c.failureCount < c.failureThreshold
  recorded : c.state ≠ .closed → lastFailure acts = some c.lastFailureTime
  rested : c.state = .halfOpen → ∀ now, (∀ a ∈ acts, a.time ≤ now) →
    c.recoveryTimeoutSeconds ≤ now - c.lastFailureTime

theorem lastFailure_snoc (acts : List Act) (a : Act) :
    lastFailure (acts ++ [a]) = match a.method with
      | .recordFailure _ => some a.time
      | _ => lastFailure acts := by
  unfold lastFailure
  rw [List.foldl_append]
  rfl

namespace Watched

variable {start c : CircuitBreaker} {acts : List Act} {a : Act}

theorem idle (h : Watched start acts c) (hlast : lastFailure (acts ++ [a]) = lastFailure acts) :
    Watched start (acts ++ [a]) c where
  threshold := h.threshold
  timeout := h.timeout
  trials := h.trials
  below := h.below
  recorded := fun hclosed => hlast.trans (h.recorded hclosed)
  rested := fun hhalf now hnow => h.rested hhalf now fun b hb => hnow b (List.mem_append_left _ hb)

theorem left (h : Watched start acts c) (left : Int) : Watched start acts { c with halfOpenTrialsLeft := left } :=
  ⟨h.threshold, h.timeout, h.trials, h.below, h.recorded, h.rested⟩

theorem evaluated (h : Watched start acts c) (hlast : lastFailure (acts ++ [a]) = lastFailure acts) :
    Watched start (acts ++ [a]) (c.evaluateState a.time) := by
  rcases evaluateState_cases a.time c with ⟨heq, -⟩ | ⟨hopen, helapsed, heq⟩
  · rw [heq]
    exact h.idle hlast
  · rw [heq]
    refine ⟨h.threshold, h.timeout, h.trials, nofun, fun _ => hlast.trans (h.recorded ?_), fun _ now hnow => ?_⟩
    · rw [hopen]
      decide
    · have hlate : a.time ≤ now := hnow a (List.mem_append_right _ List.mem_cons_self)
      show c.recoveryTimeoutSeconds ≤ now - c.lastFailureTime
      linarith

theorem closed (h : Watched start acts c) (hthreshold : 1 ≤ start.failureThreshold) {c' : CircuitBreaker}
    (hparams : c'.failureThreshold = c.failureThreshold ∧
      c'.recoveryTimeoutSeconds = c.recoveryTimeoutSeconds ∧ c'.halfOpenTrials = c.halfOpenTrials)
    (hstate : c'.state = .closed) (hcount : c'.failureCount = 0) : Watched start (acts ++ [a]) c' := by
  obtain ⟨hfailures, htimeout, htrials⟩ := hparams
  refine ⟨hfailures.trans h.threshold, htimeout.trans h.timeout, htrials.trans h.trials, fun _ => ?_,
    fun hclosed => absurd hstate hclosed, fun hhalf => ?_⟩
  · rw [hcount, hfailures, h.threshold]
    omega
  · rw [hstate] at hhalf
    cases hhalf

theorem failed (h : Watched start acts c) (hlast : lastFailure (acts ++ [a]) = some a.time) :
    Watched start (acts ++ [a]) (c.recordFailure a.time) := by
  unfold recordFailure
  simp only
  split
  · exact ⟨h.threshold, h.timeout, h.trials, nofun, fun _ => hlast, nofun⟩
  · split
    · exact ⟨h.threshold, h.timeout, h.trials, nofun, fun _ => hlast, nofun⟩
    · rename_i hclosed hcount
      refine ⟨h.threshold, h.timeout, h.trials, fun _ => not_le.mp hcount, fun _ => hlast, fun hhalf => ?_⟩
      rw [hclosed] at hhalf
      cases hhalf
  · rename_i hopen
    refine ⟨h.threshold, h.timeout, h.trials, fun hclosed => ?_, fun _ => hlast, fun hhalf => ?_⟩
    · rw [hopen] at hclosed
      cases hclosed
    · rw [hopen] at hhalf
      cases hhalf

theorem step (h : Watched start acts c) (hthreshold : 1 ≤ start.failureThreshold) :
    Watched start (acts ++ [a]) (c.step a) := by
  have hsnoc := lastFailure_snoc acts a
  unfold CircuitBreaker.step
  cases hmethod : a.method with
  | allowRequest request =>
    rw [hmethod] at hsnoc
    obtain ⟨left, hpost⟩ := allowRequest_post a.time c
    rw [hpost]
    exact (h.evaluated hsnoc).left left
  | recordSuccess request =>
    rw [hmethod] at hsnoc
    simp only [CircuitBreaker.recordSuccess]
    split
    · exact h.closed hthreshold ⟨rfl, rfl, rfl⟩ rfl rfl
    · exact h.closed hthreshold ⟨rfl, rfl, rfl⟩ rfl rfl
    · exact h.idle hsnoc
  | recordFailure request =>
    rw [hmethod] at hsnoc
    exact h.failed hsnoc
  | readState =>
    rw [hmethod] at hsnoc
    exact h.evaluated hsnoc
  | reset => exact h.closed hthreshold ⟨rfl, rfl, rfl⟩ rfl rfl

end Watched

theorem watched_run {start : CircuitBreaker} (hthreshold : 1 ≤ start.failureThreshold)
    (hclosed : start.state = .closed) (hcount : start.failureCount = 0) (acts : List Act) :
    Watched start acts (Runs.run step start acts) := by
  induction acts using List.reverseRecOn with
  | nil =>
    refine ⟨rfl, rfl, rfl, fun _ => ?_, fun h => absurd hclosed h, fun h => ?_⟩
    · rw [Runs.run_nil, hcount]
      omega
    · rw [Runs.run_nil, hclosed] at h
      cases h
  | append_singleton acts a ih =>
    rw [Runs.run_append]
    exact ih.step hthreshold

theorem admittedBy_left {a : Act} (hhalf : c.state = .halfOpen)
    (hleft : 0 ≤ c.halfOpenTrialsLeft) (hpost : (step c a).state = .halfOpen) :
    (admittedBy c a).length + (step c a).halfOpenTrialsLeft = c.halfOpenTrialsLeft ∧
      0 ≤ (step c a).halfOpenTrialsLeft := by
  have heval : c.evaluateState a.time = c := evaluateState_state (by rw [hhalf]; decide)
  unfold step at hpost ⊢
  unfold admittedBy
  cases hmethod : a.method with
  | allowRequest request =>
    rcases allowRequest_cases a.time c with ⟨hclosed, h⟩ | ⟨-, htrial, h⟩ | ⟨-, h⟩
    · rw [heval, hhalf] at hclosed
      cases hclosed
    · rw [heval] at htrial h
      simp only [h, if_true, List.length_singleton]
      omega
    · rw [heval] at h
      simp only [h, Bool.false_eq_true, if_false, List.length_nil]
      omega
  | recordSuccess request =>
    simp only [hmethod, recordSuccess, hhalf] at hpost
    cases hpost
  | recordFailure request =>
    simp only [hmethod, recordFailure, hhalf] at hpost
    cases hpost
  | readState =>
    simp only [heval, List.length_nil]
    omega
  | reset =>
    simp only [hmethod, reset] at hpost
    cases hpost

theorem admitted_le_left {acts : List Act} (hhalf : c.state = .halfOpen)
    (hleft : 0 ≤ c.halfOpenTrialsLeft) (hstays : ∀ m ∈ Runs.moves step c acts, m.post.state = .halfOpen) :
    ((admitted c acts).length : Int) ≤ c.halfOpenTrialsLeft := by
  induction acts generalizing c with
  | nil => exact hleft
  | cons a acts ih =>
    rw [Runs.moves, List.forall_mem_cons] at hstays
    obtain ⟨hpost, hstays⟩ := hstays
    obtain ⟨hcount, hleft'⟩ := admittedBy_left hhalf hleft hpost
    have hrest : ((admitted (step c a) acts).length : Int) ≤ (step c a).halfOpenTrialsLeft := ih hpost hleft' hstays
    rw [admitted, List.length_append]
    omega

theorem admittedBy_opening {a : Act} (hopen : c.state = .opened)
    (htrials : 1 ≤ c.halfOpenTrials) (hpost : (step c a).state = .halfOpen) :
    (admittedBy c a).length + (step c a).halfOpenTrialsLeft = c.halfOpenTrials ∧
      0 ≤ (step c a).halfOpenTrialsLeft := by
  have heval : (c.evaluateState a.time).state = .halfOpen →
      (c.evaluateState a.time).halfOpenTrialsLeft = c.halfOpenTrials := by
    intro hhalf
    rcases evaluateState_cases a.time c with ⟨heq, -⟩ | ⟨-, -, heq⟩
    · rw [heq, hopen] at hhalf
      cases hhalf
    · rw [heq]
  unfold step at hpost ⊢
  unfold admittedBy
  cases hmethod : a.method with
  | allowRequest request =>
    simp only [hmethod] at hpost
    rcases allowRequest_cases a.time c with ⟨hclosed, h⟩ | ⟨hhalf, htrial, h⟩ | ⟨hclosed, h⟩
    · rw [h, hclosed] at hpost
      cases hpost
    · have hset := heval hhalf
      simp only [h, if_true, List.length_singleton]
      omega
    · rw [h] at hpost
      have hset := heval hpost
      simp only [h, Bool.false_eq_true, if_false, List.length_nil]
      omega
  | recordSuccess request =>
    simp only [hmethod, recordSuccess, hopen] at hpost
    cases hpost
  | recordFailure request =>
    simp only [hmethod, recordFailure, hopen] at hpost
    cases hpost
  | readState =>
    simp only [hmethod] at hpost
    have hset := heval hpost
    simp only [List.length_nil]
    omega
  | reset =>
    simp only [hmethod, reset] at hpost
    cases hpost

theorem episode_admits {acts : List Act} (htrials : 1 ≤ c.halfOpenTrials)
    (h : Episode c acts) : ((admitted c acts).length : Int) ≤ c.halfOpenTrials := by
  obtain ⟨hne, hopen, hstays⟩ := h
  cases acts with
  | nil => exact absurd rfl hne
  | cons a acts =>
    rw [Runs.moves, List.forall_mem_cons] at hstays
    obtain ⟨hcount, hleft⟩ := admittedBy_opening hopen htrials hstays.1
    have hrest : ((admitted (step c a) acts).length : Int) ≤ (step c a).halfOpenTrialsLeft :=
      admitted_le_left hstays.1 hleft hstays.2
    rw [admitted, List.length_append]
    omega

theorem closing {a : Act} (hpre : c.state ≠ .closed) (hpost : (step c a).state = .closed) :
    (∃ request, a.method = .recordSuccess request) ∨ a.method = .reset := by
  have heval : (c.evaluateState a.time).state ≠ .closed := by
    rcases evaluateState_cases a.time c with ⟨heq, -⟩ | ⟨-, -, heq⟩
    · rw [heq]
      exact hpre
    · rw [heq]
      nofun
  unfold step at hpost
  cases hmethod : a.method with
  | allowRequest request =>
    simp only [hmethod] at hpost
    obtain ⟨left, heq⟩ := allowRequest_post a.time c
    rw [heq] at hpost
    exact absurd hpost heval
  | recordSuccess request => exact .inl ⟨request, rfl⟩
  | recordFailure request =>
    simp only [hmethod, recordFailure] at hpost
    split at hpost
    · cases hpost
    · rename_i hclosed
      exact absurd hclosed hpre
    · rename_i hopen
      rw [hopen] at hpost
      cases hpost
  | readState =>
    simp only [hmethod] at hpost
    exact absurd hpost heval
  | reset => exact .inr rfl

/-- The law of the acts, of which `closes` says which act may close a half-open circuit after which acts. -/
structure Law (start : CircuitBreaker) (acts : List Act) (closes : List Act → Act → Prop) : Prop where
  /-- While closed, the failures are below the threshold. -/
  below : ∀ before after, acts = before ++ after → (Runs.run step start before).state = .closed →
    (Runs.run step start before).failureCount < start.failureThreshold
  /-- Until it closes again, no request is admitted before the timeout since the last failure. -/
  refuses : ∀ before a after request last, acts = before ++ a :: after → a.method = .allowRequest request →
    (Runs.run step start before).state ≠ .closed → lastFailure before = some last →
      a.time - last < start.recoveryTimeoutSeconds → ((Runs.run step start before).allowRequest a.time).1 = false
  trials : ∀ before during after, acts = before ++ during ++ after → Episode (Runs.run step start before) during →
    ((admitted (Runs.run step start before) during).length : Int) ≤ start.halfOpenTrials
  closes : ∀ before a after, acts = before ++ a :: after → (Runs.run step start before).state = .halfOpen →
    (Runs.run step start (before ++ [a])).state = .closed → closes before a

structure IsNew (c : CircuitBreaker) : Prop where
  threshold : 1 ≤ c.failureThreshold
  trials : 1 ≤ c.halfOpenTrials
  state : c.state = .closed
  count : c.failureCount = 0

theorem refuses_of_watched {start : CircuitBreaker} {before : List Act} {now last : Rat}
    (hwatched : Watched start before c) (htimes : ∀ b ∈ before, b.time ≤ now) (hclosed : c.state ≠ .closed)
    (hlast : lastFailure before = some last) (hearly : now - last < start.recoveryTimeoutSeconds) :
    (c.allowRequest now).1 = false := by
  have hrecorded := hwatched.recorded hclosed
  rw [hlast, Option.some.injEq] at hrecorded
  have htimeout := hwatched.timeout
  have hnot : ¬ c.recoveryTimeoutSeconds ≤ now - c.lastFailureTime := by
    rw [htimeout, ← hrecorded]
    exact not_le.mpr hearly
  have hopen : c.state = .opened := by
    cases hstate : c.state with
    | closed => exact absurd hstate hclosed
    | opened => rfl
    | halfOpen => exact absurd (hwatched.rested hstate now htimes) hnot
  have heval : c.evaluateState now = c := if_neg fun h => hnot h.2
  unfold allowRequest
  simp only [heval, hopen]

/-- The law of every run at times that never run backwards: a success of any request, or a reset, closes. -/
theorem breaker_law (start : CircuitBreaker) (hnew : IsNew start) (acts : List Act)
    (htimes : acts.Pairwise fun a b => a.time ≤ b.time) :
    Law start acts fun _ a => (∃ request, a.method = .recordSuccess request) ∨ a.method = .reset := by
  have hwatched := watched_run hnew.threshold hnew.state hnew.count
  constructor
  case below =>
    intro before after _ hclosed
    rw [← (hwatched before).threshold]
    exact (hwatched before).below hclosed
  case refuses =>
    rintro before a after request last rfl - hclosed hlast hearly
    have hbefore : ∀ b ∈ before, b.time ≤ a.time := fun b hb =>
      (List.pairwise_append.mp htimes).2.2 b hb a List.mem_cons_self
    exact refuses_of_watched (hwatched before) hbefore hclosed hlast hearly
  case trials =>
    intro before during after _ hepisode
    rw [← (hwatched before).trials]
    exact episode_admits ((hwatched before).trials ▸ hnew.trials) hepisode
  case closes =>
    intro before a after _ hhalf hclosed
    rw [Runs.run_append] at hclosed
    exact closing (by rw [hhalf]; decide) hclosed

def oneStrike : CircuitBreaker where
  failureThreshold := 1

/-- The second request fails and opens the circuit, and the third tries it after the timeout. -/
def lateRun : List Act :=
  [⟨0, .allowRequest 0⟩, ⟨0, .allowRequest 1⟩, ⟨1, .recordFailure 1⟩, ⟨40, .allowRequest 2⟩]

theorem lateRun_law :
    Law oneStrike lateRun fun _ a => (∃ request, a.method = .recordSuccess request) ∨ a.method = .reset :=
  breaker_law oneStrike ⟨by decide, by decide, rfl, rfl⟩ lateRun (by decide +kernel)

/-- The first request, admitted before the circuit opened, reports a success and closes it. -/
theorem late_success_closes :
    ¬ Law oneStrike (lateRun ++ [⟨41, .recordSuccess 0⟩]) fun before a =>
      ∃ request, a.method = .recordSuccess request ∧ AdmittedInEpisode oneStrike before request := by
  intro h
  obtain ⟨request, hmethod, hadmitted⟩ := h.closes lateRun ⟨41, .recordSuccess 0⟩ [] rfl (by decide +kernel)
    (by decide +kernel)
  cases hmethod
  revert hadmitted
  decide +kernel

end CircuitBreaker
end Resilience
end Execution
end DarkFactory
