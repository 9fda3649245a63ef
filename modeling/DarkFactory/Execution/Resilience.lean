import DarkFactory.Lib.Runs
import DarkFactory.Python.Round
import DarkFactory.Python.Text

/-!
# DarkFactory.Execution.Resilience

`CircuitBreaker` and `ResilientModelProvider.generate` of `core/execution/resilience.py`.

* Times are what `time_func` returns, exact numbers in no order.
* `Settings` holds the constructor arguments and the tables that are read; `Circumstances` is what one
  call meets outside: the clock, the answers of the two providers and of the budget callback.
* `generate` returns, next to the answer and the state after the call, every `ProviderCall` it made,
  with the breaker of that provider as it stood then.
-/

namespace DarkFactory
namespace Execution
namespace Resilience

inductive CircuitState where
  | closed
  /-- `OPEN`. -/
  | opened
  | halfOpen
deriving DecidableEq

structure CircuitBreaker where
  failureThreshold : Int := 3
  recoveryTimeoutSeconds : Rat := 30
  halfOpenTrials : Int := 1
  state : CircuitState := .closed
  failureCount : Int := 0
  consecutiveSuccesses : Nat := 0
  lastFailureTime : Rat := 0
  halfOpenTrialsLeft : Int := 0
deriving DecidableEq

namespace CircuitBreaker

def evaluateState (now : Rat) (c : CircuitBreaker) : CircuitBreaker :=
  if c.state = .opened ∧ c.recoveryTimeoutSeconds ≤ now - c.lastFailureTime then
    { c with state := .halfOpen, halfOpenTrialsLeft := c.halfOpenTrials }
  else c

def allowRequest (now : Rat) (c : CircuitBreaker) : Bool × CircuitBreaker :=
  let c := c.evaluateState now
  match c.state with
  | .closed => (true, c)
  | .halfOpen =>
    if 0 < c.halfOpenTrialsLeft then
      (true, { c with halfOpenTrialsLeft := c.halfOpenTrialsLeft - 1 })
    else (false, c)
  | .opened => (false, c)

def recordSuccess (c : CircuitBreaker) : CircuitBreaker :=
  match c.state with
  | .halfOpen | .closed =>
    { c with
      state := .closed
      failureCount := 0
      consecutiveSuccesses := c.consecutiveSuccesses + 1 }
  | .opened => c

def recordFailure (now : Rat) (c : CircuitBreaker) : CircuitBreaker :=
  let c :=
    { c with failureCount := c.failureCount + 1, lastFailureTime := now, consecutiveSuccesses := 0 }
  match c.state with
  | .halfOpen => { c with state := .opened }
  | .closed => if c.failureThreshold ≤ c.failureCount then { c with state := .opened } else c
  | .opened => c

/-- The circuit is open, and its recovery timeout since the last failure has not elapsed. -/
def Tripped (c : CircuitBreaker) (now : Rat) : Prop :=
  c.state = .opened ∧ now - c.lastFailureTime < c.recoveryTimeoutSeconds

instance (c : CircuitBreaker) (now : Rat) : Decidable (c.Tripped now) :=
  inferInstanceAs (Decidable (_ ∧ _))

end CircuitBreaker

inductive FallbackReason where
  | connectionRefused | timeout | httpError | rateLimited | circuitOpen | modelNotFound | outOfMemory
  | budgetInsufficient | unknown
deriving DecidableEq

def FallbackReason.value : FallbackReason → String
  | .connectionRefused => "connection_refused"
  | .timeout => "timeout"
  | .httpError => "http_error"
  | .rateLimited => "rate_limited"
  | .circuitOpen => "circuit_open"
  | .modelNotFound => "model_not_found"
  | .outOfMemory => "out_of_memory"
  | .budgetInsufficient => "budget_insufficient"
  | .unknown => "unknown"

/-- `classify_error`, on the text of the exception. -/
def classifyError (lower : String → String) (error : String) : FallbackReason :=
  let msg := lower error
  let mentions := fun words : List String => words.any fun w => Text.contains w msg
  if mentions ["connection refused", "actively refused", "failed to connect"] then .connectionRefused
  else if mentions ["timed out", "timeout"] then .timeout
  else if mentions ["429", "rate limit", "quota"] then .rateLimited
  else if mentions ["not found", "model not found", "404"] then .modelNotFound
  else if mentions ["out of memory", "cuda oom", "oom"] then .outOfMemory
  else if mentions ["http", "500", "502", "503", "504"] then .httpError
  else .unknown

/-- The errors `_execute_with_retry` tries again. -/
def FallbackReason.isTransient (r : FallbackReason) : Bool :=
  [FallbackReason.rateLimited, .httpError, .timeout].contains r

structure ProviderResponse where
  text : String
  model : String
  tokensPrompt : Int
  tokensCompletion : Int
  totalTokens : Int
  latencySeconds : Rat
  measuredCost : Option Rat := none
  estimatedCost : Rat := 0
  isMeasured : Bool := true
  metadata : Option (List (String × String)) := none
  truncated : Bool := false
deriving DecidableEq

/-- An event as pydantic accepts it; `timestamp` is the wall clock and is left out. -/
structure FallbackEvent where
  attemptId : String
  fromProvider : String
  fromModel : String
  toProvider : String
  toModel : String
  reason : FallbackReason
  errorMessage : String
  latencyMs : Rat
deriving DecidableEq

/-- Four of the texts have `min_length=1`, and the latency is not negative. -/
def FallbackEvent.isValid (e : FallbackEvent) : Bool :=
  decide (e.attemptId ≠ "") && decide (e.fromModel ≠ "") && decide (e.toModel ≠ "") &&
    decide (0 ≤ e.latencyMs)

inductive ExceptionClass where
  | valueError
  | runtimeError
  | validationError
  /-- Whatever the provider raised. -/
  | providerError
deriving DecidableEq

structure Raised where
  cls : ExceptionClass
  message : String
deriving DecidableEq

def FORBIDDEN_FALLBACK_MODELS : List String := ["fable-5.1", "fable", "fable-5.1-chat"]

structure Settings where
  enableFallback : Bool := true
  maxRetries : Int := 2
  defaultCloudFallbackModel : String
  /-- Whether a `budget_check_callback` was given. -/
  checksBudget : Bool := false
  /-- `DEFAULT_PARETO_FALLBACK_MODELS.get`. -/
  paretoFallback : String → Option String
  /-- `_models.id_of("deepseek-v4-pro")`. -/
  deepseek : String
  lower : String → String

def Settings.isForbidden (cfg : Settings) (model : String) : Bool :=
  FORBIDDEN_FALLBACK_MODELS.contains (cfg.lower model)

structure ResilientModelProvider where
  localCircuit : CircuitBreaker
  cloudCircuit : CircuitBreaker
  fallbackHistory : List FallbackEvent := []
deriving DecidableEq

/-- `__init__`: two closed breakers. -/
def ResilientModelProvider.init (circuitFailureThreshold : Int) (circuitRecoveryTimeoutSeconds : Rat) :
    ResilientModelProvider :=
  let circuit : CircuitBreaker :=
    { failureThreshold := circuitFailureThreshold
      recoveryTimeoutSeconds := circuitRecoveryTimeoutSeconds }
  { localCircuit := circuit, cloudCircuit := circuit }

structure Request where
  prompt : String
  model : String
  attemptId : Option String := none
  complexity : String := "medium"
  allowFallback : Option Bool := none
deriving DecidableEq

inductive Outcome where
  | answered (resp : ProviderResponse)
  | raised (error : String)
deriving DecidableEq

structure Circumstances where
  /-- `time_func()` in `allow_request`. -/
  allowTime : Rat
  /-- When the local provider is called, and what it does. -/
  localTime : Rat
  localOutcome : Outcome
  /-- `time_func()` in the `record_failure` after it. -/
  localFailedTime : Rat
  /-- `round((time.perf_counter() - start_t) * 1000, 2)`. -/
  latencyMs : Rat
  /-- The answer of the budget callback to a model and an estimated cost. -/
  budgetOk : String → Rat → Bool
  /-- When the cloud provider is called for the `i`-th time, and what it does. -/
  cloudTime : Nat → Rat
  cloudOutcome : Nat → Outcome
  cloudFailedTime : Rat
  /-- `int(time.time() * 1000)`. -/
  epochMs : Int

inductive ProviderName where
  | ollama | cloud
deriving DecidableEq

structure ProviderCall where
  provider : ProviderName
  model : String
  time : Rat
  circuit : CircuitBreaker
deriving DecidableEq

/-- The answer of a `generate`, the calls it made in order, and the provider it leaves. -/
structure Generated where
  result : Except Raised ProviderResponse
  calls : List ProviderCall
  provider : ResilientModelProvider

/-- `_execute_with_retry` with `n` attempts left, the next one being number `i`: the outcome, and the
number of attempts made in all. -/
def executeWithRetry (lower : String → String) (outcome : Nat → Outcome) :
    Nat → Nat → Except Raised ProviderResponse × Nat
  | 0, i => (.error ⟨.runtimeError, "Retry loop exited without result"⟩, i)
  | n + 1, i =>
    match outcome i with
    | .answered resp => (.ok resp, i + 1)
    | .raised error =>
      if 0 < n ∧ (classifyError lower error).isTransient then executeWithRetry lower outcome n (i + 1)
      else (.error ⟨.providerError, error⟩, i + 1)

/-- `_execute_with_retry(self.cloud_provider, ...)`. -/
def executeCloud (cfg : Settings) (w : Circumstances) : Except Raised ProviderResponse × Nat :=
  executeWithRetry cfg.lower w.cloudOutcome (cfg.maxRetries + 1).toNat 0

def cloudCalls (cfg : Settings) (model : String) (w : Circumstances) (circuit : CircuitBreaker) :
    List ProviderCall :=
  (List.range (executeCloud cfg w).2).map fun i => ⟨.cloud, model, w.cloudTime i, circuit⟩

def resolveFallbackModel (cfg : Settings) (targetModel complexity : String) : String :=
  if Text.contains "/" targetModel && !cfg.isForbidden targetModel then targetModel
  else
    let fallback := (cfg.paretoFallback (cfg.lower complexity)).getD cfg.defaultCloudFallbackModel
    if cfg.isForbidden fallback then cfg.deepseek else fallback

/-- `max(100, len(prompt.split()) * 2) * 0.000002`. -/
def estimatedCost (prompt : String) : Rat :=
  let words := (prompt.toList.splitOnP Text.isSpace).filter fun w => !w.isEmpty
  (max 100 (words.length * 2) : Nat) * (2 / 1000000)

/-- `metadata[key] = value`. -/
def setItem (metadata : List (String × String)) (item : String × String) : List (String × String) :=
  if metadata.any fun p => decide (p.1 = item.1) then
    metadata.map fun p => if p.1 = item.1 then item else p
  else metadata ++ [item]

/-- The response of a fallback, with the audit metadata; `truncated` falls back to its default. -/
def auditedResponse (resp : ProviderResponse) (event : FallbackEvent) (fallbackModel : String) : ProviderResponse :=
  { resp with
    truncated := false
    metadata := some
      ([("fallback_triggered", "true"), ("fallback_from_provider", event.fromProvider),
          ("fallback_from_model", event.fromModel), ("fallback_reason", event.reason.value),
          ("fallback_to_model", fallbackModel)].foldl setItem (resp.metadata.getD [])) }

def dispatchCloudFallback (cfg : Settings) (prompt fallbackModel : String) (event : FallbackEvent)
    (w : Circumstances) (p : ResilientModelProvider) : Generated :=
  if cfg.isForbidden fallbackModel then
    { result := .error
        ⟨.valueError, "Resolved fallback model '" ++ fallbackModel ++ "' violates Anti-Fable Scenario G6."⟩
      calls := []
      provider := p }
  else if cfg.checksBudget && !w.budgetOk fallbackModel (estimatedCost prompt) then
    { result := .error
        ⟨.runtimeError, "Budget ceiling or quota window exceeded; cannot dispatch fallback '" ++
          fallbackModel ++ "'."⟩
      calls := []
      provider := p }
  else
    match (executeCloud cfg w).1 with
    | .ok resp =>
      { result := .ok (auditedResponse resp event fallbackModel)
        calls := cloudCalls cfg fallbackModel w p.cloudCircuit
        provider := { p with cloudCircuit := p.cloudCircuit.recordSuccess } }
    | .error e =>
      { result := .error
          ⟨.runtimeError, "Graceful fallback to cloud model '" ++ fallbackModel ++ "' failed: " ++ e.message⟩
        calls := cloudCalls cfg fallbackModel w p.cloudCircuit
        provider := { p with cloudCircuit := p.cloudCircuit.recordFailure w.cloudFailedTime } }

def fallBack (cfg : Settings) (req : Request) (reason : FallbackReason) (errorMessage : String)
    (latencyMs : Rat) (w : Circumstances) (p : ResilientModelProvider) : Generated :=
  let fallbackModel := resolveFallbackModel cfg req.model req.complexity
  let generated := "gen_" ++ toString w.epochMs
  let event : FallbackEvent :=
    { attemptId := match req.attemptId with
        | none => generated
        | some id => if id = "" then generated else id
      fromProvider := "ollama"
      fromModel := req.model
      toProvider := "cloud"
      toModel := fallbackModel
      reason := reason
      errorMessage := errorMessage
      latencyMs := latencyMs }
  if event.isValid then
    dispatchCloudFallback cfg req.prompt fallbackModel event w
      { p with fallbackHistory := p.fallbackHistory ++ [event] }
  else
    { result := .error ⟨.validationError, "FallbackEvent"⟩, calls := [], provider := p }

def generateCloud (cfg : Settings) (req : Request) (w : Circumstances) (p : ResilientModelProvider) : Generated :=
  { result := (executeCloud cfg w).1
    calls := cloudCalls cfg req.model w p.cloudCircuit
    provider :=
      match (executeCloud cfg w).1 with
      | .ok _ => { p with cloudCircuit := p.cloudCircuit.recordSuccess }
      | .error _ => { p with cloudCircuit := p.cloudCircuit.recordFailure w.cloudFailedTime } }

def generateLocal (cfg : Settings) (req : Request) (w : Circumstances) (p : ResilientModelProvider) : Generated :=
  let shouldFallback := req.allowFallback.getD cfg.enableFallback
  let allowed := p.localCircuit.allowRequest w.allowTime
  let p := { p with localCircuit := allowed.2 }
  if !allowed.1 then
    if !shouldFallback then
      { result := .error
          ⟨.runtimeError, "Local provider circuit is OPEN and fallback is disabled for model '" ++
            req.model ++ "'."⟩
        calls := []
        provider := p }
    else
      fallBack cfg req .circuitOpen "Local circuit breaker is OPEN; diverted immediately to cloud" 0 w p
  else
    let call : ProviderCall := ⟨.ollama, req.model, w.localTime, p.localCircuit⟩
    match w.localOutcome with
    | .answered resp =>
      { result := .ok resp
        calls := [call]
        provider := { p with localCircuit := p.localCircuit.recordSuccess } }
    | .raised error =>
      let p := { p with localCircuit := p.localCircuit.recordFailure w.localFailedTime }
      if !shouldFallback then
        { result := .error ⟨.providerError, error⟩, calls := [call], provider := p }
      else
        let g := fallBack cfg req (classifyError cfg.lower error) error w.latencyMs w p
        { g with calls := call :: g.calls }

def generate (cfg : Settings) (p : ResilientModelProvider) (req : Request) (w : Circumstances) : Generated :=
  if cfg.isForbidden req.model then
    { result := .error
        ⟨.valueError, "Model '" ++ req.model ++ "' violates Scenario G6 Anti-Fable governance. " ++
          "Fable cannot be requested as default or primary model."⟩
      calls := []
      provider := p }
  else if Text.contains "/" req.model then generateCloud cfg req w p
  else generateLocal cfg req w p

end Resilience
end Execution
end DarkFactory
