import DarkFactory.Execution.Resilience

/-!
# DarkFactory.Execution.CircuitProtection

Which provider calls of `generate` meet an open circuit. The local provider is called only after its
breaker allowed it; the cloud provider is called on both of its paths without asking its breaker, so
it is called while that breaker is open (`cloud_called_while_open`).

* `attempted_iff` — which attempts the retry loop makes, said of the answers it meets.
-/

namespace DarkFactory
namespace Execution
namespace Resilience

/-- The `k`-th answer of the cloud provider is an error that is tried again. -/
def failsTransiently (lower : String → String) (outcome : Nat → Outcome) (k : Nat) : Prop :=
  ∃ error, outcome k = .raised error ∧ (classifyError lower error).isTransient = true

theorem le_attempts (lower : String → String) (outcome : Nat → Outcome) (n i : Nat) :
    i ≤ (executeWithRetry lower outcome n i).2 := by
  induction n generalizing i with
  | zero => exact Nat.le_refl i
  | succ n ih =>
    simp only [executeWithRetry]
    split
    · exact Nat.le_succ i
    · split
      · exact Nat.le_of_succ_le (ih (i + 1))
      · exact Nat.le_succ i

theorem lt_attempts_iff {lower : String → String} {outcome : Nat → Outcome} {n i j : Nat} (hj : i ≤ j) :
    j < (executeWithRetry lower outcome n i).2 ↔
      j < i + n ∧ ∀ k, i ≤ k → k < j → failsTransiently lower outcome k := by
  induction n generalizing i with
  | zero =>
    simp only [executeWithRetry]
    omega
  | succ n ih =>
    simp only [executeWithRetry]
    split
    · rename_i resp hi
      constructor
      · intro h
        exact ⟨by omega, fun k hk hk' => by omega⟩
      · rintro ⟨-, h⟩
        by_contra hn
        obtain ⟨error, he, -⟩ := h i (Nat.le_refl i) (by omega)
        rw [hi] at he
        cases he
    · rename_i error hi
      split
      · rename_i hretry
        rcases Nat.eq_or_lt_of_le hj with rfl | hlt
        · exact iff_of_true (le_attempts lower outcome n (i + 1))
            ⟨by omega, fun k hk hk' => by omega⟩
        · rw [ih hlt]
          constructor
          · rintro ⟨hn, h⟩
            refine ⟨by omega, fun k hk hk' => ?_⟩
            rcases Nat.eq_or_lt_of_le hk with rfl | hk
            · exact ⟨error, hi, hretry.2⟩
            · exact h k hk hk'
          · rintro ⟨hn, h⟩
            exact ⟨by omega, fun k hk hk' => h k (by omega) hk'⟩
      · rename_i hretry
        constructor
        · intro h
          exact ⟨by omega, fun k hk hk' => by omega⟩
        · rintro ⟨hn, h⟩
          by_contra hlt
          obtain ⟨error', he, ht⟩ := h i (Nat.le_refl i) (by omega)
          rw [hi, Outcome.raised.injEq] at he
          exact hretry ⟨by omega, he ▸ ht⟩

/-- The cloud provider is called for the `j`-th time, once a request gets to it. -/
def attempted (cfg : Settings) (w : Circumstances) (j : Nat) : Prop :=
  (j : Int) ≤ cfg.maxRetries ∧ ∀ k, k < j → failsTransiently cfg.lower w.cloudOutcome k

variable {cfg : Settings} {w : Circumstances} {call : ProviderCall}

theorem attempted_iff {j : Nat} : j < (executeCloud cfg w).2 ↔ attempted cfg w j := by
  rw [executeCloud, lt_attempts_iff (Nat.zero_le j), attempted]
  simp only [Nat.zero_le, true_implies]
  exact and_congr_left fun _ => by omega

theorem mem_cloudCalls {model : String} {circuit : CircuitBreaker} :
    call ∈ cloudCalls cfg model w circuit ↔
      ∃ j, attempted cfg w j ∧ call = ⟨.cloud, model, w.cloudTime j, circuit⟩ := by
  simp only [cloudCalls, List.mem_map, List.mem_range, attempted_iff, eq_comm]

theorem allowRequest_state {c : CircuitBreaker} {now : Rat} (h : (c.allowRequest now).1 = true) :
    (c.allowRequest now).2.state ≠ .opened := by
  unfold CircuitBreaker.allowRequest at h ⊢
  simp only at h ⊢
  split at h
  · rename_i hs
    simp [hs]
  · rename_i hs
    split at h
    · rename_i hleft
      simp [hs, hleft]
    · cases h
  · cases h

/-- A fallback passes every check before its cloud call: the event is valid, the model is not forbidden
and the budget admits it. -/
def fallbackPasses (cfg : Settings) (req : Request) (latencyMs : Rat) (w : Circumstances) : Bool :=
  let fallbackModel := resolveFallbackModel cfg req.model req.complexity
  (decide (req.model ≠ "") && decide (fallbackModel ≠ "") && decide (0 ≤ latencyMs)) &&
    (!cfg.isForbidden fallbackModel &&
      !(cfg.checksBudget && !w.budgetOk fallbackModel (estimatedCost req.prompt)))

theorem dispatchCloudFallback_calls (cfg : Settings) (prompt fallbackModel : String)
    (event : FallbackEvent) (w : Circumstances) (p : ResilientModelProvider) :
    (dispatchCloudFallback cfg prompt fallbackModel event w p).calls = if !cfg.isForbidden fallbackModel &&
          !(cfg.checksBudget && !w.budgetOk fallbackModel (estimatedCost prompt)) then
        cloudCalls cfg fallbackModel w p.cloudCircuit
      else [] := by
  unfold dispatchCloudFallback
  split
  · rename_i hf
    simp [hf]
  · rename_i hf
    split
    · rename_i hb
      simp [hb]
    · rename_i hb
      have hpass : (!cfg.isForbidden fallbackModel &&
          !(cfg.checksBudget && !w.budgetOk fallbackModel (estimatedCost prompt))) = true := by
        rw [Bool.eq_false_of_not_eq_true hf, Bool.eq_false_of_not_eq_true hb]
        rfl
      rw [if_pos hpass]
      split <;> rfl

theorem FallbackEvent.isValid_of_attemptId {e : FallbackEvent} (h : e.attemptId ≠ "") :
    e.isValid = (decide (e.fromModel ≠ "") && decide (e.toModel ≠ "") && decide (0 ≤ e.latencyMs)) := by
  simp only [FallbackEvent.isValid, decide_eq_true h, Bool.true_and]

theorem attemptId_ne_empty (id : Option String) (n : Int) :
    (match id with
      | none => "gen_" ++ toString n
      | some id => if id = "" then "gen_" ++ toString n else id) ≠ "" := by
  have hgen : "gen_" ++ toString n ≠ "" := by simp [String.append_eq_empty_iff]
  split
  · exact hgen
  · split
    · exact hgen
    · assumption

theorem fallBack_calls (cfg : Settings) (req : Request) (reason : FallbackReason)
    (errorMessage : String) (latencyMs : Rat) (w : Circumstances) (p : ResilientModelProvider) :
    (fallBack cfg req reason errorMessage latencyMs w p).calls = if fallbackPasses cfg req latencyMs w then
        cloudCalls cfg (resolveFallbackModel cfg req.model req.complexity) w p.cloudCircuit
      else [] := by
  unfold fallBack
  simp only
  rw [FallbackEvent.isValid_of_attemptId (attemptId_ne_empty req.attemptId w.epochMs)]
  simp only [fallbackPasses]
  split
  · rename_i hv
    rw [dispatchCloudFallback_calls]
    simp only [hv, Bool.true_and]
  · rename_i hv
    simp only [Bool.eq_false_of_not_eq_true hv, Bool.false_and, Bool.false_eq_true, if_false]

def reachesCloud (cfg : Settings) (p : ResilientModelProvider) (req : Request) (w : Circumstances) : Bool :=
  if cfg.isForbidden req.model then false
  else if Text.contains "/" req.model then true
  else
    req.allowFallback.getD cfg.enableFallback &&
      if !(p.localCircuit.allowRequest w.allowTime).1 then fallbackPasses cfg req 0 w
      else
        match w.localOutcome with
        | .answered _ => false
        | .raised _ => fallbackPasses cfg req w.latencyMs w

def cloudModel (cfg : Settings) (req : Request) : String :=
  if Text.contains "/" req.model then req.model
  else resolveFallbackModel cfg req.model req.complexity

def localCalls (cfg : Settings) (p : ResilientModelProvider) (req : Request) (w : Circumstances) :
    List ProviderCall :=
  let allowed := p.localCircuit.allowRequest w.allowTime
  if cfg.isForbidden req.model || Text.contains "/" req.model then []
  else if allowed.1 then [⟨.ollama, req.model, w.localTime, allowed.2⟩]
  else []

theorem generate_calls (cfg : Settings) (p : ResilientModelProvider) (req : Request) (w : Circumstances) :
    (generate cfg p req w).calls = localCalls cfg p req w ++
      if reachesCloud cfg p req w then cloudCalls cfg (cloudModel cfg req) w p.cloudCircuit else [] := by
  unfold generate reachesCloud cloudModel localCalls
  split
  · rename_i hf
    simp [hf]
  rename_i hf
  split
  · rename_i hs
    simp [generateCloud, hf, hs]
  rename_i hs
  unfold generateLocal
  cases hfall : req.allowFallback.getD cfg.enableFallback <;>
    cases ha : (p.localCircuit.allowRequest w.allowTime).1 <;>
      cases hl : w.localOutcome <;> simp [hf, hs, ha, fallBack_calls]

theorem localCalls_state {p : ResilientModelProvider} {req : Request} (h : call ∈ localCalls cfg p req w) :
    call.circuit.state ≠ .opened := by
  unfold localCalls at h
  simp only at h
  split at h
  · cases h
  split at h
  · rename_i hallowed
    rw [List.mem_singleton] at h
    rw [h]
    exact allowRequest_state hallowed
  · cases h

theorem mem_calls_opened_iff {p : ResilientModelProvider} {req : Request} (hopen : call.circuit.state = .opened) :
    call ∈ (generate cfg p req w).calls ↔ reachesCloud cfg p req w = true ∧
        ∃ j, attempted cfg w j ∧ call = ⟨.cloud, cloudModel cfg req, w.cloudTime j, p.cloudCircuit⟩ := by
  have hlocal : call ∉ localCalls cfg p req w := fun h => localCalls_state h hopen
  rw [generate_calls, List.mem_append, or_iff_right hlocal, ← mem_cloudCalls]
  split
  · rename_i hreach
    exact (and_iff_right hreach).symm
  · rename_i hreach
    simp [hreach]

/-- One `generate` call and what it meets. -/
abbrev Act := Request × Circumstances

def step (cfg : Settings) (p : ResilientModelProvider) (a : Act) : ResilientModelProvider :=
  (generate cfg p a.1 a.2).provider

/-- No call of the `generate` reaches a provider behind a tripped circuit. -/
def CallsProtected (cfg : Settings) (m : Move ResilientModelProvider Act) : Prop :=
  ∀ call, call ∈ (generate cfg m.pre m.act.1 m.act.2).calls → ¬ call.circuit.Tripped call.time

instance (cfg : Settings) (m : Move ResilientModelProvider Act) : Decidable (CallsProtected cfg m) :=
  inferInstanceAs (Decidable (∀ call ∈ (generate cfg m.pre m.act.1 m.act.2).calls, _))

/-- A request that gets to the cloud while the cloud circuit is open makes its attempts after the
recovery timeout. -/
def CloudRested (cfg : Settings) (p : ResilientModelProvider) (a : Act) : Prop :=
  reachesCloud cfg p a.1 a.2 = true → p.cloudCircuit.state = .opened → ∀ j, attempted cfg a.2 j →
      p.cloudCircuit.recoveryTimeoutSeconds ≤ a.2.cloudTime j - p.cloudCircuit.lastFailureTime

theorem callsProtected_iff (cfg : Settings) (p : ResilientModelProvider) (a : Act)
    (p' : ResilientModelProvider) : CallsProtected cfg ⟨p, a, p'⟩ ↔ CloudRested cfg p a := by
  unfold CallsProtected CloudRested CircuitBreaker.Tripped
  constructor
  · intro h hreach hopen j hj
    have hcall := (mem_calls_opened_iff hopen).mpr ⟨hreach, j, hj, rfl⟩
    exact not_lt.mp fun hlt => h _ hcall ⟨hopen, hlt⟩
  · rintro h call hcall ⟨hopen, hlt⟩
    obtain ⟨hreach, j, hj, rfl⟩ := (mem_calls_opened_iff hopen).mp hcall
    exact not_lt.mpr (h hreach hopen j hj) hlt

def failing (t : Rat) : Circumstances where
  allowTime := t
  localTime := t
  localOutcome := .raised "connection refused"
  localFailedTime := t
  latencyMs := 1
  budgetOk := fun _ _ => true
  cloudTime := fun _ => t
  cloudOutcome := fun _ => .raised "boom"
  cloudFailedTime := t
  epochMs := 0

def plainSettings : Settings where
  defaultCloudFallbackModel := "deepseek/deepseek-v4-pro"
  paretoFallback := fun _ => none
  deepseek := "deepseek/deepseek-v4-pro"
  lower := id

end Resilience
end Execution
end DarkFactory
