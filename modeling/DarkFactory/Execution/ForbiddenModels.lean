import DarkFactory.Execution.CircuitProtection

/-!
# DarkFactory.Execution.ForbiddenModels

Which models `generate` can call. Its guard compares the whole text with the forbidden names, so a name that
some gateway qualifies (`anthropic/fable`) passes it, requested directly or configured as the fallback.
-/

namespace DarkFactory
namespace Execution
namespace Resilience

/-- The name after the last `/`. -/
def baseName (model : String) : String :=
  String.ofList (model.toList.reverse.takeWhile fun c => decide (c ≠ '/')).reverse

def NamesForbidden (cfg : Settings) (model : String) : Prop := cfg.isForbidden (baseName model) = true

instance (cfg : Settings) (model : String) : Decidable (NamesForbidden cfg model) :=
  inferInstanceAs (Decidable (_ = _))

/-- The guard lets the text pass, and its last component is a forbidden name. -/
def Disguised (cfg : Settings) (model : String) : Prop :=
  cfg.isForbidden model = false ∧ NamesForbidden cfg model

variable {model : String} {cfg : Settings} {p : ResilientModelProvider} {req : Request} {w : Circumstances}

theorem baseName_of_no_slash (h : Text.contains "/" model = false) : baseName model = model := by
  have hslash : ∀ c ∈ model.toList, c ≠ '/' := by
    rintro c hc rfl
    obtain ⟨xs, ys, heq⟩ := List.append_of_mem hc
    refine Text.contains_eq_false.mp h ⟨xs, ys, ?_⟩
    rw [heq, List.append_assoc]
    rfl
  have hall : model.toList.reverse.takeWhile (fun c => decide (c ≠ '/')) = model.toList.reverse :=
    List.takeWhile_eq_self_iff.mpr fun c hc => decide_eq_true (hslash c (List.mem_reverse.mp hc))
  unfold baseName
  rw [hall, List.reverse_reverse, String.ofList_toList]

theorem not_disguised_of_no_slash (h : Text.contains "/" model = false) : ¬ Disguised cfg model := by
  rintro ⟨hpass, hname⟩
  unfold NamesForbidden at hname
  rw [baseName_of_no_slash h, hpass] at hname
  cases hname

theorem mem_calls_model {call : ProviderCall} (h : call ∈ (generate cfg p req w).calls) :
    (call.model = req.model ∧ Text.contains "/" req.model = false ∧ cfg.isForbidden req.model = false) ∨
      (reachesCloud cfg p req w = true ∧ attempted cfg w 0 ∧ call.model = cloudModel cfg req) := by
  rw [generate_calls, List.mem_append] at h
  rcases h with hlocal | hcloud
  · unfold localCalls at hlocal
    simp only at hlocal
    split at hlocal
    · cases hlocal
    · rename_i hguard
      rw [Bool.or_eq_true, not_or] at hguard
      split at hlocal
      · rw [List.mem_singleton] at hlocal
        exact .inl ⟨congrArg ProviderCall.model hlocal, Bool.eq_false_of_not_eq_true hguard.2,
          Bool.eq_false_of_not_eq_true hguard.1⟩
      · cases hlocal
  · split at hcloud
    · rename_i hreach
      obtain ⟨j, hj, rfl⟩ := mem_cloudCalls.mp hcloud
      refine .inr ⟨hreach, ⟨?_, ?_⟩, rfl⟩
      · have := hj.1
        omega
      · intro k hk
        omega
    · cases hcloud

theorem cloudModel_passed (h : reachesCloud cfg p req w = true) :
    cfg.isForbidden req.model = false ∧ cfg.isForbidden (cloudModel cfg req) = false ∧
      (Text.contains "/" req.model = false → req.model ≠ "") := by
  have hfallback : ∀ latency, fallbackPasses cfg req latency w = true →
      req.model ≠ "" ∧ cfg.isForbidden (resolveFallbackModel cfg req.model req.complexity) = false := by
    intro latency hpass
    unfold fallbackPasses at hpass
    simp only [Bool.and_eq_true, decide_eq_true_eq, Bool.not_eq_true'] at hpass
    exact ⟨hpass.1.1.1, hpass.2.1⟩
  unfold reachesCloud at h
  unfold cloudModel
  split at h
  · cases h
  · rename_i hguard
    have hguard := Bool.eq_false_of_not_eq_true hguard
    refine ⟨hguard, ?_⟩
    split at h
    · rename_i hslash
      rw [if_pos hslash, hslash]
      exact ⟨hguard, nofun⟩
    · rename_i hslash
      rw [if_neg hslash]
      obtain ⟨-, h⟩ := Bool.and_eq_true_iff.mp h
      split at h
      · obtain ⟨hempty, hpass⟩ := hfallback 0 h
        exact ⟨hpass, fun _ => hempty⟩
      · split at h
        · cases h
        · obtain ⟨hempty, hpass⟩ := hfallback w.latencyMs h
          exact ⟨hpass, fun _ => hempty⟩

/-- The names a fallback is resolved from: the Pareto entry of the complexity or the configured default, and
in its place the one of last resort where the guard knows the first. -/
def fallbackFor (cfg : Settings) (complexity : String) : String :=
  let configured := (cfg.paretoFallback (cfg.lower complexity)).getD cfg.defaultCloudFallbackModel
  if cfg.isForbidden configured then cfg.deepseek else configured

/-- Neither the requested model nor, where there is one, the fallback of it is disguised. -/
def Undisguised (cfg : Settings) (model complexity : String) : Prop :=
  0 ≤ cfg.maxRetries → cfg.isForbidden model = false → if Text.contains "/" model then ¬ Disguised cfg model
    else model ≠ "" → ¬ Disguised cfg (fallbackFor cfg complexity)

theorem cloudModel_eq :
    cloudModel cfg req = if Text.contains "/" req.model then req.model else fallbackFor cfg req.complexity := by
  unfold cloudModel
  split
  · rfl
  · rename_i hslash
    unfold resolveFallbackModel
    rw [if_neg]
    · rfl
    · rw [Bool.eq_false_of_not_eq_true hslash, Bool.false_and]
      exact Bool.false_ne_true

theorem fallbackPasses_iff {latency : Rat} (hbudget : ∀ model cost, w.budgetOk model cost = true) :
    fallbackPasses cfg req latency w = true ↔
      (req.model ≠ "" ∧ resolveFallbackModel cfg req.model req.complexity ≠ "" ∧ 0 ≤ latency) ∧
        cfg.isForbidden (resolveFallbackModel cfg req.model req.complexity) = false := by
  unfold fallbackPasses
  simp only [hbudget, Bool.not_true, Bool.and_false, Bool.not_false, Bool.and_true, Bool.and_eq_true,
    decide_eq_true_eq, Bool.not_eq_true', and_assoc]

/-- A local provider that refuses, so that the request is diverted, and a budget that admits everything. -/
def diverted : Circumstances where
  allowTime := 0
  localTime := 0
  localOutcome := .raised "connection refused"
  localFailedTime := 0
  latencyMs := 0
  budgetOk := fun _ _ => true
  cloudTime := fun _ => 0
  cloudOutcome := fun _ => .raised "boom"
  cloudFailedTime := 0
  epochMs := 0

def wanted (model complexity : String) : Request :=
  { prompt := "p", model := model, complexity := complexity, allowFallback := some true }

theorem wanted_called {complexity : String}
    (hretries : 0 ≤ cfg.maxRetries) (hreach : reachesCloud cfg p (wanted model complexity) diverted = true) :
    ⟨.cloud, cloudModel cfg (wanted model complexity), 0, p.cloudCircuit⟩ ∈
      (generate cfg p (wanted model complexity) diverted).calls := by
  have hattempted : attempted cfg diverted 0 := ⟨hretries, fun k hk => absurd hk (Nat.not_lt_zero k)⟩
  rw [generate_calls, List.mem_append, if_pos hreach]
  exact .inr (mem_cloudCalls.mpr ⟨0, hattempted, rfl⟩)

theorem wanted_reaches {complexity : String} (hpass : cfg.isForbidden model = false)
    (hfallback : Text.contains "/" model = false → fallbackPasses cfg (wanted model complexity) 0 diverted = true) :
    reachesCloud cfg p (wanted model complexity) diverted = true := by
  have hguard : cfg.isForbidden (wanted model complexity).model = false := hpass
  unfold reachesCloud
  rw [hguard, if_neg Bool.false_ne_true]
  split
  · rfl
  · rename_i hslash
    have hpasses := hfallback (Bool.eq_false_of_not_eq_true hslash)
    have hallowed : (wanted model complexity).allowFallback.getD cfg.enableFallback = true := rfl
    rw [hallowed, Bool.true_and]
    split
    · exact hpasses
    · exact hpasses

/-- No request for the model, whatever it meets, calls a forbidden one exactly when no name is disguised. -/
theorem forbidden_unreachable_iff (cfg : Settings) (model complexity : String) :
    (∀ p req w call, req.model = model → req.complexity = complexity → call ∈ (generate cfg p req w).calls →
      ¬ NamesForbidden cfg call.model) ↔ Undisguised cfg model complexity := by
  constructor
  · intro h hretries hpass
    have hcalled : reachesCloud cfg (.init 3 30) (wanted model complexity) diverted = true →
        ¬ NamesForbidden cfg (cloudModel cfg (wanted model complexity)) := fun hreach =>
      h _ (wanted model complexity) diverted ⟨.cloud, _, 0, _⟩ rfl rfl (wanted_called hretries hreach)
    rw [cloudModel_eq] at hcalled
    split
    · rename_i hslash
      rintro ⟨-, hname⟩
      rw [if_pos (show Text.contains "/" (wanted model complexity).model = true from hslash)] at hcalled
      exact hcalled (wanted_reaches hpass fun hno => absurd (hno.symm.trans hslash) Bool.false_ne_true) hname
    · rename_i hslash
      rintro hempty ⟨hfallback, hname⟩
      rw [if_neg (show ¬ Text.contains "/" (wanted model complexity).model = true from hslash)] at hcalled
      refine hcalled (wanted_reaches hpass fun _ => ?_) hname
      have heq : resolveFallbackModel cfg (wanted model complexity).model complexity =
          fallbackFor cfg complexity := by
        have : cloudModel cfg (wanted model complexity) = _ := cloudModel_eq
        unfold cloudModel at this
        rwa [if_neg (show ¬ Text.contains "/" (wanted model complexity).model = true from hslash),
          if_neg (show ¬ Text.contains "/" (wanted model complexity).model = true from hslash)] at this
      refine (fallbackPasses_iff fun _ _ => rfl).mpr ⟨⟨hempty, ?_, le_refl 0⟩, ?_⟩
      · rw [show (wanted model complexity).complexity = complexity from rfl, heq]
        intro hnil
        exact not_disguised_of_no_slash rfl (hnil ▸ ⟨hfallback, hname⟩ : Disguised cfg "")
      · rw [show (wanted model complexity).complexity = complexity from rfl, heq]
        exact hfallback
  · rintro h p req w call rfl rfl hcall hname
    rcases mem_calls_model hcall with ⟨hmodel, hslash, hpass⟩ | ⟨hreach, hattempted, hmodel⟩
    · rw [hmodel] at hname
      exact not_disguised_of_no_slash hslash ⟨hpass, hname⟩
    · obtain ⟨hguard, hpassed, hempty⟩ := cloudModel_passed hreach
      rw [hmodel] at hname
      have hdisguised : Disguised cfg (cloudModel cfg req) := ⟨hpassed, hname⟩
      have hretries : 0 ≤ cfg.maxRetries := by
        have := hattempted.1
        omega
      have hnot := h hretries hguard
      rw [cloudModel_eq] at hdisguised
      split at hnot
      · rename_i hslash
        rw [if_pos hslash] at hdisguised
        exact hnot hdisguised
      · rename_i hslash
        rw [if_neg hslash] at hdisguised
        exact hnot (hempty (Bool.eq_false_of_not_eq_true hslash)) hdisguised

def shippedSettings (defaultCloudFallbackModel : String) : Settings where
  defaultCloudFallbackModel := defaultCloudFallbackModel
  paretoFallback := fun complexity =>
    if complexity = "low" then some "qwen/qwen3-8-flash-next"
    else if complexity = "medium" ∨ complexity = "high" then some "deepseek/deepseek-v4-pro"
    else if complexity = "critical" then some "anthropic/claude-3.7-sonnet"
    else none
  deepseek := "deepseek/deepseek-v4-pro"
  lower := Text.asciiLower

/-- A qualified name goes straight to the cloud, and so does a qualified default of a diverted request. -/
theorem qualified_fable_called :
    (∃ call ∈ (generate (shippedSettings "deepseek/deepseek-v4-pro") (.init 3 30)
        (wanted "anthropic/Fable" "medium") diverted).calls,
      NamesForbidden (shippedSettings "deepseek/deepseek-v4-pro") call.model) ∧
    ∃ call ∈ (generate (shippedSettings "anthropic/fable") (.init 3 30) (wanted "llama3" "other") diverted).calls,
      NamesForbidden (shippedSettings "anthropic/fable") call.model := by
  decide +kernel

end Resilience
end Execution
end DarkFactory
