import DarkFactory.Line.Harness
import DarkFactory.Models.Registry
import DarkFactory.Python.DateTime
import DarkFactory.Python.Sort

/-!
# DarkFactory.Line.Routing

`pick`: the harness and model for a stage.

* `Host`, `Request` — what `pick` reads around it, and its arguments.
* `routableCandidates` — the cascade, and the operating harness beside it, less what cannot serve.
* `Tally`, `evaluate` — the five lists that the pass over the candidates fills.
* `pickWinner` — the choice between them; `rankEligible` orders one of them.
* `openrouterOpen`, `electOpenrouter`, `independentOpenrouter` — the paid contingency.

The clock is read once. The answers of a lookup are those of a function.
-/

namespace DarkFactory
namespace Line

open Models

/-- A harness and the model it is asked to run; without a model, the default of the harness. -/
abbrev Route := String × Option String

inductive Cascade where
  | otherFamilyThanDevelopment
  | list (candidates : List Route)
deriving DecidableEq

structure StageRoute where
  cascade : Cascade := .list []
  openrouterOk : Bool := false
  openrouterModel : Option String := none
deriving DecidableEq

structure RunCaps where
  openrouterUsd : Rat := 2
deriving DecidableEq

def DEFAULT_PRESSURE_THRESHOLDS : List (String × Rat) :=
  [("guarded", 50), ("stressed", 25), ("critical", QUOTA_FLOOR_MIN)]

structure RoutingConfig where
  pressureThresholds : List (String × Rat) := DEFAULT_PRESSURE_THRESHOLDS
  forbiddenAutonomousModels : List String
  stages : List (String × StageRoute) := []
  runCaps : RunCaps := {}
deriving DecidableEq

structure BenchmarkEntry where
  modelId : String
  codingScore : Option Rat
  costPerTask : Option Rat
  isParetoCoding : Bool := false
  tier : String := "balanced_mid"
deriving DecidableEq

structure Host where
  lower : String → String
  lower_ascii : ∀ s, Text.isAscii s = true → lower s = Text.asciiLower s
  environ : String → Option String
  registry : ModelRegistry
  now : Instant
  /-- The cooldown file: for each harness with an entry, its `until` if that parses. -/
  cooldowns : List (String × Option Instant) := []
  /-- The data policy of a project, for a provider. -/
  providerAllowed : String → String → Bool
  defaultQuotaHeadroom : String → Option Rat
  defaultWeeklySlack : String → Option Rat
  /-- The credit of the connected OpenRouter account. -/
  availableCreditUsd : Option Rat
  /-- The daily benchmark, unless it cannot be had. -/
  ledger : Option (List BenchmarkEntry)

/-- An item of `exclude`: a pair, or anything else by its text. -/
inductive Exclusion where
  | harness (name : String)
  | pair (route : Route)
deriving DecidableEq

structure Request where
  stage : String
  hostCaps : List String
  exclude : List Exclusion := []
  implementingHarness : Option String := none
  spentUsd : Rat := 0
  config : RoutingConfig
  quotaLookup : Option (String → Option Rat) := none
  complexity : Option String := none
  openrouterBalanceLookup : Option (Unit → Option Rat) := none
  mode : Option String := none
  unknownQuotaLastResortOk : Option Bool := none
  operatingHarness : Option String := none
  projectId : Option String := none
  slackLookup : Option (String → Option Rat) := none
  executionContext : ExecutionContext := .interactive

def HARNESS_TO_PROVIDER : List (String × String) :=
  [("claude", "anthropic"), ("codex", "openai"), ("grok", "xai"), ("antigravity", "google")]

def providerOf (harness : String) : String := (HARNESS_TO_PROVIDER.lookup harness).getD harness

def STAGE_MODES : List (String × String) := [("development", "write"), ("integration", "write")]

def stageMode (stage : String) : String := (STAGE_MODES.lookup stage).getD "read"

def HIGH_TIER_ONLY_STAGES : List String := ["planning"]

namespace Request

variable (req : Request)

def stageCfg : Option StageRoute := req.config.stages.lookup req.stage

def requiredMode : String := (truthy req.mode).getD (stageMode req.stage)

def excludedHarnesses : List String :=
  req.exclude.filterMap fun
    | .harness name => some name
    | .pair _ => none

def excludedPairs : List Route :=
  req.exclude.filterMap fun
    | .harness _ => none
    | .pair route => some route

def criticalThreshold : Rat :=
  (req.config.pressureThresholds.lookup "critical").getD QUOTA_FLOOR_MIN

end Request

section

variable (host : Host) (req : Request)

/-- `s.lower().strip()`. -/
def Host.clean (s : String) : String := Text.strip (host.lower s)

/-- `any(m in s for m in needles)`. -/
def containsAny (needles : List String) (s : String) : Bool :=
  needles.any fun m => Text.contains m s

def lookup : String → Option Rat := req.quotaLookup.getD host.defaultQuotaHeadroom

/-- `model.lower().strip() in forbidden_models`. -/
def isForbidden (model : String) : Bool :=
  decide (host.clean model ∈ req.config.forbiddenAutonomousModels.map host.clean)

def forbids (model : Option String) : Bool := (truthy model).any (isForbidden host req)

def policyRefuses (harness : String) : Bool :=
  match truthy req.projectId with
  | some projectId => !host.providerAllowed projectId harness
  | none => false

def inCooldown (harness : String) : Bool :=
  match host.cooldowns.lookup harness with
  | some (some expiry) => decide (host.now < expiry)
  | _ => false

def operating : Option String :=
  if req.stage = "development" ∧ req.executionContext = .interactive then
    resolveOperatingHarness host.lower host.environ req.operatingHarness
  else none

def resolveRoleRef (value : Option String) : Option String :=
  value.map fun v => (host.registry.roles.lookup (Text.strip v)).getD v

def otherFamilies : Option String → List String
  | some "claude" => ["codex", "grok", "antigravity"]
  | some "codex" => ["claude", "grok", "antigravity"]
  | some "grok" => ["claude", "codex", "antigravity"]
  | some "antigravity" => ["claude", "codex", "grok"]
  | _ => ["claude", "codex", "grok", "antigravity"]

def resolveCascade (stageCfg : StageRoute) : List Route :=
  match stageCfg.cascade with
  | .otherFamilyThanDevelopment => (otherFamilies req.implementingHarness).map fun h => (h, none)
  | .list candidates => candidates.map fun c => (c.1, resolveRoleRef host c.2)

def extraOperatingCandidate (cascade : List Route) (operatingHarness : Option String) : Option Route :=
  match operatingHarness with
  | some op => if cascade.all fun c => decide (c.1 ≠ op) then some (op, none) else none
  | none => none

def extraCandidate (stageCfg : StageRoute) : Option Route :=
  extraOperatingCandidate (resolveCascade host req stageCfg) (operating host req)

def codexHeadlessBlocked : Bool :=
  decide (host.lower (Text.strip ((host.environ "DARKFAC_CODEX_HEADLESS_ALLOWED").getD "")) ∈
    ["0", "false", "no", "off"])

def routable (route : Route) : Bool :=
  !decide (req.stage = "development" ∧ req.executionContext = .headless ∧ route.1 = "antigravity") &&
  !decide (route.1 ∈ req.excludedHarnesses ∨ route ∈ req.excludedPairs) &&
  decide ("harness:" ++ route.1 ∈ req.hostCaps) &&
  !(decide (route.1 = "codex") && codexHeadlessBlocked host) &&
  supports host.lower host.environ route.1 req.requiredMode (some req.executionContext)
    (operating host req) &&
  !forbids host req route.2

def routableCandidates (stageCfg : StageRoute) : List Route :=
  (resolveCascade host req stageCfg ++ (extraCandidate host req stageCfg).toList).filter
    (routable host req)

def isHighTierModel (model : Option String) : Bool :=
  match truthy model with
  | none => false
  | some m =>
    let low := host.lower (Text.strip ((host.registry.resolveKnown host.lower m).getD m))
    match host.registry.models.find? fun entry =>
        decide (low ∈ entry.names.map fun n => host.lower (Text.strip n)) with
    | some entry => decide (entry.tier ∈ ["high", "frontier"])
    | none => containsAny ["opus", "sol"] (host.lower m)

/-- Claude or Codex could plan: on this host, allowed, not cooling and above the floor. -/
def planningHighTierHealthy (stageCfg : StageRoute) : Bool :=
  (resolveCascade host req stageCfg).any fun route =>
    decide (route.1 ∈ ["claude", "codex"]) &&
    decide ("harness:" ++ route.1 ∈ req.hostCaps) &&
    !decide (route.1 ∈ req.excludedHarnesses ∨ route ∈ req.excludedPairs) &&
    !(decide (route.1 = "codex") && codexHeadlessBlocked host) &&
    !policyRefuses host req route.1 &&
    !inCooldown host route.1 &&
    (lookup host req (providerOf route.1)).any fun remaining =>
      decide (req.criticalThreshold < remaining)

def claudeOrCodexHealthy (stageCfg : StageRoute) : Bool :=
  decide (req.stage = "planning") && planningHighTierHealthy host req stageCfg

structure Evaluated where
  route : Route
  cooling : Bool
  isCritical : Bool
  remaining : Option Rat
deriving DecidableEq

structure Scored where
  route : Route
  remaining : Rat
deriving DecidableEq

structure Tally where
  evaluated : List Evaluated := []
  eligible : List Scored := []
  extraEligible : List Scored := []
  preferredUnknown : List Route := []
  unknownQuota : List Route := []
deriving DecidableEq

def evaluation (route : Route) : Evaluated :=
  let cooling := inCooldown host route.1
  let remaining := if cooling then none else lookup host req (providerOf route.1)
  { route := route
    cooling := cooling
    isCritical := remaining.all fun q => decide (q ≤ req.criticalThreshold)
    remaining := remaining }

/-- A candidate that the pass leaves out: a model that is too low for the stage, unless it is Grok in
for Claude and Codex, or a harness that the policy of the project refuses. -/
def passedOver (healthy : Bool) (route : Route) : Bool :=
  (decide (req.stage ∈ HIGH_TIER_ONLY_STAGES) && !isHighTierModel host route.2 &&
    !(decide (req.stage = "planning" ∧ route.1 = "grok") && !healthy)) ||
  policyRefuses host req route.1

def evaluate (extra : Option Route) (healthy : Bool) (t : Tally) (route : Route) : Tally :=
  if passedOver host req healthy route then t
  else
    let e := evaluation host req route
    if extra = some route then
      -- outside the cascade: for the preference of the operating harness only
      match e.cooling, e.isCritical, e.remaining with
      | false, false, some remaining =>
        { t with extraEligible := t.extraEligible ++ [⟨route, remaining⟩] }
      | false, _, none =>
        if operating host req = some route.1 then
          { t with preferredUnknown := t.preferredUnknown ++ [route] }
        else t
      | _, _, _ => t
    else
      let t := { t with evaluated := t.evaluated ++ [e] }
      if req.stage = "planning" ∧ route.1 = "grok" ∧ healthy = true then t
      else
        match e.cooling, e.isCritical, e.remaining with
        | false, false, some remaining => { t with eligible := t.eligible ++ [⟨route, remaining⟩] }
        | false, _, none =>
          { t with
            unknownQuota := t.unknownQuota ++ [route]
            preferredUnknown :=
              if operating host req = some route.1 then t.preferredUnknown ++ [route]
              else t.preferredUnknown }
        | _, _, _ => t

def tally (stageCfg : StageRoute) : Tally :=
  (routableCandidates host req stageCfg).foldl
    (evaluate host req (extraCandidate host req stageCfg) (claudeOrCodexHealthy host req stageCfg)) {}

/-- `(complexity or "").lower().strip()`. -/
def complexityOf : String := host.clean (req.complexity.getD "")

def complexityTier (eligible : List Scored) : List Scored :=
  let comp := complexityOf host req
  if comp ∈ ["high", "critical"] ∨ req.stage ∈ ["planning", "architecture"] then
    eligible.filter fun c => (truthy c.route.2).any fun m => containsAny ["opus", "sol"] (host.lower m)
  else if comp = "low" then
    eligible.filter fun c =>
      (truthy c.route.2).any (fun m => containsAny ["luna", "gemini", "flash"] (host.lower m)) ||
        decide (c.route.1 = "antigravity")
  else []

def slackByCandidate (eligible : List Scored) : List (Route × Rat) :=
  let slackFn := req.slackLookup.getD
    (if req.quotaLookup.isNone then host.defaultWeeklySlack else fun _ => none)
  if req.stage = "development" then
    eligible.filterMap fun c => (slackFn (providerOf c.route.1)).map fun value => (c.route, value)
  else []

def rankedPool (eligible : List Scored) : List Scored :=
  let tier := complexityTier host req eligible
  if tier.isEmpty then eligible else tier

def ranked (slack : List (Route × Rat)) (pool : List Scored) : List Scored :=
  if !slack.isEmpty && pool.all fun c => (slack.lookup c.route).isSome then
    sortDesc (fun c => toLex ((slack.lookup c.route).getD 0, c.remaining)) pool
  else sortDesc Scored.remaining pool

def rankEligible (eligible : List Scored) (slack : List (Route × Rat)) : Option Route :=
  (ranked slack (rankedPool host req eligible)).head?.map Scored.route

/-- `DARKFAC_ROUTING_UNKNOWN_QUOTA=last_resort`. -/
def unknownQuotaLastResort : Bool :=
  decide (host.lower (Text.strip ((host.environ "DARKFAC_ROUTING_UNKNOWN_QUOTA").getD "")) = "last_resort")

def allowUnknown : Bool :=
  if req.stage = "development" then decide (complexityOf host req = "low")
  else req.unknownQuotaLastResortOk.getD (unknownQuotaLastResort host)

def preferred (t : Tally) : List Scored :=
  match operating host req with
  | some op =>
    let own := t.eligible.filter fun c => decide (c.route.1 = op)
    if own.isEmpty then t.extraEligible else own
  | none => []

def pickWinner (t : Tally) : Option Route :=
  if (preferred host req t).isEmpty then
    match t.preferredUnknown with
    | route :: _ => some route
    | [] =>
      if t.eligible.isEmpty then
        if allowUnknown host req then t.unknownQuota.head? else none
      else rankEligible host req t.eligible (slackByCandidate host req t.eligible)
  else rankEligible host req (preferred host req t) []

def subscriptionWinner (stageCfg : StageRoute) : Option Route :=
  pickWinner host req (tally host req stageCfg)

inductive PickError where
  | keyError (name : String)
deriving DecidableEq

def openrouterHasCredits : Bool :=
  let balance :=
    match req.openrouterBalanceLookup with
    | some lookup => lookup ()
    | none => host.availableCreditUsd
  balance.any fun b => decide (0 < b)

def developmentTiers : List String := ["frontier_high", "balanced_mid", "high", "mid"]

def paretoModel (stage : String) : Option String :=
  let candidates := (host.ledger.getD []).filter fun m =>
    !containsAny host.registry.forbiddenAutonomousMarkers (host.lower m.modelId)
  let score (m : BenchmarkEntry) : Rat := m.codingScore.getD 0
  if stage ∈ ["planning", "architecture"] then
    let highCands := candidates.filter fun m =>
      decide (85 ≤ score m) &&
        (isHighTierModel host (some m.modelId) || decide (m.tier = "frontier_high"))
    ((sortDesc (fun m => toLex (m.isParetoCoding, score m)) highCands).head?).map
      BenchmarkEntry.modelId
  else if stage ∈ ["development", "coding"] then
    let devCands := candidates.filter fun m =>
      decide (80 ≤ score m) && decide (m.tier ∈ developmentTiers)
    let cost (m : BenchmarkEntry) : Rat :=
      match m.costPerTask with
      | some c => if c = 0 then 1 / 100 else c
      | none => 1 / 100
    ((sortDesc (fun m => toLex (m.isParetoCoding, score m / max (cost m) (1 / 1000))) devCands).head?).map
      BenchmarkEntry.modelId
  else none

def resolveParetoOpenrouterModel (stage : String) (fallbackModel : Option String) : Except PickError String :=
  match paretoModel host stage with
  | some model => .ok model
  | none =>
    match truthy fallbackModel with
    | some model => .ok model
    | none =>
      match host.registry.resolve host.lower "planning.openrouter" with
      | some model => .ok model
      | none => .error (.keyError "planning.openrouter")

def dynamicModel (stageCfg : StageRoute) : Bool :=
  decide (req.stage ≠ "review") &&
    (decide (stageCfg.openrouterModel ∈ [none, some "pareto", some "dynamic"]) ||
      decide (host.environ "DARKFAC_OPENROUTER_DYNAMIC_PARETO" = some "1"))

def electOpenrouter (stageCfg : StageRoute) : Except PickError (Option Route) :=
  if openrouterHasCredits host req then
    if dynamicModel host req stageCfg then
      match resolveParetoOpenrouterModel host req.stage stageCfg.openrouterModel with
      | .ok model => .ok (some ("openrouter", some model))
      | .error e => .error e
    else .ok (some ("openrouter", stageCfg.openrouterModel))
  else .ok none

def implementerEntry (implementer : String) : Option ModelEntry :=
  (host.registry.roles.lookup ("development." ++ implementer)).bind host.registry.entry?

def reviewerEntry (model : Option String) : Option ModelEntry :=
  (resolveRoleRef host model).bind fun id =>
    host.registry.models.find? fun entry => decide (id ∈ entry.names)

/-- The cheap reviewer, where it may run by itself and is of another family. -/
def fallbackReviewer (impl : ModelEntry) : Option ModelEntry :=
  ((host.registry.roles.lookup "distill.openrouter").bind host.registry.entry?).filter fun fallback =>
    decide (fallback.family ≠ impl.family) && !fallback.forbiddenAutonomous &&
      decide (fallback.status = .active)

/-- A review by a model of a family other than that of the implementer. -/
def independentOpenrouter (route : Option Route) : Option Route :=
  match route, req.implementingHarness with
  | some route, some implementer =>
    match implementerEntry host implementer, reviewerEntry host route.2 with
    | some impl, some reviewer =>
      if impl.family = reviewer.family then
        (fallbackReviewer host impl).map fun fallback => (route.1, some fallback.id)
      else some route
    | _, _ => none
  | route, _ => route

def allExhausted (t : Tally) : Bool :=
  !t.evaluated.isEmpty &&
    t.evaluated.all fun e => e.cooling || e.remaining.any fun q => decide (q ≤ req.criticalThreshold)

def openrouterOpen (stageCfg : StageRoute) (t : Tally) : Bool :=
  supports host.lower host.environ "openrouter" req.requiredMode none none &&
  !decide ("openrouter" ∈ req.excludedHarnesses) &&
  (!decide (req.stage ∈ HIGH_TIER_ONLY_STAGES) || (t.evaluated.isEmpty || allExhausted req t) ||
    isHighTierModel host stageCfg.openrouterModel) &&
  !policyRefuses host req "openrouter" &&
  (truthy stageCfg.openrouterModel).isSome && !forbids host req stageCfg.openrouterModel &&
  (stageCfg.openrouterOk || allExhausted req t) &&
  decide (req.spentUsd < req.config.runCaps.openrouterUsd)

def openrouterRoute (stageCfg : StageRoute) : Except PickError (Option Route) :=
  (electOpenrouter host req stageCfg).map fun route =>
    if req.stage = "review" then independentOpenrouter host req route else route

def pick : Except PickError (Option Route) :=
  match req.stageCfg with
  | none => .ok none
  | some stageCfg =>
    match subscriptionWinner host req stageCfg with
    | some winner => .ok (some winner)
    | none =>
      if openrouterOpen host req stageCfg (tally host req stageCfg) then
        openrouterRoute host req stageCfg
      else .ok none

end

end Line
end DarkFactory
