import Mathlib.Data.String.Basic
import DarkFactory.Lib.Grouping
import DarkFactory.Python.Round
import DarkFactory.Python.Sort

/-!
# DarkFactory.Usage.Ledger

`ModelUsageLedger` of `core/usage/ledger.py` over the store of `core/usage/store.py`.

* `UsageData` is what the file holds; a transaction reads it, changes it and writes it as one step.
* `aggregation` is the accumulation that `record`, `recompute_aggregates` and `report` each write out.
* Costs and latencies are exact numbers, `lower` is `str.lower`.
-/

namespace DarkFactory
namespace Usage

inductive ModelTier where
  | localTier
  | tier2
  | frontier
  | procedural
  | unknown
deriving DecidableEq

def ModelTier.value : ModelTier → String
  | .localTier => "local"
  | .tier2 => "tier_2"
  | .frontier => "frontier"
  | .procedural => "procedural"
  | .unknown => "unknown"

inductive ModelModality where
  | text
  | image
  | audio
  | video
  | embedding
  | multimodal
  | other
deriving DecidableEq

def ModelModality.value : ModelModality → String
  | .text => "text"
  | .image => "image"
  | .audio => "audio"
  | .video => "video"
  | .embedding => "embedding"
  | .multimodal => "multimodal"
  | .other => "other"

structure ModelCallEvent where
  invocationId : String
  ticketId : Option String := none
  projectId : String := "darkfac"
  executionMode : Option String := none
  provider : String
  model : String
  tier : ModelTier := .unknown
  harness : String := "darkhub"
  modality : ModelModality := .text
  success : Bool := true
  inputTokens : Option Nat := none
  processingTokens : Option Nat := some 0
  outputTokens : Option Nat := none
  costUsd : Option Rat := none
  latencyMs : Option Rat := none
  source : String := "runtime"
  reasoningEffort : Option String := none
  timestamp : String
deriving DecidableEq

structure ModelUsageAggregate where
  provider : String
  model : String
  tier : ModelTier
  harness : String
  modality : ModelModality
  callCount : Nat := 0
  successCount : Nat := 0
  failureCount : Nat := 0
  inputTokens : Nat := 0
  outputTokens : Nat := 0
  costUsd : Rat := 0
  latencyMs : Rat := 0
  firstSeenAt : String
  lastSeenAt : String
deriving DecidableEq

/-- `generated_at` is the wall clock and is left out. -/
structure ModelUsageReport where
  totalCalls : Nat
  successfulCalls : Nat
  failedCalls : Nat
  totalTokens : Nat
  totalCostUsd : Rat
  aggregates : List ModelUsageAggregate
  recentEvents : List ModelCallEvent
deriving DecidableEq

structure UsageData where
  events : List ModelCallEvent
  aggregates : Groups String ModelUsageAggregate
  invocations : Table ModelCallEvent.invocationId

def UsageData.empty : UsageData := ⟨[], Table.empty, Table.empty⟩

/-- `max_events` is at least 10. -/
structure ModelUsageLedger where
  maxEvents : Nat
  atLeastTen : 10 ≤ maxEvents

def ModelUsageLedger.init (maxEvents : Int) : ModelUsageLedger :=
  ⟨(max 10 maxEvents).toNat, by omega⟩

def aggregateKey (lower : String → String) (event : ModelCallEvent) : String :=
  "\u241f".intercalate
    [lower event.provider, event.model, event.tier.value, lower event.harness, event.modality.value]

def startRow (event : ModelCallEvent) : ModelUsageAggregate where
  provider := event.provider
  model := event.model
  tier := event.tier
  harness := event.harness
  modality := event.modality
  firstSeenAt := event.timestamp
  lastSeenAt := event.timestamp

def accumulate (row : ModelUsageAggregate) (event : ModelCallEvent) : ModelUsageAggregate :=
  { row with
    callCount := row.callCount + 1
    successCount := if event.success then row.successCount + 1 else row.successCount
    failureCount := if event.success then row.failureCount else row.failureCount + 1
    inputTokens := row.inputTokens + event.inputTokens.getD 0
    outputTokens := row.outputTokens + event.outputTokens.getD 0
    costUsd := round8 (row.costUsd + event.costUsd.getD 0)
    latencyMs := round3 (row.latencyMs + event.latencyMs.getD 0)
    lastSeenAt := event.timestamp }

def aggregation (lower : String → String) : Grouping ModelCallEvent String ModelUsageAggregate where
  keyOf := aggregateKey lower
  start := startRow
  take := accumulate

def record (lower : String → String) (ledger : ModelUsageLedger) (data : UsageData)
    (event : ModelCallEvent) : UsageData :=
  match data.invocations.insert? event with
  | none => data
  | some invocations =>
    { events := sliceFrom (data.events ++ [event]) (-(ledger.maxEvents : Int))
      invocations := invocations
      aggregates := (aggregation lower).add data.aggregates event }

def recomputeAggregates (lower : String → String) (data : UsageData) : Nat × UsageData :=
  (data.invocations.rows.length, { data with aggregates := (aggregation lower).group data.invocations.rows })

def reportKey (lower : String → String) (row : ModelUsageAggregate) : Int ×ₗ String ×ₗ String :=
  toLex (-(row.callCount : Int), toLex (lower row.provider, lower row.model))

def ofProject (projectId : String) (event : ModelCallEvent) : Bool :=
  decide (event.projectId = projectId)

def reportScope (lower : String → String) (data : UsageData) (projectId : Option String) :
    Groups String ModelUsageAggregate × List ModelCallEvent :=
  match projectId with
  | none => (data.aggregates, data.events)
  | some p =>
    if p = "" then (data.aggregates, data.events)
    else
      ((aggregation lower).group (data.invocations.select (ofProject p)), data.events.filter (ofProject p))

def report (lower : String → String) (data : UsageData) (recentLimit : Int)
    (projectId : Option String) : ModelUsageReport :=
  let scope := reportScope lower data projectId
  let aggregates := sortAsc (reportKey lower) (scope.1.rows.map Prod.snd)
  { totalCalls := (aggregates.map ModelUsageAggregate.callCount).sum
    successfulCalls := (aggregates.map ModelUsageAggregate.successCount).sum
    failedCalls := (aggregates.map ModelUsageAggregate.failureCount).sum
    totalTokens := (aggregates.map fun row => row.inputTokens + row.outputTokens).sum
    totalCostUsd := round8 (aggregates.map ModelUsageAggregate.costUsd).sum
    aggregates := aggregates
    recentEvents := (sliceFrom scope.2 (-max 0 recentLimit)).reverse }

end Usage
end DarkFactory
