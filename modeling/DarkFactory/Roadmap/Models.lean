import Mathlib.Data.Prod.Lex
import Mathlib.Data.String.Basic

/-!
# DarkFactory.Roadmap.Models

The contracts of `core/roadmap/models.py`: what a source records, what a snapshot holds.

* Observation times are left out, so equal snapshots are equal apart from them. Dates stay as the texts they come in.
-/

namespace DarkFactory
namespace Roadmap

inductive RoadmapItemType where
  | epic | feature | infrastructure | research | quality | security | documentation | operations
deriving DecidableEq

def RoadmapItemType.value : RoadmapItemType → String
  | .epic => "epic"
  | .feature => "feature"
  | .infrastructure => "infrastructure"
  | .research => "research"
  | .quality => "quality"
  | .security => "security"
  | .documentation => "documentation"
  | .operations => "operations"

inductive LifecycleStage where
  | foundations | execution | nextSteps | future
deriving DecidableEq

def LifecycleStage.value : LifecycleStage → String
  | .foundations => "foundations"
  | .execution => "execution"
  | .nextSteps => "next_steps"
  | .future => "future"

inductive DeliveryStatus where
  | discovered | accepted | planned | implementing | validating | completed | cancelled | waitingHuman
deriving DecidableEq

def DeliveryStatus.value : DeliveryStatus → String
  | .discovered => "discovered"
  | .accepted => "accepted"
  | .planned => "planned"
  | .implementing => "implementing"
  | .validating => "validating"
  | .completed => "completed"
  | .cancelled => "cancelled"
  | .waitingHuman => "waiting_human"

inductive PlanningHorizon where
  | now | next | later | exploratory | unscheduled
deriving DecidableEq

def PlanningHorizon.value : PlanningHorizon → String
  | .now => "now"
  | .next => "next"
  | .later => "later"
  | .exploratory => "exploratory"
  | .unscheduled => "unscheduled"

inductive ConfidenceLevel where
  | high | medium | low | unknown
deriving DecidableEq

inductive FreshnessStatus where
  | current | aging | stale | unavailable
deriving DecidableEq

inductive DependencyType where
  | requires | blocks | unlocks | parentOf | relatedTo
deriving DecidableEq

inductive RoadmapFlag where
  | blocked | atRisk | conflicting | obsolete
deriving DecidableEq

def RoadmapFlag.value : RoadmapFlag → String
  | .blocked => "blocked"
  | .atRisk => "at_risk"
  | .conflicting => "conflicting"
  | .obsolete => "obsolete"

inductive ConfirmationState where
  | confirmed | unconfirmed
deriving DecidableEq

/-- `Enum(value)`, for an enumeration whose members are `all`; none is its `ValueError`. -/
def member {α : Type} (value : α → String) (all : List α) (text : String) : Option α :=
  all.find? fun a => value a = text

/-- The hash of a document, of a manifest with what it is read beside, or a revision that a record brings itself. -/
inductive Revision where
  | given (text : String)
  | document (content : String)
  | manifest (content : String) (plan : Option String) (evidence : List (String × String))
deriving DecidableEq

structure RoadmapSourceRef where
  sourceId : String
  sourceKind : String
  label : String
  locator : String
  revision : Option Revision := none
  producedBy : Option String := none
deriving DecidableEq

structure RoadmapEvidenceRef where
  evidenceId : String
  evidenceKind : String
  label : String
  locator : String
  observedAt : Option String := none
  verified : Bool := true
deriving DecidableEq

structure RoadmapDependency where
  itemId : String
  type : DependencyType
  label : Option String := none
deriving DecidableEq

structure RoadmapItem where
  id : String
  projectId : String
  title : String
  description : String := ""
  stateRationale : String := ""
  itemType : RoadmapItemType
  lifecycleStage : LifecycleStage
  deliveryStatus : DeliveryStatus
  horizon : PlanningHorizon
  confidence : ConfidenceLevel
  parentId : Option String := none
  plannedStart : Option String := none
  targetDate : Option String := none
  dependencies : List RoadmapDependency := []
  tags : List String := []
  completionCriteria : List String := []
  sourceRefs : List RoadmapSourceRef := []
  evidenceRefs : List RoadmapEvidenceRef := []
  sourceRevision : Revision := .given ""
  freshnessStatus : FreshnessStatus := .current
  operationalFlags : List RoadmapFlag := []
  blockingDependencyIds : List String := []
  downstreamItemIds : List String := []
  confirmationState : ConfirmationState := .confirmed
  planningStatus : Option String := none
  implementationStatus : Option String := none
  operationalStatus : Option String := none
deriving DecidableEq

/-- A record of a source, with its precedence. -/
structure RoadmapCandidate extends RoadmapItem where
  sourceId : String
  sourcePriority : Int := 100
deriving DecidableEq

inductive Severity where
  | warning | error
deriving DecidableEq

structure RoadmapConsistencyIssue where
  code : String
  severity : Severity
  message : String
  itemIds : List String := []
  sourceIds : List String := []
deriving DecidableEq

inductive SourceStatus where
  | available | unavailable | stale
deriving DecidableEq

/-- What makes a source unavailable: `str(exc)` of what its adapter catches. -/
inductive SourceError where
  | notFound (path : String)
  | raised (text : String)
  /-- a refusal of the contract's own validation -/
  | invalid (contract : String) (itemId : String)
deriving DecidableEq

structure RoadmapSourceState where
  sourceId : String
  label : String
  sourceKind : String
  locator : String
  status : SourceStatus := .available
  revision : Option Revision := none
  contentHash : Option Revision := none
  error : Option SourceError := none
deriving DecidableEq

structure RoadmapStats where
  totalItems : Nat
  confirmedItems : Nat
  blockedItems : Nat
  conflictItems : Nat
  staleItems : Nat
  byHorizon : List (String × Nat)
  byStatus : List (String × Nat)
deriving DecidableEq

/-- One source in the payload of the source fingerprint. -/
structure FingerprintEntry where
  sourceId : String
  status : SourceStatus
  revision : Option Revision
  contentHash : Option Revision
  error : Option SourceError
deriving DecidableEq

structure RoadmapSnapshot where
  projectId : String
  items : List RoadmapItem
  stats : RoadmapStats
  sourcesConsulted : List RoadmapSourceState
  sourcesUnavailable : List String
  issues : List RoadmapConsistencyIssue
  sourceFingerprint : List FingerprintEntry
deriving DecidableEq

def LifecycleStage.order : LifecycleStage → Nat
  | .foundations => 0
  | .execution => 1
  | .nextSteps => 2
  | .future => 3

def PlanningHorizon.order : PlanningHorizon → Nat
  | .now => 0
  | .next => 1
  | .later => 2
  | .exploratory => 3
  | .unscheduled => 4

def modelSortKey (item : RoadmapItem) : Nat ×ₗ Nat ×ₗ String :=
  toLex (item.lifecycleStage.order, toLex (item.horizon.order, item.id))

end Roadmap
end DarkFactory
