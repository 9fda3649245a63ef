import DarkFactory.Control.Cancellation
import DarkFactory.Control.FleetExclusivity
import DarkFactory.Control.FleetOwnership
import DarkFactory.Control.LineRuns
import DarkFactory.Control.AtMostOnceRuns
import DarkFactory.Control.Cost
import DarkFactory.Control.Intake
import DarkFactory.Execution.Processes
import DarkFactory.Enterprise.Binding
import DarkFactory.Line.Exclusion
import DarkFactory.Line.LeaseFencing
import DarkFactory.Usage.Outstanding
import DarkFactory.Line.RouteEligibility
import DarkFactory.Control.Backends
import DarkFactory.Usage.LedgerConsistency
import DarkFactory.Orchestrator.GuardCompleteness
import DarkFactory.Harness.HandOffRuns
import DarkFactory.Harness.CacheSoundness
import DarkFactory.Harness.GateEquivalence
import DarkFactory.Harness.TestImpact
import DarkFactory.Demands.MergeSpec
import DarkFactory.Demands.QueueView
import DarkFactory.Demands.LedgerWrites
import DarkFactory.Demands.IdReservations
import DarkFactory.Workflow.Consistency
import DarkFactory.Workflow.Transitions
import DarkFactory.Workflow.CancelledRuns
import DarkFactory.OwnerActions.Repair
import DarkFactory.OwnerActions.Finality
import DarkFactory.OwnerActions.SharedStore
import DarkFactory.OwnerActions.FileLock
import DarkFactory.OwnerActions.SyncRuns
import DarkFactory.Workflow.ExecutionRecords
import DarkFactory.Workflow.OutboxRuns
import DarkFactory.Roadmap.CacheRuns
import DarkFactory.Orchestrator.DeliveryExecutor
import DarkFactory.Orchestrator.BluegreenRuns
import DarkFactory.Orchestrator.ReleaseRuns
import DarkFactory.Infra.PruneGate
import DarkFactory.Infra.RestoreDrill
import DarkFactory.Git.MergeGate
import DarkFactory.Portfolio.Fairness
import DarkFactory.Line.ReviewCompleteness
import DarkFactory.Infra.Convergence
import DarkFactory.Portfolio.BudgetGate
import DarkFactory.Control.ActiveProjects
import DarkFactory.Control.HostAffinity
import DarkFactory.Control.JobKeys
import DarkFactory.Control.RetryDelays
import DarkFactory.Control.BounceCap
import DarkFactory.Control.LeaseSweep
import DarkFactory.Line.MergeDeploys
import DarkFactory.Line.RecoverySerial
import DarkFactory.Execution.ForbiddenModels
import DarkFactory.Execution.BreakerLaw
import DarkFactory.Models.RegistryNames
import DarkFactory.Workflow.ManualResolution
import DarkFactory.OwnerActions.Reconcile
import DarkFactory.Workflow.Validation
import DarkFactory.OwnerActions.Mirror
import DarkFactory.Workflow.Sanitize
import DarkFactory.OwnerActions.Propagate
import DarkFactory.Harness.JobDeadline
import DarkFactory.Line.AgentRetry
import DarkFactory.Line.ContextRetention
