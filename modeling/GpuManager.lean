import GpuManager.Broker.JobFences
import GpuManager.Broker.MemberFences
import GpuManager.Broker.Slots
import GpuManager.Broker.Leadership
import GpuManager.Broker.Admission
import GpuManager.Broker.MemoryQueues
import GpuManager.Queue.DeadLetters
import GpuManager.Queue.JobIds
import GpuManager.Queue.Markers
import GpuManager.Broker.Draining
import GpuManager.Broker.Repairs
import GpuManager.Lifecycle.RecoveryRaces
import GpuManager.Coordinator.Finality
import GpuManager.Coordinator.Replays
import GpuManager.Coordinator.Artifacts
import GpuManager.Coordinator.Cancelled
import GpuManager.Workflow.Restarts
import GpuManager.Revisions.FailedLoads
import GpuManager.Coordinator.Orphans
import GpuManager.Coordinator.Outcomes
import GpuManager.Lifecycle.RestartSpacing
import GpuManager.Lifecycle.Groups
import GpuManager.Host.Exclusive
import GpuManager.Host.Readmission
import GpuManager.Host.Endpoints
import GpuManager.Contracts.Priority
import GpuManager.Contracts.Manifests
import GpuManager.Contracts.BundleIdentity
import GpuManager.Runtime.TransitionEnds
import GpuManager.Revisions.Reopened
import GpuManager.Broker.Selection
import GpuManager.Queue.Handles
import GpuManager.Broker.Migration
import GpuManager.Broker.Observation
import GpuManager.Broker.StreamResult
import GpuManager.Lifecycle.TransitionOutcomes
import GpuManager.Revisions.Republished
import GpuManager.Queue.AsyncSlots
import GpuManager.Dispatch.SameExecutors
import GpuManager.Dispatch.Gates
import GpuManager.Workflow.TopologicalOrder
import GpuManager.Services.UnsafeParams
import GpuManager.Services.CorrectionLoops
import GpuManager.Coordinator.TrustedConfig
import GpuManager.Services.ExecutorFields
import GpuManager.Services.Isolation
import GpuManager.Formats.LeanRows
import GpuManager.Runtime.Semantics
