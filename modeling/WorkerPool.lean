import WorkerPool.Scenario.Answer
import WorkerPool.Json.Order
import WorkerPool.Workload
import WorkerPool.Proofs.SlotStates
import WorkerPool.Proofs.OutsideWait
import WorkerPool.Proofs.ShutdownWait
import WorkerPool.Proofs.Teardown
import WorkerPool.Proofs.JoinedShutdown
import WorkerPool.Proofs.TeardownCount
import WorkerPool.Proofs.ClosedPool
import WorkerPool.Proofs.Hiring
import WorkerPool.Proofs.Submissions
import WorkerPool.Proofs.OneOwner
import WorkerPool.Proofs.Totals
import WorkerPool.Proofs.ClosedForm
import WorkerPool.Proofs.CriticalSections
import WorkerPool.Proofs.DroppedHandle
import WorkerPool.Proofs.PanicContainment
import WorkerPool.Proofs.Rejections
import WorkerPool.Proofs.ShutdownDecision
import WorkerPool.Proofs.Tenure
import WorkerPool.Proofs.ClaimOrder
import WorkerPool.Proofs.WakeUps
import WorkerPool.Proofs.NoTrace
import WorkerPool.Proofs.Layers
import WorkerPool.Proofs.Coasting
import WorkerPool.Proofs.Halting
import WorkerPool.Proofs.Rest
import WorkerPool.Proofs.Retries
import WorkerPool.Proofs.Capacity
import WorkerPool.Proofs.Meters
import WorkerPool.Proofs.SpanStacks
import WorkerPool.Proofs.TimedJoins
import WorkerPool.Proofs.SavedStatistics
import WorkerPool.Proofs.Configurations
