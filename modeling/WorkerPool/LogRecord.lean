import WorkerPool.Config
import WorkerPool.Metric
import WorkerPool.Slot

/-!
What pools and tasks write to the log.

A record names the pool, worker and task it is about; its text shows the parts a reader needs.
Tasks are shown by their number, which counts from one.
-/
namespace WorkerPool

inductive LogRecord
  | created (config : Config)
  | spawned (pool worker : Nat) (poolName : String)
  | registered (pool worker live : Nat)
  | submitted (pool task pending : Nat)
  | claimed (pool worker task : Nat)
  | panicked (pool worker task : Nat)
  /-- The outcome of a detached task goes to the worker that finished it. -/
  | handedBack (task : Nat)
  | detached (task : Nat)
  /-- The handle was dropped before the task had finished. -/
  | abandoned (task : Nat) (state : TaskState)
  /-- A destructor panicked while the worker let go of a finished task. -/
  | releasePanicked (pool worker : Nat) (message : String)
  | stopsItself (pool worker : Nat)
  | exiting (pool worker : Nat)
  | closed (pool : Nat) (poolName : String) (workers : Nat)
  | closeFailed (pool : Nat) (poolName : String) (error : PoolError)
  deriving DecidableEq, Repr, Inhabited

namespace LogRecord

def level : LogRecord → Level
  | created _ | spawned .. | registered .. | stopsItself .. | exiting .. | closed .. => .debug
  | submitted .. | claimed .. | handedBack _ | detached _ | abandoned .. => .trace
  | panicked .. | releasePanicked .. | closeFailed .. => .warn

/-- The number a task is shown by. -/
def number (task : Nat) : Nat := task + 1

def text : LogRecord → String
  | created c =>
      let name := c.threadName
      let threads := c.maxThreads
      let pending := c.maxPending
      let order := c.order.name
      s!"created pool '{name}' (max_threads={threads}, max_pending={pending}, order={order})"
  | spawned _ worker name => s!"spawned worker {worker} for pool '{name}'"
  | registered _ worker live => s!"worker {worker} registered ({live} live)"
  | submitted _ task pending => s!"submitted task #{number task} ({pending} pending)"
  | claimed _ worker task => s!"worker {worker} claimed task #{number task}"
  | panicked _ worker task => s!"worker {worker}: task #{number task} panicked"
  | handedBack task => s!"handing back outcome of detached task #{number task}"
  | detached task => s!"detached task #{number task}"
  | abandoned task state => s!"task #{number task} dropped while {state.name}, detaching"
  | releasePanicked _ worker message =>
      s!"worker {worker}: dropping a finished task panicked: {message}"
  | stopsItself _ worker => s!"worker {worker} is stopping its own pool, not joining"
  | exiting _ worker => s!"worker {worker} exiting"
  | closed _ name workers => s!"pool '{name}' shut down ({workers} workers joined)"
  | closeFailed _ name error =>
      let reason := error.message
      s!"failed to shut down pool '{name}' during drop: {reason}"

end LogRecord

end WorkerPool
