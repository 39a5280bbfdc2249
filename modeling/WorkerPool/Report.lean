import WorkerPool.Json.Compact
import WorkerPool.System.Thread

/-!
How errors, configurations, pools and tasks are reported.
-/
namespace WorkerPool

def PoolError.report (e : PoolError) : Value :=
  .record [("error", .text e.kind), ("message", .text e.message),
    ("recoverable", .flag e.isRecoverable)]

/-- The answer of a call that either succeeds or fails. -/
def Value.ofResult : Except PoolError Unit → Value
  | .ok () => .ok
  | .error e => e.report

/-- The numbers and texts of a configuration, besides the ceiling. -/
def Config.details (c : Config) : List (String × Value) :=
  [("max_pending", .nat c.maxPending), ("thread_name_prefix", .text c.threadName),
    ("stack_size", match c.stackSize with | none => .null | some n => .nat n),
    ("queue_order", .text c.order.name)]

def Config.report (c : Config) : Value := .record (("max_threads", .nat c.maxThreads) :: c.details)

/-- An event as a collector sees it. -/
def Metric.report (m : Metric) : Value :=
  .record ((m.fields.map fun f => (f.1, Value.int f.2))
    ++ [("level", .text m.level.name), ("message", .text m.message)])

def LogRecord.report (r : LogRecord) : Value := .texts [r.level.name, r.text]

namespace Pool

def reportStats (p : Pool) : Value :=
  .record [("json", .text p.stats.toJson), ("debug", .text p.stats.inspect)]

def report (p : Pool) : Value :=
  .record [("max_threads", .nat p.config.maxThreads), ("config", p.config.report),
    ("debug", .text p.inspect)]

def reportTotals (p : Pool) : Value :=
  .list [.nat p.totalCompleted.toNat, .nat p.totalPanicked.toNat]

def reportWorkers (p : Pool) : Value :=
  .list (p.crew.map fun m =>
    .list [.nat m.stats.completed.toNat, .nat m.stats.panicked.toNat])

/-- The bookkeeping of the pool in one line. -/
def reportCounts (p : Pool) : Value :=
  .list [.nat p.threadCount, .nat p.idleCount, .nat p.queue.length, .nat p.runningCount,
    .nat p.submitted.toNat, .flag p.closed]

end Pool

namespace Task

/-- The task in full, for inspection. -/
def inspect (t : TaskId) (task : Task) : String :=
  Text.record "Task" [("id", toString (LogRecord.number t)), ("state", task.slot.state.inspect),
    ("ownership", task.slot.ownership.inspect)]

def report (t : TaskId) (task : Task) : Value :=
  .record [("id", .nat (LogRecord.number t)), ("state", .text task.slot.state.name),
    ("running", .flag (task.slot.state = .running)),
    ("finished", .flag (task.slot.state = .finished)), ("debug", .text (inspect t task))]

/-- State and ownership of the task in one word. -/
def reportState (task : Task) : Value :=
  .text (task.slot.state.name ++ "/" ++ task.slot.ownership.inspect)

end Task

end WorkerPool
