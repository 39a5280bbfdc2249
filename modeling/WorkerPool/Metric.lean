/-!
Counter and gauge events for a metrics collector.
-/
namespace WorkerPool

inductive Level
  | trace
  | debug
  | info
  | warn
  | error
  deriving DecidableEq, Repr, Inhabited

def Level.name : Level → String
  | trace => "trace"
  | debug => "debug"
  | info => "info"
  | warn => "warn"
  | error => "error"

inductive Metric
  /-- A submission was accepted; `depth` tasks are pending. -/
  | submission (depth : Nat)
  /-- A work returned, after `millis` milliseconds where that was measured. -/
  | completion (millis : Option Nat)
  /-- A work panicked, after `millis` milliseconds where that was measured. -/
  | panic (millis : Option Nat)
  | busy (worker : Nat)
  | idle (worker : Nat)
  /-- A pool was shut down; the counts are over its life. -/
  | shutdown (completed panicked : Nat)
  deriving DecidableEq, Repr, Inhabited

namespace Metric

/-- A 64-bit number read as a signed one. -/
def signed (n : Nat) : Int := Int.bmod n UInt64.size

/-- The milliseconds in a duration, kept to 64 bits. -/
def millis (secs nanos : Nat) : Nat := (secs * 1000 + nanos / 1000000) % UInt64.size

def level : Metric → Level
  | shutdown .. => .info
  | _ => .trace

def message : Metric → String
  | submission _ => "task submitted"
  | completion _ => "task completed"
  | panic _ => "task panicked"
  | busy _ => "worker busy"
  | idle _ => "worker idle"
  | shutdown .. => "task pool shutdown complete"

private def duration (millis : Option Nat) : List (String × Int) :=
  match millis with
  | none => []
  | some ms => [("histogram.task_duration_ms", ms)]

/-- The counters and gauges of the event. -/
def fields : Metric → List (String × Int)
  | submission depth => [("counter.tasks_submitted", 1), ("gauge.queue_depth", signed depth)]
  | completion ms => ("counter.tasks_completed", 1) :: duration ms
  | panic ms => ("counter.tasks_panicked", 1) :: duration ms
  | busy worker => [("gauge.workers_busy", 1), ("worker_id", worker)]
  | idle worker => [("gauge.workers_busy", -1), ("worker_id", worker)]
  | shutdown completed panicked =>
      [("tasks_completed", completed), ("tasks_panicked", panicked)]

end Metric

end WorkerPool
