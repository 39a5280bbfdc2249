import WorkerPool.Binary64
import WorkerPool.Text.Quoted

/-!
Counters of a worker and of a pool.

All counters are 64 bits wide and wrap.
-/
namespace WorkerPool

/-- A point-in-time copy of the counters of a worker. -/
structure WorkerSnapshot where
  completed : UInt64 := 0
  panicked : UInt64 := 0
  /-- Time spent executing tasks, in microseconds. -/
  processingTime : UInt64 := 0
  deriving DecidableEq, Repr, Inhabited

namespace WorkerSnapshot

def fieldNames : List String := ["tasks_completed", "tasks_panicked", "total_processing_time_us"]

def toList (s : WorkerSnapshot) : List UInt64 := [s.completed, s.panicked, s.processingTime]

def ofList? : List UInt64 → Option WorkerSnapshot
  | [completed, panicked, processingTime] => some { completed, panicked, processingTime }
  | _ => none

/-- The fields, named and printed for inspection. -/
def fields (s : WorkerSnapshot) : List (String × String) :=
  fieldNames.zip (s.toList.map fun n => toString n.toNat)

def inspect (s : WorkerSnapshot) : String := Text.record "WorkerStatSnapshot" s.fields

end WorkerSnapshot

/-- The live counters of a worker. -/
structure WorkerStats where
  counters : WorkerSnapshot := {}
  deriving DecidableEq, Repr, Inhabited

namespace WorkerStats

def completed (s : WorkerStats) : UInt64 := s.counters.completed

def panicked (s : WorkerStats) : UInt64 := s.counters.panicked

def addCompleted (s : WorkerStats) (n : UInt64 := 1) : WorkerStats :=
  ⟨{ s.counters with completed := s.counters.completed + n }⟩

def addPanicked (s : WorkerStats) (n : UInt64 := 1) : WorkerStats :=
  ⟨{ s.counters with panicked := s.counters.panicked + n }⟩

def addProcessingTime (s : WorkerStats) (microseconds : UInt64) : WorkerStats :=
  ⟨{ s.counters with processingTime := s.counters.processingTime + microseconds }⟩

def snapshot (s : WorkerStats) : WorkerSnapshot := s.counters

/-- The mean processing time of a task in microseconds, as the bits of a double: both counts are
rounded to doubles before they are divided, and without tasks the mean is zero. -/
def average (s : WorkerStats) : UInt64 :=
  let count := s.completed + s.panicked
  if count = 0 then 0
  else UInt64.ofNat
    (Binary64.ofRatio (Binary64.nearest s.counters.processingTime.toNat)
      (Binary64.nearest count.toNat))

def inspect (s : WorkerStats) : String := Text.record "WorkerStats" s.counters.fields

end WorkerStats

/-- A point-in-time view of the bookkeeping of a pool. -/
structure PoolStats where
  /-- Configured thread ceiling. -/
  maxThreads : UInt64 := 0
  /-- Registered workers. -/
  threadCount : UInt64 := 0
  /-- Workers waiting for work. -/
  idleCount : UInt64 := 0
  /-- Tasks queued and not claimed. -/
  pendingCount : UInt64 := 0
  /-- Tasks being executed. -/
  runningCount : UInt64 := 0
  /-- Accepted submissions. -/
  submitted : UInt64 := 0
  deriving DecidableEq, Repr, Inhabited

namespace PoolStats

def fieldNames : List String :=
  ["max_threads", "thread_count", "idle_count", "pending_count", "running_count",
    "tasks_submitted"]

def toList (s : PoolStats) : List UInt64 :=
  [s.maxThreads, s.threadCount, s.idleCount, s.pendingCount, s.runningCount, s.submitted]

def ofList? : List UInt64 → Option PoolStats
  | [maxThreads, threadCount, idleCount, pendingCount, runningCount, submitted] =>
      some { maxThreads, threadCount, idleCount, pendingCount, runningCount, submitted }
  | _ => none

/-- The fields, named and printed for inspection. -/
def fields (s : PoolStats) : List (String × String) :=
  fieldNames.zip (s.toList.map fun n => toString n.toNat)

def inspect (s : PoolStats) : String := Text.record "PoolStats" s.fields

end PoolStats

end WorkerPool
