import WorkerPool.LogRecord
import WorkerPool.Span
import WorkerPool.Stats
import WorkerPool.Timeout

/-!
The state of a program that uses pools: its pools, its tasks and its threads.

A thread is either a caller or a worker of one pool. Its `calls` are the library calls and
destructors it is inside of, innermost first; a thread inside none of them runs its own code, or
the code of its worker phase. Threads that wait for a condition variable say so in their state,
together with whether a wake-up has been delivered to them.
-/
namespace WorkerPool

abbrev TaskId := Nat

abbrev PoolId := Nat

abbrev ThreadId := Nat

/-- A task: its slot, whether a caller still has the handle, the span its work captured and how
often the work has been invoked. -/
structure Task where
  slot : Slot := {}
  handle : Bool := true
  captured : Option Span := none
  runs : Nat := 0
  deriving Repr, Inhabited

/-- A worker as its pool records it. -/
structure Member where
  thread : ThreadId
  exitRequested : Bool := false
  stats : WorkerStats := {}
  deriving Repr, Inhabited

/-- A pool: what its lock guards, and whether a caller still has the handle. -/
structure Pool where
  config : Config
  queue : PendingQueue TaskId
  /-- Every worker ever spawned, in the order of spawning. -/
  crew : List Member := []
  /-- Workers that have registered. -/
  threadCount : Nat := 0
  /-- Registered workers without a task. -/
  idleCount : Nat := 0
  /-- Workers with a task. -/
  runningCount : Nat := 0
  /-- Workers letting go of their last task while the lock is free. -/
  releasing : List ThreadId := []
  /-- Submissions accepted so far. -/
  submitted : UInt64 := 0
  closed : Bool := false
  handle : Bool := true
  deriving Repr

/-- Where a worker is in its loop. -/
inductive Phase
  /-- Spawned, not registered. -/
  | starting
  /-- Waiting for work. -/
  | parked (woken : Bool)
  /-- A task is claimed and not started. -/
  | holding (t : TaskId)
  /-- The work is executing. -/
  | running (t : TaskId)
  /-- The work has ended and is about to go back into the slot with its outcome. -/
  | stashing (t : TaskId) (work : Bool) (o : Outcome)
  /-- The outcome is in the slot. -/
  | stashed (t : TaskId) (returned : Bool)
  /-- The execution is counted. -/
  | counted (t : TaskId)
  /-- The task is completed; the worker lets go of it. -/
  | releasing
  /-- The thread has terminated. -/
  | exited
  deriving Repr, Inhabited

inductive Role
  | caller
  | worker (p : PoolId) (index : Nat) (phase : Phase)
  deriving Repr, Inhabited

/-- User data that a destructor runs for. -/
inductive Remains
  /-- The value that a run of the task returned. -/
  | value (t : TaskId) (run : Nat)
  /-- The work of the task. -/
  | work (t : TaskId)
  deriving DecidableEq, Repr, Inhabited

/-- One thing to let go of. -/
inductive Disposal
  | outcome (t : TaskId) (o : Outcome)
  | work (t : TaskId)
  /-- The handle of a task. -/
  | handle (t : TaskId)
  /-- A reference to a task. -/
  | reference (t : TaskId)
  /-- A record to log on the way, unless a destructor has panicked. -/
  | record (r : LogRecord)
  deriving Repr

/-- A library call, or a destructor, that a thread is inside of. -/
inductive Frame
  /-- A submission waits until every spawned worker has registered. -/
  | awaitingWorker (p : PoolId) (t : TaskId) (woken : Bool)
  /-- A join waits for the task to finish. -/
  | awaitingOutcome (t : TaskId) (bound : Bound) (woken : Bool)
  /-- A thread waits for the pool to become quiescent. -/
  | awaitingIdle (p : PoolId) (dropping : Bool) (woken : Bool)
  /-- A shutdown is about to begin. -/
  | closing (p : PoolId) (dropping : Bool)
  /-- A shutdown waits for workers that let go of their tasks. -/
  | awaitingReleases (p : PoolId) (dropping : Bool) (woken : Bool)
  /-- A shutdown waits for the worker `next` of `total` to terminate. -/
  | joiningCrew (p : PoolId) (next total : Nat) (dropping : Bool)
  /-- Things are let go of one after the other; `releasing` if a worker does it in its loop. -/
  | disposing (todo : List Disposal) (failure : Option Payload) (releasing : Bool)
  /-- A destructor of user data runs. -/
  | destructor
  deriving Repr

structure Thread where
  role : Role := .caller
  calls : List Frame := []
  spans : SpanHistory := []
  deriving Repr, Inhabited

structure System where
  pools : List Pool := []
  tasks : List Task := []
  threads : List Thread := []
  deriving Repr, Inhabited

/-- What user code can ask the library for. A join has a bound, which is zero for a look without
waiting. -/
inductive Operation
  | createPool (config : Config)
  | createTask (captured : Option Span)
  | submit (p : PoolId) (t : TaskId)
  | join (t : TaskId) (bound : Bound)
  | detach (t : TaskId)
  | destroy (t : TaskId)
  | drop (t : TaskId)
  | waitIdle (p : PoolId)
  | shutdown (p : PoolId)
  | dropPool (p : PoolId)
  deriving Repr

/-- How a library call ends. -/
inductive Reply
  | done
  | pool (p : PoolId)
  | task (t : TaskId)
  /-- A join took the value of the given run. -/
  | value (run : Nat) (v : Value)
  | failed (e : PoolError)
  /-- A call that consumes its task was refused and gives the task back. -/
  | rejected (e : PoolError)
  /-- A destructor panicked through the call. -/
  | unwound (p : Payload)
  deriving Repr, Inhabited

/-- What a step lets the outside know. -/
inductive Event
  | log (r : LogRecord)
  | metric (p : PoolId) (m : Metric)
  | replied (r : Reply)
  /-- A work is invoked for the `run`-th time. -/
  | started (t : TaskId) (run : Nat)
  /-- An invocation of a work has ended. -/
  | ended (t : TaskId) (o : Outcome)
  /-- A join ends a submission and takes what the slot of the task holds. -/
  | joined (t : TaskId) (o : Option Outcome)
  /-- A destructor of user data begins. -/
  | destroying (r : Remains)
  deriving Repr

/-- What a step leaves to the platform. -/
structure Pick where
  /-- Which one of several sleeping workers is woken. -/
  sleeper : Nat := 0
  /-- The platform's complaint if it cannot start a thread. -/
  refusal : Option String := none
  deriving Repr, Inhabited

/-- The platform starts threads and wakes the sleeping worker with this number. -/
instance (n : Nat) : OfNat Pick n := ⟨{ sleeper := n }⟩

/-- What a thread does next, and what the platform makes of it. -/
inductive Action
  /-- User code calls the library. -/
  | call (op : Operation) (pick : Pick)
  /-- User code that the library called returns or panics. -/
  | finish (ending : Except Payload Value)
  /-- Library code goes on to the end of its next critical section. -/
  | advance (pick : Pick)
  /-- The bound of a waiting join has passed. -/
  | expire

end WorkerPool
