import WorkerPool.System.Basic

/-!
The bookkeeping of one pool, under its lock.
-/
namespace WorkerPool.Pool

def new (c : Config) : Pool := { config := c, queue := .empty c.maxPending c.order }

/-- A pool of the given configuration, if that is valid. -/
def create (c : Config) : Except PoolError Pool :=
  match c.validate with
  | .error e => .error e
  | .ok () => .ok (new c)

/-- Nothing queued, nothing running, every registered worker without a task. -/
def isSettled (p : Pool) : Bool :=
  p.queue.isEmpty && p.runningCount == 0 && p.idleCount == p.threadCount

/-- Settled, and no worker but possibly the asking thread is letting go of a task. -/
def isQuiescentFor (p : Pool) (i : ThreadId) : Bool :=
  p.isSettled && p.releasing.all (· == i)

/-- The number of workers in the list of the pool; a shutdown takes the list away. -/
def rosterSize (p : Pool) : Nat := if p.closed then 0 else p.crew.length

/-- Workers spawned and not registered. -/
def unregistered (p : Pool) : Nat := p.rosterSize - p.threadCount

/-- No worker could pick up new work, and the ceiling allows another. -/
def needsWorker (p : Pool) : Bool :=
  p.rosterSize == 0
    || (p.idleCount + p.unregistered == 0 && p.rosterSize < p.config.maxThreads)

/-- Why the pool takes no submission now, if so. -/
def refusal (p : Pool) : Option PoolError :=
  if p.closed then some .shutDown
  else if p.queue.isFull then some (.tooManyTasks p.queue.length p.queue.capacity)
  else none

/-- The pool with a new worker on the given thread. -/
def hire (p : Pool) (i : ThreadId) : Pool := { p with crew := p.crew ++ [{ thread := i }] }

/-- A worker registers and has no task yet. -/
def register (p : Pool) : Pool :=
  { p with threadCount := p.threadCount + 1, idleCount := p.idleCount + 1 }

def accept (p : Pool) (t : TaskId) : Pool :=
  { p with queue := p.queue.push t, submitted := p.submitted + 1 }

/-- The task at the head of the queue goes to a worker. -/
def claim? (p : Pool) : Option (TaskId × Pool) :=
  match p.queue.pop? with
  | none => none
  | some (t, queue) =>
    some (t, { p with queue, idleCount := p.idleCount - 1, runningCount := p.runningCount + 1 })

/-- A worker on the given thread has completed its task and lets go of it. -/
def retire (p : Pool) (i : ThreadId) : Pool :=
  { p with
    runningCount := p.runningCount - 1
    idleCount := p.idleCount + 1
    releasing := p.releasing ++ [i] }

def released (p : Pool) (i : ThreadId) : Pool :=
  { p with releasing := p.releasing.filter (· != i) }

/-- One more execution by the worker `k`. -/
def count (p : Pool) (k : Nat) (returned : Bool) : Pool :=
  { p with crew := p.crew.modify k fun m =>
      { m with stats := if returned then m.stats.addCompleted else m.stats.addPanicked } }

def requestExit (p : Pool) (k : Nat) : Pool :=
  { p with crew := p.crew.modify k fun m => { m with exitRequested := true } }

def exitRequested (p : Pool) (k : Nat) : Bool := p.crew[k]?.any (·.exitRequested)

def close (p : Pool) : Pool := { p with closed := true }

/-- The workers are gone. -/
def dismiss (p : Pool) : Pool := { p with threadCount := 0, idleCount := 0 }

def stats (p : Pool) : PoolStats where
  maxThreads := .ofNat p.config.maxThreads
  threadCount := .ofNat p.threadCount
  idleCount := .ofNat p.idleCount
  pendingCount := .ofNat p.queue.length
  runningCount := .ofNat p.runningCount
  submitted := p.submitted

/-- Executions that returned, over all workers. -/
def totalCompleted (p : Pool) : UInt64 :=
  p.crew.foldl (fun n m => n + m.stats.completed) 0

/-- Executions that panicked, over all workers. -/
def totalPanicked (p : Pool) : UInt64 :=
  p.crew.foldl (fun n m => n + m.stats.panicked) 0

def inspect (p : Pool) : String :=
  Text.record "ThreadPool" [("config", p.config.inspect), ("stats", p.stats.inspect)]

end WorkerPool.Pool
