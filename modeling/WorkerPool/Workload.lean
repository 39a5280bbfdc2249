import WorkerPool.Platform
import WorkerPool.Report
import WorkerPool.System.Step

/-!
Many threads that submit tasks to one pool.

A workload is run under one schedule, in which workers go before callers. What is reported are
totals that are the same for every schedule.
-/
namespace WorkerPool

/-- What the submitting threads of a workload do. -/
inductive Mode
  /-- Every thread submits tasks of its own and joins each. -/
  | join
  /-- … and detaches each. -/
  | detach
  /-- … and joins those with an even number and detaches the others. -/
  | mixed
  /-- … and drops the handle of each. -/
  | drop
  /-- All threads submit one task that waits at a gate. -/
  | sameTask
  /-- While every worker waits at a gate, each thread submits one more task. -/
  | capacity
  /-- All threads submit one task to a pool that is shut down. -/
  | closing
  deriving DecidableEq, Repr, Inhabited

structure Workload where
  config : Config
  mode : Mode
  submitters : Nat
  /-- Tasks per submitting thread. -/
  each : Nat
  /-- The works of tasks whose number this divides panic; zero for none. -/
  panicEvery : Nat := 0
  deriving Repr

namespace Workload

/-- One thing a thread does. -/
inductive Chore
  /-- Submits a task, again and again while that fails for a reason that may pass. -/
  | submit (t : TaskId)
  /-- Submits a task once and notes the result. -/
  | trySubmit (t : TaskId)
  | join (t : TaskId)
  | detach (t : TaskId)
  | drop (t : TaskId)
  | waitIdle
  | shutdown
  deriving DecidableEq, Repr

/-- The pool of a workload. -/
def thePool : PoolId := 0

def Chore.operation : Chore → Operation
  | submit t | trySubmit t => .submit thePool t
  | join t => .join t none
  | detach t => .detach t
  | drop t => .drop t
  | waitIdle => .waitIdle thePool
  | shutdown => .shutdown thePool

/-- A workload in progress. -/
structure Progress where
  system : System
  /-- What each caller thread has left to do. -/
  chores : List (List Chore)
  /-- Whether works wait at their gates. -/
  gated : Bool := false
  runs : Nat := 0
  /-- The sum of the joined values. -/
  sum : Nat := 0
  joinedPanics : Nat := 0
  /-- The results of single submissions, latest first. -/
  submits : List String := []
  /-- Why the shutdown failed, if it did. -/
  refusal : Option PoolError := none

/-- How the work of a task ends; it returns the number of the task. -/
def ending (w : Workload) (t : TaskId) : Except Payload Value :=
  if 0 < w.panicEvery ∧ t % w.panicEvery = 0 then .error (.text "planned panic") else .ok (.nat t)

def submitResult : Reply → String
  | .failed (.alreadySubmitted _) => "AlreadySubmitted"
  | .failed e => e.message
  | _ => "ok"

namespace Progress

def setChores (s : Progress) (i : ThreadId) (chores : List Chore) : Progress :=
  { s with chores := s.chores.set i chores }

/-- The call for the first chore of a thread has ended. -/
def receive (s : Progress) (i : ThreadId) (r : Reply) : Progress :=
  match s.chores[i]? with
  | some (chore :: rest) =>
    let done := s.setChores i rest
    match chore, r with
    | .submit _, .failed e => if e.isRecoverable then s else done
    | .trySubmit _, r => { done with submits := submitResult r :: s.submits }
    | .join _, .value _ (.number n _) => { done with sum := s.sum + n.toNat }
    | .join _, .failed (.taskPanicked ..) => { done with joinedPanics := s.joinedPanics + 1 }
    | .shutdown, .failed e => { done with refusal := some e }
    | _, _ => done
  | _ => s

def absorb (s : Progress) (i : ThreadId) : Event → Progress
  | .replied r => s.receive i r
  | .started .. => { s with runs := s.runs + 1 }
  | _ => s

def apply (s : Progress) (i : ThreadId) (e : System.Effect) : Progress :=
  e.2.foldl (fun s e => s.absorb i e) { s with system := e.1 }

/-- What a thread does next, if it can do anything. -/
def action? (w : Workload) (s : Progress) (i : ThreadId) (th : Thread) : Option Action :=
  if th.inUserCode then
    match th.calls, th.role with
    | .destructor :: _, _ => some (.finish (.ok .null))
    | _, .worker _ _ (.running t) => if s.gated then none else some (.finish (w.ending t))
    | _, _ =>
      match s.chores[i]? with
      | some (chore :: _) => some (.call chore.operation (w.config.pick 0))
      | _ => none
  else some (.advance 0)

def move? (w : Workload) (s : Progress) (i : ThreadId) : Option Progress := do
  let th ← s.system.threads[i]?
  let action ← s.action? w i th
  let e ← s.system.step i action
  return s.apply i e

/-- Goes on until no thread can move, for at most `fuel` moves; the youngest thread goes first. -/
def run (w : Workload) : Nat → Progress → Progress
  | 0, s => s
  | fuel + 1, s =>
    match (List.range s.system.threads.length).reverse.findSome? (s.move? w) with
    | none => s
    | some s => run w fuel s

end Progress

/-- The number of tasks created. -/
def taskCount (w : Workload) : Nat :=
  match w.mode with
  | .join | .detach | .mixed | .drop => w.submitters * w.each
  | .sameTask | .closing => 1
  | .capacity => w.config.maxThreads + w.submitters

/-- What becomes of a submitted task. -/
def afterSubmit (w : Workload) (t : TaskId) : Chore :=
  match w.mode with
  | .detach => .detach t
  | .drop => .drop t
  | .mixed => if t % 2 = 1 then .detach t else .join t
  | _ => .join t

/-- What the submitting thread number `k` does. -/
def choresOf (w : Workload) (k : Nat) : List Chore :=
  match w.mode with
  | .join | .detach | .mixed | .drop =>
    (List.range w.each).flatMap fun n =>
      let t := k * w.each + n
      [.submit t, w.afterSubmit t]
  | .sameTask | .closing => [.trySubmit 0]
  | .capacity => [.trySubmit (w.config.maxThreads + k)]

/-- What the main thread does before the others start. -/
def preparation (w : Workload) : List Chore :=
  match w.mode with
  | .capacity => (List.range w.config.maxThreads).map .submit
  | .closing => [.shutdown]
  | _ => []

/-- Whether works wait at gates until all submissions are made. -/
def isGated (w : Workload) : Bool :=
  match w.mode with
  | .sameTask | .capacity | .closing => true
  | _ => false

/-- More moves than the workload takes. -/
def fuel (w : Workload) : Nat := 1000 + 100 * (w.taskCount + w.submitters + w.config.maxThreads)

/-- The state with the pool and the tasks created and nothing done. -/
def initial (w : Workload) (pool : Pool) : Progress where
  system :=
    { System.start (w.submitters + 1) with
      pools := [pool], tasks := List.replicate w.taskCount {} }
  chores := w.preparation :: List.replicate w.submitters []
  gated := w.isGated

/-- Runs the workload up to the return of `waitIdle` on the main thread. -/
def execute (w : Workload) (pool : Pool) : Progress :=
  let s := (w.initial pool).run w w.fuel
  let s := { s with chores := [] :: (List.range w.submitters).map w.choresOf }.run w w.fuel
  ({ s with gated := false }.setChores 0 [.waitIdle]).run w w.fuel

def sortTexts (ts : List String) : List String := ts.mergeSort fun a b => a ≤ b

/-- The totals of the workload: after `waitIdle`, and after a shutdown. -/
def report (w : Workload) : Value :=
  match Pool.create w.config with
  | .error e => e.report
  | .ok pool =>
    let s := w.execute pool
    let idle := s.system.pools.headD pool
    let s := (s.setChores 0 [.shutdown]).run w w.fuel
    let closed := s.system.pools.headD pool
    .record
      [("runs", .nat s.runs), ("sum", .nat s.sum), ("joined_panics", .nat s.joinedPanics),
        ("submits", .texts (sortTexts s.submits)), ("tasks_submitted", .nat idle.submitted.toNat),
        ("pending", .nat idle.queue.length), ("running", .nat idle.runningCount),
        ("all_idle", .flag (idle.idleCount = idle.threadCount)),
        ("within_ceiling", .flag (idle.threadCount ≤ w.config.maxThreads)),
        ("any_thread", .flag (0 < idle.threadCount)),
        ("stats_per_thread", .flag (idle.threadCount ≤ idle.crew.length)),
        ("completed", .nat idle.totalCompleted.toNat), ("panicked", .nat idle.totalPanicked.toNat),
        ("shutdown", match s.refusal with | none => .ok | some e => e.report),
        ("thread_count_after", .nat closed.threadCount), ("shut_down", .flag closed.closed)]

end Workload

end WorkerPool
