import WorkerPool.Text.Quoted

/-!
Why an operation on a pool or a task was refused.

`PoolError.message` words each cause, and `PoolError.isRecoverable` tells the causes that pass by
themselves from those that do not.
-/
namespace WorkerPool

inductive PoolError
  /-- A field of a configuration is out of range. -/
  | invalidArgument (parameter message : String)
  /-- The pending queue is full. -/
  | tooManyTasks (pending max : Nat)
  /-- Work is still queued or running. -/
  | hasOutstandingTasks (pending running : Nat)
  /-- No pool owns the task. -/
  | notSubmitted
  /-- A pool owns the task. -/
  | stillOwnedByPool (task : Nat)
  /-- The task is queued, running or waiting to be joined. -/
  | alreadySubmitted (task : Nat)
  /-- A bounded join ended before the task did. -/
  | timeout (milliseconds : Nat)
  /-- The pool accepts no more work. -/
  | shutDown
  /-- The work of the task panicked. -/
  | taskPanicked (task : Nat) (message : String)
  /-- A worker thread could not be started; `cause` is the text of the system's error. -/
  | spawnFailed (worker : Nat) (message : String) (cause : Option String)
  /-- A worker thread could not be joined. -/
  | joinFailed (worker : Nat) (message : String)
  deriving DecidableEq, Repr, Inhabited

namespace PoolError

def message : PoolError → String
  | invalidArgument parameter message => s!"Invalid argument for '{parameter}': {message}"
  | tooManyTasks pending max => s!"Too many tasks: {pending}/{max} tasks pending"
  | hasOutstandingTasks pending running =>
      s!"Thread pool has outstanding tasks ({pending} pending, {running} running)"
  | notSubmitted => "Task was not submitted to a pool"
  | stillOwnedByPool task => s!"Task #{task} is still owned by a pool"
  | alreadySubmitted task => s!"Task #{task} is already submitted"
  | timeout ms => s!"Join timed out after {ms}ms"
  | shutDown => "Thread pool is shut down"
  | taskPanicked task message => s!"Task #{task} panicked: {message}"
  | spawnFailed worker message _ => s!"Failed to spawn worker thread #{worker}: {message}"
  | joinFailed worker message => s!"Failed to join worker thread #{worker}: {message}"

/-- The kind of the error, as reports name it. -/
def kind : PoolError → String
  | invalidArgument .. => "InvalidArgument"
  | tooManyTasks .. => "TooManyTasks"
  | hasOutstandingTasks .. => "HasOutstandingTasks"
  | notSubmitted => "NotSubmitted"
  | stillOwnedByPool .. => "StillOwnedByPool"
  | alreadySubmitted .. => "AlreadySubmitted"
  | timeout .. => "Timeout"
  | shutDown => "ShutDown"
  | taskPanicked .. => "TaskPanicked"
  | spawnFailed .. => "SpawnError"
  | joinFailed .. => "JoinError"

/-- Whether the same call may succeed later without anybody calling anything else. -/
def isRecoverable : PoolError → Bool
  | tooManyTasks .. | hasOutstandingTasks .. | timeout .. => true
  | _ => false

/-- The error that caused this one. -/
def cause : PoolError → Option String
  | spawnFailed _ _ cause => cause
  | _ => none

/-- The fields of the error, named and printed for inspection. -/
def fields : PoolError → List (String × String)
  | invalidArgument parameter message =>
      [("parameter", Text.quote parameter), ("message", Text.quote message)]
  | tooManyTasks pending max => [("pending", toString pending), ("max", toString max)]
  | hasOutstandingTasks pending running =>
      [("pending", toString pending), ("running", toString running)]
  | notSubmitted | shutDown => []
  | stillOwnedByPool task | alreadySubmitted task => [("task_id", toString task)]
  | timeout ms => [("timeout_ms", toString ms)]
  | taskPanicked task message => [("task_id", toString task), ("message", Text.quote message)]
  | spawnFailed worker message cause =>
      [("thread_id", toString worker), ("message", Text.quote message),
        ("source", Text.option
          (fun text => Text.record "Custom" [("kind", "WouldBlock"), ("error", Text.quote text)])
          cause)]
  | joinFailed worker message =>
      [("thread_id", toString worker), ("message", Text.quote message)]

/-- The error in full, for inspection. -/
def inspect (e : PoolError) : String :=
  if e.fields.isEmpty then e.kind else Text.record e.kind e.fields

end PoolError

end WorkerPool
