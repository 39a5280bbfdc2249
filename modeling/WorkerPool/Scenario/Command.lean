import WorkerPool.System.Basic

/-!
Scripts that use pools.

A script creates pools and tasks under names and calls operations on them. The work of a task, and
the destructors of the work and of the values it returns, are scripts too.
-/
namespace WorkerPool.Scenario

/-- What a work returns at its end. -/
inductive Result
  | constant (v : Value)
  /-- The number of the run, from one. -/
  | runs
  /-- The position of the task among those created with it. -/
  | index
  /-- The answer of the last command that had one. -/
  | last
  /-- The name of the thread. -/
  | threadName
  /-- The labels of the spans that are entered. -/
  | spans
  deriving Repr, Inhabited

/-- The span that a work captures when the task is created. -/
inductive Capture
  | nothing
  /-- Whatever span is current. -/
  | current
  /-- A request span with the given tag. -/
  | request (tag : String)
  deriving Repr, Inhabited

/-- What becomes of a refused task: the handle is kept, with or without the error, or the refusal is
turned into its error and the handle is dropped. -/
inductive Recovery
  | keepBoth
  | keepTask
  | keepError
  deriving DecidableEq, Repr, Inhabited

/-- A task to create, with the commands of its work and of the destructors. -/
structure Recipe (α : Type) where
  steps : List α := []
  result : Result := .constant .null
  capture : Capture := .nothing
  /-- The run that panics at its end. -/
  panicOnRun : Option Nat := none
  onDrop : List α := []
  onWorkDrop : List α := []
  deriving Repr, Inhabited

inductive Command
  | createPool (name : String) (config : Config)
  /-- Creates a pool with the given ceiling and nothing else chosen. -/
  | newPool (name : String) (maxThreads : Nat)
  | createTask (name : String) (recipe : Recipe Command)
  /-- Creates tasks named by `stem` and their index. -/
  | createTasks (stem : String) (count : Nat) (recipe : Recipe Command)
  | submit (pool task : String)
  | join (task : String)
  | joinTimeout (task : String) (secs nanos : Nat)
  | joinSeconds (task : String) (bits : UInt64)
  | waitIdle (pool : String)
  | dropPool (pool : String)
  | detach (task : String) (recovery : Recovery)
  | destroy (task : String) (recovery : Recovery)
  | drop (task : String)
  /-- Lets the task through one gate. -/
  | openGate (task : String)
  | state (task : String)
  | stats (pool : String)
  | threadCount (pool : String)
  | info (pool : String)
  | totals (pool : String)
  | workerStats (pool : String)
  | shutdown (pool : String)
  /-- Submits the task and joins it. -/
  | callTask (pool task : String)
  /-- Carries out the commands in turn; the main thread lets the pools settle after each. -/
  | each (commands : List Command)
  /-- Carries out a command; while it blocks, the tasks are let through their gates in turn. -/
  | opening (tasks : List String) (command : Command)
  | noop
  | threadName
  | spans
  /-- Blocks until the task is let through. -/
  | gate
  | log (text : String)
  | panic (payload : Payload)
  deriving Repr, Inhabited

/-- The name a command is reported by. -/
def Command.name : Command → String
  | createPool .. => "pool"
  | newPool .. => "pool_new"
  | createTask .. => "task"
  | createTasks .. => "tasks"
  | submit .. => "submit"
  | join .. => "join"
  | joinTimeout .. => "join_timeout"
  | joinSeconds .. => "join_secs"
  | waitIdle .. => "wait_idle"
  | dropPool .. => "drop_pool"
  | detach .. => "detach"
  | destroy .. => "destroy"
  | drop .. => "drop"
  | openGate .. => "open"
  | state .. => "state"
  | stats .. => "stats"
  | threadCount .. => "thread_count"
  | info .. => "info"
  | totals .. => "totals"
  | workerStats .. => "worker_stats"
  | shutdown .. => "shutdown"
  | callTask .. => "call"
  | each .. => "each"
  | opening _ command => command.name
  | noop => "noop"
  | threadName => "thread_name"
  | spans => "spans"
  | gate => "gate"
  | log .. => "log"
  | panic .. => "panic"

namespace Command

mutual

/-- The number of commands that carrying out the command can lead to, once around. -/
def size : Command → Nat
  | createTask _ recipe => 10 + recipeSize recipe
  | createTasks _ count recipe => 10 + count * (10 + recipeSize recipe)
  | each commands => 10 + totalSize commands
  | opening _ command => 10 + command.size
  | _ => 10

/-- The size of the commands together. -/
def totalSize : List Command → Nat
  | [] => 0
  | command :: commands => command.size + totalSize commands

/-- The size of the work and the destructors of a task. -/
def recipeSize : Recipe Command → Nat
  | ⟨steps, _, _, _, onDrop, onWorkDrop⟩ =>
    10 + totalSize steps + totalSize onDrop + totalSize onWorkDrop

end

end Command

end WorkerPool.Scenario
