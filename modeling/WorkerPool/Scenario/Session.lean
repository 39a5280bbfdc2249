import WorkerPool.Platform
import WorkerPool.Report
import WorkerPool.Scenario.Command
import WorkerPool.System.Rejection

/-!
A script in progress.

The state of the program is a `System`; the session adds what the script itself knows: the names of
pools and tasks, how far each piece of user code has come, which gates may be passed, and the time
on a clock that moves only when nothing else can.
-/
namespace WorkerPool.Scenario

/-- What a piece of user code is the code of. -/
inductive Owner
  /-- The main script. -/
  | script
  /-- The work of a task, in the given run. -/
  | body (t : TaskId) (run : Nat)
  /-- A destructor, called by the library or by user code. -/
  | destructor (byLibrary : Bool)
  /-- The commands of one `each`. -/
  | group
  deriving Repr, Inhabited

/-- How far a command has come. -/
inductive Stage
  | start
  /-- The library call decides the answer. -/
  | calling
  /-- The first half of a `call` has given this answer. -/
  | submitted (first : Value)
  /-- The join is under way, after the first half of a `call` or on its own. -/
  | joining (t : TaskId) (first : Option Value)
  /-- A destructor runs, or a refused handle is dropped; the answer is settled. -/
  | ending (answer : Value)
  /-- The call has ended as given; a pool that nobody needs any more is dropped on the way. -/
  | lettingGo (r : Reply)
  /-- The command is done; the next one starts when the pools have settled. -/
  | settling
  deriving Repr, Inhabited

/-- A piece of user code in progress. -/
structure Activity where
  owner : Owner
  /-- The name its events carry. -/
  who : String := ""
  todo : List Command
  stage : Stage := .start
  /-- The last answer. -/
  last : Value := .null
  /-- The answers so far, latest first. -/
  answers : List Value := []
  /-- Whether gates are opened while the current command blocks. -/
  opens : Bool := false
  /-- How the call of the current command has ended, while gates are still being opened. -/
  held : Option Reply := none
  deriving Repr, Inhabited

/-- What the script knows about a task it created. -/
structure Entry where
  name : String
  index : Nat
  recipe : Recipe Command
  /-- Gates the task may pass. -/
  permits : Nat := 0
  /-- Works not destroyed yet. -/
  liveWorks : Nat := 1
  /-- Returned values not destroyed yet. -/
  liveValues : Nat := 0
  deriving Repr, Inhabited

/-- The gates that are opened one after the other while a command of the main script blocks. -/
structure Opening where
  tasks : List TaskId := []
  /-- When the first gate is opened. -/
  start : Nat := 0
  /-- Whether the pools have to settle after each gate. -/
  paced : Bool := true
  /-- Whether the pools have to settle before the next gate. -/
  waits : Bool := false
  deriving Inhabited

structure Session where
  system : System := .start 1
  pools : List (String × PoolId) := []
  /-- Pools whose name is gone while calls on them are in progress. -/
  nameless : List PoolId := []
  /-- By task. -/
  entries : List Entry := []
  /-- The user code in progress on each thread, innermost first. -/
  activities : List (List Activity) := []
  clock : Nat := 0
  /-- When the bounds of joins pass; the latest entry of a thread counts. -/
  deadlines : List (ThreadId × Nat) := []
  /-- The gates still to be opened during the current blocking command. -/
  opening : Opening := {}
  /-- The thread that moved last. -/
  turn : ThreadId := 0
  /-- The threads that can move, in the order in which they became able to. -/
  ready : List ThreadId := []
  /-- The workers that sleep, in the order in which they fell asleep. -/
  sleeping : List ThreadId := []
  /-- The answer of the current command. -/
  answer : Option Value := none
  /-- Events, log records and metric events of the current command, latest first. -/
  events : List Value := []
  logs : List LogRecord := []
  metrics : List Metric := []
  deriving Inhabited

namespace Session

/-- The thread of the main script. -/
def main : ThreadId := 0

/-- How long a blocking command blocks before gates are opened, in nanoseconds. -/
def openDelay : Nat := 4000000

def activitiesOf (s : Session) (i : ThreadId) : List Activity := (s.activities[i]?).getD []

def setActivities (s : Session) (i : ThreadId) (as : List Activity) : Session :=
  let missing := i + 1 - s.activities.length
  { s with activities := (s.activities ++ List.replicate missing []).set i as }

def pushActivity (s : Session) (i : ThreadId) (a : Activity) : Session :=
  s.setActivities i (a :: s.activitiesOf i)

def popActivity (s : Session) (i : ThreadId) : Session :=
  s.setActivities i (s.activitiesOf i).tail

/-- Changes the innermost piece of user code on a thread. -/
def onActivity (s : Session) (i : ThreadId) (f : Activity → Activity) : Session :=
  match s.activitiesOf i with
  | [] => s
  | a :: rest => s.setActivities i (f a :: rest)

def setStage (s : Session) (i : ThreadId) (stage : Stage) : Session :=
  s.onActivity i fun a => { a with stage }

def onEntry (s : Session) (t : TaskId) (f : Entry → Entry) : Session :=
  { s with entries := s.entries.modify t f }

def pool? (s : Session) (name : String) : Option PoolId := s.pools.lookup name

/-- The latest task of the name. -/
def task? (s : Session) (name : String) : Option TaskId :=
  (List.range s.entries.length).reverse.find? fun t => s.entries[t]?.any (·.name == name)

def hasHandle (s : Session) (t : TaskId) : Bool := s.system.tasks[t]?.any (·.handle)

def spansOf (s : Session) (i : ThreadId) : SpanStack :=
  match s.system.threads[i]? with
  | none => []
  | some th => Tracing.lists.stack th.spans

/-- The name of a thread; the thread of the main script is called `input`. -/
def threadName (s : Session) (i : ThreadId) : String :=
  match s.system.threads[i]? with
  | some { role := .worker p k _, .. } =>
    match s.system.pools[p]? with
    | some pool => pool.config.workerName k
    | none => ""
  | _ => "input"

/-! ### Answers -/

/-- The current command of the thread is done and has the given answer. -/
def pass (s : Session) (i : ThreadId) (answer : Value) : Session :=
  s.onActivity i fun a =>
    let stage := match a.owner with
      | .group => if i = main then .settling else .start
      | _ => .start
    { a with
      todo := a.todo.tail, stage, last := answer, answers := answer :: a.answers, opens := false }

/-- The current command of the thread is done, and its answer is made known. -/
def complete (s : Session) (i : ThreadId) (answer : Value) : Session :=
  match s.activitiesOf i with
  | [] => s
  | a :: _ =>
    let name := (a.todo.head?.map Command.name).getD ""
    let s := s.pass i answer
    match a.owner with
    | .script => { s with answer := some answer }
    | .group => s
    | .body .. | .destructor _ =>
      { s with events := .list [.text a.who, .text name, answer] :: s.events }

def rejection (r : Rejection) (recovery : Recovery) : Value :=
  .record
    [("display", .text r.error.message),
      ("debug", .text (Text.record "TaskRejected"
        [("task_id", toString (LogRecord.number r.task)), ("error", r.error.inspect)])),
      ("source", .text r.error.message),
      ("rejected", if recovery = .keepTask then .null else r.error.report)]

end Session

end WorkerPool.Scenario
