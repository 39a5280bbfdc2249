import WorkerPool.Scenario.Reaction

/-!
How the commands of a script are carried out.

`Session.perform?` takes the current command of a thread as far as it goes in one step; `none` is a
command that has to wait.
-/
namespace WorkerPool.Scenario

namespace Session

/-- Calls the library from user code, if the call can begin. -/
def issue? (s : Session) (i : ThreadId) (op : Operation) (stage : Stage) : Option Session :=
  let pick := match op with
    | .submit p _ => s.pick p
    | _ => 0
  match s.system.step i (.call op pick) with
  | none => none
  | some e => some ((s.setStage i stage).apply i e)

/-- Starts a join; its bound is counted from now. -/
def issueJoin? (s : Session) (i : ThreadId) (t : TaskId) (bound : Bound) (first : Option Value) :
    Option Session :=
  let s := match bound with
    | none => s
    | some nanos => { s with deadlines := (i, s.clock + nanos) :: s.deadlines }
  s.issue? i (.join t bound) (.joining t first)

/-- Looks a task up by name and calls the library with it. -/
def withTask (s : Session) (i : ThreadId) (name : String) (f : TaskId → Option Session) :
    Option Session :=
  match s.task? name with
  | none => some (s.complete i (.text "no such task"))
  | some t => if s.hasHandle t then f t else some (s.complete i (.text "no handle"))

def withPool (s : Session) (i : ThreadId) (name : String) (f : PoolId → Option Session) :
    Option Session :=
  match s.pool? name with
  | none => some (s.complete i (.text "no such pool"))
  | some p => f p

def forgetPool (s : Session) (name : String) : Session :=
  { s with pools := s.pools.filter (·.1 != name) }

/-- Answers with a look at a pool. -/
def showPool (s : Session) (i : ThreadId) (name : String) (f : Pool → Value) : Option Session :=
  s.withPool i name fun p =>
    match s.system.pools[p]? with
    | none => none
    | some pool => some (s.complete i (f pool))

/-- Creates a task under a name. -/
def create (s : Session) (i : ThreadId) (name : String) (index : Nat) (recipe : Recipe Command) :
    Session × TaskId :=
  let captured := match recipe.capture with
    | .nothing => none
    | .current => Tracing.lists.current (s.spansOf i)
    | .request tag =>
      Tracing.lists.current (Tracing.lists.enter (s.spansOf i) (some (.request tag)))
  let t := s.system.tasks.length
  match s.system.step i (.call (.createTask captured) 0) with
  | none => (s, t)
  | some (system, _) => ({ s with system, entries := s.entries ++ [{ name, index, recipe }] }, t)

def createAll (s : Session) (i : ThreadId) (stem : String) (recipe : Recipe Command) :
    Nat → Session × List TaskId
  | 0 => (s, [])
  | n + 1 =>
    let (s, ts) := s.createAll i stem recipe n
    let (s, t) := s.create i (stem ++ toString n) n recipe
    (s, ts ++ [t])

/-- Whether the command may block and gets as far as calling the library. -/
def resolves (s : Session) : Command → Bool
  | .join task | .joinTimeout task _ _ | .joinSeconds task _ => (s.task? task).any s.hasHandle
  | .waitIdle pool | .dropPool pool => (s.pool? pool).isSome
  | _ => false

/-- Carries out the current command of the thread as far as it goes in one step. -/
def perform? (s : Session) (i : ThreadId) (a : Activity) (c : Command) : Option Session :=
  match a.stage, c with
  | .submitted first, .callTask _ task =>
    match s.task? task with
    | none => some (s.complete i (.list [first, .text "no such task"]))
    | some t =>
      if s.hasHandle t then s.issueJoin? i t none (some first)
      else some (s.complete i (.list [first, .text "no handle"]))
  | _, .createPool _ config => s.issue? i (.createPool config) .calling
  | _, .newPool _ maxThreads => s.issue? i (.createPool (.new maxThreads)) .calling
  | _, .createTask name recipe =>
    let (s, t) := s.create i name 0 recipe
    some (s.complete i (.nat (LogRecord.number t)))
  | _, .createTasks stem count recipe =>
    let (s, ts) := s.createAll i stem recipe count
    some (s.complete i (.list (ts.map fun t => .nat (LogRecord.number t))))
  | _, .submit pool task =>
    s.withTask i task fun t => s.withPool i pool fun p => s.issue? i (.submit p t) .calling
  | _, .callTask pool task =>
    match s.task? task, s.pool? pool with
    | none, _ => some (s.setStage i (.submitted (.text "no such task")))
    | some t, none =>
      let answer := if s.hasHandle t then "no such pool" else "no handle"
      some (s.setStage i (.submitted (.text answer)))
    | some t, some p =>
      if s.hasHandle t then s.issue? i (.submit p t) .calling
      else some (s.setStage i (.submitted (.text "no handle")))
  | _, .join task => s.withTask i task fun t => s.issueJoin? i t none none
  | _, .joinTimeout task secs nanos =>
    s.withTask i task fun t => s.issueJoin? i t (.ofParts secs nanos) none
  | _, .joinSeconds task bits => s.withTask i task fun t => s.issueJoin? i t (.ofSeconds bits) none
  | _, .waitIdle pool => s.withPool i pool fun p => s.issue? i (.waitIdle p) .calling
  | _, .shutdown pool => s.withPool i pool fun p => s.issue? i (.shutdown p) .calling
  | _, .dropPool pool =>
    s.withPool i pool fun p =>
      let s := s.forgetPool pool
      match s.issue? i (.dropPool p) .calling with
      | some s => some s
      | none => some ({ s with nameless := p :: s.nameless }.conclude i .done)
  | _, .detach task _ => s.withTask i task fun t => s.issue? i (.detach t) .calling
  | _, .destroy task _ => s.withTask i task fun t => s.issue? i (.destroy t) .calling
  | _, .drop task => s.withTask i task fun t => s.issue? i (.drop t) .calling
  | _, .openGate task =>
    match s.task? task with
    | none => some (s.complete i (.text "no such task"))
    | some t =>
      some ((s.onEntry t fun entry => { entry with permits := entry.permits + 1 }).complete i .ok)
  | _, .state task =>
    s.withTask i task fun t =>
      match s.system.tasks[t]? with
      | none => none
      | some record =>
        if s.system.canShare t then some (s.complete i (Task.report t record)) else none
  | _, .stats pool => s.showPool i pool Pool.reportStats
  | _, .threadCount pool => s.showPool i pool fun p => .nat p.threadCount
  | _, .info pool => s.showPool i pool Pool.report
  | _, .totals pool => s.showPool i pool Pool.reportTotals
  | _, .workerStats pool => s.showPool i pool Pool.reportWorkers
  | _, .each commands =>
    some (s.pushActivity i { owner := .group, who := a.who, todo := commands })
  | _, .opening tasks command =>
    let opens := s.resolves command
    let s := s.onActivity i fun a => { a with todo := command :: a.todo.tail, opens }
    some (if opens then
      let paced := match command with
        | .dropPool _ => false
        | _ => true
      { s with opening :=
          { tasks := tasks.filterMap s.task?, start := s.clock + openDelay, paced } }
    else s)
  | _, .noop => some (s.complete i .null)
  | _, .threadName => some (s.complete i (.text (s.threadName i)))
  | _, .spans => some (s.complete i (.texts (s.spansOf i).labels))
  | _, .gate =>
    match a.owner with
    | .body t _ =>
      if s.entries[t]?.any (0 < ·.permits) then
        some ((s.onEntry t fun entry => { entry with permits := entry.permits - 1 }).pass i .null)
      else none
    | _ => some (s.pass i .null)
  | _, .log text =>
    some { s.pass i .null with events := .texts [a.who, "log", text] :: s.events }
  | _, .panic payload => some (s.raise i payload)

end Session

end WorkerPool.Scenario
