import WorkerPool.Scenario.Session

/-!
What follows in a script when user code ends and when the library lets something known.
-/
namespace WorkerPool.Scenario

namespace Session

/-! ### Ends of user code -/

/-- Tells the library how the user code it called has ended. -/
def finish (s : Session) (i : ThreadId) (ending : Except Payload Value) : Session :=
  match s.system.step i (.finish ending) with
  | none => s
  | some (system, _) => { s with system }

/-- A panic in the innermost of the given pieces of user code of a thread; it passes on to the one
around it unless the library called it. -/
def unwind (s : Session) (i : ThreadId) (payload : Payload) : List Activity → Session
  | [] => s.setActivities i []
  | a :: rest =>
    match a.owner with
    | .script =>
      let message := match payload.text? with
        | none => Value.null
        | some text => .text text
      { s.setActivities i rest with answer := some (.record [("panic", message)]) }
    | .body .. | .destructor true => (s.setActivities i rest).finish i (.error payload)
    | .destructor false | .group => unwind s i payload rest

/-- User code panics on the thread. -/
def raise (s : Session) (i : ThreadId) (payload : Payload) : Session :=
  s.unwind i payload (s.activitiesOf i)

/-- What the run of a work returns. -/
def result (s : Session) (i : ThreadId) (a : Activity) (t : TaskId) (run : Nat) : Value :=
  match s.entries[t]? with
  | none => .null
  | some entry =>
    match entry.recipe.result with
    | .constant v => v
    | .runs => .nat run
    | .index => .nat entry.index
    | .last => a.last
    | .threadName => .text (s.threadName i)
    | .spans => .texts (s.spansOf i).labels

/-- The innermost user code of the thread has no commands left. -/
def endActivity (s : Session) (i : ThreadId) (a : Activity) : Session :=
  match a.owner with
  | .script => s.popActivity i
  | .body t run =>
    if s.entries[t]?.any fun entry => entry.recipe.panicOnRun = some run then
      s.raise i (.text s!"run {run}")
    else
      let v := s.result i a t run
      ((s.popActivity i).onEntry t fun entry => { entry with liveValues := entry.liveValues + 1 })
        |>.finish i (.ok v)
  | .destructor true => (s.popActivity i).finish i (.ok .null)
  | .destructor false =>
    let s := s.popActivity i
    match (s.activitiesOf i).head? with
    | some { stage := .ending answer, .. } => s.complete i answer
    | _ => s
  | .group => (s.popActivity i).complete i (.list a.answers.reverse)

/-! ### Events of the library -/

/-- The user code around a value that a join has returned reads it and destroys it. -/
def destroyJoined (s : Session) (i : ThreadId) (t : TaskId) (answer : Value) : Session :=
  match s.entries[t]? with
  | none => s.complete i answer
  | some entry =>
    let s := s.onEntry t fun entry => { entry with liveValues := entry.liveValues - 1 }
    if entry.recipe.onDrop.isEmpty then s.complete i answer
    else
      (s.setStage i (.ending answer)).pushActivity i
        { owner := .destructor false, who := entry.name ++ "!outcome", todo := entry.recipe.onDrop }

/-- Turns the rejection of a task into its error, which drops the handle of the task. -/
def dropRefused (s : Session) (i : ThreadId) (r : Rejection) (answer : Value) : Session :=
  let s := s.setStage i (.ending answer)
  match r.intoError? s.system i with
  | none => s.complete i answer
  | some (_, system, _) => { s with system }

/-- The answer of a `call` from those of its halves, or of a join on its own. -/
def joinAnswer (first : Option Value) (second : Value) : Value :=
  match first with
  | none => second
  | some first => .list [first, second]

/-- A library call of the innermost user code on the thread has ended. -/
def receive (s : Session) (i : ThreadId) (r : Reply) : Session :=
  match s.activitiesOf i with
  | [] => s
  | a :: _ =>
    let command := a.todo.head?.getD .noop
    match r with
    | .unwound payload => s.raise i payload
    | .value _ v =>
      match a.stage with
      | .joining t first => s.destroyJoined i t (joinAnswer first (.record [("value", v)]))
      | _ => s.complete i .ok
    | .failed e =>
      match a.stage, command with
      | .joining _ first, _ => s.complete i (joinAnswer first e.report)
      | _, .callTask .. => s.setStage i (.submitted e.report)
      | _, _ => s.complete i e.report
    | .rejected e =>
      match command with
      | .detach task recovery | .destroy task recovery =>
        match s.task? task with
        | none => s.complete i e.report
        | some t =>
          let answer := rejection ⟨t, e⟩ recovery
          if recovery = .keepError then s.dropRefused i ⟨t, e⟩ answer else s.complete i answer
      | _ => s.complete i e.report
    | .pool _ => s.complete i .ok
    | .task t => s.complete i (.nat (LogRecord.number t))
    | .done =>
      match a.stage, command with
      | .ending answer, _ => s.complete i answer
      | _, .callTask .. => s.setStage i (.submitted .ok)
      | _, _ => s.complete i .ok

/-- Gives a pool the name that the current command of the thread creates it under; a pool that had
the name loses it. -/
def namePool (s : Session) (i : ThreadId) (p : PoolId) : Session :=
  let give (name : String) := { s with
    pools := (name, p) :: s.pools.filter (·.1 != name)
    nameless := (s.pools.lookup name).toList ++ s.nameless }
  match (s.activitiesOf i).head?.bind (·.todo.head?) with
  | some (.createPool name _) | some (.newPool name _) => give name
  | _ => s

/-- A library call of user code on the thread has ended. If it was the last one on a pool without a
name, the thread drops the pool before it goes on. -/
def hangUp (s : Session) (i : ThreadId) (r : Reply) : Session :=
  match s.nameless.find? s.system.canDrop with
  | none => s.receive i r
  | some p =>
    let s := { s with nameless := s.nameless.erase p }
    match s.system.step i (.call (.dropPool p) 0) with
    | none => s.receive i r
    | some (system, es) =>
      let s := { s with system }
      if es.isEmpty then s.setStage i (.lettingGo r) else s.receive i r

/-- A library call of user code on the thread has ended. Gates that are opened during the command
have to be open before the thread goes on. -/
def conclude (s : Session) (i : ThreadId) (r : Reply) : Session :=
  match (s.activitiesOf i).head? with
  | some { opens := true, .. } => s.onActivity i fun a => { a with held := some r }
  | _ => s.hangUp i r

/-- The gates of the current command of the thread are open; its call ended as given. -/
def resume (s : Session) (i : ThreadId) (r : Reply) : Session :=
  let s := s.onActivity i fun a => { a with opens := false, held := none }
  { s with opening := {} }.hangUp i r

/-- Takes note of what a step on the thread has let known. -/
def absorb (s : Session) (i : ThreadId) : Event → Session
  | .log r => { s with logs := r :: s.logs }
  | .metric _ m => { s with metrics := m :: s.metrics }
  | .ended .. | .joined .. => s
  | .replied r =>
    match (s.activitiesOf i).head? with
    | some { stage := .lettingGo r, .. } => (s.setStage i .calling).receive i r
    | _ =>
      match r with
      | .pool p => (s.namePool i p).hangUp i r
      | _ => s.conclude i r
  | .started t run =>
    match s.entries[t]? with
    | none => s
    | some entry =>
      s.pushActivity i { owner := .body t run, who := entry.name, todo := entry.recipe.steps }
  | .destroying (.value t _) =>
    match s.entries[t]? with
    | none => s
    | some entry =>
      (s.onEntry t fun entry => { entry with liveValues := entry.liveValues - 1 }).pushActivity i
        { owner := .destructor true, who := entry.name ++ "!outcome", todo := entry.recipe.onDrop }
  | .destroying (.work t) =>
    match s.entries[t]? with
    | none => s
    | some entry =>
      (s.onEntry t fun entry => { entry with liveWorks := entry.liveWorks - 1 }).pushActivity i
        { owner := .destructor true, who := entry.name ++ "!work", todo := entry.recipe.onWorkDrop }

/-- The state of the program after a step of the thread. -/
def setSystem (s : Session) (i : ThreadId) (system : System) : Session :=
  let sleeps (j : ThreadId) := system.threads[j]?.any Thread.sleeps
  let others := s.sleeping.filter fun j => j != i && sleeps j
  { s with system, sleeping := if sleeps i then others ++ [i] else others }

def apply (s : Session) (i : ThreadId) (e : System.Effect) : Session :=
  e.2.foldl (fun s e => s.absorb i e) (s.setSystem i e.1)

/-- The worker of the pool that is woken first, by its place among those that sleep: the one that
has slept longest. -/
def firstSleeper (s : Session) (p : PoolId) : Nat :=
  match s.sleeping.find? fun i => s.system.threads[i]?.any (Thread.sleepsIn p) with
  | none => 0
  | some i => (s.system.sleepers p).idxOf i

/-- The platform's part in a step of a submission to the pool. -/
def pick (s : Session) (p : PoolId) : Pick :=
  match s.system.pools[p]? with
  | none => 0
  | some pool => pool.config.pick (s.firstSleeper p)

end Session

end WorkerPool.Scenario
