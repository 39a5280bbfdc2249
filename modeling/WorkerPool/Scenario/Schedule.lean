import WorkerPool.Scenario.Performance

/-!
The order in which the threads of a script move.

A thread goes on until it has to wait; then comes the thread that has been able to move longest.
Time passes only when no thread can move.
-/
namespace WorkerPool.Scenario

namespace Session

/-- Whether the thread waits at a gate. -/
def atGate (s : Session) (i : ThreadId) : Bool :=
  s.system.threads[i]?.any Thread.inUserCode
    && match s.activitiesOf i with
      | { owner := .body t _, todo := .gate :: _, .. } :: _ =>
        s.entries[t]?.all (·.permits == 0)
      | _ => false

/-- Whether every worker sleeps, has terminated or waits at a gate. -/
def poolsSettled (s : Session) : Bool :=
  (List.range s.system.threads.length).all fun i =>
    i == main || s.atGate i || s.system.threads[i]?.any Thread.isAtRest

/-- Whether all gates are open that are opened during the current blocking command. -/
def openingDone (s : Session) : Bool :=
  s.opening.tasks.isEmpty && (!s.opening.waits || s.poolsSettled)

/-- The next step of a thread, if it can take one. -/
def move? (s : Session) (i : ThreadId) : Option Session :=
  match s.system.threads[i]? with
  | none => none
  | some th =>
    if th.inUserCode then
      match s.activitiesOf i with
      | [] => none
      | a :: _ =>
        match a.held, a.stage, a.todo with
        | some r, _, _ => if s.openingDone then some (s.resume i r) else none
        | none, .settling, _ => if s.poolsSettled then some (s.setStage i .start) else none
        | none, _, [] => some (s.endActivity i a)
        | none, _, c :: _ => s.perform? i a c
    else
      let pick := match th.calls with
        | .awaitingWorker p _ _ :: _ => s.pick p
        | _ => 0
      match s.system.step i (.advance pick) with
      | none => none
      | some e => some (s.apply i e)

def canMove (s : Session) (i : ThreadId) : Bool := (s.move? i).isSome

/-- Brings the list of threads that can move up to date. -/
def refresh (s : Session) : Session :=
  let fresh := (List.range s.system.threads.length).filter fun i =>
    !s.ready.contains i && s.canMove i
  { s with ready := s.ready.filter s.canMove ++ fresh }

/-- A step of some thread: the one that moved last goes on as long as it can, then comes the one
that has been able to move longest. -/
def next? (s : Session) : Option Session :=
  let s := s.refresh
  (s.turn :: s.ready).findSome? fun i => (s.move? i).map fun s => { s with turn := i }

/-- Whether a work of the task waits at a gate. -/
def taskAtGate (s : Session) (t : TaskId) : Bool :=
  (List.range s.system.threads.length).any fun i =>
    s.atGate i && match s.activitiesOf i with
      | { owner := .body u _, .. } :: _ => t == u
      | _ => false

/-- Whether the pools have settled and the main script is between two steps. -/
def isSettled (s : Session) : Bool := (s.activitiesOf main).isEmpty && s.poolsSettled

/-- The joins that wait with a bound, and when their bounds pass. -/
def timers (s : Session) : List (ThreadId × Nat) :=
  (List.range s.system.threads.length).filterMap fun i =>
    if s.system.threads[i]?.any Thread.awaitsBound then
      (s.deadlines.lookup i).map fun time => (i, time)
    else none

/-- The timer that goes off first. -/
def firstTimer (s : Session) : Option (ThreadId × Nat) :=
  s.timers.foldl (fun first timer =>
    match first with
    | none => some timer
    | some best => if timer.2 < best.2 then some timer else some best) none

/-- Ends the join whose timer goes off first. -/
def expire? (s : Session) : Option Session :=
  if s.isSettled then none
  else
    match s.firstTimer with
    | none => none
    | some (i, time) =>
      match s.system.step i .expire with
      | none => none
      | some e => some { { s with clock := max s.clock time }.apply i e with turn := i }

/-- Opens the next of the gates that are opened during the current blocking command, if its task
waits there, the pools have settled since the last one and no bound passes before. -/
def openGate? (s : Session) : Option Session :=
  match s.opening.tasks with
  | [] => none
  | t :: tasks =>
    let early := s.firstTimer.any fun timer => timer.2 < s.opening.start
    if s.taskAtGate t && !early && (!s.opening.waits || s.poolsSettled) then
      some { s.onEntry t fun entry => { entry with permits := entry.permits + 1 } with
        opening := { s.opening with tasks, waits := s.opening.paced }
        clock := max s.clock s.opening.start }
    else none

/-- What happens when no thread can move: the next gate is opened or the next bound passes; gates
that no task will ever reach are given up. -/
def wait? (s : Session) : Option Session :=
  match s.openGate? with
  | some s => some s
  | none =>
    match s.expire? with
    | some s => some s
    | none => if s.openingDone then none else some { s with opening := {} }

/-- Goes on until nothing more happens, for at most `fuel` moves. -/
def run : Nat → Session → Session
  | 0, s => s
  | fuel + 1, s =>
    match s.next? with
    | some s => run fuel s
    | none =>
      match s.wait? with
      | some s => run fuel s
      | none => s

/-- More moves than a command can lead to: the works and destructors of every task may run once for
every command of all of them. -/
def fuel (s : Session) (c : Command) : Nat :=
  let all := s.entries.foldl (fun n entry => n + Command.recipeSize entry.recipe) c.size
  1000 + 10 * all * all

/-- Carries out a command of the main script until the pools have settled; gives its answer. -/
def execute (s : Session) (c : Command) : Session × Value :=
  let s := { s with answer := none, opening := {}, events := [], logs := [], metrics := [] }
  let s := (s.pushActivity main { owner := .script, todo := [c] }).run (s.fuel c)
  (s, s.answer.getD .null)

end Session

end WorkerPool.Scenario
