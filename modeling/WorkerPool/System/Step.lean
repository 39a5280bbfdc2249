import WorkerPool.System.Thread

/-!
The steps of a program that uses pools.

`System.step` takes one thread through its next step: a call up to the end of its first critical
section, the next critical section of a call or of a worker, or a piece of user code coming to its
end. Steps of different threads interleave in any order, so a critical section is the grain at which
threads see each other. A step that a thread cannot take now, because it waits or because the
operation is not its to perform, is `none`.
-/
namespace WorkerPool.System

/-- The state after a step, and what the step lets the outside know. -/
abbrev Effect := System × List Event

/-- Ends a library call. -/
def reply (s : System) (i : ThreadId) (r : Reply) : Effect :=
  (s.onThread i Thread.pop, [.replied r])

/-- Prepends events to those of a step. -/
def emit (es : List Event) (e : Effect) : Effect := (e.1, es ++ e.2)

/-- Replaces the innermost frame of a thread. -/
def enter (s : System) (i : ThreadId) (frame : Frame) : System :=
  s.onThread i (·.replace frame)

/-! ### Submissions -/

/-- The last critical section of a submission: the task goes into the queue, and one sleeping
worker is woken. -/
def accept (s : System) (i : ThreadId) (p : PoolId) (pool : Pool) (t : TaskId) (task : Task)
    (pick : Pick) : Effect :=
  if task.slot.ownership ≠ .caller then
    s.reply i (.failed (.alreadySubmitted (LogRecord.number t)))
  else
    let pool := pool.accept t
    let s := ((s.setSlot t task.slot.claim).setPool p pool).wakeOne p pick
    emit [.log (.submitted p t pool.queue.length), .metric p (.submission pool.queue.length)]
      (s.reply i .done)

/-- The first critical section of a submission. It may start a worker; it then waits until no worker
is unregistered. -/
def submit (s : System) (i : ThreadId) (p : PoolId) (pool : Pool) (t : TaskId) (task : Task)
    (pick : Pick) : Effect :=
  match pool.refusal with
  | some e => s.reply i (.failed e)
  | none =>
    if task.slot.ownership ≠ .caller then
      s.reply i (.failed (.alreadySubmitted (LogRecord.number t)))
    else if pool.needsWorker then
      let k := pool.rosterSize
      match pick.refusal with
      | none =>
        let j := s.threads.length
        let s := s.spawn { role := .worker p k .starting }
        ((s.setPool p (pool.hire j)).enter i (.awaitingWorker p t false),
          [.log (.spawned p k pool.config.threadName)])
      | some cause =>
        s.reply i (.failed (.spawnFailed k "Cannot create worker thread" (some cause)))
    else if 0 < pool.unregistered then
      (s.enter i (.awaitingWorker p t false), [])
    else
      s.accept i p pool t task pick

/-- A submission goes on after a wake-up. -/
def resumeSubmit (s : System) (i : ThreadId) (p : PoolId) (pool : Pool) (t : TaskId) (task : Task)
    (pick : Pick) : Effect :=
  if 0 < pool.unregistered then (s.enter i (.awaitingWorker p t false), [])
  else
    match pool.refusal with
    | some e => s.reply i (.failed e)
    | none => s.accept i p pool t task pick

/-! ### Joins -/

/-- What a join of the task returns for what it found in the slot. -/
def joinReply (t : TaskId) : Option Outcome → Reply
  | some ⟨run, .value v⟩ => .value run v
  | some ⟨_, .panicked message⟩ => .failed (.taskPanicked (LogRecord.number t) message)
  | none => .failed .notSubmitted

/-- A join takes the outcome of a finished task. -/
def takeOutcome (s : System) (i : ThreadId) (t : TaskId) (task : Task) : Effect :=
  emit [.joined t task.slot.outcome]
    ((s.setSlot t task.slot.release).reply i (joinReply t task.slot.outcome))

def join (s : System) (i : ThreadId) (t : TaskId) (task : Task) (bound : Bound) : Effect :=
  if task.slot.ownership ≠ .pool then s.reply i (.failed .notSubmitted)
  else if task.slot.state = .finished then s.takeOutcome i t task
  else if bound = some 0 then s.reply i (.failed (.timeout 0))
  else (s.enter i (.awaitingOutcome t bound false), [])

/-- A join goes on after a wake-up. -/
def resumeJoin (s : System) (i : ThreadId) (t : TaskId) (task : Task) (bound : Bound) : Effect :=
  if task.slot.state = .finished then s.takeOutcome i t task
  else (s.enter i (.awaitingOutcome t bound false), [])

/-- A join goes on after its bound has passed. -/
def expireJoin (s : System) (i : ThreadId) (t : TaskId) (task : Task) (nanos : Nat) : Effect :=
  if task.slot.state = .finished then s.takeOutcome i t task
  else s.reply i (.failed (.timeout (Bound.millis nanos)))

/-! ### Giving tasks away -/

/-- The thread starts to let go of things; what was the handle of the task `t` is among them. -/
def letGo (s : System) (i : ThreadId) (t : TaskId) (task : Task) (todo : List Disposal) : Effect :=
  ((s.setTask t { task with handle := false }).enter i (.disposing todo none false), [])

/-- A finished task gives up its outcome at once, any other one at its end. -/
def detach (s : System) (i : ThreadId) (t : TaskId) (task : Task) : Effect :=
  match task.slot.ownership with
  | .pool =>
    if task.slot.state = .finished then
      s.letGo i t { task with slot := task.slot.release }
        (task.slot.outcome.toList.map (.outcome t) ++ [.record (.detached t), .handle t])
    else
      s.letGo i t { task with slot := task.slot.detach } [.record (.detached t), .handle t]
  | .caller | .detached => s.reply i (.rejected .notSubmitted)

def destroy (s : System) (i : ThreadId) (t : TaskId) (task : Task) : Effect :=
  if task.slot.ownership = .pool then
    s.reply i (.rejected (.stillOwnedByPool (LogRecord.number t)))
  else s.letGo i t task [.handle t]

/-- Runs a destructor of user data on the thread. -/
def runDestructor (s : System) (i : ThreadId) (r : Remains) : Effect :=
  (s.onThread i (·.push .destructor), [.destroying r])

/-- Lets go of the next thing. Dropping a handle detaches an outstanding task. Whoever lets go of
the last reference to a task destroys the contents of its slot, the work before the outcome. -/
def dispose (s : System) (i : ThreadId) (th : Thread) (todo : List Disposal)
    (failure : Option Payload) (releasing : Bool) : Effect :=
  let rest (todo : List Disposal) := s.enter i (.disposing todo failure releasing)
  match todo with
  | [] =>
    if releasing then
      match failure, th.role with
      | some payload, .worker p k _ =>
        (s.onThread i Thread.pop, [.log (.releasePanicked p k payload.message)])
      | _, _ => (s.onThread i Thread.pop, [])
    else
      match failure with
      | none => s.reply i .done
      | some payload => s.reply i (.unwound payload)
  | .outcome t o :: todo =>
    if o.returned then (rest todo).runDestructor i (.value t o.run) else (rest todo, [])
  | .work t :: todo => (rest todo).runDestructor i (.work t)
  | .record r :: todo => (rest todo, if failure.isNone then [.log r] else [])
  | .handle t :: todo =>
    match s.tasks[t]? with
    | none => (rest todo, [])
    | some task =>
      if task.slot.isOutstanding then
        ((rest (.reference t :: todo)).setSlot t task.slot.detach,
          [.log (.abandoned t task.slot.state)])
      else (rest (.reference t :: todo), [])
  | .reference t :: todo =>
    match s.tasks[t]? with
    | none => (rest todo, [])
    | some task =>
      if (rest todo).references t = 0 then
        let contents := (if task.slot.work then [.work t] else [])
          ++ task.slot.outcome.toList.map (.outcome t)
        ((rest (contents ++ todo)).setSlot t task.slot.clear, [])
      else (rest todo, [])

/-! ### Waiting for a pool and shutting it down -/

/-- Ends a shutdown, whether it was called for or is the last part of dropping the pool. -/
def endShutdown (s : System) (i : ThreadId) (p : PoolId) (pool : Pool) (failure : Option PoolError)
    (dropping : Bool) : Effect :=
  match failure, dropping with
  | none, _ => s.reply i .done
  | some e, false => s.reply i (.failed e)
  | some e, true => emit [.log (.closeFailed p pool.config.threadName e)] (s.reply i .done)

/-- The last critical section of a shutdown. -/
def finishTeardown (s : System) (i : ThreadId) (p : PoolId) (pool : Pool) (total : Nat)
    (dropping : Bool) : Effect :=
  let completed := pool.totalCompleted.toNat
  let panicked := pool.totalPanicked.toNat
  emit [.log (.closed p pool.config.threadName total), .metric p (.shutdown completed panicked)]
    ((s.setPool p pool.dismiss).endShutdown i p pool none dropping)

/-- Tells the worker `next` to exit, or ends the shutdown if there is no such worker. -/
def stopNext (s : System) (i : ThreadId) (p : PoolId) (pool : Pool) (next total : Nat)
    (dropping : Bool) : Effect :=
  if next < total then
    (((s.setPool p (pool.requestExit next)).wakeAll (.workAvailable p)).enter i
      (.joiningCrew p next total dropping), [])
  else s.finishTeardown i p pool total dropping

/-- A shutdown decides: it refuses if the pool is not quiescent, else it takes the list of workers
and stops them one after the other. -/
def decideShutdown (s : System) (i : ThreadId) (p : PoolId) (pool : Pool) (dropping : Bool) :
    Effect :=
  if pool.isQuiescentFor i then s.stopNext i p pool.close 0 pool.rosterSize dropping
  else
    s.endShutdown i p pool
      (some (.hasOutstandingTasks pool.queue.length pool.runningCount)) dropping

/-- A shutdown waits while the only thing in its way is workers that let go of their tasks. -/
def resumeShutdown (s : System) (i : ThreadId) (p : PoolId) (pool : Pool) (dropping : Bool) :
    Effect :=
  if pool.isSettled && !pool.isQuiescentFor i then
    (s.enter i (.awaitingReleases p dropping false), [])
  else s.decideShutdown i p pool dropping

def shutdown (s : System) (i : ThreadId) (p : PoolId) (pool : Pool) (dropping : Bool) : Effect :=
  if pool.closed then s.endShutdown i p pool none dropping
  else s.resumeShutdown i p pool dropping

/-- Waits until the pool is quiescent; dropping a pool goes on to shut it down. -/
def waitIdle (s : System) (i : ThreadId) (p : PoolId) (pool : Pool) (dropping : Bool) : Effect :=
  if pool.isQuiescentFor i then
    if dropping then (s.enter i (.closing p true), []) else s.reply i .done
  else (s.enter i (.awaitingIdle p dropping false), [])

def dropPool (s : System) (i : ThreadId) (p : PoolId) (pool : Pool) : Effect :=
  let pool := { pool with handle := false }
  let s := s.setPool p pool
  if pool.closed then s.reply i .done else s.waitIdle i p pool true

/-- A shutdown goes on once the worker it waits for has terminated. It does not wait for the thread
it runs on. -/
def joinCrew? (s : System) (i : ThreadId) (p : PoolId) (pool : Pool) (next total : Nat)
    (dropping : Bool) : Option Effect :=
  match pool.crew[next]? with
  | none => none
  | some member =>
    if member.thread = i then
      some (emit [.log (.stopsItself p next)] (s.stopNext i p pool (next + 1) total dropping))
    else if s.threads[member.thread]?.any Thread.hasExited then
      some (s.stopNext i p pool (next + 1) total dropping)
    else none

/-! ### Workers -/

/-- The end of every critical section of a worker between tasks: it leaves if told to, takes the
next task, or sleeps. -/
def proceed (s : System) (i : ThreadId) (p : PoolId) (pool : Pool) (k : Nat) : Effect :=
  if pool.exitRequested k then
    (s.onThread i fun th => { th.setPhase .exited with spans := th.spans.leave (some .worker) },
      [.log (.exiting p k)])
  else
    match pool.claim? with
    | none => (s.onThread i (·.setPhase (.parked false)), [])
    | some (t, pool) =>
      ((s.setPool p pool).onThread i (·.setPhase (.holding t)),
        [.log (.claimed p k t), .metric p (.busy k)])

/-- A worker is without a task again and says so if that makes the pool quiescent. -/
def settled (s : System) (i : ThreadId) (p : PoolId) (pool : Pool) : System :=
  let s := (s.setPool p pool).onThread i (·.setPhase (.parked true))
  if pool.isQuiescentFor i then s.wakeAll (.quiescent p) else s

/-- A worker is without a task again and looks for the next one. -/
def settle (s : System) (i : ThreadId) (p : PoolId) (pool : Pool) (k : Nat) : Effect :=
  (s.settled i p pool).proceed i p pool k

def register (s : System) (i : ThreadId) (p : PoolId) (pool : Pool) (k : Nat) : Effect :=
  let pool := pool.register
  let s := s.onThread i fun th => { th with spans := th.spans.enter (some .worker) }
  emit [.log (.registered p k pool.threadCount)]
    ((s.wakeAll (.workerRegistered p)).settle i p pool k)

/-- The worker takes the work out of the slot and invokes it, inside the span of the execution and
the one the work captured. -/
def begin (s : System) (i : ThreadId) (t : TaskId) (task : Task) : Effect :=
  let run := task.runs + 1
  let inSpan (th : Thread) := { th with spans := th.spans.enter (some .execution) }
  if task.slot.work then
    ((s.setTask t { task with slot := task.slot.start, runs := run }).onThread i fun th =>
        { (inSpan th).setPhase (.running t) with
          spans := (inSpan th).spans.enter task.captured },
      [.started t run])
  else
    ((s.setTask t { task with slot := task.slot.start }).onThread i fun th =>
        (inSpan th).setPhase
          (.stashing t false ⟨task.runs, .panicked "task has no work to run"⟩), [])

/-- The work has ended; it leaves the span it captured. -/
def endWork (s : System) (i : ThreadId) (t : TaskId) (task : Task) (ending : Except Payload Value) :
    Effect :=
  let o : Outcome := ⟨task.runs, .of ending⟩
  (s.onThread i fun th =>
    { th.setPhase (.stashing t true o) with spans := th.spans.leave task.captured }, [.ended t o])

def stash (s : System) (i : ThreadId) (t : TaskId) (task : Task) (work : Bool) (o : Outcome) :
    Effect :=
  ((s.setSlot t (task.slot.stash work o)).onThread i (·.setPhase (.stashed t o.returned)), [])

/-- The execution is counted, and its span ends. -/
def count (s : System) (i : ThreadId) (p : PoolId) (pool : Pool) (k : Nat) (t : TaskId)
    (returned : Bool) : Effect :=
  ((s.setPool p (pool.count k returned)).onThread i fun th =>
      { th.setPhase (.counted t) with spans := th.spans.leave (some .execution) },
    if returned then [.metric p (.completion none)]
    else [.log (.panicked p k t), .metric p (.panic none)])

/-- The worker publishes the outcome and is without a task. It then lets go of the task, and of the
outcome and the work if the task was detached, with no lock held. -/
def retire (s : System) (i : ThreadId) (p : PoolId) (pool : Pool) (k : Nat) (t : TaskId)
    (task : Task) : Effect :=
  let detached := task.slot.ownership = .detached
  let leftovers : List Disposal :=
    if detached then
      task.slot.outcome.toList.map (.outcome t) ++ (if task.slot.work then [.work t] else [])
    else []
  let s := (s.setPool p (pool.retire i)).setSlot t task.slot.complete
  let s := if detached then s else s.wakeAll (.finished t)
  (s.onThread i fun th =>
      (th.setPhase .releasing).push (.disposing (.reference t :: leftovers) none true),
    .metric p (.idle k) :: if detached then [.log (.handedBack t)] else [])

/-- The next step of a worker that is inside no library call. -/
def work? (s : System) (i : ThreadId) (p : PoolId) (k : Nat) (phase : Phase) : Option Effect := do
  let pool ← s.pools[p]?
  match phase with
  | .starting => some (s.register i p pool k)
  | .parked true => some (s.proceed i p pool k)
  | .parked false => none
  | .holding t => do return s.begin i t (← s.tasks[t]?)
  | .running _ => none
  | .stashing t work o => do return s.stash i t (← s.tasks[t]?) work o
  | .stashed t returned => some (s.count i p pool k t returned)
  | .counted t => do return s.retire i p pool k t (← s.tasks[t]?)
  | .releasing => some (s.settle i p (pool.released i) k)
  | .exited => none

/-! ### Steps -/

/-- User code calls the library. An operation on a task or pool whose handle is not there, or is in
use in a way that excludes the operation, cannot begin. The call gets a frame of its own, which the
operation replaces or pops. -/
def call? (s : System) (i : ThreadId) (op : Operation) (pick : Pick) : Option Effect :=
  let inCall := s.onThread i (·.push (.disposing [] none false))
  match op with
  | .createPool c =>
    match Pool.create c with
    | .error e => some (inCall.reply i (.failed e))
    | .ok pool =>
      some (emit [.log (.created c)] ((inCall.addPool pool).reply i (.pool s.pools.length)))
  | .createTask captured =>
    some ((inCall.addTask { captured }).reply i (.task s.tasks.length))
  | .submit p t => do
    let pool ← s.pools[p]?
    let task ← s.tasks[t]?
    if s.canUse p && s.canShare t then some (inCall.submit i p pool t task pick) else none
  | .join t bound => do
    let task ← s.tasks[t]?
    if s.canOwn t then some (inCall.join i t task bound) else none
  | .detach t => do
    let task ← s.tasks[t]?
    if s.canOwn t then some (inCall.detach i t task) else none
  | .destroy t => do
    let task ← s.tasks[t]?
    if s.canOwn t then some (inCall.destroy i t task) else none
  | .drop t => do
    let task ← s.tasks[t]?
    if s.canOwn t then some (inCall.letGo i t task [.handle t]) else none
  | .waitIdle p => do
    let pool ← s.pools[p]?
    if s.canUse p then some (inCall.waitIdle i p pool false) else none
  | .shutdown p => do
    let pool ← s.pools[p]?
    if s.canUse p then some (inCall.shutdown i p pool false) else none
  | .dropPool p => do
    let pool ← s.pools[p]?
    if s.canDrop p then some (inCall.dropPool i p pool) else none

/-- User code that the library called comes to its end. -/
def finish? (s : System) (i : ThreadId) (th : Thread) (ending : Except Payload Value) :
    Option Effect :=
  match th.calls, th.role with
  | .destructor :: .disposing todo failure releasing :: _, _ =>
    let failure := match ending with
      | .ok _ => failure
      | .error payload => failure.or (some payload)
    some ((s.onThread i Thread.pop).enter i (.disposing todo failure releasing), [])
  | [], .worker _ _ (.running t) => do return s.endWork i t (← s.tasks[t]?) ending
  | _, _ => none

/-- Library code goes on. -/
def advance? (s : System) (i : ThreadId) (th : Thread) (pick : Pick) : Option Effect :=
  match th.calls with
  | [] =>
    match th.role with
    | .caller => none
    | .worker p k phase => s.work? i p k phase
  | .awaitingWorker p t true :: _ => do
    return s.resumeSubmit i p (← s.pools[p]?) t (← s.tasks[t]?) pick
  | .awaitingOutcome t bound true :: _ => do return s.resumeJoin i t (← s.tasks[t]?) bound
  | .awaitingIdle p dropping true :: _ => do return s.waitIdle i p (← s.pools[p]?) dropping
  | .closing p dropping :: _ => do return s.shutdown i p (← s.pools[p]?) dropping
  | .awaitingReleases p dropping true :: _ => do
    return s.resumeShutdown i p (← s.pools[p]?) dropping
  | .joiningCrew p next total dropping :: _ => do
    s.joinCrew? i p (← s.pools[p]?) next total dropping
  | .disposing todo failure releasing :: _ => some (s.dispose i th todo failure releasing)
  | .awaitingWorker _ _ false :: _ | .awaitingOutcome _ _ false :: _ | .awaitingIdle _ _ false :: _
  | .awaitingReleases _ _ false :: _ | .destructor :: _ => none

/-- The bound of a waiting join has passed. -/
def expire? (s : System) (i : ThreadId) (th : Thread) : Option Effect :=
  match th.calls with
  | .awaitingOutcome t (some nanos) false :: _ => do return s.expireJoin i t (← s.tasks[t]?) nanos
  | _ => none

/-- One step of the thread `i`. -/
def step (s : System) (i : ThreadId) (a : Action) : Option Effect := do
  let th ← s.threads[i]?
  match a with
  | .call op pick => if th.inUserCode then s.call? i op pick else none
  | .finish ending => s.finish? i th ending
  | .advance pick => s.advance? i th pick
  | .expire => s.expire? i th

end WorkerPool.System
