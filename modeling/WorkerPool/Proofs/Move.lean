import WorkerPool.Proofs.Threads

/-!
What a step is made of.

Every step is a sequence of moves of its thread. A move changes at most one pool, one task and the
thread itself, adds to the state, or wakes threads; it says under which condition it happens and
which events it lets known. Invariants are shown to be kept by every move.
-/
namespace WorkerPool

/-- Records that stand for nothing that the state shows. -/
def LogRecord.isNote : LogRecord → Bool
  | .detached _ | .releasePanicked .. | .stopsItself .. | .closeFailed .. => true
  | _ => false

theorem PendingQueue.count_push (q : PendingQueue TaskId) (t u : TaskId) :
    (q.push t).entries.count u = q.entries.count u + if t = u then 1 else 0 := by
  unfold push
  cases q.order <;> simp [List.count_cons]

theorem PendingQueue.pop?_eq {α : Type} {q q' : PendingQueue α} {a : α}
    (h : q.pop? = some (a, q')) :
    ∃ rest, q.entries = a :: rest ∧ q' = { q with entries := rest } := by
  unfold pop? at h
  split at h
  · cases h
  · next b rest he =>
    cases h
    exact ⟨rest, he, rfl⟩

namespace Pool

theorem claim?_eq {pool pool' : Pool} {t : TaskId} (h : pool.claim? = some (t, pool')) :
    ∃ queue, pool.queue.pop? = some (t, queue) ∧
      pool' = { pool with
        queue, idleCount := pool.idleCount - 1, runningCount := pool.runningCount + 1 } := by
  unfold claim? at h
  split at h
  · cases h
  · next u queue hq =>
    cases h
    exact ⟨queue, hq, rfl⟩

theorem create_eq {c : Config} {pool : Pool} (h : Pool.create c = .ok pool) :
    c.validate = .ok () ∧ pool = Pool.new c := by
  unfold Pool.create at h
  split at h
  · cases h
  · next hv =>
    cases h
    exact ⟨hv, rfl⟩

theorem create_queue {c : Config} {pool : Pool} (h : Pool.create c = .ok pool) :
    pool.queue.entries = [] := by
  rw [(create_eq h).2]
  rfl

theorem length_accept (pool : Pool) (t : TaskId) :
    (pool.accept t).queue.length = pool.queue.length + 1 := by
  unfold accept PendingQueue.push PendingQueue.length
  cases pool.queue.order <;> simp

theorem claim?_closed {pool pool' : Pool} {t : TaskId} (h : pool.claim? = some (t, pool')) :
    pool.closed → pool'.closed := by
  obtain ⟨queue, -, rfl⟩ := claim?_eq h
  exact id

end Pool

namespace Slot

/-- What the last reference to a task takes along. -/
def contents (t : TaskId) (slot : Slot) : List Disposal :=
  (if slot.work then [.work t] else []) ++ slot.outcome.toList.map (.outcome t)

/-- What the worker of a detached task has to let go of. -/
def leftovers (t : TaskId) (slot : Slot) : List Disposal :=
  if slot.ownership = .detached then
    slot.outcome.toList.map (.outcome t) ++ (if slot.work then [.work t] else [])
  else []

/-- Ways to give a task away: what becomes of its slot, and what is to be let go of. -/
inductive Surrender (t : TaskId) : Slot → Slot → List Disposal → Prop
  | finished {slot : Slot} : slot.ownership = .pool → slot.state = .finished →
      Surrender t slot slot.release
        (slot.outcome.toList.map (.outcome t) ++ [.record (.detached t), .handle t])
  | outstanding {slot : Slot} : slot.ownership = .pool → slot.state ≠ .finished →
      Surrender t slot slot.detach [.record (.detached t), .handle t]
  | plain (slot : Slot) : Surrender t slot slot [.handle t]

end Slot

/-- The user data that is destroyed. -/
def Disposal.remains? : Disposal → Option Remains
  | .outcome t o => if o.returned then some (.value t o.run) else none
  | .work t => some (.work t)
  | _ => none

/-- The thread goes to another phase and stays in the same calls. -/
def Thread.Rephases (phase : Phase) (g : Thread → Thread) : Prop :=
  ∀ th, (g th).role = (th.setPhase phase).role ∧ (g th).calls = th.calls

namespace Thread

variable {phase : Phase}

theorem rephases_setPhase : Rephases phase (·.setPhase phase) :=
  fun _ => ⟨rfl, calls_setPhase⟩

theorem rephases_leave (spans : Thread → SpanHistory) :
    Rephases phase fun th => { th.setPhase phase with spans := spans th } :=
  fun _ => ⟨rfl, calls_setPhase⟩

theorem rephases_enter (spans : Thread → SpanHistory) :
    Rephases phase fun th => ({ th with spans := spans th } : Thread).setPhase phase := by
  refine fun th => ⟨?_, calls_setPhase⟩
  cases h : th.role <;> simp [setPhase, h]

end Thread

namespace System

/-- The task, or an untouched one if there is none yet. -/
def task (s : System) (t : TaskId) : Task := s.tasks[t]?.getD {}

/-- The thread is a worker that is inside no call. -/
def Working (s : System) (i : ThreadId) (p : PoolId) (k : Nat) (phase : Phase) : Prop :=
  ∃ th, s.threads[i]? = some th ∧ th.role = .worker p k phase ∧ th.calls = []

/-- The nothing that is to be done for the thing that is let go of. -/
def IsIdle (s : System) : Disposal → Prop
  | .outcome _ o => o.returned = false
  | .work _ => False
  | .record _ => True
  | .handle t | .reference t => s.tasks[t]? = none

/-- A worker of the pool has not registered. -/
def Recruits (s : System) (p : PoolId) : Prop :=
  ∃ th ∈ s.threads, ∃ k, th.role = .worker p k .starting

/-- A call of the thread can go on in this frame. -/
def Due (s : System) (i : ThreadId) : Frame → Prop
  | .awaitingWorker p t woken =>
      woken = false ∧ s.canShare t ∧
        (s.Recruits p ∨ ∃ pool, s.pools[p]? = some pool ∧ 0 < pool.unregistered)
  | .awaitingOutcome t _ woken =>
      woken = false ∧ s.canOwn t ∧ (s.task t).slot.ownership = .pool ∧
        (s.task t).slot.state ≠ .finished
  | .awaitingIdle p _ woken =>
      woken = false ∧ ∃ pool, s.pools[p]? = some pool ∧ pool.isQuiescentFor i = false
  | .closing _ _ => True
  | .awaitingReleases p _ woken =>
      woken = false ∧ ∃ pool, s.pools[p]? = some pool ∧ pool.isSettled ∧
        pool.isQuiescentFor i = false
  | .joiningCrew p _ _ _ => ∃ pool, s.pools[p]? = some pool ∧ pool.closed
  | .disposing .. | .destructor => False

/-- The state after the pool has got another worker. -/
def hired (s : System) (p : PoolId) (pool : Pool) : System :=
  (s.spawn { role := .worker p pool.rosterSize .starting }).setPool p
    (pool.hire s.threads.length)

/-- The state after a worker has made the outcome of its task visible. -/
def published (s : System) (i : ThreadId) (p : PoolId) (pool : Pool) (t : TaskId) (task : Task) :
    System :=
  let s := (s.setPool p (pool.retire i)).setSlot t task.slot.complete
  if task.slot.ownership = .detached then s else s.wakeAll (.finished t)

/-- The state after a worker has completed its task. -/
def retired (s : System) (i : ThreadId) (p : PoolId) (pool : Pool) (t : TaskId) (task : Task) :
    System :=
  (s.published i p pool t task).onThread i fun th =>
    (th.setPhase .releasing).push
      (.disposing (.reference t :: task.slot.leftovers t) none true)

theorem retired_eq (s : System) (i : ThreadId) (p : PoolId) (pool : Pool) (t : TaskId)
    (task : Task) : s.retired i p pool t task =
      ((s.published i p pool t task).onThread i (·.setPhase .releasing)).onThread i
        (·.push (.disposing (.reference t :: task.slot.leftovers t) none true)) := by
  rw [onThread_onThread]
  rfl

/-- A part of a step of the thread `i`. -/
inductive Move (i : ThreadId) : System → List Event → System → Prop
  -- Calls
  | call {s : System} {th : Thread} : s.threads[i]? = some th → th.inUserCode →
      Move i s [] (s.onThread i (·.push (.disposing [] none false)))
  | leave {s : System} {f : Frame} {rest : List Frame} {es : List Event} :
      s.Inside i (f :: rest) → f.isBare → es = [] ∨ (∃ r, es = [.replied r]) →
      Move i s es (s.onThread i Thread.pop)
  | wait {s : System} {f f' : Frame} {rest : List Frame} : s.Inside i (f :: rest) → f.isBare →
      (s.onThread i Thread.pop).Due i f' → Move i s [] (s.enter i f')
  | note {s : System} {r : LogRecord} : r.isNote → Move i s [.log r] s
  -- Creation
  | addPool {s : System} {c : Config} {pool : Pool} : Pool.create c = .ok pool →
      Move i s [.log (.created c)] (s.addPool pool)
  | addTask (s : System) (captured : Option Span) : Move i s [] (s.addTask { captured })
  -- Submissions and joins
  | hire {s : System} {p : PoolId} {pool : Pool} : s.pools[p]? = some pool →
      pool.refusal = none → pool.needsWorker →
      Move i s [.log (.spawned p pool.rosterSize pool.config.threadName)]
        (s.hired p pool)
  | accept {s : System} {p : PoolId} {pool : Pool} {t : TaskId} {task : Task} {pick : Pick} :
      s.pools[p]? = some pool → s.tasks[t]? = some task → pool.refusal = none →
      pool.unregistered = 0 → s.canShare t → task.slot.ownership = .caller →
      Move i s [.log (.submitted p t (pool.accept t).queue.length),
          .metric p (.submission (pool.accept t).queue.length)]
        (((s.setSlot t task.slot.claim).setPool p (pool.accept t)).wakeOne p pick)
  | take {s : System} {f : Frame} {rest : List Frame} {t : TaskId} {task : Task} :
      s.Inside i (f :: rest) → f.isBare → s.tasks[t]? = some task →
      (s.onThread i Thread.pop).canOwn t → task.slot.ownership = .pool →
      task.slot.state = .finished →
      Move i s [.joined t task.slot.outcome, .replied (joinReply t task.slot.outcome)]
        ((s.setSlot t task.slot.release).onThread i Thread.pop)
  -- Letting go
  | letGo {s : System} {f : Frame} {rest : List Frame} {t : TaskId} {task : Task} {slot : Slot}
      {todo : List Disposal} : s.Inside i (f :: rest) → f.isBare → s.tasks[t]? = some task →
      s.canOwn t → task.slot.Surrender t slot todo →
      Move i s []
        ((s.setTask t { task with slot, handle := false }).enter i (.disposing todo none false))
  | discard {s : System} {d : Disposal} {todo : List Disposal} {failure : Option Payload}
      {releasing : Bool} {rest : List Frame} :
      s.Inside i (.disposing (d :: todo) failure releasing :: rest) → s.IsIdle d →
      Move i s [] (s.enter i (.disposing todo failure releasing))
  | destroy {s : System} {d : Disposal} {r : Remains} {todo : List Disposal}
      {failure : Option Payload} {releasing : Bool} {rest : List Frame} :
      s.Inside i (.disposing (d :: todo) failure releasing :: rest) → d.remains? = some r →
      Move i s [.destroying r]
        ((s.enter i (.disposing todo failure releasing)).onThread i (·.push .destructor))
  | release {s : System} {t : TaskId} {task : Task} {todo : List Disposal}
      {failure : Option Payload} {releasing : Bool} {rest : List Frame} :
      s.Inside i (.disposing (.handle t :: todo) failure releasing :: rest) →
      s.tasks[t]? = some task → task.slot.isOutstanding = false →
      Move i s [] (s.enter i (.disposing (.reference t :: todo) failure releasing))
  | abandon {s : System} {t : TaskId} {task : Task} {todo : List Disposal}
      {failure : Option Payload} {releasing : Bool} {rest : List Frame} :
      s.Inside i (.disposing (.handle t :: todo) failure releasing :: rest) →
      s.tasks[t]? = some task → task.slot.isOutstanding → task.handle = false →
      Move i s [.log (.abandoned t task.slot.state)]
        ((s.enter i (.disposing (.reference t :: todo) failure releasing)).setSlot t
          task.slot.detach)
  | unref {s : System} {t : TaskId} {todo : List Disposal} {failure : Option Payload}
      {releasing : Bool} {rest : List Frame} :
      s.Inside i (.disposing (.reference t :: todo) failure releasing :: rest) →
      (s.enter i (.disposing todo failure releasing)).references t ≠ 0 →
      Move i s [] (s.enter i (.disposing todo failure releasing))
  | clear {s : System} {t : TaskId} {task : Task} {todo : List Disposal} {failure : Option Payload}
      {releasing : Bool} {rest : List Frame} :
      s.Inside i (.disposing (.reference t :: todo) failure releasing :: rest) →
      s.tasks[t]? = some task →
      (s.enter i (.disposing todo failure releasing)).references t = 0 →
      Move i s []
        ((s.enter i (.disposing (task.slot.contents t ++ todo) failure releasing)).setSlot t
          task.slot.clear)
  | resume {s : System} {todo : List Disposal} {failure failure' : Option Payload}
      {releasing : Bool} {rest : List Frame} :
      s.Inside i (.destructor :: .disposing todo failure releasing :: rest) →
      Move i s [] ((s.onThread i Thread.pop).enter i (.disposing todo failure' releasing))
  -- Shutdown
  | close {s : System} {p : PoolId} {pool : Pool} : s.pools[p]? = some pool →
      pool.isQuiescentFor i → Move i s [] (s.setPool p pool.close)
  | stop {s : System} {p : PoolId} {pool : Pool} (k : Nat) : s.pools[p]? = some pool →
      pool.closed → Move i s [] ((s.setPool p (pool.requestExit k)).wakeAll (.workAvailable p))
  | dismiss {s : System} {p : PoolId} {pool : Pool} (total : Nat) : s.pools[p]? = some pool →
      pool.closed →
      Move i s [.log (.closed p pool.config.threadName total),
          .metric p (.shutdown pool.totalCompleted.toNat pool.totalPanicked.toNat)]
        (s.setPool p pool.dismiss)
  | dropPool {s : System} {p : PoolId} {pool : Pool} : s.pools[p]? = some pool → s.canDrop p →
      Move i s [] (s.setPool p { pool with handle := false })
  -- Workers
  | register {s : System} {p : PoolId} {pool : Pool} {k : Nat} {g : Thread → Thread} :
      s.Working i p k .starting → s.pools[p]? = some pool →
      (∀ th, (g th).role = th.role ∧ (g th).calls = th.calls) →
      Move i s [.log (.registered p k pool.register.threadCount)]
        (((s.onThread i g).wakeAll (.workerRegistered p)).settled i p pool.register)
  | released {s : System} {p : PoolId} {pool : Pool} {k : Nat} : s.Working i p k .releasing →
      s.pools[p]? = some pool → Move i s [] (s.settled i p (pool.released i))
  | exit {s : System} {p : PoolId} {pool : Pool} {k : Nat} {g : Thread → Thread} :
      s.Working i p k (.parked true) → s.pools[p]? = some pool → pool.exitRequested k →
      Thread.Rephases .exited g → Move i s [.log (.exiting p k)] (s.onThread i g)
  | claim {s : System} {p : PoolId} {pool pool' : Pool} {k : Nat} {t : TaskId} :
      s.Working i p k (.parked true) → s.pools[p]? = some pool → pool.exitRequested k = false →
      pool.claim? = some (t, pool') →
      Move i s [.log (.claimed p k t), .metric p (.busy k)]
        ((s.setPool p pool').onThread i (·.setPhase (.holding t)))
  | park {s : System} {p : PoolId} {pool : Pool} {k : Nat} : s.Working i p k (.parked true) →
      s.pools[p]? = some pool → pool.exitRequested k = false → pool.claim? = none →
      Move i s [] (s.onThread i (·.setPhase (.parked false)))
  | begin {s : System} {p : PoolId} {k : Nat} {t : TaskId} {task : Task} {g : Thread → Thread} :
      s.Working i p k (.holding t) → s.tasks[t]? = some task → task.slot.work →
      Thread.Rephases (.running t) g →
      Move i s [.started t (task.runs + 1)]
        ((s.setTask t { task with slot := task.slot.start, runs := task.runs + 1 }).onThread i g)
  | beginEmpty {s : System} {p : PoolId} {k : Nat} {t : TaskId} {task : Task} {o : Outcome}
      {g : Thread → Thread} :
      s.Working i p k (.holding t) → s.tasks[t]? = some task → task.slot.work = false →
      Thread.Rephases (.stashing t false o) g →
      Move i s [] ((s.setTask t { task with slot := task.slot.start }).onThread i g)
  | endWork {s : System} {p : PoolId} {k : Nat} {t : TaskId} {task : Task} {o : Outcome}
      {g : Thread → Thread} :
      s.Working i p k (.running t) → s.tasks[t]? = some task → o.run = task.runs →
      Thread.Rephases (.stashing t true o) g → Move i s [.ended t o] (s.onThread i g)
  | stash {s : System} {p : PoolId} {k : Nat} {t : TaskId} {task : Task} {work : Bool}
      {o : Outcome} : s.Working i p k (.stashing t work o) → s.tasks[t]? = some task →
      Move i s []
        ((s.setSlot t (task.slot.stash work o)).onThread i (·.setPhase (.stashed t o.returned)))
  | count {s : System} {p : PoolId} {pool : Pool} {k : Nat} {t : TaskId} {returned : Bool}
      {g : Thread → Thread} : s.Working i p k (.stashed t returned) → s.pools[p]? = some pool →
      Thread.Rephases (.counted t) g →
      Move i s
        (if returned then [.metric p (.completion none)]
          else [.log (.panicked p k t), .metric p (.panic none)])
        ((s.setPool p (pool.count k returned)).onThread i g)
  | retire {s : System} {p : PoolId} {pool : Pool} {k : Nat} {t : TaskId} {task : Task} :
      s.Working i p k (.counted t) → s.pools[p]? = some pool → s.tasks[t]? = some task →
      Move i s
        (.metric p (.idle k) ::
          if task.slot.ownership = .detached then [.log (.handedBack t)] else [])
        (s.retired i p pool t task)

/-- The moves of a step, with all their events. -/
inductive Moves (i : ThreadId) : System → List Event → System → Prop
  | nil (s : System) : Moves i s [] s
  | cons {s s' s'' : System} {es es' : List Event} :
      Move i s es s' → Moves i s' es' s'' → Moves i s (es ++ es') s''

namespace Moves

variable {i : ThreadId} {s s' : System} {es : List Event}

theorem single (m : Move i s es s') : Moves i s es s' := by
  simpa using cons m (nil s')

end Moves

end System

end WorkerPool
