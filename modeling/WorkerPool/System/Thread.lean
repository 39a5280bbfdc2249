import WorkerPool.System.Pool

/-!
Threads, what they wait for, and what they hold.
-/
namespace WorkerPool

/-- The condition variables of pools and tasks. -/
inductive Condition
  /-- Work is queued, or a worker is told to exit. -/
  | workAvailable (p : PoolId)
  /-- A worker has registered. -/
  | workerRegistered (p : PoolId)
  /-- The pool has become quiescent. -/
  | quiescent (p : PoolId)
  /-- The task has finished. -/
  | finished (t : TaskId)
  deriving DecidableEq, Repr

namespace Frame

/-- Delivers a wake-up if the frame waits for the condition. -/
def wake (c : Condition) : Frame → Frame
  | awaitingWorker p t woken => awaitingWorker p t (woken || c = .workerRegistered p)
  | awaitingOutcome t bound woken => awaitingOutcome t bound (woken || c = .finished t)
  | awaitingIdle p dropping woken => awaitingIdle p dropping (woken || c = .quiescent p)
  | awaitingReleases p dropping woken => awaitingReleases p dropping (woken || c = .quiescent p)
  | frame => frame

/-- The references to the task that the frame has yet to let go of. -/
def holds (t : TaskId) : Frame → Nat
  | disposing todo _ _ => todo.countP fun
      | .handle u | .reference u => u == t
      | _ => false
  | _ => 0

/-- Whether the frame is a submission of the task. -/
def submits (t : TaskId) : Frame → Bool
  | awaitingWorker _ u _ => u == t
  | _ => false

/-- Whether the frame is a join of the task. -/
def joins (t : TaskId) : Frame → Bool
  | awaitingOutcome u _ _ => u == t
  | _ => false

/-- Whether the frame is a call on the pool. -/
def uses (p : PoolId) : Frame → Bool
  | awaitingWorker q _ _ | awaitingIdle q _ _ | closing q _ | awaitingReleases q _ _
  | joiningCrew q _ _ _ => q == p
  | _ => false

end Frame

namespace Phase

def wake (c : Condition) (p : PoolId) : Phase → Phase
  | parked woken => parked (woken || c = .workAvailable p)
  | phase => phase

/-- The task in the hands of a worker in this phase. -/
def task? : Phase → Option TaskId
  | holding t | running t | stashing t _ _ | stashed t _ | counted t => some t
  | starting | parked _ | releasing | exited => none

end Phase

namespace Role

def wake (c : Condition) : Role → Role
  | caller => caller
  | worker p k phase => worker p k (phase.wake c p)

def task? : Role → Option TaskId
  | caller => none
  | worker _ _ phase => phase.task?

end Role

namespace Thread

/-- Delivers a wake-up to a thread that waits for the condition. -/
def wake (c : Condition) (th : Thread) : Thread :=
  { th with role := th.role.wake c, calls := th.calls.map (Frame.wake c) }

/-- Whether the thread is a worker that sleeps until there is work. -/
def sleeps (th : Thread) : Bool :=
  match th.role with
  | .worker _ _ (.parked false) => true
  | _ => false

/-- Whether the thread sleeps until there is work in the pool. -/
def sleepsIn (p : PoolId) (th : Thread) : Bool :=
  match th.role with
  | .worker q _ (.parked false) => q == p
  | _ => false

/-- The references to the task that the thread has. -/
def holds (t : TaskId) (th : Thread) : Nat :=
  (if th.role.task? = some t then 1 else 0) + th.calls.foldr (fun f n => f.holds t + n) 0

/-- Whether user code is what runs on the thread. -/
def inUserCode (th : Thread) : Bool :=
  match th.calls, th.role with
  | .destructor :: _, _ => true
  | _ :: _, _ => false
  | [], .caller => true
  | [], .worker _ _ (.running _) => true
  | [], _ => false

/-- Whether the thread is in a join that waits with a bound. -/
def awaitsBound (th : Thread) : Bool :=
  match th.calls with
  | .awaitingOutcome _ (some _) false :: _ => true
  | _ => false

/-- Whether the thread is a worker that sleeps or has terminated. -/
def isAtRest (th : Thread) : Bool :=
  match th.calls, th.role with
  | [], .worker _ _ (.parked false) => true
  | [], .worker _ _ .exited => true
  | _, _ => false

def hasExited (th : Thread) : Bool :=
  match th.role with
  | .worker _ _ .exited => true
  | _ => false

def setPhase (th : Thread) (phase : Phase) : Thread :=
  match th.role with
  | .caller => th
  | .worker p k _ => { th with role := .worker p k phase }

def push (th : Thread) (frame : Frame) : Thread := { th with calls := frame :: th.calls }

def pop (th : Thread) : Thread := { th with calls := th.calls.tail }

/-- Replaces the innermost frame. -/
def replace (th : Thread) (frame : Frame) : Thread := th.pop.push frame

end Thread

namespace System

/-- A program with this many caller threads and nothing created yet. -/
def start (callers : Nat) : System := { threads := List.replicate callers {} }

def addPool (s : System) (pool : Pool) : System := { s with pools := s.pools ++ [pool] }

def addTask (s : System) (task : Task) : System := { s with tasks := s.tasks ++ [task] }

/-- A new thread, numbered after the ones there are. -/
def spawn (s : System) (th : Thread) : System := { s with threads := s.threads ++ [th] }

def setPool (s : System) (p : PoolId) (pool : Pool) : System :=
  { s with pools := s.pools.set p pool }

def setTask (s : System) (t : TaskId) (task : Task) : System :=
  { s with tasks := s.tasks.set t task }

def setSlot (s : System) (t : TaskId) (slot : Slot) : System :=
  { s with tasks := s.tasks.modify t fun task => { task with slot } }

/-- Changes the state of one thread. -/
def onThread (s : System) (i : ThreadId) (f : Thread → Thread) : System :=
  { s with threads := s.threads.modify i f }

/-- Wakes every thread that waits for the condition. -/
def wakeAll (s : System) (c : Condition) : System :=
  { s with threads := s.threads.map (Thread.wake c) }

/-- The workers of the pool that sleep until there is work. -/
def sleepers (s : System) (p : PoolId) : List ThreadId :=
  (List.range s.threads.length).filter fun i => s.threads[i]?.any (Thread.sleepsIn p)

/-- Wakes one sleeping worker of the pool, if there is one. -/
def wakeOne (s : System) (p : PoolId) (pick : Pick) : System :=
  let asleep := s.sleepers p
  match asleep[pick.sleeper % asleep.length]? with
  | none => s
  | some i => s.onThread i (Thread.wake (.workAvailable p))

/-- The number of references to a task: the handle, entries of queues, and what threads hold. -/
def references (s : System) (t : TaskId) : Nat :=
  (if s.tasks[t]?.any (·.handle) then 1 else 0)
    + s.pools.foldr (fun p n => p.queue.entries.count t + n) 0
    + s.threads.foldr (fun th n => th.holds t + n) 0

/-- The handle is there and nobody is joining the task: it may be submitted. -/
def canShare (s : System) (t : TaskId) : Bool :=
  s.tasks[t]?.any (·.handle) && s.threads.all fun th => th.calls.all fun f => !f.joins t

/-- The handle is there and in nobody's use: the task may be joined or given away. -/
def canOwn (s : System) (t : TaskId) : Bool :=
  s.canShare t && s.threads.all fun th => th.calls.all fun f => !f.submits t

/-- The handle of the pool is there. -/
def canUse (s : System) (p : PoolId) : Bool := s.pools[p]?.any (·.handle)

/-- The handle of the pool is there and in nobody's use: the pool may be dropped. -/
def canDrop (s : System) (p : PoolId) : Bool :=
  s.canUse p && s.threads.all fun th => th.calls.all fun f => !f.uses p

end System

end WorkerPool
