import WorkerPool.Value

/-!
The slot of a task: where it stands, who answers for it, and what it holds.

The caller's side and the worker's side change a slot in small steps; each step is a function here,
and whoever calls it holds the lock of the task.
-/
namespace WorkerPool

/-- The lifecycle state of a task. -/
inductive TaskState
  /-- Created, never submitted. -/
  | unsubmitted
  /-- Queued in a pool. -/
  | pending
  /-- A worker is executing the work. -/
  | running
  /-- The outcome is published. -/
  | finished
  deriving DecidableEq, Repr, Inhabited

namespace TaskState

def all : List TaskState := [unsubmitted, pending, running, finished]

def name : TaskState → String
  | unsubmitted => "unsubmitted"
  | pending => "pending"
  | running => "running"
  | finished => "finished"

def inspect : TaskState → String
  | unsubmitted => "Unsubmitted"
  | pending => "Pending"
  | running => "Running"
  | finished => "Finished"

end TaskState

/-- Who is responsible for the outcome of a task. -/
inductive Ownership
  /-- Not submitted, or joined since the last submission. -/
  | caller
  /-- Queued, running, or finished and waiting for a join. -/
  | pool
  /-- The worker that finishes the task destroys its outcome. -/
  | detached
  deriving DecidableEq, Repr, Inhabited

namespace Ownership

def inspect : Ownership → String
  | caller => "Caller"
  | pool => "Pool"
  | detached => "Detached"

end Ownership

/-- What a panic carries: a readable text, or something without one. -/
inductive Payload
  | text (message : String)
  | unreadable
  deriving DecidableEq, Repr, Inhabited

namespace Payload

def text? : Payload → Option String
  | text message => some message
  | unreadable => none

def message (p : Payload) : String := p.text?.getD "Unknown panic"

end Payload

/-- How an invocation of a work ended. -/
inductive Ending
  | value (v : Value)
  | panicked (message : String)
  deriving Repr, Inhabited

/-- The ending of a work that returned a value or panicked. -/
def Ending.of : Except Payload Value → Ending
  | .ok v => value v
  | .error payload => panicked payload.message

/-- The outcome of the invocation number `run` of a task. -/
structure Outcome where
  run : Nat
  ending : Ending
  deriving Repr, Inhabited

namespace Outcome

/-- Whether the work returned. -/
def returned (o : Outcome) : Bool :=
  match o.ending with
  | .value _ => true
  | .panicked _ => false

end Outcome

/-- The fields guarded by the lock of a task; `work` tells whether the work closure is in place. -/
structure Slot where
  state : TaskState := .unsubmitted
  ownership : Ownership := .caller
  work : Bool := true
  outcome : Option Outcome := none
  deriving Repr, Inhabited

namespace Slot

/-- Into the custody of a pool. -/
def claim (s : Slot) : Slot :=
  { s with ownership := .pool, state := .pending, outcome := none }

/-- A worker takes the work out and starts it. -/
def start (s : Slot) : Slot := { s with state := .running, work := false }

/-- The work comes back with its outcome. -/
def stash (s : Slot) (work : Bool) (o : Outcome) : Slot := { s with work, outcome := some o }

/-- The outcome becomes visible; a detached task gives up everything it holds. -/
def complete (s : Slot) : Slot :=
  if s.ownership = .detached then { s with state := .finished, outcome := none, work := false }
  else { s with state := .finished }

/-- The outcome goes to the caller, and so does the task. -/
def release (s : Slot) : Slot := { s with ownership := .caller, outcome := none }

/-- Nobody will ask for the outcome any more. -/
def detach (s : Slot) : Slot := { s with ownership := .detached }

/-- The last reference to the task is gone and takes the contents along. -/
def clear (s : Slot) : Slot := { s with work := false, outcome := none }

/-- The pool owns the task and has not published an outcome. -/
def isOutstanding (s : Slot) : Bool := s.ownership = .pool ∧ s.state ≠ .finished

end Slot

end WorkerPool
