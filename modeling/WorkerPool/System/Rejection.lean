import WorkerPool.System.Step

/-!
What a caller gets back from a call that was refused its task.

Detaching and destroying take the task along. A refusal hands it back in a rejection, and the caller
takes out of it the task, or the error, or both. What is left of the rejection goes out of scope.
-/
namespace WorkerPool

/-- A task handed back, and why. -/
structure Rejection where
  task : TaskId
  error : PoolError
  deriving DecidableEq, Repr

namespace Rejection

/-- The rejection that a call of the operation ends in, if the reply is one. -/
def of? : Operation → Reply → Option Rejection
  | .detach t, .rejected e | .destroy t, .rejected e => some ⟨t, e⟩
  | _, _ => none

def intoTask (r : Rejection) : TaskId := r.task

def intoParts (r : Rejection) : TaskId × PoolError := (r.task, r.error)

/-- The error, and the effect of leaving the task behind: the thread lets go of its handle. -/
def intoError? (r : Rejection) (s : System) (i : ThreadId) :
    Option (PoolError × System.Effect) := do
  let task ← s.tasks[r.task]?
  let inCall := s.onThread i (·.push (.disposing [] none false))
  if s.canOwn r.task then some (r.error, inCall.letGo i r.task task [.handle r.task]) else none

end Rejection

end WorkerPool
