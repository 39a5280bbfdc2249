import WorkerPool.System.Basic

/-!
The platform that scripts and workloads run on.

Whether a thread can be started is up to the platform, and a step takes its answer as it comes. The
platform of scripts and workloads starts every thread whose stack fits its address space.
-/
namespace WorkerPool

/-- Stacks of this many bytes or more do not fit the address space. -/
def stackLimit : Nat := 1 <<< 50

/-- What the platform says to a worker of a pool with this configuration, if it cannot start it. -/
def Config.startFailure (c : Config) : Option String :=
  if c.stackSize.any (stackLimit ≤ ·) then some "Resource temporarily unavailable (os error 11)"
  else none

/-- The platform's part in a step that may start such a worker. -/
def Config.pick (c : Config) (sleeper : Nat) : Pick := { sleeper, refusal := c.startFailure }

end WorkerPool
