import WorkerPool.Error
import WorkerPool.Queue

/-!
What a pool is asked to be.

A configuration is built field by field and can hold any values; `Config.validate` accepts exactly
those that a pool can be made from, and names the first field at fault.
-/
namespace WorkerPool

/-- Upper bound on the worker threads of a pool. -/
def maxThreadsLimit : Nat := 20

/-- Upper bound on the pending tasks of a pool. -/
def maxPendingLimit : Nat := 100

structure Config where
  /-- Ceiling on worker threads. -/
  maxThreads : Nat
  /-- Capacity of the pending queue. -/
  maxPending : Nat := maxPendingLimit
  /-- Workers are named by this text, a dash and their index. -/
  threadName : String := "task-worker"
  /-- Stack size of a worker in bytes; `none` leaves it to the platform. -/
  stackSize : Option Nat := none
  order : QueueOrder := .lifo
  deriving DecidableEq, Repr, Inhabited

namespace Config

/-- The configuration with the given ceiling and every other field at its default. -/
def new (maxThreads : Nat) : Config := { maxThreads }

/-- The default configuration on a machine with this many processors. -/
def ofProcessors (processors : Nat) : Config :=
  new (max 1 (min processors maxThreadsLimit))

def withMaxThreads (c : Config) (n : Nat) : Config := { c with maxThreads := n }

def withMaxPending (c : Config) (n : Nat) : Config := { c with maxPending := n }

def withThreadName (c : Config) (name : String) : Config := { c with threadName := name }

def withStackSize (c : Config) (bytes : Nat) : Config := { c with stackSize := some bytes }

def withOrder (c : Config) (order : QueueOrder) : Config := { c with order }

/-- Runs pending tasks oldest first. -/
def fifo (c : Config) : Config := c.withOrder .fifo

/-- One field given a value. -/
inductive Setting
  | maxThreads (n : Nat)
  | maxPending (n : Nat)
  | threadName (name : String)
  | stackSize (bytes : Nat)
  | order (order : QueueOrder)
  | fifo
  deriving DecidableEq, Repr

def set (c : Config) : Setting → Config
  | .maxThreads n => c.withMaxThreads n
  | .maxPending n => c.withMaxPending n
  | .threadName name => c.withThreadName name
  | .stackSize bytes => c.withStackSize bytes
  | .order order => c.withOrder order
  | .fifo => c.fifo

/-- The settings applied one after the other. -/
def setAll (c : Config) (settings : List Setting) : Config := settings.foldl set c

/-- The complaint about a count that must lie between 1 and `limit`. -/
def outOfRange (limit n : Nat) : String := s!"must be between 1 and {limit}, got {n}"

/-- Refuses a configuration no pool can be made from, for its first field at fault. -/
def validate (c : Config) : Except PoolError Unit :=
  if ¬(1 ≤ c.maxThreads ∧ c.maxThreads ≤ maxThreadsLimit) then
    .error (.invalidArgument "max_threads" (outOfRange maxThreadsLimit c.maxThreads))
  else if ¬(1 ≤ c.maxPending ∧ c.maxPending ≤ maxPendingLimit) then
    .error (.invalidArgument "max_pending" (outOfRange maxPendingLimit c.maxPending))
  else if '\x00' ∈ c.threadName.toList then
    .error (.invalidArgument "thread_name_prefix" "must not contain null bytes")
  else if c.stackSize = some 0 then
    .error (.invalidArgument "stack_size" "must be greater than 0")
  else .ok ()

/-- The name of the worker with the given index. -/
def workerName (c : Config) (index : Nat) : String := s!"{c.threadName}-{index}"

def inspect (c : Config) : String :=
  Text.record "PoolConfig"
    [("max_threads", toString c.maxThreads), ("max_pending", toString c.maxPending),
      ("thread_name_prefix", Text.quote c.threadName),
      ("stack_size", Text.option toString c.stackSize), ("queue_order", c.order.inspect)]

end Config

end WorkerPool
