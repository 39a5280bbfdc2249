/-!
The queue of work that no worker has claimed yet.

Workers take the entry at the head. The order of the queue decides where a new entry goes: to the
head, so that the latest entry is claimed first, or to the tail.
-/
namespace WorkerPool

inductive QueueOrder
  /-- The latest entry is claimed first. -/
  | lifo
  /-- The oldest entry is claimed first. -/
  | fifo
  deriving DecidableEq, Repr, Inhabited

namespace QueueOrder

def name : QueueOrder → String
  | lifo => "lifo"
  | fifo => "fifo"

def inspect : QueueOrder → String
  | lifo => "Lifo"
  | fifo => "Fifo"

/-- The order with the given inspection text. -/
def ofText? (s : String) : Option QueueOrder :=
  if s = "Lifo" then some lifo else if s = "Fifo" then some fifo else none

end QueueOrder

/-- A bounded queue; `entries` starts at the head. -/
structure PendingQueue (α : Type) where
  entries : List α
  capacity : Nat
  order : QueueOrder
  deriving Repr

namespace PendingQueue

variable {α : Type}

def empty (capacity : Nat) (order : QueueOrder) : PendingQueue α := ⟨[], capacity, order⟩

def length (q : PendingQueue α) : Nat := q.entries.length

def isEmpty (q : PendingQueue α) : Bool := q.entries.isEmpty

def isFull (q : PendingQueue α) : Bool := q.capacity ≤ q.length

/-- Adds an entry where the order puts it; the caller checks `isFull` first. -/
def push (q : PendingQueue α) (a : α) : PendingQueue α :=
  { q with entries := match q.order with
      | .lifo => a :: q.entries
      | .fifo => q.entries ++ [a] }

/-- The entry at the head and the queue without it. -/
def pop? (q : PendingQueue α) : Option (α × PendingQueue α) :=
  match q.entries with
  | [] => none
  | a :: rest => some (a, { q with entries := rest })

end PendingQueue

end WorkerPool
