import WorkerPool.Json.Compact
import WorkerPool.Queue

/-!
Queue orders as JSON text.
-/
namespace WorkerPool.QueueOrder

/-- The order with the name that has been read. -/
def named (name : String) : Except Json.Fault QueueOrder :=
  match ofText? name with
  | none => .error .mismatch
  | some order => .ok order

def toJson (o : QueueOrder) (json : Json.Format := Json.compact) : String :=
  json.writeName o.inspect

def ofJson (text : String) (json : Json.Format := Json.compact) : Except Json.Fault QueueOrder :=
  json.readName named text

end WorkerPool.QueueOrder
