/-!
Plain data: what a task returns and what a report is made of.
-/
namespace WorkerPool

/-- Data in the shape of a JSON document. A number is `mantissa` with `places` decimal places,
and a record keeps its members in the order in which they were written. -/
inductive Value
  | null
  | flag (b : Bool)
  | number (mantissa : Int) (places : Nat)
  | text (s : String)
  | list (items : List Value)
  | record (members : List (String × Value))
  deriving Repr, Inhabited

namespace Value

def int (n : Int) : Value := .number n 0

def nat (n : Nat) : Value := .number n 0

def texts (items : List String) : Value := .list (items.map .text)

/-- The answer of an operation that has nothing to report. -/
def ok : Value := .text "ok"

end Value

end WorkerPool
