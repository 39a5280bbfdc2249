import WorkerPool.Json.Text

/-!
How records and names meet JSON text.

A library writes texts and reads them. It knows nothing of a type of records but its schema, which
lists the fields of a record, and builds a record from the members of an object or from the items of
an array. Both are parameters: other libraries may take the place of the format and the schemas that
the program uses.
-/
namespace WorkerPool.Json

/-- How a record is built while a text is read. What becomes of a member depends on the counters
that have been given before, each with its name. -/
structure Visitor (α : Type) where
  /-- Whether the counter of the member of this name is wanted. If not, its value is passed over. -/
  wants : List (String × UInt64) → String → Except Fault Bool
  /-- The record at the end of an object. -/
  ofMembers : List (String × UInt64) → Except Fault α
  /-- How many counters an array has. -/
  size : Nat
  ofItems : List UInt64 → Except Fault α

/-- What is known of a type of records. -/
structure Schema (α : Type) where
  fields : α → List (String × UInt64)
  visitor : Visitor α

/-- A library for JSON text. -/
structure Format where
  writeRecord : List (String × UInt64) → String
  readRecord : {α : Type} → Visitor α → String → Except Fault α
  writeName : String → String
  /-- Reads a name, of which the function says what it stands for. -/
  readName : {α : Type} → (String → Except Fault α) → String → Except Fault α

namespace Format

variable {α : Type}

def save (json : Format) (schema : Schema α) (a : α) : String :=
  json.writeRecord (schema.fields a)

def load (json : Format) (schema : Schema α) (text : String) : Except Fault α :=
  json.readRecord schema.visitor text

end Format

/-- The schema of a record that has the fields with these names and no others. Each of them has to
be there once; members with other names may be there too. -/
def Schema.ofFields {α : Type} (names : List String) (toList : α → List UInt64)
    (ofList? : List UInt64 → Option α) : Schema α where
  fields a := names.zip (toList a)
  visitor :=
    { wants := fun given name =>
        if name ∉ names then .ok false
        else if name ∈ given.map Prod.fst then .error .mismatch
        else .ok true
      ofMembers := fun given =>
        match (names.mapM fun name => given.lookup name).bind ofList? with
        | none => .error .mismatch
        | some a => .ok a
      size := names.length
      ofItems := fun counters =>
        match ofList? counters with
        | none => .error .mismatch
        | some a => .ok a }

end WorkerPool.Json
