import WorkerPool.Json.Format
import WorkerPool.Json.Skip
import WorkerPool.Stats

/-!
The format that the program uses.

A record is written as an object, its members in order and without blanks, and a name as a string. A
record is read from an object, member by member, or from the array of its values; a name from a
string, or from the one member of an object whose value is null.
-/
namespace WorkerPool.Json

variable {α : Type}

/-! ### Records -/

def writeFields (fields : List (String × UInt64)) : String :=
  let members := fields.map fun f => "\"" ++ f.1 ++ "\":" ++ toString f.2.toNat
  "\x7b" ++ ",".intercalate members ++ "\x7d"

/-- Reads a number that has to be a counter. -/
def readCounter (cs : List Char) : Except Fault (UInt64 × List Char) :=
  match skipBlanks cs with
  | [] => .error .truncated
  | '-' :: cs => do
    let _ ← readNumber cs
    .error .mismatch
  | c :: cs =>
    if c.isDigit then do
      match ← readNumber (c :: cs) with
      | (some n, cs) => return (.ofNat n, cs)
      | (none, _) => .error .mismatch
    else .error (wrongKind (c :: cs))

/-- Reads what is left of an array of counters after its opening bracket; `first` before the first
one. -/
def readItems : Nat → Bool → List Char → Except Fault (List UInt64 × List Char)
  | 0, _, cs =>
    match skipBlanks cs with
    | [] => .error .truncated
    | ']' :: cs => .ok ([], cs)
    | _ => .error .malformed
  | count + 1, first, cs => do
    let cs ← match skipBlanks cs with
      | [] => .error .truncated
      | ']' :: _ => .error .mismatch
      | c :: cs =>
        if first then pure (c :: cs)
        else if c = ',' then
          match skipBlanks cs with
          | [] => .error .truncated
          | ']' :: _ => .error .malformed
          | cs => pure cs
        else .error .malformed
    let (n, cs) ← readCounter cs
    let (rest, cs) ← readItems count false cs
    return (n :: rest, cs)

/-- The characters at which the name of the next member starts, or `none` at the end of the
object. -/
def nextMember (first : Bool) (cs : List Char) : Except Fault (Option (List Char)) :=
  match skipBlanks cs with
  | [] => .error .truncated
  | '\x7d' :: _ => .ok none
  | c :: cs =>
    if first then .ok (some (c :: cs))
    else if c = ',' then
      match skipBlanks cs with
      | [] => .error .truncated
      | cs => .ok (some cs)
    else .error .malformed

/-- Reads what is left of an object after its opening brace, with more fuel than it has members.
`given` holds the counters read so far. -/
def readMembers (v : Visitor α) :
    Nat → Bool → List (String × UInt64) → List Char → Except Fault (α × List Char)
  | 0, _, _, _ => .error .truncated
  | fuel + 1, first, given, cs => do
    match ← nextMember first cs with
    | none => return (← v.ofMembers given, (skipBlanks cs).tail)
    | some ('"' :: cs) =>
      let (name, cs) ← readString cs
      let name := String.ofList name
      if ← v.wants given name then
        let (n, cs) ← readCounter (← readColon cs)
        readMembers v fuel false (given ++ [(name, n)]) cs
      else readMembers v fuel false given (← skip (← readColon cs))
    | some _ => .error .malformed

/-- Nothing but blanks is left. -/
def readEnd (cs : List Char) : Except Fault Unit :=
  if (skipBlanks cs).isEmpty then .ok () else .error .malformed

def readRecord (v : Visitor α) (text : String) : Except Fault α := do
  match skipBlanks text.toList with
  | [] => .error .truncated
  | '[' :: cs =>
    let (counters, cs) ← readItems v.size true cs
    let a ← v.ofItems counters
    readEnd cs
    return a
  | '\x7b' :: cs =>
    let (a, cs) ← readMembers v (cs.length + 1) true [] cs
    readEnd cs
    return a
  | cs => .error (wrongKind cs)

/-! ### Names -/

/-- Reads a null. -/
def readNull (cs : List Char) : Except Fault (List Char) :=
  match skipBlanks cs with
  | [] => .error .truncated
  | 'n' :: cs => readWord "ull".toList cs
  | cs => .error (wrongKind cs)

/-- Reads a name that is written as an object, after its opening brace. -/
def readNameMember (named : String → Except Fault α) (cs : List Char) :
    Except Fault (α × List Char) :=
  match skipBlanks cs with
  | [] => .error .truncated
  | '"' :: cs => do
    let (name, cs) ← readString cs
    let a ← named (String.ofList name)
    match skipBlanks (← readNull (← readColon cs)) with
    | [] => .error .truncated
    | '\x7d' :: cs => return (a, cs)
    | _ => .error .malformed
  | _ => .error .malformed

def readName (named : String → Except Fault α) (text : String) : Except Fault α := do
  match skipBlanks text.toList with
  | [] => .error .truncated
  | '\x7b' :: cs =>
    let (a, cs) ← readNameMember named cs
    readEnd cs
    return a
  | '"' :: cs =>
    let (name, cs) ← readString cs
    let a ← named (String.ofList name)
    readEnd cs
    return a
  | _ => .error .malformed

/-- Texts without blanks, and readers that take every form of a text. -/
def compact : Format where
  writeRecord := writeFields
  readRecord := readRecord
  writeName name := "\"" ++ name ++ "\""
  readName := readName

end WorkerPool.Json

namespace WorkerPool

open Json (Format Schema compact)

namespace PoolStats

def schema : Schema PoolStats := .ofFields fieldNames toList ofList?

def toJson (s : PoolStats) (json : Format := compact) : String := json.save schema s

def ofJson (text : String) (json : Format := compact) : Except Json.Fault PoolStats :=
  json.load schema text

end PoolStats

namespace WorkerSnapshot

def schema : Schema WorkerSnapshot := .ofFields fieldNames toList ofList?

def toJson (s : WorkerSnapshot) (json : Format := compact) : String := json.save schema s

def ofJson (text : String) (json : Format := compact) : Except Json.Fault WorkerSnapshot :=
  json.load schema text

end WorkerSnapshot

end WorkerPool
