import WorkerPool.Json.Number

/-!
Values in JSON text that nobody asked for, and values of the wrong kind.
-/
namespace WorkerPool.Json

mutual

/-- Skips a value. -/
def skipValue : Nat → List Char → Except Fault (List Char)
  | 0, _ => .error .truncated
  | fuel + 1, cs =>
    match skipBlanks cs with
    | [] => .error .truncated
    | 'n' :: cs => readWord "ull".toList cs
    | 't' :: cs => readWord "rue".toList cs
    | 'f' :: cs => readWord "alse".toList cs
    | '"' :: cs => skipString cs
    | '-' :: cs => skipNumber cs
    | '[' :: cs =>
      match skipBlanks cs with
      | [] => .error .truncated
      | ']' :: cs => .ok cs
      | cs => skipItems fuel cs
    | '\x7b' :: cs =>
      match skipBlanks cs with
      | [] => .error .truncated
      | '\x7d' :: cs => .ok cs
      | cs => skipMembers fuel cs
    | c :: cs => if c.isDigit then skipNumber (c :: cs) else .error .malformed

/-- Skips the items of an array and its end. -/
def skipItems : Nat → List Char → Except Fault (List Char)
  | 0, _ => .error .truncated
  | fuel + 1, cs => do
    match skipBlanks (← skipValue fuel cs) with
    | [] => .error .truncated
    | ',' :: cs => skipItems fuel cs
    | ']' :: cs => return cs
    | _ => .error .malformed

/-- Skips the members of an object and its end. -/
def skipMembers : Nat → List Char → Except Fault (List Char)
  | 0, _ => .error .truncated
  | fuel + 1, cs => do
    match skipBlanks cs with
    | [] => .error .truncated
    | '"' :: cs =>
      let cs ← readColon (← skipString cs)
      match skipBlanks (← skipValue fuel cs) with
      | [] => .error .truncated
      | ',' :: cs => skipMembers fuel cs
      | '\x7d' :: cs => return cs
      | _ => .error .malformed
    | _ => .error .malformed

end

/-- Skips any value. -/
def skip (cs : List Char) : Except Fault (List Char) := skipValue (2 * cs.length + 2) cs

/-- The fault of a value that is of the wrong kind: it is only looked at as far as its kind shows,
and may be at fault itself. -/
def wrongKind (cs : List Char) : Fault :=
  let read : Except Fault Unit := match cs with
    | 'n' :: cs => do let _ ← readWord "ull".toList cs
    | 't' :: cs => do let _ ← readWord "rue".toList cs
    | 'f' :: cs => do let _ ← readWord "alse".toList cs
    | '-' :: cs => do let _ ← readNumber cs
    | '"' :: cs => do let _ ← readString cs
    | '[' :: _ | '\x7b' :: _ => .ok ()
    | c :: cs => if c.isDigit then do let _ ← readNumber (c :: cs) else .error .malformed
    | [] => .error .truncated
  match read with
  | .ok () => .mismatch
  | .error fault => fault

end WorkerPool.Json
