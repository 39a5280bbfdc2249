/-!
The lexical parts of JSON text: blanks, literal words and strings.

A reader takes the characters that are left and gives what it has read together with the characters
that are left then. It refuses a text for one of three faults: the text is not JSON, it is JSON of
the wrong shape, or it ends too early.
-/
namespace WorkerPool.Json

inductive Fault
  /-- The text is not JSON. -/
  | malformed
  /-- The text is JSON, but not of the shape that was asked for. -/
  | mismatch
  /-- The text ends too early. -/
  | truncated
  deriving DecidableEq, Repr, Inhabited

/-- The name of the fault in reports. -/
def Fault.name : Fault → String
  | malformed => "Syntax"
  | mismatch => "Data"
  | truncated => "Eof"

def isBlank (c : Char) : Bool := c = ' ' || c = '\n' || c = '\t' || c = '\r'

def skipBlanks (cs : List Char) : List Char := cs.dropWhile isBlank

/-- Reads the rest of a literal word. -/
def readWord : List Char → List Char → Except Fault (List Char)
  | [], cs => .ok cs
  | _ :: _, [] => .error .truncated
  | w :: word, c :: cs => if c = w then readWord word cs else .error .malformed

/-- The value of a hexadecimal digit in either case. -/
def hexDigit? (c : Char) : Option Nat :=
  if '0' ≤ c ∧ c ≤ '9' then some (c.toNat - '0'.toNat)
  else if 'a' ≤ c ∧ c ≤ 'f' then some (c.toNat - 'a'.toNat + 10)
  else if 'A' ≤ c ∧ c ≤ 'F' then some (c.toNat - 'A'.toNat + 10)
  else none

/-- The length of characters in UTF-8. -/
def byteLength (cs : List Char) : Nat := cs.foldl (fun n c => n + c.utf8Size) 0

/-- Reads the four hexadecimal digits of an escape. The text ends too early if fewer than four bytes
are left. -/
def readUnit : List Char → Except Fault (Nat × List Char)
  | a :: b :: c :: d :: cs =>
    match hexDigit? a, hexDigit? b, hexDigit? c, hexDigit? d with
    | some a, some b, some c, some d => .ok (((a * 16 + b) * 16 + c) * 16 + d, cs)
    | _, _, _, _ => .error .malformed
  | cs => if byteLength cs < 4 then .error .truncated else .error .malformed

def isHighSurrogate (n : Nat) : Bool := 0xd800 ≤ n && n ≤ 0xdbff

def isLowSurrogate (n : Nat) : Bool := 0xdc00 ≤ n && n ≤ 0xdfff

/-- Reads what follows the first half of a surrogate pair. -/
def readLowSurrogate (high : Nat) : List Char → Except Fault (Char × List Char)
  | [] | ['\\'] => .error .truncated
  | '\\' :: 'u' :: cs => do
    let (low, cs) ← readUnit cs
    if isLowSurrogate low then
      return (Char.ofNat ((high - 0xd800) * 0x400 + (low - 0xdc00) + 0x10000), cs)
    else .error .malformed
  | _ => .error .malformed

/-- Reads an escape after its backslash. -/
def readEscape : List Char → Except Fault (Char × List Char)
  | [] => .error .truncated
  | '"' :: cs => .ok ('"', cs)
  | '\\' :: cs => .ok ('\\', cs)
  | '/' :: cs => .ok ('/', cs)
  | 'b' :: cs => .ok ('\x08', cs)
  | 'f' :: cs => .ok ('\x0c', cs)
  | 'n' :: cs => .ok ('\n', cs)
  | 'r' :: cs => .ok ('\r', cs)
  | 't' :: cs => .ok ('\t', cs)
  | 'u' :: cs => do
    let (n, cs) ← readUnit cs
    if isLowSurrogate n then .error .malformed
    else if isHighSurrogate n then readLowSurrogate n cs
    else return (Char.ofNat n, cs)
  | _ => .error .malformed

/-- Skips an escape after its backslash; half a surrogate pair is let pass. -/
def skipEscape : List Char → Except Fault (List Char)
  | 'u' :: cs => do return (← readUnit cs).2
  | cs => do return (← readEscape cs).2

/-- Reads a string after its opening quote, with more fuel than it has characters. -/
def readChars : Nat → List Char → Except Fault (List Char × List Char)
  | 0, _ | _, [] => .error .truncated
  | _, '"' :: cs => .ok ([], cs)
  | fuel + 1, '\\' :: cs => do
    let (c, cs) ← readEscape cs
    let (rest, cs) ← readChars fuel cs
    return (c :: rest, cs)
  | fuel + 1, c :: cs =>
    if c.toNat < 0x20 then .error .malformed
    else do
      let (rest, cs) ← readChars fuel cs
      return (c :: rest, cs)

/-- Skips a string after its opening quote, with more fuel than it has characters. -/
def skipChars : Nat → List Char → Except Fault (List Char)
  | 0, _ | _, [] => .error .truncated
  | _, '"' :: cs => .ok cs
  | fuel + 1, '\\' :: cs => do skipChars fuel (← skipEscape cs)
  | fuel + 1, c :: cs => if c.toNat < 0x20 then .error .malformed else skipChars fuel cs

/-- Reads a string after its opening quote. -/
def readString (cs : List Char) : Except Fault (List Char × List Char) :=
  readChars (cs.length + 1) cs

/-- Skips a string after its opening quote. -/
def skipString (cs : List Char) : Except Fault (List Char) := skipChars (cs.length + 1) cs

/-- Reads the colon after the name of a member. -/
def readColon (cs : List Char) : Except Fault (List Char) :=
  match skipBlanks cs with
  | [] => .error .truncated
  | ':' :: cs => .ok cs
  | _ => .error .malformed

end WorkerPool.Json
