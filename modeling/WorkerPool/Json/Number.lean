import WorkerPool.Binary64
import WorkerPool.Json.Text

/-!
Numbers in JSON text.

A number without fraction and exponent that fits 64 bits is read exactly. Any other number has to
fit the range of a double, and is nothing but a number then.
-/
namespace WorkerPool.Json

/-- Whole numbers below this are read exactly. -/
def wordLimit : Nat := UInt64.size

/-- Exponents of ten up to this one are doubles. -/
def largestPower : Nat := 308

/-- An exponent above this is as good as infinite. -/
def exponentLimit : Nat := (1 <<< 31) - 1

def digit (c : Char) : Nat := c.toNat - '0'.toNat

/-- The number that digits write. -/
def ofDigits (ds : List Char) : Nat := ds.foldl (fun n c => n * 10 + digit c) 0

/-- Adds digits before the point to a significand as long as they fit; counts those that do not. -/
def absorbWhole (n : Nat) : List Char → Nat × Nat
  | [] => (n, 0)
  | c :: ds =>
    if n * 10 + digit c < wordLimit then absorbWhole (n * 10 + digit c) ds
    else (n, ds.length + 1)

/-- Adds digits after the point to a significand as long as they fit; counts those that do. -/
def absorbFraction (n : Nat) : List Char → Nat × Nat
  | [] => (n, 0)
  | c :: ds =>
    if n * 10 + digit c < wordLimit then
      let (m, count) := absorbFraction (n * 10 + digit c) ds
      (m, count + 1)
    else (n, 0)

/-- Whether a significand times a power of ten stays below infinity, both factors and their product
being rounded to doubles. -/
def inRange (significand : Nat) (exponent : Int) : Bool :=
  match exponent with
  | .negSucc _ => true
  | .ofNat e =>
    significand = 0
      || (e ≤ largestPower
        && Binary64.ofRatio (Binary64.nearest significand * Binary64.nearest (Nat.pow 10 e)) 1
          < Binary64.infinity)

/-- A number that is not exact has to be in range. -/
def inexact (significand : Nat) (exponent : Int) (cs : List Char) :
    Except Fault (Option Nat × List Char) :=
  if inRange significand exponent then .ok (none, cs) else .error .malformed

/-- Reads an exponent after its letter. -/
def readExponent (significand : Nat) (exponent : Int) (cs : List Char) :
    Except Fault (Option Nat × List Char) :=
  let (negative, cs) := match cs with
    | '+' :: cs => (false, cs)
    | '-' :: cs => (true, cs)
    | cs => (false, cs)
  match cs with
  | [] => .error .truncated
  | c :: _ =>
    if c.isDigit then
      let e := ofDigits (cs.takeWhile Char.isDigit)
      let cs := cs.dropWhile Char.isDigit
      if exponentLimit < e then
        if significand ≠ 0 ∧ ¬negative then .error .malformed else .ok (none, cs)
      else inexact significand (if negative then exponent - e else exponent + e) cs
    else .error .malformed

/-- Reads a fraction after its point. -/
def readFraction (significand : Nat) (exponent : Nat) (cs : List Char) :
    Except Fault (Option Nat × List Char) :=
  match cs with
  | [] => .error .truncated
  | c :: _ =>
    if c.isDigit then
      let (significand, count) := absorbFraction significand (cs.takeWhile Char.isDigit)
      let exponent : Int := exponent - count
      match cs.dropWhile Char.isDigit with
      | 'e' :: cs | 'E' :: cs => readExponent significand exponent cs
      | cs => inexact significand exponent cs
    else .error .malformed

/-- Reads what follows the whole part of a number. -/
def readTail (significand : Nat) (exponent : Nat) (cs : List Char) :
    Except Fault (Option Nat × List Char) :=
  match cs with
  | '.' :: cs => readFraction significand exponent cs
  | 'e' :: cs | 'E' :: cs => readExponent significand exponent cs
  | cs => if exponent = 0 then .ok (some significand, cs) else inexact significand exponent cs

/-- Reads a number after its sign; gives its value if it is exact. -/
def readNumber (cs : List Char) : Except Fault (Option Nat × List Char) :=
  match cs with
  | [] => .error .truncated
  | '0' :: cs =>
    if cs.head?.any Char.isDigit then .error .malformed else readTail 0 0 cs
  | c :: _ =>
    if c.isDigit then
      let (significand, exponent) := absorbWhole 0 (cs.takeWhile Char.isDigit)
      readTail significand exponent (cs.dropWhile Char.isDigit)
    else .error .malformed

/-- Skips one or more digits. -/
def skipDigits (cs : List Char) : Except Fault (List Char) :=
  if cs.head?.any Char.isDigit then .ok (cs.dropWhile Char.isDigit) else .error .malformed

/-- Skips an exponent, if there is one. -/
def skipExponent (cs : List Char) : Except Fault (List Char) :=
  match cs with
  | 'e' :: '+' :: cs | 'e' :: '-' :: cs | 'E' :: '+' :: cs | 'E' :: '-' :: cs => skipDigits cs
  | 'e' :: cs | 'E' :: cs => skipDigits cs
  | cs => .ok cs

/-- Skips a number after its sign, whatever its size. -/
def skipNumber (cs : List Char) : Except Fault (List Char) := do
  let cs ← match cs with
    | '0' :: cs => if cs.head?.any Char.isDigit then .error .malformed else pure cs
    | cs => skipDigits cs
  match cs with
  | '.' :: cs => skipExponent (← skipDigits cs)
  | cs => skipExponent cs

end WorkerPool.Json
