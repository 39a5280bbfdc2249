/-!
Doubles as bit patterns, in exact arithmetic.

A pattern without its sign bit orders the non-negative doubles, and the pattern
`(e + 1074) * 2^52 + m` stands for `m * 2^e` whenever `m` has 53 bits, or fewer and `e = -1074`.
-/
namespace WorkerPool.Binary64

/-- The pattern of positive infinity; larger ones without a sign are not numbers. -/
def infinity : Nat := 0x7ff <<< 52

/-- The quotient rounded to the nearest whole number, a half to the even one. -/
def roundQuotient (num den : Nat) : Nat :=
  let q := num / den
  let r := num % den
  if 2 * r < den ∨ (2 * r = den ∧ q % 2 = 0) then q else q + 1

/-- `num / den` scaled by `2^e` down, as a fraction. -/
def scaleDown (num den : Nat) (e : Int) : Nat × Nat :=
  match e with
  | .ofNat k => (num, den <<< k)
  | .negSucc k => (num <<< (k + 1), den)

/-- The exponent `e` at which `num / den` divided by `2^e` has 53 bits before the point, or -1074
if that is larger. -/
def exponent (num den : Nat) : Int :=
  let guess : Int := (Nat.log2 num : Int) - (Nat.log2 den : Int) - 52
  let scaled := scaleDown num den guess
  max (-1074) (if scaled.1 < scaled.2 <<< 52 then guess - 1 else guess)

/-- The pattern of the double nearest to `num / den`, for `0 < den`; ties go to the even pattern. -/
def ofRatio (num den : Nat) : Nat :=
  if num = 0 then 0
  else
    let e := exponent num den
    let scaled := scaleDown num den e
    min infinity ((e + 1074).toNat <<< 52 + roundQuotient scaled.1 scaled.2)

/-- The mantissa and the exponent of a pattern without a sign, below infinity. -/
def decode (bits : Nat) : Nat × Int :=
  let field : Nat := bits >>> 52
  let fraction : Nat := bits % (1 <<< 52)
  if field = 0 then (fraction, -1074) else (fraction + (1 <<< 52), (field : Int) - 1075)

/-- The whole number that the double nearest to `n` stands for. -/
def nearest (n : Nat) : Nat :=
  let d := decode (ofRatio n 1)
  match d.2 with
  | .ofNat k => d.1 <<< k
  | .negSucc k => d.1 >>> (k + 1)

end WorkerPool.Binary64
