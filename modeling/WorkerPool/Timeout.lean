import WorkerPool.Binary64

/-!
How long a join may wait.

A bound is a number of nanoseconds, zero for a look without waiting, or absent. A bound in seconds
is given by the bits of a double.
-/
namespace WorkerPool

/-- The longest wait of a join: `some` nanoseconds, or no bound. -/
abbrev Bound := Option Nat

namespace Bound

def nanosPerSecond : Nat := 1000000000

/-- The largest number of milliseconds an error reports. -/
def millisLimit : Nat := UInt64.size - 1

/-- The shortest wait in seconds that is not taken for zero, as the bits of a double: a
billionth. -/
def shortestBits : Nat := Binary64.ofRatio 1 nanosPerSecond

/-- A number of seconds and nanoseconds. -/
def ofParts (secs nanos : Nat) : Bound := some (secs * nanosPerSecond + nanos)

/-- The bound for a number of seconds. Whatever is below a billionth, negative or not a number is
no wait at all; from `2^64` on the wait has no bound; in between the nearest number of nanoseconds
counts, a half going to the even one. -/
def ofSeconds (bits : UInt64) : Bound :=
  let pattern := bits.toNat
  if 1 <<< 63 ≤ pattern ∨ Binary64.infinity < pattern ∨ pattern < shortestBits then some 0
  else if pattern = Binary64.infinity then none
  else
    match Binary64.decode pattern with
    | (m, .ofNat k) => if UInt64.size ≤ m <<< k then none else some ((m <<< k) * nanosPerSecond)
    | (m, .negSucc k) => some (Binary64.roundQuotient (m * nanosPerSecond) (1 <<< (k + 1)))

/-- The whole milliseconds in a number of nanoseconds, as an error reports them. -/
def millis (nanos : Nat) : Nat := min (nanos / 1000000) millisLimit

end Bound

end WorkerPool
