import Carom.Binary64.Arithmetic

/-!
# Numeric rules of the language

The format's arithmetic with the decisions that the language makes on top of it:
numbers are equal up to a tolerance, there is no quotient or remainder by zero, a
loop runs a bounded number of times, and a draw stays in its range.

`near` and `apart` are two tests on the same distance. Neither holds of nan.
-/

namespace Carom.Binary64

/-- The least distance at which two numbers differ, `2 ^ -23`, the precision of
    the single format. -/
def tolerance : Binary64 := ofRatio false one (2 ^ 23)

/-- Closer than the tolerance. -/
def near (a b : Binary64) : Bool := decide ((a - b).abs < tolerance)

/-- At least as far apart as the tolerance. -/
def apart (a b : Binary64) : Bool := decide (tolerance ≤ (a - b).abs)

/-- The quotient, if the divisor is not zero. -/
def quotient? (a b : Binary64) : Option Binary64 :=
  if b == Binary64.zero then none else some (a / b)

/-- The remainder of division toward zero, if the divisor is not zero. -/
def remainder? (a b : Binary64) : Option Binary64 :=
  if b == Binary64.zero then none else some (a % b)

/-- The most often that a loop can run. -/
def maxIterations : Nat := 2 ^ 31 - 1

/-- How often a loop of this count runs: the whole part of the count, between zero
    and the most; nan counts as zero. -/
def iterations : Binary64 → Nat
  | nan => 0
  | infinite negative => if negative then 0 else maxIterations
  | finite negative quanta _ => min maxIterations (signed negative (quanta / one)).toNat

/-- The index that a finite number denotes: its whole part, or zero if that is
    negative. -/
def index? (n : Binary64) : Option Nat := n.truncate?.map Int.toNat

/-- The number at the part `part` of the way from `min` to `max`; where rounding
    reaches `max`, it is `min`, so that the range stays open at its end. -/
def between (min max part : Binary64) : Binary64 :=
  let drawn := min + part * (max - min)
  if max ≤ drawn then min else drawn

/-- The number nearest to an integer, if that is in range. -/
def ofInt? (z : Int) : Option Binary64 :=
  let n := ofInt z
  if n.isFinite then some n else none

end Carom.Binary64
