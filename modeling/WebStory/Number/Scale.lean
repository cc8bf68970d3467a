import WebStory.Number.Binary64
/-
  Decimals by way of a product or a quotient.

  The number nearest to a decimal takes exact arithmetic of any length.  Here the digits are made a
  floating-point number first, and this one is then multiplied or divided by a power of ten that is a
  floating-point number as well.  Each of these operations rounds, so the outcome may be a neighbour
  of the nearest number; it is the nearest one where the digits and the power are exact.
-/

namespace WebStory

namespace Binary64

/-- The product, rounded; `none` beyond the finite range. -/
def mul? (x y : Binary64) : Option Binary64 :=
  ofRatio? (x.negative != y.negative) (x.magnitude * y.magnitude) (unitsPerOne * unitsPerOne)

/-- The quotient, rounded.  The divisor is not zero. -/
def div? (x y : Binary64) : Option Binary64 :=
  ofRatio? (x.negative != y.negative) x.magnitude y.magnitude

/-- The largest power of ten in the finite range. -/
def largestPower : Nat := 308

/-- A power of ten, rounded. -/
def powerOfTen? (n : Nat) : Option Binary64 := ofRatio? false (Nat.pow 10 n) 1

/-- A number times a power of ten.  A power beyond the finite range is taken in several steps where
    it is small; where it is large, only zero stays in the range. -/
def scale? (x : Binary64) (exponent : Int) : Option Binary64 :=
  if exponent.natAbs ≤ largestPower then do
    let power ← powerOfTen? exponent.natAbs
    if 0 ≤ exponent then x.mul? power else x.div? power
  else if x.isZero then some x
  else if 0 ≤ exponent then none
  else do
    let power ← powerOfTen? largestPower
    let quotient ← x.div? power
    scale? quotient (exponent + largestPower)
termination_by exponent.natAbs
decreasing_by
  have hpower : largestPower = 308 := rfl
  omega

/-- The number for `significand * 10^exponent`, rounded at each operation; `none` beyond the finite
    range. -/
def ofScaled? (negative : Bool) (significand : Nat) (exponent : Int) : Option Binary64 := do
  let x ← ofRatio? negative significand 1
  x.scale? exponent

end Binary64

end WebStory
