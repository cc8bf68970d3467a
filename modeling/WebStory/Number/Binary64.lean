/-
  Finite 64-bit binary floating-point numbers as exact data.

  A number is a sign, a significand below 2^53 and a shift: its magnitude is
  `significand * 2^shift` units, where one unit is the smallest positive number, 2^-1074.
  Written this way every operation of the library is exact arithmetic on naturals, and two
  numbers with the same sign and magnitude are the same data (`normal` rules out a second
  spelling).  Infinities and not-a-number do not occur: reading a decimal that is too large
  fails instead.
-/

namespace WebStory

/-- A finite binary floating-point number, `(-1)^negative * significand * 2^(shift - 1074)`. -/
structure Binary64 where
  negative : Bool
  significand : Nat
  shift : Nat
  /-- A significand has at most 53 bits. -/
  significand_lt : significand < 1 <<< 53
  shift_le : shift ≤ 2045
  /-- A short significand stands only at the smallest shift. -/
  normal : 1 <<< 52 ≤ significand ∨ shift = 0
deriving DecidableEq

namespace Binary64

/-- Units in one: the number 1 is `2^1074` times the smallest positive number. -/
def unitsPerOne : Nat := 1 <<< 1074

/-- The magnitude, counted in the smallest positive number. -/
def magnitude (x : Binary64) : Nat := x.significand <<< x.shift

/-- The signed value in the same units.  Both zeros have value 0. -/
def scaled (x : Binary64) : Int := if x.negative then -(x.magnitude : Int) else x.magnitude

/-- Zero with the given sign. -/
def zero (negative : Bool) : Binary64 :=
  ⟨negative, 0, 0, by decide, by decide, Or.inr rfl⟩

/-- True of both zeros. -/
def isZero (x : Binary64) : Bool := x.significand == 0

instance : Inhabited Binary64 := ⟨zero false⟩

/-! ## Rounding -/

/-- The integer nearest to `num / den`; a tie goes to the even neighbour. -/
def roundHalfEven (num den : Nat) : Nat :=
  let quotient := num / den
  let twice := 2 * (num % den)
  if twice < den then quotient
  else if den < twice then quotient + 1
  else quotient + quotient % 2

/-- The binade of a magnitude: how far it is shifted beyond 53 significant bits. -/
def shiftOf (units : Nat) : Nat := units.log2 + 1 - 53

/-- The number with a given significand and shift, a significand of 2^53 carrying into the next
    binade.  There is none beyond the largest binade, nor where the spelling is not the
    normal one. -/
def ofParts? (negative : Bool) (significand shift : Nat) : Option Binary64 :=
  let (m, p) := if significand = 1 <<< 53 then (1 <<< 52, shift + 1) else (significand, shift)
  if h : m < 1 <<< 53 ∧ p ≤ 2045 ∧ (1 <<< 52 ≤ m ∨ p = 0) then
    some ⟨negative, m, p, h.1, h.2.1, h.2.2⟩
  else none

/-- The number nearest to `num / den`, a tie going to the even significand.  There is none when
    the quotient rounds beyond the largest finite number. -/
def ofRatio? (negative : Bool) (num den : Nat) : Option Binary64 :=
  let units := unitsPerOne * num
  let shift := shiftOf (units / den)
  ofParts? negative (roundHalfEven units (den <<< shift)) shift

/-- The number nearest to `digits * 10^exponent`; `none` beyond the finite range.

    The two cut-offs keep the powers of ten small.  With `order` digits before the point the
    decimal is at least `10^(order-1)` and below `10^order`: from 10^309 on it is too large, and
    below 10^-330 it is less than half the smallest positive number. -/
def ofDecimal? (negative : Bool) (digits : Nat) (exponent : Int) : Option Binary64 :=
  if digits = 0 then some (zero negative)
  else
    let order : Int := (Nat.toDigits 10 digits).length + exponent
    if order > 309 then none
    else if order < -329 then some (zero negative)
    else if exponent < 0 then ofRatio? negative digits (Nat.pow 10 exponent.natAbs)
    else ofRatio? negative (digits * Nat.pow 10 exponent.natAbs) 1

/-- The number nearest to an integer; `none` beyond the finite range. -/
def ofInt? (n : Int) : Option Binary64 := ofRatio? (decide (n < 0)) n.natAbs 1

/-- The integer that this number is, if it is whole.  Both zeros are the integer 0. -/
def toInt? (x : Binary64) : Option Int :=
  if x.magnitude % unitsPerOne = 0 then
    let whole := x.magnitude / unitsPerOne
    some (if x.negative then -(whole : Int) else whole)
  else none

end Binary64

end WebStory
