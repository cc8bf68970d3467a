import WebStory.Number.Binary64
/-
  The shortest decimal that reads back.

  The reals that round to a number form an interval: from halfway to the neighbour below to
  halfway to the neighbour above, both ends included exactly when the significand is even.
  `shortest` looks for the coarsest decimal grid with a point in that interval.  On each grid
  only the two points next to the number itself need a test, since the interval contains the
  number: if any point of the grid lies inside, one of these two does.

  All comparisons are between naturals.  A decimal is compared in quarters of a unit of the
  smallest positive number, so that the ends of the interval are whole.
-/

namespace WebStory

/-- The decimal `digits * 10^exponent`. -/
structure Decimal where
  digits : Nat
  exponent : Int
deriving DecidableEq, Repr

/-- Which of two equally near decimals is taken. -/
inductive Tie where
  | toEven
  | upward
deriving DecidableEq, Repr

namespace Binary64

/-! ## The interval of reals that round to a number -/

/-- Half the gap below a power of two is a quarter of the gap above it. -/
def narrowBelow (x : Binary64) : Bool := x.significand == 1 <<< 52 && x.shift != 0

/-- The magnitude in quarter units. -/
def quarters (x : Binary64) : Nat := 4 * x.magnitude

/-- The lower end of the interval, in quarter units. -/
def lowerEnd (x : Binary64) : Nat :=
  (4 * x.significand - if x.narrowBelow then 1 else 2) <<< x.shift

/-- The upper end of the interval, in quarter units. -/
def upperEnd (x : Binary64) : Nat := (4 * x.significand + 2) <<< x.shift

/-- Compares `digits * 10^exponent` with a number of quarter units. -/
def compareQuarters (digits : Nat) (exponent : Int) (quarters : Nat) : Ordering :=
  compare (4 * unitsPerOne * (Nat.pow 10 exponent.toNat * digits))
    (Nat.pow 10 (-exponent).toNat * quarters)

/-- The decimal lies in the interval of the number's magnitude. -/
def readsBack (x : Binary64) (d : Decimal) : Bool :=
  let atLower := compareQuarters d.digits d.exponent x.lowerEnd
  let atUpper := compareQuarters d.digits d.exponent x.upperEnd
  let even := x.significand % 2 == 0
  (atLower == .gt || (even && atLower == .eq)) && (atUpper == .lt || (even && atUpper == .eq))

/-! ## The search -/

/-- The magnitude divided by `10^exponent`, rounded down. -/
def floorOnGrid (x : Binary64) (exponent : Int) : Nat :=
  Nat.pow 10 (-exponent).toNat * x.quarters / (4 * unitsPerOne * Nat.pow 10 exponent.toNat)

/-- The nearer of the points `below` and `below + 1` of the grid `10^exponent`. -/
def nearerOnGrid (x : Binary64) (tie : Tie) (below : Nat) (exponent : Int) : Nat :=
  match compareQuarters (2 * below + 1) exponent (2 * x.quarters) with
  | .gt => below
  | .lt => below + 1
  | .eq =>
    match tie with
    | .upward => below + 1
    | .toEven => below + below % 2

/-- The best point of the grid `10^exponent` that reads back, if there is one. -/
def onGrid? (x : Binary64) (tie : Tie) (exponent : Int) : Option Decimal :=
  let below := x.floorOnGrid exponent
  match x.readsBack ⟨below, exponent⟩, x.readsBack ⟨below + 1, exponent⟩ with
  | true, true => some ⟨x.nearerOnGrid tie below exponent, exponent⟩
  | true, false => some ⟨below, exponent⟩
  | false, true => some ⟨below + 1, exponent⟩
  | false, false => none

/-- The number of decimal digits before the point: the least `k` with magnitude below `10^k`,
    found upwards from `k`.  It is right as soon as `k` starts at or below the answer and `fuel`
    reaches it. -/
def orderFrom (x : Binary64) : Nat → Int → Int
  | 0, k => k
  | fuel + 1, k => if compareQuarters 1 k x.quarters == .gt then k else x.orderFrom fuel (k + 1)

/-- The decimal order of magnitude, from the binary one: `log2 * 30103 / 100000` is at most one
    below it for every magnitude that occurs. -/
def order (x : Binary64) : Int :=
  let binary : Int := (x.magnitude.log2 : Int) - 1074
  x.orderFrom 4 (Int.fdiv (binary * 30103) 100000 - 1)

/-- The exact decimal value, the answer where no grid has a point in the interval. -/
def exactDecimal (x : Binary64) : Decimal := ⟨Nat.pow 5 1074 * x.magnitude, -1074⟩

/-- Moves trailing zeros of the digits into the exponent. -/
def stripZeros : Nat → Decimal → Decimal
  | 0, d => d
  | fuel + 1, d =>
    if d.digits ≠ 0 ∧ d.digits % 10 = 0 then stripZeros fuel ⟨d.digits / 10, d.exponent + 1⟩ else d

/-- The shortest decimal in the interval of the magnitude, without trailing zeros; of several as
    short the nearest. -/
def shortest (x : Binary64) (tie : Tie) : Decimal :=
  if x.isZero then ⟨0, 0⟩
  else
    let order := x.order
    let found := (List.range 17).findSome? fun (n : Nat) => x.onGrid? tie (order - (n + 1))
    stripZeros 800 (found.getD x.exactDecimal)

end Binary64

end WebStory
