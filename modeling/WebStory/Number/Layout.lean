import WebStory.Number.Shortest
/-
  How a decimal is laid out as text.

  Which digits are written is settled by `Binary64.shortest`.  What remains is where positional
  notation ends, whether a whole number keeps a `.0`, and how the exponent looks.  These choices
  are one record, `Layout`, with two values: `jsonNumber` for numbers inside JSON text and
  `cssNumber` for numbers inside style sheets and attributes.
-/

namespace WebStory

/-- The choices of a number format. -/
structure Layout where
  /-- The least and the greatest exponent of the leading digit written positionally; `none` means
      that no number has an exponent. -/
  positional : Option (Int × Int)
  /-- A whole number is written with `.0`. -/
  pointZero : Bool
  tie : Tie

/-- Decimal digits of a natural number. -/
def natDigits (n : Nat) : List Char := Nat.toDigits 10 n

/-- An integer in decimal, with `-` in front of a negative one. -/
def intText (n : Int) : String :=
  let digits := String.ofList (natDigits n.natAbs)
  if n < 0 then "-" ++ digits else digits

namespace Decimal

/-- Positional notation: the point after, inside or before the digits. -/
def positionalText (d : Decimal) (pointZero : Bool) : String :=
  let digits := natDigits d.digits
  let before : Int := digits.length + d.exponent
  if 0 ≤ d.exponent then
    String.ofList (digits ++ List.replicate d.exponent.toNat '0') ++ (if pointZero then ".0" else "")
  else if 0 < before then
    String.ofList (digits.take before.toNat) ++ "." ++ String.ofList (digits.drop before.toNat)
  else
    "0." ++ String.ofList (List.replicate (-before).toNat '0' ++ digits)

/-- Scientific notation: one digit before the point, an explicit sign in the exponent. -/
def scientificText (d : Decimal) : String :=
  let digits := natDigits d.digits
  let exponent : Int := d.exponent + digits.length - 1
  let mantissa := match digits with
    | [] => "0"
    | [c] => String.ofList [c]
    | c :: rest => String.ofList (c :: '.' :: rest)
  mantissa ++ "e" ++ (if exponent < 0 then "-" else "+") ++ String.ofList (natDigits exponent.natAbs)

/-- The exponent of the leading digit. -/
def leadingExponent (d : Decimal) : Int := d.exponent + (natDigits d.digits).length - 1

/-- The text of a decimal in a given format. -/
def text (d : Decimal) (layout : Layout) : String :=
  match layout.positional with
  | none => d.positionalText layout.pointZero
  | some (least, greatest) =>
    if least ≤ d.leadingExponent ∧ d.leadingExponent ≤ greatest then
      d.positionalText layout.pointZero
    else d.scientificText

end Decimal

/-- The text of a number: its sign, negative zero included, and its shortest decimal. -/
def Binary64.text (x : Binary64) (layout : Layout) : String :=
  (if x.negative then "-" else "") ++ (x.shortest layout.tie).text layout

/-- Numbers in JSON text: positional from 10^-5 to 10^15, a whole number keeps its `.0`. -/
def Layout.jsonNumber : Layout := ⟨some (-5, 15), true, .toEven⟩

/-- Numbers in style sheets and attributes: never an exponent, nothing after a whole number. -/
def Layout.cssNumber : Layout := ⟨none, false, .upward⟩

end WebStory
