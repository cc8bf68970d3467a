import WebStory.Yaml.Parse
import WebStory.Json.Value
/-
  What a scalar stands for.

  An untagged plain scalar is null, a boolean, an integer, a floating-point number or else a
  string, in this order.  A scalar with a tag of one of these types must be of that type; any
  other scalar is a string.  Infinite numbers and not-a-number have no JSON value and become
  null.  An integer beyond 64 bits is refused as long as it fits in 128 bits, and is a
  floating-point number beyond that.
-/

namespace WebStory.Yaml

open Json

/-! ## Null and booleans -/

def isNullText (s : String) : Bool := s == "null" || s == "Null" || s == "NULL" || s == "~"

def boolOfText? (s : String) : Option Bool :=
  if s == "true" || s == "True" || s == "TRUE" then some true
  else if s == "false" || s == "False" || s == "FALSE" then some false
  else none

/-! ## Integers -/

/-- The value of a digit in bases up to sixteen. -/
def digitOf? (base : Nat) (c : Char) : Option Nat :=
  (hexValue? c).bind fun d => if d < base then some d else none

/-- A natural number in a base, without a sign; it has a digit. -/
def natOfText? (base : Nat) (cs : List Char) : Option Nat :=
  if cs.isEmpty then none
  else cs.foldl (fun n c => n.bind fun n => (digitOf? base c).map (n * base + ·)) (some 0)

/-- A number in a base other than ten, by what it begins with. -/
def basedText? : List Char → Option (Nat × List Char)
  | '0' :: 'x' :: rest => some (16, rest)
  | '0' :: 'o' :: rest => some (8, rest)
  | '0' :: 'b' :: rest => some (2, rest)
  | _ => none

/-- Digits that begin with a zero and go on are no number. -/
def isPaddedDigits (cs : List Char) : Bool :=
  let digits := match cs with
    | '-' :: rest => rest
    | '+' :: rest => rest
    | _ => cs
  match digits with
  | '0' :: c :: rest => (c :: rest).all isDigit
  | _ => false

/-- A natural number in its base, which is ten unless the text says otherwise. -/
def magnitudeOfText? (cs : List Char) : Option Nat :=
  match basedText? cs with
  | some (base, rest) => natOfText? base rest
  | none => if isPaddedDigits cs then none else natOfText? 10 cs

/-- An integer, with or without a sign. -/
def intOfText? : List Char → Option Int
  | '+' :: rest => (magnitudeOfText? rest).map Int.ofNat
  | '-' :: rest => (magnitudeOfText? rest).map fun n => -(n : Int)
  | cs => (magnitudeOfText? cs).map Int.ofNat

/-- The integers that fit in 128 bits, signed or unsigned. -/
def fitsDoubleWord (n : Int) : Bool :=
  -0x80000000000000000000000000000000 ≤ n && n ≤ 0xffffffffffffffffffffffffffffffff

/-! ## Floating-point numbers -/

/-- The value of digits, read from the left. -/
def digitsValue (cs : List Char) : Nat := cs.foldl (fun n c => n * 10 + (c.toNat - '0'.toNat)) 0

/-- The exponent after a number, which must end the text. -/
def exponentOfText? : List Char → Option Int
  | [] => some 0
  | e :: rest =>
    if e = 'e' ∨ e = 'E' then
      let (negative, digits) := match rest with
        | '-' :: rest => (true, rest)
        | '+' :: rest => (false, rest)
        | _ => (false, rest)
      if digits.isEmpty || !digits.all isDigit then none
      else some (if negative then -(digitsValue digits : Int) else digitsValue digits)
    else none

/-- The nearest finite floating-point number of an unsigned decimal. -/
def decimalOfText? (negative : Bool) (cs : List Char) : Option Binary64 :=
  let whole := cs.takeWhile isDigit
  let rest := cs.dropWhile isDigit
  let (fraction, rest) := match rest with
    | '.' :: rest => (rest.takeWhile isDigit, rest.dropWhile isDigit)
    | _ => ([], rest)
  if whole.isEmpty && fraction.isEmpty then none
  else (exponentOfText? rest).bind fun exponent =>
    Binary64.ofDecimal? negative (digitsValue (whole ++ fraction)) (exponent - fraction.length)

/-- A floating-point number as a value. -/
def floatOfText? (s : String) : Option Value :=
  let infinite (s : String) : Bool := s == ".inf" || s == ".Inf" || s == ".INF"
  let finite (negative : Bool) (cs : List Char) :=
    (decimalOfText? negative cs).map fun x => Value.number (.float x)
  if infinite s || s == ".nan" || s == ".NaN" || s == ".NAN" then some .null
  else
    match s.toList with
    | '+' :: rest => if infinite (String.ofList rest) then some .null else finite false rest
    | '-' :: rest => if infinite (String.ofList rest) then some .null else finite true rest
    | cs => finite false cs

/-! ## Scalars -/

/-- An integer as a value; `none` if the text is no integer of at most 128 bits, and a refusal if
    it is one of more than 64. -/
def intValue? (s : String) : Option (Option Value) :=
  match intOfText? s.toList with
  | some n =>
    if h : InRange n then some (some (.number (.int n h)))
    else if fitsDoubleWord n then some none
    else none
  | none => none

/-- The value of an untagged plain scalar. -/
def plainValue? (s : String) : Option Value :=
  if s.isEmpty || isNullText s then some .null
  else
    match boolOfText? s, intValue? s with
    | some b, _ => some (.bool b)
    | none, some v => v
    | none, none =>
      if isPaddedDigits s.toList then some (.string s)
      else some ((floatOfText? s).getD (.string s))

/-- The octets are text in UTF-8. -/
def isText (octets : Octets) : Bool :=
  (octets.map UInt8.ofNat).toByteArray.validateUTF8

/-- A tag of the document's own, which has no JSON value. -/
def isLocalTag (tag : Octets) : Bool := tag.head? == some '!'.toNat && isText (tag.drop 1)

/-- The tag of a core type. -/
def coreTag (name : String) : Octets := coreTagStart ++ octetsOf name.toList

/-- The value of a scalar. -/
def scalarValue? (p : Properties) (style : ScalarStyle) (text : List Char) : Option Value :=
  let s := String.ofList text
  match p.tag with
  | none => if style = .plain then plainValue? s else some (.string s)
  | some tag =>
    if isLocalTag tag then none
    else if tag = coreTag "bool" then (boolOfText? s).map .bool
    else if tag = coreTag "int" then (intValue? s).join
    else if tag = coreTag "float" then floatOfText? s
    else if tag = coreTag "null" then if isNullText s then some .null else none
    else if tag.head? = some '!'.toNat ∧ style = .plain then plainValue? s
    else some (.string s)

end WebStory.Yaml
