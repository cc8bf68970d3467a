import WebStory.Entries
import WebStory.Number.Layout
/-
  JSON values.

  Two points decide the shape.  An object is an ordered list of members, because the order of
  its keys is visible everywhere in a compiled story.  And a number is either an integer of the
  machine range or a floating-point number: `12` and `12.0` are different values, which only
  the canonical form of a style brings together.
-/

namespace WebStory.Json

/-- The integers a number may be: signed or unsigned 64-bit. -/
def InRange (n : Int) : Prop := -0x8000000000000000 ≤ n ∧ n ≤ 0xffffffffffffffff

instance (n : Int) : Decidable (InRange n) := inferInstanceAs (Decidable (_ ∧ _))

/-- A number of a JSON text. -/
inductive Number where
  | int (value : Int) (inRange : InRange value)
  | float (value : Binary64)
deriving DecidableEq

namespace Number

/-- A natural number as a JSON number, a floating-point number where it exceeds the range. -/
def ofNat (n : Nat) : Number :=
  if h : InRange n then .int n h else .float ((Binary64.ofInt? n).getD default)

/-- The text of a number inside JSON. -/
def text : Number → String
  | .int n _ => intText n
  | .float x => x.text .jsonNumber

/-- The text of a number inside a style sheet or an attribute. -/
def cssText : Number → String
  | .int n _ => intText n
  | .float x => x.text .cssNumber

/-- The number as a floating-point number, rounded if it is a long integer. -/
def toBinary64 : Number → Binary64
  | .int n _ => (Binary64.ofInt? n).getD default
  | .float x => x

/-- Whole floating-point numbers of the integer range become integers, so that one value has one
    spelling. -/
def canonical : Number → Number
  | .int n h => .int n h
  | .float x =>
    match x.toInt? with
    | some n => if h : InRange n then .int n h else .float x
    | none => .float x

end Number

/-- A JSON value. -/
inductive Value where
  | null
  | bool (b : Bool)
  | number (n : Number)
  | string (s : String)
  | array (items : List Value)
  | object (members : List (String × Value))

instance : Inhabited Value := ⟨.null⟩

/-- Members of an object, in order. -/
abbrev Members := List (String × Value)

namespace Value

def isNull : Value → Bool
  | .null => true
  | _ => false

def asObject? : Value → Option Members
  | .object members => some members
  | _ => none

/-! ## One key once -/

mutual

/-- No object at any depth has a key twice.  Values read from a text are of this kind. -/
def KeysOnce : Value → Prop
  | .array items => ItemsOnce items
  | .object members => (Entries.names members).Nodup ∧ MembersOnce members
  | _ => True

def ItemsOnce : List Value → Prop
  | [] => True
  | v :: rest => KeysOnce v ∧ ItemsOnce rest

def MembersOnce : List (String × Value) → Prop
  | [] => True
  | (_, v) :: rest => KeysOnce v ∧ MembersOnce rest

end

end Value

/-- The value of a key that is present and not null. -/
def present? (members : Members) (key : String) : Option Value :=
  match Entries.get? members key with
  | none => none
  | some v => if v.isNull then none else some v

end WebStory.Json
