import WebStory.Json.Value
import WebStory.Text.Quoted
/-
  Reading typed data out of JSON values.

  A record is read from an object, or from the list of its fields in declaration order.  Of
  several failing fields the one that stands first in the value is reported; a required field
  that is absent counts only when all fields that are there can be read.  `Fields` carries that
  order: a failure remembers its place, and `both` keeps the failure with the lesser place.
-/

namespace WebStory.Json

/-! ## Failures -/

/-- What was found instead of a value of the right kind. -/
inductive Found where
  | null
  | boolean (b : Bool)
  | number (n : Number)
  | string (s : String)
  | sequence
  | map

/-- What was called for. -/
inductive Wanted where
  | string
  | boolean
  | sequence
  | map
  | number
  | size
  | unit
  | nameOrMap
  | record (name : String)

/-- Why a value is not the typed datum it should be. -/
inductive DecodeError where
  | wrongKind (found : Found) (wanted : Wanted)
  | negativeSize (n : Int)
  | notSingleKey
  | missingField (field : String)
  /-- A record written as a list ends before a required field. -/
  | missingItem (index : Nat) (record : String) (size : Nat)
  /-- A record written as a list goes on after its last field. -/
  | extraItems (length : Nat)
  | unknownVariant (name : String) (variants : List String)
  | noVariant (type : String)

/-- What a value is, for an error message. -/
def Found.ofValue : Value → Found
  | .null => .null
  | .bool b => .boolean b
  | .number n => .number n
  | .string s => .string s
  | .array _ => .sequence
  | .object _ => .map

def Found.message : Found → String
  | .null => "null"
  | .boolean b => "boolean `" ++ toString b ++ "`"
  | .number (.int n h) => "integer `" ++ (Number.int n h).text ++ "`"
  | .number (.float x) => "floating point `" ++ x.text .jsonNumber ++ "`"
  | .string s => "string " ++ Text.quoted s
  | .sequence => "sequence"
  | .map => "map"

def Wanted.message : Wanted → String
  | .string => "a string"
  | .boolean => "a boolean"
  | .sequence => "a sequence"
  | .map => "a map"
  | .number => "f64"
  | .size => "usize"
  | .unit => "unit"
  | .nameOrMap => "string or map"
  | .record name => "struct " ++ name

def DecodeError.message : DecodeError → String
  | .wrongKind found wanted => "invalid type: " ++ found.message ++ ", expected " ++ wanted.message
  | .negativeSize n => "invalid value: integer `" ++ intText n ++ "`, expected usize"
  | .notSingleKey => "invalid value: map, expected map with a single key"
  | .missingField field => "missing field `" ++ field ++ "`"
  | .missingItem index record size =>
    "invalid length " ++ toString index ++ ", expected struct " ++ record ++ " with " ++
      toString size ++ " elements"
  | .extraItems length => "invalid length " ++ toString length ++ ", expected fewer elements in array"
  | .unknownVariant name variants =>
    "unknown variant `" ++ name ++ "`, expected one of " ++
      ", ".intercalate (variants.map fun v => "`" ++ v ++ "`")
  | .noVariant type => "data did not match any variant of untagged enum " ++ type

/-! ## Plain data -/

/-- The outcome of reading typed data. -/
abbrev Decoded (α : Type) := Except DecodeError α

def wrongKind {α : Type} (v : Value) (wanted : Wanted) : Decoded α :=
  .error (.wrongKind (.ofValue v) wanted)

def decodeString : Value → Decoded String
  | .string s => .ok s
  | v => wrongKind v .string

def decodeBool : Value → Decoded Bool
  | .bool b => .ok b
  | v => wrongKind v .boolean

/-- A number; an integer becomes the nearest floating-point number. -/
def decodeBinary64 : Value → Decoded Binary64
  | .number n => .ok n.toBinary64
  | v => wrongKind v .number

/-- A count.  A floating-point number is none, even a whole one. -/
def decodeSize : Value → Decoded UInt64
  | .number (.int n _) =>
    if n < 0 then .error (.negativeSize n) else .ok (UInt64.ofNat n.toNat)
  | v => wrongKind v .size

def decodeObject : Value → Decoded Members
  | .object members => .ok members
  | v => wrongKind v .map

/-- All items in order, up to the first failure. -/
def decodeItems {α : Type} (decode : Value → Decoded α) : List Value → Decoded (List α)
  | [] => .ok []
  | v :: rest => do
    let a ← decode v
    let as ← decodeItems decode rest
    .ok (a :: as)

def decodeList {α : Type} (decode : Value → Decoded α) : Value → Decoded (List α)
  | .array items => decodeItems decode items
  | v => wrongKind v .sequence

/-- Null is none. -/
def decodeOption {α : Type} (decode : Value → Decoded α) : Value → Decoded (Option α)
  | .null => .ok none
  | v => (decode v).map some

/-- The first of two readings that succeeds; the failure names the type only. -/
def decodeEither {α : Type} (type : String) (first second : Value → Decoded α) (v : Value) :
    Decoded α :=
  match first v with
  | .ok a => .ok a
  | .error _ =>
    match second v with
    | .ok a => .ok a
    | .error _ => .error (.noVariant type)

/-! ## Records -/

/-- The two ways to write a record: by field name, or as a list of its fields. -/
inductive RecordSource where
  | members (members : Members)
  | items (items : List Value)

/-- What is read from some fields of a record, or a failure and its place in the record. -/
inductive Fields (α : Type) where
  | read (a : α)
  | failed (place : Nat) (error : DecodeError)

/-- Reads a further field; of two failures the one with the lesser place stands. -/
def Fields.both {α β : Type} : Fields (α → β) → Fields α → Fields β
  | .read f, .read a => .read (f a)
  | .failed p e, .read _ => .failed p e
  | .read _, .failed p e => .failed p e
  | .failed p e, .failed p' e' => if p ≤ p' then .failed p e else .failed p' e'

/-- A field with the value found at a place. -/
def Fields.ofDecoded {α : Type} (place : Nat) : Decoded α → Fields α
  | .ok a => .read a
  | .error e => .failed place e

/-- The record, or the failure without its place. -/
def Fields.toDecoded {α : Type} : Fields α → Decoded α
  | .read a => .ok a
  | .failed _ e => .error e

/-- The name of a record and its number of fields. -/
structure RecordShape where
  name : String
  size : Nat

/-- The place of a name among the members. -/
def placeOf (members : Members) (name : String) : Nat :=
  (members.takeWhile fun e => e.1 != name).length

/-- One field, the `index`-th of the declaration.  Where it is absent it takes its default; a
    field without one is missing, after all that is there. -/
def readField {α : Type} (shape : RecordShape) (source : RecordSource) (index : Nat)
    (name : String) (fallback : Option α) (decode : Value → Decoded α) : Fields α :=
  match source with
  | .members members =>
    match Entries.get? members name with
    | some v => .ofDecoded (placeOf members name) (decode v)
    | none =>
      match fallback with
      | some a => .read a
      | none => .failed (members.length + index) (.missingField name)
  | .items items =>
    match items[index]? with
    | some v => .ofDecoded index (decode v)
    | none =>
      match fallback with
      | some a => .read a
      | none => .failed index (.missingItem index shape.name shape.size)

/-- A record, from an object or from a list with no more items than fields. -/
def decodeRecord {α : Type} (shape : RecordShape) (fields : RecordSource → Fields α) :
    Value → Decoded α
  | .object members => (fields (.members members)).toDecoded
  | .array items => do
    let a ← (fields (.items items)).toDecoded
    if shape.size < items.length then .error (.extraItems items.length) else .ok a
  | v => wrongKind v (.record shape.name)

/-! ## Encoding -/

/-- The member of an optional field, left out when absent. -/
def optionalMember {α : Type} (name : String) (encode : α → Value) : Option α → Members
  | none => []
  | some a => [(name, encode a)]

/-- A floating-point number as a value. -/
def encodeBinary64 (x : Binary64) : Value := .number (.float x)

/-- A count as a value. -/
def encodeSize (n : UInt64) : Value := .number (.ofNat n.toNat)

/-- An optional value, null when absent. -/
def encodeOption {α : Type} (encode : α → Value) : Option α → Value
  | none => .null
  | some a => encode a

end WebStory.Json
