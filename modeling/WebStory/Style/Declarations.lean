import WebStory.Entries
/-
  Style sheet declarations and rules.
-/

namespace WebStory

/-- Ordered declarations.  Setting a property that is there replaces its value in place. -/
structure Declarations where
  pairs : List (String × String)
deriving DecidableEq

namespace Declarations

def empty : Declarations := ⟨[]⟩

def set (d : Declarations) (property value : String) : Declarations :=
  ⟨Entries.set d.pairs property value⟩

def get? (d : Declarations) (property : String) : Option String := Entries.get? d.pairs property

def size (d : Declarations) : Nat := d.pairs.length

def isEmpty (d : Declarations) : Bool := d.pairs.isEmpty

/-- The properties, in order. -/
def properties (d : Declarations) : List String := Entries.names d.pairs

/-- Declarations with semicolons between them. -/
def text (d : Declarations) : String :=
  ";".intercalate (d.pairs.map fun (property, value) => property ++ ":" ++ value)

theorem get?_set_self (d : Declarations) (property value : String) :
    (d.set property value).get? property = some value :=
  Entries.get?_set_self _ _ _

theorem get?_set_ne (d : Declarations) {property other : String} (value : String)
    (h : other ≠ property) : (d.set property value).get? other = d.get? other :=
  Entries.get?_set_ne _ _ h

end Declarations

/-- A selector and what it declares. -/
structure Rule where
  selector : String
  declarations : Declarations
deriving DecidableEq

/-- The rule of a class. -/
def Rule.ofClass (name : String) (declarations : Declarations) : Rule := ⟨"." ++ name, declarations⟩

def Rule.text (r : Rule) : String := r.selector ++ "\x7b" ++ r.declarations.text ++ "\x7d"

/-- Rules one after another. -/
def sheetText (rules : List Rule) : String := String.join (rules.map Rule.text)

/-! ## Property names -/

/-- One character of a style key: a capital letter becomes a hyphen and its small letter. -/
def dasherizeChar (c : Char) : List Char := if c.isUpper then ['-', c.toLower] else [c]

/-- The property that a style key names. -/
def dasherize (key : String) : String := String.ofList (key.toList.flatMap dasherizeChar)

example : dasherize "borderTopLeftRadius" = "border-top-left-radius" := by decide

end WebStory
