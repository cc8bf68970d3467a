import WebStory.Json.Printer
/-
  The canonical form of a value.

  Keys are sorted by code point at every depth and whole floating-point numbers become integers;
  the order of a list stays, as it carries meaning.  Two values that differ only in the order
  of keys or in the spelling of a number have one canonical form.
-/

namespace WebStory.Json

/-- Members sorted by key, in code point order. -/
def sortMembers (members : Members) : Members :=
  members.mergeSort fun a b => decide (a.1 ≤ b.1)

mutual

def Value.canonical : Value → Value
  | .null => .null
  | .bool b => .bool b
  | .number n => .number n.canonical
  | .string s => .string s
  | .array items => .array (canonicalItems items)
  | .object members => .object (sortMembers (canonicalMembers members))

def canonicalItems : List Value → List Value
  | [] => []
  | v :: rest => v.canonical :: canonicalItems rest

def canonicalMembers : List (String × Value) → List (String × Value)
  | [] => []
  | (k, v) :: rest => (k, v.canonical) :: canonicalMembers rest

end

end WebStory.Json
