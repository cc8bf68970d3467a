import WebStory.Style.Convert
/-
  Classes for style records.

  The table has two parts.  The cache gives the class of every canonical key seen so far, and the
  rules say what the classes declare.  A record whose canonical key is in the cache takes the
  class found there and is not converted.  Any other record is converted; it gets the class
  numbered by the rules there are, `s-1`, `s-2` and so on, and adds one rule and one entry of the
  cache.  So records with one canonical key share a class, whose rule is that of the first of
  them.
-/

namespace WebStory

/-- The class of each canonical key, and the rules of the classes. -/
structure ClassTable where
  cache : List (String × String)
  rules : List Rule

/-- A record that asks for a class, and where it stands. -/
structure ClassRequest where
  record : StyleRecord
  path : Path

namespace ClassTable

def empty : ClassTable := ⟨[], []⟩

/-- The name of the class at an index. -/
def className (index : Nat) : String := "s-" ++ toString (index + 1)

def size (t : ClassTable) : Nat := t.rules.length

def isEmpty (t : ClassTable) : Bool := t.rules.isEmpty

/-- The class of a canonical key. -/
def classOf? (t : ClassTable) (key : String) : Option String := Entries.get? t.cache key

/-- Enters a new canonical key: its class is the next one, with these declarations. -/
def enter (t : ClassTable) (key : String) (declarations : Declarations) : String × ClassTable :=
  let name := className t.rules.length
  (name, ⟨Entries.set t.cache key name, t.rules ++ [Rule.ofClass name declarations]⟩)

/-- The class of a record that stands at a path, and the table after that.  Only a record whose
    canonical key is new is converted, and it is entered only after that succeeded. -/
def assign (t : ClassTable) (r : StyleRecord) (path : Path) : Except Error String × ClassTable :=
  match t.classOf? r.canonicalKey with
  | some name => (.ok name, t)
  | none =>
    match convertStyle r path with
    | .error e => (.error e, t)
    | .ok declarations =>
      let (name, next) := t.enter r.canonicalKey declarations
      (.ok name, next)

/-- Answers requests one after another, the failing ones included. -/
def assignAll : ClassTable → List ClassRequest → List (Except Error String) × ClassTable
  | t, [] => ([], t)
  | t, q :: rest =>
    let (answer, next) := t.assign q.record q.path
    let (answers, last) := assignAll next rest
    (answer :: answers, last)

end ClassTable

/-! ## Rendering with a table -/

/-- Something that is rendered while classes are assigned. -/
abbrev Rendering := StateT ClassTable (Except Error)

/-- The class of a record that stands at a path. -/
def assignClass (r : StyleRecord) (path : Path) : Rendering String := fun t =>
  match t.assign r path with
  | (.ok name, next) => .ok (name, next)
  | (.error e, _) => .error e

end WebStory
