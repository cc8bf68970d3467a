import WebStory.Json.Value
/-
  Places inside a story.

  A path is an origin and the steps taken from it.  Errors carry paths as data; their text, such
  as `pages[0].layers[1].element`, is made only when an error is shown.  Since a path is data, it
  can also be followed: `Path.follow` looks up the value a path leads to.
-/

namespace WebStory

/-- One step into a value. -/
inductive Step where
  | key (name : String)
  | item (index : Nat)
deriving DecidableEq, Repr

/-- What a path starts from. -/
inductive Origin where
  /-- The whole story. -/
  | story
  /-- A value that stands by itself, with the name its user gave it. -/
  | named (label : String)
deriving DecidableEq, Repr

/-- A place: where to start, and the steps in order. -/
structure Path where
  origin : Origin
  steps : List Step
deriving DecidableEq, Repr

namespace Path

/-- The story itself. -/
def story : Path := ⟨.story, []⟩

/-- The value with this label. -/
def named (label : String) : Path := ⟨.named label, []⟩

def key (path : Path) (name : String) : Path := { path with steps := path.steps ++ [.key name] }

def item (path : Path) (index : Nat) : Path := { path with steps := path.steps ++ [.item index] }

/-- An item of a list that is a member. -/
def keyItem (path : Path) (name : String) (index : Nat) : Path := (path.key name).item index

/-- The text of further steps: a point before a key, brackets around an index. -/
def stepsText : List Step → String
  | [] => ""
  | .key name :: rest => "." ++ name ++ stepsText rest
  | .item index :: rest => "[" ++ toString index ++ "]" ++ stepsText rest

/-- The text of a path.  A story is named only where there is no step. -/
def text (path : Path) : String :=
  match path.origin, path.steps with
  | .named label, steps => label ++ stepsText steps
  | .story, [] => "story"
  | .story, .key name :: rest => name ++ stepsText rest
  | .story, steps => stepsText steps

/-- Looks up the value that steps lead to. -/
def follow : List Step → Json.Value → Option Json.Value
  | [], v => some v
  | .key name :: rest, .object members => (Entries.get? members name).bind (follow rest)
  | .item index :: rest, .array items => (items[index]?).bind (follow rest)
  | _, _ => none

theorem follow_append (a b : List Step) (v : Json.Value) :
    follow (a ++ b) v = (follow a v).bind (follow b) := by
  induction a generalizing v with
  | nil => rfl
  | cons s rest ih =>
    cases s with
    | key name =>
      cases v <;> simp only [List.cons_append, follow, Option.bind_none]
      next members => cases Entries.get? members name <;> simp [ih]
    | item index =>
      cases v <;> simp only [List.cons_append, follow, Option.bind_none]
      next items => cases items[index]? <;> simp [ih]

example : (story.keyItem "pages" 0 |>.keyItem "layers" 1 |>.key "element").text =
    "pages[0].layers[1].element" := by decide

end Path

end WebStory
