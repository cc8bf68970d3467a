import WebStory.Yaml.Token
/-
  The node tree of a YAML document.

  A node is a scalar, a sequence, a mapping, or an alias that stands for another node.  What an
  alias refers to is a parameter: a name while the document is read, a number once it is known
  which node the name belongs to.
-/

namespace WebStory.Yaml

/-- What may be said of a node: its anchor and its tag. -/
structure Properties where
  anchor : Option (List Char)
  tag : Option Octets
deriving DecidableEq, Repr

def Properties.none : Properties := ⟨Option.none, Option.none⟩

/-- A node whose aliases refer by `ρ`. -/
inductive Node (ρ : Type) where
  | scalar (properties : Properties) (style : ScalarStyle) (text : List Char)
  | sequence (properties : Properties) (items : List (Node ρ))
  | mapping (properties : Properties) (entries : List (Node ρ × Node ρ))
  | alias (target : ρ)

instance {ρ : Type} : Inhabited (Node ρ) := ⟨.scalar .none .plain []⟩

/-- The node that stands where nothing is written. -/
def Node.empty {ρ : Type} (properties : Properties) : Node ρ := .scalar properties .plain []

mutual

/-- How many marks a node has: one for a scalar or an alias, two around a collection. -/
def Node.marks {ρ : Type} : Node ρ → Nat
  | .scalar _ _ _ => 1
  | .alias _ => 1
  | .sequence _ items => 2 + itemMarks items
  | .mapping _ entries => 2 + entryMarks entries

def itemMarks {ρ : Type} : List (Node ρ) → Nat
  | [] => 0
  | n :: rest => n.marks + itemMarks rest

def entryMarks {ρ : Type} : List (Node ρ × Node ρ) → Nat
  | [] => 0
  | (k, v) :: rest => k.marks + v.marks + entryMarks rest

end

end WebStory.Yaml
