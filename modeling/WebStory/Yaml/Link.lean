import WebStory.Yaml.Node
/-
  Which nodes aliases stand for.

  Anchors are numbered as they are met: an anchor takes the number of different names met before
  it.  An alias refers to the number that its name has where the alias stands; that number then
  stands for the last node that took it.
-/

namespace WebStory.Yaml

/-- A node that took a number, and how many nodes with anchors come before it. -/
structure Anchored where
  number : Nat
  order : Nat
  node : Node Nat

/-- What is known of the anchors so far. -/
structure Anchors where
  /-- The number of each name, latest first. -/
  names : List (List Char × Nat)
  /-- How many nodes with an anchor were met. -/
  met : Nat
  nodes : List Anchored

namespace Anchors

def none : Anchors := ⟨[], 0, []⟩

/-- Numbers the anchor of a node, if it has one. -/
def meet (a : Anchors) (p : Properties) : Option (Nat × Nat) × Anchors :=
  match p.anchor with
  | some name =>
    let number := a.names.length
    (some (number, a.met),
      { a with names := (name, number) :: a.names.filter (·.1 != name), met := a.met + 1 })
  | Option.none => (Option.none, a)

/-- Notes the node that took a number. -/
def note (a : Anchors) (number : Option (Nat × Nat)) (n : Node Nat) : Anchors :=
  match number with
  | some (number, order) => { a with nodes := ⟨number, order, n⟩ :: a.nodes }
  | Option.none => a

/-- The last node that took a number. -/
def node? (a : Anchors) (number : Nat) : Option (Node Nat) :=
  let candidates := a.nodes.filter (·.number == number)
  let last := candidates.foldl (fun n c => max n c.order) 0
  (candidates.find? (·.order == last)).map (·.node)

end Anchors

mutual

/-- Replaces the names of aliases by numbers; every name must have been met. -/
def link : Node (List Char) → Anchors → Option (Node Nat × Anchors)
  | .scalar p style text, a =>
    let (number, a) := a.meet p
    let n : Node Nat := .scalar p style text
    some (n, a.note number n)
  | .sequence p items, a => do
    let (number, a) := a.meet p
    let (items, a) ← linkItems items a
    let n : Node Nat := .sequence p items
    some (n, a.note number n)
  | .mapping p entries, a => do
    let (number, a) := a.meet p
    let (entries, a) ← linkEntries entries a
    let n : Node Nat := .mapping p entries
    some (n, a.note number n)
  | .alias name, a => (a.names.find? (·.1 == name)).map fun e => (.alias e.2, a)

def linkItems : List (Node (List Char)) → Anchors → Option (List (Node Nat) × Anchors)
  | [], a => some ([], a)
  | n :: rest, a => do
    let (n, a) ← link n a
    let (rest, a) ← linkItems rest a
    some (n :: rest, a)

def linkEntries : List (Node (List Char) × Node (List Char)) → Anchors →
    Option (List (Node Nat × Node Nat) × Anchors)
  | [], a => some ([], a)
  | (k, v) :: rest, a => do
    let (k, a) ← link k a
    let (v, a) ← link v a
    let (rest, a) ← linkEntries rest a
    some ((k, v) :: rest, a)

end

end WebStory.Yaml
