import WebStory.Yaml.Scan
import WebStory.Yaml.Link
import WebStory.Yaml.CoreScalar
/-
  From a node tree to a JSON value.

  Aliases are expanded.  Two limits keep that finite: collections are nested at most 128 deep,
  which also stops a node that holds itself, and aliases are followed at most a hundred times as
  often as the document has marks.  Keys are the text of any scalar; a repeated key takes the
  last value, in the place of the first.
-/

namespace WebStory.Yaml

open Json

/-- A document whose aliases are known. -/
structure Document where
  /-- Nothing where the text holds no document. -/
  root : Option (Node Nat)
  anchors : Anchors

/-- The only document of a text; `none` if the text is not one YAML document. -/
def Document.ofText? (text : String) : Option Document := do
  let tokens ← scan text
  match ← parseDocument tokens with
  | none => some ⟨none, .none⟩
  | some node => do
    let (node, anchors) ← link node .none
    some ⟨some node, anchors⟩

/-- How often aliases may be followed. -/
def Document.aliasLimit (d : Document) : Nat := 100 * ((d.root.map Node.marks).getD 0)

/-- Reading that follows aliases: the state is how often that may still be done. -/
abbrev Following := StateT Nat Option

/-- The node itself, or the one that an alias stands for. -/
def follow (a : Anchors) : Node Nat → Following (Node Nat)
  | .alias number => do
    match ← get with
    | 0 => failure
    | left + 1 =>
      set left
      liftM (a.node? number)
  | n => pure n

/-- The text of a key, which is a scalar of any kind. -/
def keyText (a : Anchors) (n : Node Nat) : Following String := do
  match ← follow a n with
  | .scalar _ _ text => pure (String.ofList text)
  | _ => failure

/-- A collection with a tag of the document's own has no value. -/
def checkTag (p : Properties) : Following Unit :=
  match p.tag with
  | some tag => if isLocalTag tag then failure else pure ()
  | none => pure ()

/-- The deepest nesting of collections. -/
def nestingLimit : Nat := 128

/-- The value of a node inside at most `depth` further collections. -/
def nodeValue (a : Anchors) : Nat → Node Nat → Following Value
  | depth, n => do
    match ← follow a n with
    | .scalar p style text => liftM (scalarValue? p style text)
    | .sequence p items =>
      checkTag p
      match depth with
      | 0 => failure
      | depth + 1 => return .array (← items.mapM (nodeValue a depth))
    | .mapping p entries =>
      checkTag p
      match depth with
      | 0 => failure
      | depth + 1 =>
        let members ← entries.mapM fun (k, v) => do
          let key ← keyText a k
          let value ← nodeValue a depth v
          return (key, value)
        return .object (Entries.ofList members)
    | .alias _ => failure

/-- The value of a document; nothing is null. -/
def Document.toValue? (d : Document) : Option Value :=
  match d.root with
  | none => some .null
  | some n => ((nodeValue d.anchors nestingLimit n).run d.aliasLimit).map (·.1)

/-- The value of a YAML text; `none` if it has none. -/
def parseValue? (text : String) : Option Value := (Document.ofText? text).bind Document.toValue?

end WebStory.Yaml
