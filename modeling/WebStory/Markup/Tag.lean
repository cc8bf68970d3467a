import WebStory.Markup.Escape
import WebStory.Style.ClassTable
/-
  Elements of markup.

  A tag is built up by setters and then rendered.  Attributes given one by one come first, in
  the order given; width, height, source, class and grid area follow in this order.  An empty
  value is no value.  The styles of a tag become its generated class, which stands after an
  explicit one.
-/

namespace WebStory

/-- An attribute, with a value or without. -/
inductive Attribute where
  | text (name value : String)
  | flag (name : String)
deriving DecidableEq

/-- An element of markup that is being built. -/
structure Tag where
  name : String
  attributes : List Attribute
  width : Option String
  height : Option String
  source : Option String
  styles : Option StyleRecord
  explicitClass : Option String
  /-- The place in a layer of thirds. -/
  third : Option Nat

/-- A text that is not empty. -/
def nonempty? : Option String → Option String
  | some s => if s.isEmpty then none else some s
  | none => none

namespace Tag

/-- The tag without any attribute. -/
def ofName (name : String) : Tag := ⟨name, [], none, none, none, none, none, none⟩

/-! ## Setters -/

def attr (t : Tag) (name value : String) : Tag :=
  if value.isEmpty then t else { t with attributes := t.attributes ++ [.text name value] }

def optAttr (t : Tag) (name : String) : Option String → Tag
  | some value => t.attr name value
  | none => t

def flag (t : Tag) (name : String) (on : Bool) : Tag :=
  if on then { t with attributes := t.attributes ++ [.flag name] } else t

def withWidth (t : Tag) (width : Option String) : Tag := { t with width := nonempty? width }

def withHeight (t : Tag) (height : Option String) : Tag := { t with height := nonempty? height }

def withSource (t : Tag) (source : Option String) : Tag := { t with source := nonempty? source }

def withStyles (t : Tag) (styles : Option StyleRecord) : Tag := { t with styles }

def withClass (t : Tag) (name : Option String) : Tag := { t with explicitClass := nonempty? name }

def withThird (t : Tag) (third : Option Nat) : Tag := { t with third }

/-! ## Classes -/

/-- Tags that are not laid out as flex boxes unless they say so. -/
def flexExempt : List String :=
  ["h1", "h2", "h3", "h4", "h5", "h6", "p", "span", "amp-img", "amp-video", "source", "amp-story",
    "amp-story-page", "amp-story-grid-layer", "amp-analytics", "amp-story-auto-ads", "script"]

/-- The style record that gives a tag its class.  An exempt tag has one only if it is styled;
    any other tag is displayed as a flex box unless its own styles say otherwise. -/
def effectiveStyles (name : String) (styles : Option StyleRecord) : Option StyleRecord :=
  if flexExempt.contains name then styles.filter (!·.isEmpty)
  else some ((styles.getD .empty).withLeadingDefault "display" (.string "flex"))

/-- The generated class, where there are styles to generate one from. -/
def generatedClass (t : Tag) (path : Path) : Rendering (Option String) :=
  match effectiveStyles t.name t.styles with
  | some r => some <$> assignClass r path
  | none => pure none

/-- The explicit class, a space and the generated one, as far as they exist. -/
def joinClasses : Option String → Option String → Option String
  | some a, some b => some (a ++ " " ++ b)
  | a, b => a.or b

/-! ## Rendering -/

/-- Tags that have neither content nor a closing tag. -/
def voidNames : List String := ["source", "meta", "link", "br", "img"]

def isVoid (name : String) : Bool := voidNames.contains name

/-- The grid area of a place in a layer of thirds. -/
def gridArea? (third : Nat) : Option String := ["upper-third", "middle-third", "lower-third"][third]?

def attributeText (name value : String) : String := " " ++ name ++ "=\"" ++ escapeMarkup value ++ "\""

def Attribute.text : Attribute → String
  | .text name value => attributeText name value
  | .flag name => " " ++ name

/-- The attributes in the order in which they are written, given the class. -/
def allAttributes (t : Tag) (classes : Option String) : List Attribute :=
  let named (name : String) (value : Option String) : List Attribute :=
    (value.map (WebStory.Attribute.text name)).toList
  t.attributes ++ named "width" t.width ++ named "height" t.height ++ named "src" t.source ++
    named "class" classes ++ named "grid-area" (t.third.bind gridArea?)

/-- The open tag. -/
def openText (t : Tag) (classes : Option String) : String :=
  "<" ++ t.name ++ String.join ((t.allAttributes classes).map Attribute.text) ++ ">"

/-- The closing tag; a void tag has none. -/
def closeText (name : String) : String := "</" ++ name ++ ">"

/-- The element around its content.  The content is markup already; a void tag drops it. -/
def wrap (t : Tag) (classes : Option String) (content : String) : String :=
  t.openText classes ++ if isVoid t.name then "" else content ++ closeText t.name

/-- Renders a tag that stands at a path around its content. -/
def render (t : Tag) (path : Path) (content : String) : Rendering String := do
  let generated ← t.generatedClass path
  return t.wrap (joinClasses t.explicitClass generated) content

end Tag

end WebStory
