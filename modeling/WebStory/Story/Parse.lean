import WebStory.Story.Codec
import WebStory.Error
/-
  From a JSON value to a story.

  Null counts as absent everywhere in the schema.  Each function knows the path of the value it
  reads, and every error carries the path of the value it is about.  Fields are read in a fixed
  order, so that of several errors the same one is always reported.
-/

namespace WebStory

open Json

/-- The outcome of reading a part of a story. -/
abbrev Parsed (α : Type) := Except Error α

/-! ## Properties of an object -/

def parseObject (what : String) (path : Path) : Value → Parsed Members
  | .object members => .ok members
  | _ => .error (.invalidProperty what path .notObject)

def optionalString (members : Members) (key : String) (path : Path) : Parsed (Option String) :=
  match present? members key with
  | none => .ok none
  | some (.string s) => .ok (some s)
  | some _ => .error (.invalidProperty key path .notString)

def requiredString (members : Members) (key : String) (path : Path) : Parsed String := do
  match ← optionalString members key path with
  | some s => .ok s
  | none => .error (.missingProperty key path)

/-- A width or a height: a number or a text. -/
def optionalDimension (members : Members) (key : String) (path : Path) : Parsed (Option String) :=
  match present? members key with
  | none => .ok none
  | some (.string s) => .ok (some s)
  | some (.number n) => .ok (some n.cssText)
  | some _ => .error (.invalidProperty key path .notDimension)

/-- A typed property. -/
def optionalTyped {α : Type} (decode : Value → Decoded α) (members : Members) (key : String)
    (path : Path) : Parsed (Option α) :=
  match present? members key with
  | none => .ok none
  | some v =>
    match decode v with
    | .ok a => .ok (some a)
    | .error e => .error (.invalidProperty key path (.undecodable e))

def parseStyle (path : Path) : Value → Parsed StyleRecord
  | .object members => .ok ⟨members⟩
  | _ => .error (.invalidProperty "styles" path .notObject)

def optionalStyle (members : Members) (path : Path) : Parsed (Option StyleRecord) :=
  match present? members "styles" with
  | none => .ok none
  | some v => (parseStyle path v).map some

/-! ## Elements -/

/-- The index of the first range without a character. -/
def emptyRange? (styles : List InlineStyle) : Option Nat := styles.findIdx? (·.length == 0)

def parseText (kind : TextKind) (members : Members) (path : Path) : Parsed TextElement := do
  let inlineStyles := (← optionalTyped (decodeList InlineStyle.decode) members "inlineStyles" path).getD []
  match emptyRange? inlineStyles with
  | some i =>
    .error (.invalidProperty ("inlineStyles[" ++ toString i ++ "].length") path .notPositive)
  | none =>
    let id ← optionalString members "id" path
    let text ← requiredString members "text" path
    let styles ← optionalStyle members path
    .ok ⟨kind, id, text, inlineStyles, styles⟩

def parseImage (members : Members) (path : Path) : Parsed ImageElement := do
  let id ← optionalString members "id" path
  let source ← requiredString members "source" path
  let alt ← optionalString members "alt" path
  let width ← optionalDimension members "width" path
  let height ← optionalDimension members "height" path
  let layout ← optionalTyped MediaLayout.decode members "layout" path
  let styles ← optionalStyle members path
  .ok ⟨id, source, alt, width, height, layout, styles⟩

def parseVideo (members : Members) (path : Path) : Parsed VideoElement := do
  match ← optionalTyped (decodeList VideoSource.decode) members "sources" path with
  | none => .error (.missingProperty "sources" path)
  | some [] => .error (.invalidProperty "sources" path .noSource)
  | some sources =>
    let id ← optionalString members "id" path
    let width ← optionalDimension members "width" path
    let height ← optionalDimension members "height" path
    let layout ← optionalTyped MediaLayout.decode members "layout" path
    let poster ← optionalString members "poster" path
    let looping ← optionalTyped decodeBool members "loop" path
    let autoplay ← optionalTyped decodeBool members "autoplay" path
    let styles ← optionalStyle members path
    .ok ⟨id, sources, width, height, layout, poster, looping.getD false, autoplay.getD false, styles⟩

/-- What an element's type name stands for. -/
inductive ElementType where
  | container
  | image
  | video
  | text (kind : TextKind)
deriving DecidableEq, Repr

def ElementType.ofName? (name : String) : Option ElementType :=
  if name = "container" then some .container
  else if name = "image" then some .image
  else if name = "video" then some .video
  else (TextKind.ofName? name).map .text

/-- The head of an element: its members and what its `type` stands for. -/
def parseElementHead (path : Path) (v : Value) : Parsed (Members × ElementType) := do
  let members ← parseObject "element" path v
  let name ← requiredString members "type" path
  match ElementType.ofName? name with
  | some type => .ok (members, type)
  | none => .error (.unknownElementType name path)

/-- A container's own properties: its id and its styles. -/
def parseContainerHead (members : Members) (path : Path) :
    Parsed (Option String × Option StyleRecord) := do
  let id ← optionalString members "id" path
  let styles ← optionalStyle members path
  .ok (id, styles)

mutual

/-- One element, with all elements inside it. -/
def parseElement (path : Path) : Value → Parsed Element
  | .object members => do
    match ← parseElementHead path (.object members) with
    | (_, .container) =>
      let (id, styles) ← parseContainerHead members path
      let elements ← parseMember path "elements" members
      .ok (.container id styles elements)
    | (_, .image) => (parseImage members path).map .image
    | (_, .video) => (parseVideo members path).map .video
    | (_, .text kind) => (parseText kind members path).map .text
  | _ => .error (.invalidProperty "element" path .notObject)

/-- The elements under a key, the first entry with that key counting. -/
def parseMember (path : Path) (key : String) : List (String × Value) → Parsed (List Element)
  | [] => .ok []
  | (k, v) :: rest =>
    if k = key then
      match v with
      | .null => .ok []
      | .array items => parseItems path key 0 items
      | _ => .error (.invalidProperty key path .notArray)
    else parseMember path key rest

/-- The items of the list under a key, the first of them the `index`-th. -/
def parseItems (path : Path) (key : String) (index : Nat) : List Value → Parsed (List Element)
  | [] => .ok []
  | v :: rest => do
    let element ← parseElement (path.keyItem key index) v
    let elements ← parseItems path key (index + 1) rest
    .ok (element :: elements)

end

/-! ## Layers and pages -/

/-- Applies a reader to the items of a list, which know their index, up to the first failure. -/
def parseIndexed {α : Type} (parse : Nat → Value → Parsed α) : Nat → List Value → Parsed (List α)
  | _, [] => .ok []
  | index, v :: rest => do
    let a ← parse index v
    let as ← parseIndexed parse (index + 1) rest
    .ok (a :: as)

/-- A list of parts under a key. -/
def parseParts {α : Type} (parse : Nat → Value → Parsed α) (members : Members) (key : String)
    (path : Path) : Parsed (List α) :=
  match present? members key with
  | none => .ok []
  | some (.array items) => parseIndexed parse 0 items
  | some _ => .error (.invalidProperty key path .notArray)

def hasKey (members : Members) (key : String) : Bool := (Entries.get? members key).isSome

/-- A layer without a template but with a type is an element: it stands for a layer that the
    element fills. -/
def isBareElement (members : Members) : Bool := !hasKey members "template" && hasKey members "type"

def parseTemplate (members : Members) (path : Path) : Parsed LayerTemplate := do
  let name ← requiredString members "template" path
  match LayerTemplate.ofName? name with
  | some template => .ok template
  | none => .error (.unknownLayerTemplate name path)

/-- The elements of a layer: one for a filled layer, a list for the others. -/
def parseLayerElements (template : LayerTemplate) (members : Members) (path : Path) :
    Parsed (List Element) :=
  match template with
  | .fill =>
    match present? members "element" with
    | none => .error (.missingProperty "element" path)
    | some v => (parseElement (path.key "element") v).map ([·])
  | _ => parseMember path "elements" members

def parseLayer (path : Path) (v : Value) : Parsed Layer := do
  let members ← parseObject "layer" path v
  if isBareElement members then
    let element ← parseElement path v
    .ok ⟨.fill, none, [element]⟩
  else
    let template ← parseTemplate members path
    let elements ← parseLayerElements template members path
    let styles ← optionalStyle members path
    .ok ⟨template, styles, elements⟩

/-- The id of a page without one. -/
def defaultPageId (index : Nat) : String := "page-" ++ toString index

def parsePage (path : Path) (index : Nat) (v : Value) : Parsed Page := do
  let members ← parseObject "page" path v
  let layers ← parseParts (fun i => parseLayer (path.keyItem "layers" i)) members "layers" path
  let id ← optionalString members "id" path
  let autoAdvanceAfter ← optionalTyped AutoAdvance.decode members "autoAdvanceAfter" path
  .ok ⟨id.getD (defaultPageId index), autoAdvanceAfter, layers⟩

/-! ## The story -/

/-- The path of a default style. -/
def defaultStylePath (name : String) : Path := (Path.story.key "defaultStyles").key name

def parseDefaultStyles : Members → Parsed (List (String × StyleRecord))
  | [] => .ok []
  | (name, v) :: rest => do
    let style ← parseStyle (defaultStylePath name) v
    let styles ← parseDefaultStyles rest
    .ok ((name, style) :: styles)

def parseStyleTable (members : Members) : Parsed (List (String × StyleRecord)) :=
  match present? members "defaultStyles" with
  | none => .ok []
  | some (.object table) => parseDefaultStyles table
  | some _ => .error (.invalidProperty "defaultStyles" .story .notStyleTable)

/-- The path of a page. -/
def pagePath (index : Nat) : Path := Path.story.keyItem "pages" index

/-- A whole story. -/
def parseStory (v : Value) : Parsed Story := do
  let members ← parseObject "story" .story v
  let pages ← parseParts (fun i => parsePage (pagePath i) i) members "pages" .story
  let defaultStyles ← parseStyleTable members
  let title ← optionalString members "title" .story
  let canonicalUrl ← optionalString members "canonicalUrl" .story
  let preview ← optionalTyped Preview.decode members "preview" .story
  let storyMeta ← optionalTyped StoryMeta.decode members "meta" .story
  let customCss ← optionalString members "customCss" .story
  let analytics ← optionalTyped (decodeList AnalyticsConfig.decode) members "analytics" .story
  let bookendConfigSrc ← optionalString members "bookendConfigSrc" .story
  .ok { title, canonicalUrl, preview, storyMeta, customCss, defaultStyles, pages
        analytics := analytics.getD []
        ads := present? members "ads"
        bookendConfigSrc }

end WebStory
