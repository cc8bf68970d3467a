import WebStory.Document.Body
/-
  The body of a story as a function of the names of its classes.

  A class belongs to a canonical key.  Once it is known which class every key has (a `Naming`), the
  body is a plain function of the story: each tag has the class of its own styles, each range of a
  text that of the range.  Nothing here depends on the order in which classes come about.
-/

namespace WebStory

/-- The class of each canonical key. -/
abbrev Naming := String → String

section Markup

variable (name : Naming)

/-- The class of styles, if there are any. -/
def stylesClass (styles : Option StyleRecord) : Option String := styles.map fun r => name r.canonicalKey

/-- A tag around its content, with the class of its own styles. -/
def Tag.markup (t : Tag) (content : String) : String :=
  t.wrap (joinClasses t.explicitClass (stylesClass name (effectiveStyles t.name t.styles))) content

/-! ## Elements -/

/-- The spans of a text. -/
def textSpans (text : String) (ranges : List InlineStyle) : List Span :=
  if ranges.isEmpty then [⟨text.toList, []⟩]
  else spansFrom (ranges.zip (ranges.map fun s => name s.styles.canonicalKey)) 0 text.toList

def textMarkup (text : String) (ranges : List InlineStyle) : String :=
  replaceLineBreaks (renderSpans (textSpans name text ranges))

mutual

/-- An element with all elements inside it. -/
def Element.markup (third : Option Nat) : Element → String
  | .container id styles elements =>
    (containerTag id styles third).markup name (childMarkup elements)
  | .text t => (textTag t third).markup name (textMarkup name t.text t.inlineStyles)
  | .image i => (imageTag i third).markup name ""
  | .video v =>
    (videoTag v third).markup name (String.join (v.sources.map fun s => (sourceTag s).markup name ""))

def childMarkup : List Element → String
  | [] => ""
  | e :: rest => e.markup none ++ childMarkup rest

end

/-! ## Layers, pages, stories -/

def Layer.markup (l : Layer) : String :=
  (layerTag l).markup name
    (String.join (l.elements.zipIdx.map fun (e, i) => e.markup name (layerThird l.template i)))

def Page.markup (p : Page) : String :=
  (pageTag p).markup name (String.join (p.layers.map fun l => l.markup name))

/-- What stands ahead of the pages. -/
def Story.blocks (s : Story) : String :=
  renderAnalytics s.analytics ++ (s.ads.map renderAds).getD ""

def Story.markup (s : Story) : String :=
  (storyTag s).markup name (s.blocks ++ String.join (s.pages.map fun p => p.markup name))

theorem childMarkup_eq_join (elements : List Element) :
    childMarkup name elements = String.join (elements.map fun e => e.markup name none) := by
  induction elements with
  | nil => rfl
  | cons e rest ih => rw [childMarkup, ih, List.map_cons, String.join_cons]

end Markup

end WebStory
