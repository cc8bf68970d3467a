import WebStory.Markup.Escape
import WebStory.Style.ClassTable
import WebStory.Story.Basic
/-
  Texts with styled ranges.

  Every range gets its class first, in the order of declaration.  Then the text falls into
  spans: maximal runs of characters that lie in the same ranges, told apart by the list of their
  classes.  A text without ranges is one span, and touches no class.
-/

namespace WebStory

/-- A run of text and the classes of the ranges it lies in. -/
structure Span where
  text : List Char
  classes : List String
deriving DecidableEq

/-- The classes of the ranges, in order. -/
def rangeClasses (path : Path) : Nat → List InlineStyle → Rendering (List String)
  | _, [] => pure []
  | index, s :: rest => do
    let name ← assignClass s.styles (path.keyItem "inlineStyles" index)
    let names ← rangeClasses path (index + 1) rest
    return name :: names

/-- The classes of the ranges that hold the character at an index. -/
def activeClasses (ranges : List (InlineStyle × String)) (index : Nat) : List String :=
  (ranges.filter (·.1.covers index)).map (·.2)

/-- Puts a character in front of spans: into the first if it has the same classes. -/
def consSpan (c : Char) (classes : List String) : List Span → List Span
  | [] => [⟨[c], classes⟩]
  | s :: rest => if s.classes = classes then ⟨c :: s.text, classes⟩ :: rest else ⟨[c], classes⟩ :: s :: rest

/-- The spans of a text, its first character standing at an index. -/
def spansFrom (ranges : List (InlineStyle × String)) : Nat → List Char → List Span
  | _, [] => []
  | index, c :: rest =>
    consSpan c (activeClasses ranges index) (spansFrom ranges (index + 1) rest)

/-- The spans of a text that stands at a path. -/
def splitText (text : String) (ranges : List InlineStyle) (path : Path) : Rendering (List Span) :=
  if ranges.isEmpty then pure [⟨text.toList, []⟩]
  else do
    let names ← rangeClasses path 0 ranges
    return spansFrom (ranges.zip names) 0 text.toList

/-- A span as markup, in an element of its own if it has classes. -/
def Span.markup (s : Span) : String :=
  let body := escapeMarkup (String.ofList s.text)
  if s.classes.isEmpty then body
  else "<span class=\"" ++ " ".intercalate s.classes ++ "\">" ++ body ++ "</span>"

/-- Spans one after another. -/
def renderSpans (spans : List Span) : String := String.join (spans.map Span.markup)

/-- A text as markup: its spans, then its line breaks. -/
def renderText (text : String) (ranges : List InlineStyle) (path : Path) : Rendering String := do
  let spans ← splitText text ranges path
  return replaceLineBreaks (renderSpans spans)

end WebStory
