import WebStory.Document.Body
import WebStory.Markup.Indent
import WebStory.Story.Parse
/-
  Stories compiled to documents.

  The body is rendered before the head is written, as it settles which classes exist and which
  extensions of the runtime are needed.  The style sheet holds the story's own style sheet, then
  the default styles, then the classes.
-/

namespace WebStory

/-- The selector of a default style: the tag of an element type, any other name as it is. -/
def defaultStyleSelector (name : String) : String :=
  if name = "container" then "div"
  else if name = "image" then "amp-img"
  else if name = "video" then "amp-video"
  else ((TextKind.ofName? name).map (·.tagName)).getD name

/-- The rules of the default styles, in order. -/
def defaultRules : List (String × StyleRecord) → Except Error (List Rule)
  | [] => .ok []
  | (name, style) :: rest => do
    let declarations ← convertStyle style (defaultStylePath name)
    let rules ← defaultRules rest
    .ok (⟨defaultStyleSelector name, declarations⟩ :: rules)

/-- The text of an optional part. -/
def optionalText (value : Option String) (text : String → String) : String := (value.map text).getD ""

/-- The head of a document with the scripts of given extensions and a given style sheet. -/
def headText (s : Story) (o : CompileOptions) (runtime : List RuntimeComponent) (sheet : String) :
    String :=
  "<head><meta charset=\"utf-8\">" ++
    runtimeScripts o runtime ++
    optionalText s.title (fun title => "<title>" ++ escapeMarkup title ++ "</title>") ++
    optionalText s.canonicalUrl
      (fun url => "<link rel=\"canonical\" href=\"" ++ escapeMarkup url ++ "\">") ++
    "<meta name=\"viewport\" content=\"" ++ viewport ++ "\">" ++
    boilerplate ++
    "<style amp-custom>" ++ sheet ++ "</style>" ++
    (s.storyMeta.map renderMetadata).getD "" ++
    "</head>"

/-- A document with a given head, up to its extensions and style sheet, and a given body. -/
def documentText (s : Story) (o : CompileOptions) (runtime : List RuntimeComponent)
    (sheet body : String) : String :=
  "<!doctype html><html \u26a1 lang=\"" ++ escapeMarkup o.lang ++ "\">" ++
    headText s o runtime sheet ++ "<body>" ++ body ++ "</body></html>"

/-- Compiles a story to a document. -/
def compile (s : Story) (o : CompileOptions) : Except Error String := do
  o.validate
  let (body, state) ← (renderStory s).run .empty
  let rules ← defaultRules s.defaultStyles
  let sheet := s.customCss.getD "" ++ sheetText rules ++ sheetText state.classes.rules
  let document := documentText s o state.runtime sheet body
  .ok (if o.pretty then indentMarkup document else document)

end WebStory
