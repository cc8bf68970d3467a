import WebStory.Options
import WebStory.Story.Basic
import WebStory.Markup.Escape
import WebStory.Json.Printer
/-
  What stands in the head of a document, and the blocks ahead of its pages.

  Metadata, analytics and ads stand there as JSON.  The functions that write them take the printer as
  a parameter; a document has them printed without spaces (`Value.text`).
-/

namespace WebStory

open Json

/-! ## Scripts -/

/-- Extensions of the runtime that are loaded only when a story uses them. -/
inductive RuntimeComponent where
  | video
  | analytics
  | autoAds
deriving DecidableEq, Repr

namespace RuntimeComponent

/-- The place of an extension among the scripts. -/
def rank : RuntimeComponent → Nat
  | .video => 0
  | .analytics => 1
  | .autoAds => 2

def elementName : RuntimeComponent → String
  | .video => "amp-video"
  | .analytics => "amp-analytics"
  | .autoAds => "amp-story-auto-ads"

def version (_ : RuntimeComponent) : String := "0.1"

/-- Adds an extension to a set, which is kept as a list in the order of the scripts.  One that is
    there already is not added again. -/
def addTo (c : RuntimeComponent) : List RuntimeComponent → List RuntimeComponent
  | [] => [c]
  | d :: rest =>
    if c.rank < d.rank then c :: d :: rest
    else if c.rank = d.rank then d :: rest
    else d :: addTo c rest

/-- The set with further extensions, added one after another. -/
def addAll (set components : List RuntimeComponent) : List RuntimeComponent :=
  components.foldl (fun set c => c.addTo set) set

/-- The extensions of a list, each once and in the order of their scripts. -/
def sorted (components : List RuntimeComponent) : List RuntimeComponent := addAll [] components

end RuntimeComponent

/-- A host without the slashes at its end. -/
def trimHost (host : String) : String :=
  String.ofList (host.toList.reverse.dropWhile (· == '/')).reverse

def extensionScript (host element version : String) : String :=
  "<script async custom-element=\"" ++ element ++ "\" src=\"" ++ host ++ "/v0/" ++ element ++ "-" ++
    version ++ ".js\"></script>"

/-- The runtime, the story extension, then each extension in use. -/
def runtimeScripts (o : CompileOptions) (components : List RuntimeComponent) : String :=
  let host := trimHost o.runtimeHost
  "<script async src=\"" ++ host ++ "/v0.js\"></script>" ++
    extensionScript host "amp-story" o.storyVersion ++
    String.join (components.map fun c => extensionScript host c.elementName c.version)

/-! ## Metadata -/

/-- The member of an optional text. -/
def textMember (name : String) (value : Option String) : Members :=
  optionalMember name Value.string value

/-- The publisher of an article; its logo is an image whose fields are given. -/
def MetaPublisher.article (p : MetaPublisher) : Value :=
  let logo := (p.logo.getD []).foldl (fun done e => Entries.set done e.1 e.2)
    [("@type", .string "ImageObject")]
  .object [("@type", .string "Organization"), ("name", .string p.name), ("logo", .object logo)]

/-- A news article; absent fields are left out. -/
def MetaData.article (m : MetaData) : Value :=
  .object ([("@context", .string "http://schema.org"), ("@type", .string "NewsArticle")] ++
    optionalMember "mainEntityOfPage"
      (fun url => .object [("@type", .string "WebPage"), ("@id", .string url)]) m.canonicalUrl ++
    textMember "headline" m.title ++
    (if m.images.isEmpty then [] else [("image", .array (m.images.map .string))]) ++
    textMember "datePublished" m.datePublished ++
    textMember "dateModified" m.dateModified ++
    optionalMember "author"
      (fun author => .object
        [("@type", .string (m.authorType.getD "Person")), ("name", .string author)]) m.author ++
    textMember "description" m.description ++
    optionalMember "publisher" MetaPublisher.article m.publisher)

section Scripts

variable (print : Value → String)

/-- A script element that holds a JSON value as it is printed. -/
def jsonScriptWith (mediaType : String) (v : Value) : String :=
  "<script type=\"" ++ mediaType ++ "\">" ++ escapeScript (print v) ++ "</script>"

/-- The metadata of a story: ready-made markup as it is, fields as a news article. -/
def renderMetadataWith : StoryMeta → String
  | .raw markup => markup
  | .structured data => jsonScriptWith print "application/ld+json" data.article

/-! ## Analytics and ads -/

def AnalyticsConfig.markupWith (a : AnalyticsConfig) : String :=
  let service := match a.service with
    | some s => if s.isEmpty then "" else " type=\"" ++ escapeMarkup s ++ "\""
    | none => ""
  "<amp-analytics" ++ service ++ ">" ++
    jsonScriptWith print "application/json" (.object a.options) ++ "</amp-analytics>"

/-- One block for each service. -/
def renderAnalyticsWith (entries : List AnalyticsConfig) : String :=
  String.join (entries.map (AnalyticsConfig.markupWith print))

def renderAdsWith (config : Value) : String :=
  "<amp-story-auto-ads>" ++ jsonScriptWith print "application/json" config ++ "</amp-story-auto-ads>"

end Scripts

/-! ## Printed without spaces -/

def jsonScript (mediaType : String) (v : Value) : String := jsonScriptWith Value.text mediaType v

def renderMetadata (m : StoryMeta) : String := renderMetadataWith Value.text m

def AnalyticsConfig.markup (a : AnalyticsConfig) : String := a.markupWith Value.text

def renderAnalytics (entries : List AnalyticsConfig) : String :=
  renderAnalyticsWith Value.text entries

def renderAds (config : Value) : String := renderAdsWith Value.text config

/-! ## Fixed parts -/

/-- The style sheet that hides a document until the runtime is there. -/
def boilerplate : String :=
  "<style amp-boilerplate>body\x7b-webkit-animation:-amp-start 8s steps(1,end) 0s 1 normal both;" ++
  "-moz-animation:-amp-start 8s steps(1,end) 0s 1 normal both;" ++
  "-ms-animation:-amp-start 8s steps(1,end) 0s 1 normal both;" ++
  "animation:-amp-start 8s steps(1,end) 0s 1 normal both\x7d" ++
  "@-webkit-keyframes -amp-start\x7bfrom\x7bvisibility:hidden\x7dto\x7bvisibility:visible\x7d\x7d" ++
  "@-moz-keyframes -amp-start\x7bfrom\x7bvisibility:hidden\x7dto\x7bvisibility:visible\x7d\x7d" ++
  "@-ms-keyframes -amp-start\x7bfrom\x7bvisibility:hidden\x7dto\x7bvisibility:visible\x7d\x7d" ++
  "@-o-keyframes -amp-start\x7bfrom\x7bvisibility:hidden\x7dto\x7bvisibility:visible\x7d\x7d" ++
  "@keyframes -amp-start\x7bfrom\x7bvisibility:hidden\x7dto\x7bvisibility:visible\x7d\x7d</style>" ++
  "<noscript><style amp-boilerplate>body\x7b-webkit-animation:none;-moz-animation:none;" ++
  "-ms-animation:none;animation:none\x7d</style></noscript>"

def viewport : String := "width=device-width,minimum-scale=1,initial-scale=1"

end WebStory
