import WebStory.Proofs.Document.Respelling
import WebStory.Proofs.Document.StyleSheet
import WebStory.Proofs.Markup.Element
/-
  The scripts in the head of a document.

  1. **Which scripts** — the head begins with the scripts of the runtime, then those of the
     extensions that the walk through the body has collected.  The walk adds an extension at every
     part that needs one and keeps their set in order (`runtime_of_renderStory`).  So how often and
     where something occurs makes no difference: a video counts at any depth of any layer, and each
     extension has one script or none.

  2. **Writing** — the texts of a head are concatenations of what is fixed and what is given.  They
     are put together anew as tags with attributes, once for each kind (`extensionScript_eq`,
     `canonicalLink_eq`); the boilerplate is a text of its own, of which no more is needed than that
     it is two style sheets, with no tag inside them (`exists_boilerplate_eq`).

  3. **No other scripts** — the head is read as tokens, part by part.  A reader that puts out
     nothing at the tags of the frame (`SkipsFrame`) puts out nothing at the rest of the head but
     for structured metadata; quotes in options, a style sheet that ends early and markup of the
     author's are what could break this, and they are excluded by name.  What the reader looks for
     is left open, as the same is asked of the tags of pages.

  The two meet in `head_scripts`.
-/

namespace WebStory

open Token Json

/-! ## What a walk collects -/

/-- The token of the open tag of a script. -/
def Token.script (tag : String) : Token := .openTag "script".toList tag.toList

/-- An attribute whose value is written as it is. -/
def valueText (name value : String) : String := " " ++ name ++ "=\"" ++ value ++ "\""

@[simp] theorem head?_valueText (name value : String) :
    (valueText name value).toList.head? = some ' ' := by
  simp [valueText]

def runtimeTag (host : String) : String :=
  "<script" ++ (" async" ++ valueText "src" (host ++ "/v0.js")) ++ ">"

def extensionTag (host element version : String) : String :=
  "<script" ++ (" async" ++ (valueText "custom-element" element ++
    valueText "src" (host ++ "/v0/" ++ element ++ "-" ++ version ++ ".js"))) ++ ">"

/-- The open tag of structured metadata. -/
def metadataTag : String := "<script" ++ valueText "type" "application/ld+json" ++ ">"

theorem runtimeScript_eq (host : String) :
    "<script async src=\"" ++ host ++ "/v0.js\"></script>" = runtimeTag host ++ "</script>" := by
  have hregroup (a b c d q e f : String) : (a ++ b ++ c) ++ host ++ (d ++ q ++ (e ++ f)) =
      a ++ (b ++ (c ++ (host ++ d) ++ q)) ++ e ++ f := by
    simp only [String.append_assoc]
  unfold runtimeTag valueText
  exact hregroup "<script" " async" (" " ++ "src" ++ "=\"") "/v0.js" "\"" ">" "</script>"

theorem extensionScript_eq (host element version : String) :
    extensionScript host element version = extensionTag host element version ++ "</script>" := by
  have hregroup (a b c q d v w j e f : String) :
      (a ++ b ++ c) ++ element ++ (q ++ d) ++ host ++ v ++ element ++ w ++ version ++
          (j ++ q ++ (e ++ f)) =
        a ++ (b ++ ((c ++ element ++ q) ++
          (d ++ (host ++ v ++ element ++ w ++ version ++ j) ++ q))) ++ e ++ f := by
    simp only [String.append_assoc]
  unfold extensionScript extensionTag valueText
  exact hregroup "<script" " async" (" " ++ "custom-element" ++ "=\"") "\"" (" " ++ "src" ++ "=\"")
    "/v0/" "-" ".js" ">" "</script>"

theorem jsonScript_eq (v : Value) : jsonScript "application/ld+json" v =
    metadataTag ++ escapeScript v.text ++ "</script>" := rfl

/-! ## The texts of tags -/

theorem toList_scriptTag (attributes : String) : ("<script" ++ attributes ++ ">").toList =
    opening "script".toList attributes.toList := by
  rw [String.toList_append, String.toList_append]
  rfl

theorem toList_scriptElement (attributes body : String) :
    ("<script" ++ attributes ++ ">" ++ body ++ "</script>").toList =
      opening "script".toList attributes.toList ++ body.toList ++ closing "script".toList := by
  have hclosing : "</script>".toList = closing "script".toList := by decide
  rw [String.toList_append, String.toList_append, toList_scriptTag, hclosing]

theorem head?_async (attributes : String) :
    ∀ c ∈ (" async" ++ attributes).toList.head?, c = ' ' := by
  rw [String.toList_append]
  exact fun c hc => (Option.some.inj hc).symm

theorem closed_async {attributes : String} (hclosed : Closed attributes.toList) :
    Closed (" async" ++ attributes).toList := by
  rw [String.toList_append]
  exact (closed_of_forall_ne (by simp)).append hclosed

section Loaded

variable {host : String} (hhost : ∀ c ∈ host.toList, c ≠ '"')
include hhost

theorem closed_runtimeSource : Closed (valueText "src" (host ++ "/v0.js")).toList := by
  refine Tag.closed_valueText (by decide) ?_
  rw [String.toList_append, List.forall_mem_append]
  exact ⟨hhost, by simp⟩

theorem closed_extensionSource {element version : String} (helement : ∀ c ∈ element.toList, c ≠ '"')
    (hversion : ∀ c ∈ version.toList, c ≠ '"') :
    Closed (valueText "custom-element" element ++
      valueText "src" (host ++ "/v0/" ++ element ++ "-" ++ version ++ ".js")).toList := by
  have hsource : ∀ c ∈ (host ++ "/v0/" ++ element ++ "-" ++ version ++ ".js").toList, c ≠ '"' := by
    simp only [String.toList_append, List.forall_mem_append]
    exact ⟨⟨⟨⟨⟨hhost, by simp⟩, helement⟩, by simp⟩, hversion⟩, by simp⟩
  rw [String.toList_append]
  exact (Tag.closed_valueText (by decide) helement).append
    (Tag.closed_valueText (by decide) hsource)

end Loaded

theorem canonicalLink_eq (url : String) :
    "<link rel=\"canonical\" href=\"" ++ url ++ "\">" =
      "<link" ++ (valueText "rel" "canonical" ++ valueText "href" url) ++ ">" := by
  have hregroup (a b c d e : String) : (a ++ b ++ c) ++ url ++ (d ++ e) =
      a ++ (b ++ (c ++ url ++ d)) ++ e := by
    simp only [String.append_assoc]
  exact hregroup "<link" (valueText "rel" "canonical") (" " ++ "href" ++ "=\"") "\"" ">"

theorem toList_canonicalLink (url : String) :
    ("<link rel=\"canonical\" href=\"" ++ url ++ "\">").toList =
      opening "link".toList ((valueText "rel" "canonical").toList ++ (valueText "href" url).toList) := by
  rw [canonicalLink_eq, String.toList_append, String.toList_append, String.toList_append]
  rfl

theorem closed_canonicalLink (url : String) :
    Closed ((valueText "rel" "canonical").toList ++ (valueText "href" (escapeMarkup url)).toList) :=
  (Tag.closed_valueText (by decide) (by simp)).append
    (Tag.closed_valueText (by decide) fun _ hc => (ne_of_mem_escapeMarkup hc).2.2)

theorem toList_viewport : ("<meta name=\"viewport\" content=\"" ++ viewport ++ "\">").toList =
    opening "meta".toList
      ((valueText "name" "viewport").toList ++ (valueText "content" viewport).toList) := by
  decide +kernel

theorem closed_viewport :
    Closed ((valueText "name" "viewport").toList ++ (valueText "content" viewport).toList) :=
  (Tag.closed_valueText (by decide) (by simp)).append
    (Tag.closed_valueText (by decide) (by simp [viewport]))

theorem toList_styleSheet (sheet : String) : ("<style amp-custom>" ++ sheet ++ "</style>").toList =
    opening "style".toList " amp-custom".toList ++ sheet.toList ++ closing "style".toList := by
  have hopening : "<style amp-custom>".toList = opening "style".toList " amp-custom".toList := by
    decide
  have hclosing : "</style>".toList = closing "style".toList := by decide
  rw [String.toList_append, String.toList_append, hopening, hclosing]

theorem closed_metadata : Closed (valueText "type" "application/ld+json").toList :=
  Tag.closed_valueText (by decide) (by simp)

/-! ## Parts of a head -/

/-- The names of the tags of a document but those of its scripts and those in its body. -/
def frameNames : List String := ["html", "head", "meta", "title", "link", "style", "noscript", "body"]

/-- A reader that puts out nothing but at open tags, and nothing at those of the frame. -/
structure SkipsFrame {α : Type} (g : Token → List α) : Prop where
  declaration (raw : List Char) : g (.declaration raw) = []
  text (raw : List Char) : g (.text raw) = []
  closeTag (name raw : List Char) : g (.closeTag name raw) = []
  frame : ∀ name ∈ frameNames, ∀ raw, g (.openTag name.toList raw) = []

section Gathers

variable {α : Type} {g : Token → List α} (hg : SkipsFrame g)
include hg

theorem SkipsFrame.additive : Additive g := fun cs ds => by
  rw [hg.text, hg.text, hg.text, List.append_nil]

/-- A script with any attributes around a text that does not close it. -/
theorem gathers_scriptElement {attributes : String}
    (hattributes : ∀ c ∈ attributes.toList.head?, c = ' ') (hclosed : Closed attributes.toList)
    {body : String} (hbody : ∀ rest, splitBefore ('<' :: '/' :: "script".toList)
      (body.toList ++ ('<' :: '/' :: "script".toList ++ rest)) =
        (body.toList, '<' :: '/' :: "script".toList ++ rest)) :
    Gathers g ("<script" ++ attributes ++ ">" ++ body ++ "</script>").toList
      (g (.script ("<script" ++ attributes ++ ">"))) := by
  have hname : isElementName "script".toList = true := by decide
  have hgathers := gathers_rawText hname hattributes hclosed hg.additive rfl hbody
  rw [hg.text, hg.closeTag, List.append_nil, List.append_nil, ← toList_scriptTag] at hgathers
  rw [toList_scriptElement, ← toList_scriptTag]
  exact hgathers

/-- A script that is loaded has no text. -/
theorem gathers_loadedScript {attributes : String}
    (hattributes : ∀ c ∈ attributes.toList.head?, c = ' ') (hclosed : Closed attributes.toList) :
    Gathers g ("<script" ++ attributes ++ ">" ++ "</script>").toList
      (g (.script ("<script" ++ attributes ++ ">"))) := by
  have hempty (rest : List Char) : splitBefore ('<' :: '/' :: "script".toList)
      ("".toList ++ ('<' :: '/' :: "script".toList ++ rest)) =
        ("".toList, '<' :: '/' :: "script".toList ++ rest) :=
      splitBefore_mark (List.cons_ne_nil _ _) rest
  have hgathers := gathers_scriptElement hg hattributes hclosed hempty
  rwa [String.append_empty] at hgathers

theorem gathers_styleElement {attributes : List Char}
    (hattributes : ∀ c ∈ attributes.head?, c = ' ') (hclosed : Closed attributes)
    {body : List Char} (hbody : ¬EndsStyle body) :
    Gathers g (opening "style".toList attributes ++ body ++ closing "style".toList) [] := by
  have hgathers := gathers_rawText (by decide) hattributes hclosed hg.additive rfl
    fun rest => splitBefore_of_not_infix (by decide) hbody rest
  rw [hg.frame "style" (by decide), hg.text, hg.closeTag] at hgathers
  exact hgathers

/-- A tag of the frame. -/
theorem gathers_frameTag {name : String} (hname : name ∈ frameNames)
    (hraw : rawTextNames.contains name.toList = false) {attributes : List Char}
    (hattributes : ∀ c ∈ attributes.head?, c = ' ') (hclosed : Closed attributes) :
    Gathers g (opening name.toList attributes) [] := by
  have helement : ∀ name ∈ frameNames, isElementName name.toList = true := by decide
  have hgathers := gathers_opening (g := g) (helement name hname) hattributes hclosed hraw
  rwa [hg.frame name hname] at hgathers

theorem gathers_frameClosing {name : String} (hname : name ∈ frameNames) :
    Gathers g (closing name.toList) [] := by
  have helement : ∀ name ∈ frameNames, isElementName name.toList = true := by decide
  have hgathers := gathers_closing (g := g) (helement name hname)
  rwa [hg.closeTag] at hgathers

/-- An element of the frame without attributes. -/
theorem gathers_frameElement {name : String} (hname : name ∈ frameNames)
    (hraw : rawTextNames.contains name.toList = false) {content : List Char} {out : List α}
    (hcontent : Gathers g content out) :
    Gathers g (opening name.toList [] ++ content ++ closing name.toList) out := by
  have hgathers := ((gathers_frameTag hg hname hraw (by simp) closed_nil).append hcontent).append
    (gathers_frameClosing hg hname)
  rwa [List.nil_append, List.append_nil] at hgathers

/-- A script with the attribute `async` and further attributes. -/
theorem gathers_asyncScript {attributes : String} (hclosed : Closed attributes.toList) :
    Gathers g ("<script" ++ (" async" ++ attributes) ++ ">" ++ "</script>").toList
      (g (.script ("<script" ++ (" async" ++ attributes) ++ ">"))) :=
  gathers_loadedScript hg (head?_async attributes) (closed_async hclosed)

section Loaded

variable {host : String} (hhost : ∀ c ∈ host.toList, c ≠ '"')
include hhost

theorem gathers_runtimeScript :
    Gathers g ("<script async src=\"" ++ host ++ "/v0.js\"></script>").toList
      (g (.script (runtimeTag host))) := by
  rw [runtimeScript_eq]
  exact gathers_asyncScript hg (closed_runtimeSource hhost)

theorem gathers_extensionScript {element version : String}
    (helement : ∀ c ∈ element.toList, c ≠ '"') (hversion : ∀ c ∈ version.toList, c ≠ '"') :
    Gathers g (extensionScript host element version).toList
      (g (.script (extensionTag host element version))) := by
  rw [extensionScript_eq]
  exact gathers_asyncScript hg (closed_extensionSource hhost helement hversion)

end Loaded

theorem gathers_title (title : Option String) : Gathers g
    (optionalText title fun title => "<title>" ++ escapeMarkup title ++ "</title>").toList [] := by
  cases title with
  | none => exact gathers_nil
  | some title =>
    have hopening : "<title>".toList = opening "title".toList [] := by decide
    have hclosing : "</title>".toList = closing "title".toList := by decide
    have htext : Gathers g (escapeMarkup title).toList (g (.text (escapeMarkup title).toList)) :=
      gathers_text hg.additive fun _ hc => (ne_of_mem_escapeMarkup hc).1
    rw [hg.text] at htext
    show Gathers g ("<title>" ++ escapeMarkup title ++ "</title>").toList []
    rw [String.toList_append, String.toList_append, hopening, hclosing]
    exact gathers_frameElement hg (by decide) rfl htext

theorem gathers_canonicalUrl (url : Option String) : Gathers g
    (optionalText url fun url => "<link rel=\"canonical\" href=\"" ++ escapeMarkup url ++ "\">").toList
    [] := by
  cases url with
  | none => exact gathers_nil
  | some url =>
    show Gathers g ("<link rel=\"canonical\" href=\"" ++ escapeMarkup url ++ "\">").toList []
    rw [toList_canonicalLink]
    exact gathers_frameTag hg (by decide) rfl (by simp) (closed_canonicalLink url)

theorem gathers_charset : Gathers g "<head><meta charset=\"utf-8\">".toList [] := by
  have htext : "<head><meta charset=\"utf-8\">".toList = opening "head".toList [] ++
      opening "meta".toList (valueText "charset" "utf-8").toList := by decide +kernel
  have hcharset : Closed (valueText "charset" "utf-8").toList :=
    Tag.closed_valueText (by decide) (by simp)
  rw [htext]
  exact (gathers_frameTag hg (by decide) rfl (by simp) closed_nil).append
    (gathers_frameTag hg (by decide) rfl (by simp) hcharset)

theorem gathers_viewport : Gathers g
    ("<meta name=\"viewport\" content=\"" ++ viewport ++ "\">").toList [] := by
  rw [toList_viewport]
  exact gathers_frameTag hg (by decide) rfl (by simp) closed_viewport

end Gathers

/-- The characters of a text that is written out. -/
theorem toList_eq {s : String} {cs : List Char} (h : s = String.ofList cs) : s.toList = cs := by
  rw [h, String.toList_ofList]

theorem toList_append_eq {s t : String} {cs ds : List Char} (hs : s.toList = cs)
    (ht : t = String.ofList ds) : (s ++ t).toList = cs ++ ds := by
  rw [String.toList_append, hs, toList_eq ht]

/-- What stands behind the tag of a certain number, up to the next tag. -/
def behindTag (number : Nat) (cs : List Char) : List Char :=
  ((cs.splitOn '>').getD number []).takeWhile (· != '<')

/-- A style sheet that hides the document. -/
def hidingSheet (body : List Char) : List Char :=
  opening "style".toList " amp-boilerplate".toList ++ body ++ closing "style".toList

/-- The boilerplate has two style sheets, the second for documents without scripts. -/
theorem exists_boilerplate_eq : ∃ first second : List Char,
    boilerplate.toList = hidingSheet first ++ opening "noscript".toList [] ++ hidingSheet second ++
      closing "noscript".toList ∧
    (∀ c ∈ first, c ≠ '<') ∧ ∀ c ∈ second, c ≠ '<' := by
  -- the characters are taken from the text as it is written, part by part
  obtain ⟨cs, hcs, hparts⟩ : ∃ cs, boilerplate.toList = cs ∧
      cs = hidingSheet (behindTag 1 cs) ++ opening "noscript".toList [] ++
        hidingSheet (behindTag 4 cs) ++ closing "noscript".toList :=
    ⟨_, toList_append_eq (toList_append_eq (toList_append_eq (toList_append_eq (toList_append_eq
      (toList_append_eq (toList_append_eq (toList_append_eq (toList_append_eq (toList_append_eq
        (toList_eq rfl) rfl) rfl) rfl) rfl) rfl) rfl) rfl) rfl) rfl) rfl, by decide +kernel⟩
  have hbehind (number : Nat) : ∀ c ∈ behindTag number cs, c ≠ '<' := by
    intro c hc
    have hne := List.mem_takeWhile_imp (p := fun d => d != '<') hc
    exact bne_iff_ne.1 hne
  exact ⟨behindTag 1 cs, behindTag 4 cs, hcs.trans hparts, hbehind 1, hbehind 4⟩

/-- What stands behind the scripts of the runtime. -/
def headRest (s : Story) (sheet : String) : String :=
  optionalText s.title (fun title => "<title>" ++ escapeMarkup title ++ "</title>") ++
    optionalText s.canonicalUrl
      (fun url => "<link rel=\"canonical\" href=\"" ++ escapeMarkup url ++ "\">") ++
    ("<meta name=\"viewport\" content=\"" ++ viewport ++ "\">") ++
    boilerplate ++
    ("<style amp-custom>" ++ sheet ++ "</style>") ++
    (s.storyMeta.map renderMetadata).getD "" ++
    "</head>"

theorem headText_eq (s : Story) (o : CompileOptions) (runtime : List RuntimeComponent)
    (sheet : String) : headText s o runtime sheet =
      "<head><meta charset=\"utf-8\">" ++ runtimeScripts o runtime ++ headRest s sheet := by
  have hregroup (a r t u m v n b c d e f g : String) :
      a ++ r ++ t ++ u ++ m ++ v ++ n ++ b ++ c ++ d ++ e ++ f ++ g =
        a ++ r ++ (t ++ u ++ (m ++ v ++ n) ++ b ++ (c ++ d ++ e) ++ f ++ g) := by
    simp only [String.append_assoc]
  exact hregroup _ _ _ _ _ _ _ _ _ _ _ _ _

theorem ne_of_mem_trimHost {host : String} (h : ∀ c ∈ host.toList, c ≠ '"') :
    ∀ c ∈ (trimHost host).toList, c ≠ '"' := by
  intro c hc
  rw [trimHost, String.toList_ofList, List.mem_reverse] at hc
  exact h c (List.mem_reverse.1 ((List.dropWhile_sublist _).mem hc))

/-- The open tags of the scripts of the runtime. -/
def runtimeTags (o : CompileOptions) (components : List RuntimeComponent) : List String :=
  let host := trimHost o.runtimeHost
  runtimeTag host :: extensionTag host "amp-story" o.storyVersion ::
    components.map fun c => extensionTag host c.elementName c.version

section Gathers

variable {α : Type} {g : Token → List α} (hg : SkipsFrame g)
include hg

theorem gathers_boilerplate : Gathers g boilerplate.toList [] := by
  have hattribute : Closed " amp-boilerplate".toList := closed_of_forall_ne (by simp)
  have hsheet {body : List Char} (hbody : ∀ c ∈ body, c ≠ '<') : Gathers g (hidingSheet body) [] :=
    gathers_styleElement hg (by simp) hattribute (not_endsStyle hbody)
  obtain ⟨first, second, htext, hfirst, hsecond⟩ := exists_boilerplate_eq
  have hboth := (hsheet hfirst).append
    (gathers_frameElement hg (by decide : "noscript" ∈ frameNames) rfl (hsheet hsecond))
  rw [← List.append_assoc, ← List.append_assoc] at hboth
  rwa [htext]

theorem gathers_styleSheet {sheet : String} (h : Contained sheet) :
    Gathers g ("<style amp-custom>" ++ sheet ++ "</style>").toList [] := by
  have hattribute : Closed " amp-custom".toList := closed_of_forall_ne (by simp)
  rw [toList_styleSheet]
  exact gathers_styleElement hg (by simp) hattribute h

/-- Structured metadata are a script, whatever they hold. -/
theorem gathers_metadata {storyMeta : Option StoryMeta}
    (h : ∀ markup, storyMeta ≠ some (.raw markup)) :
    Gathers g ((storyMeta.map renderMetadata).getD "").toList
      ((storyMeta.map fun _ => metadataTag).toList.flatMap fun tag => g (.script tag)) := by
  match storyMeta with
  | none => exact gathers_nil
  | some (.raw markup) => exact absurd rfl (h markup)
  | some (.structured data) =>
    show Gathers g (jsonScript "application/ld+json" data.article).toList _
    rw [jsonScript_eq, Option.map_some, Option.toList_some, List.flatMap_singleton]
    refine gathers_scriptElement hg (by simp) closed_metadata fun rest => ?_
    rw [toList_escapeScript]
    exact splitBefore_guardClosing _ _ rest

/-! ## The head -/

theorem gathers_headRest {s : Story} {sheet : String} (hsheet : Contained sheet) {out : List α}
    (hmeta : Gathers g ((s.storyMeta.map renderMetadata).getD "").toList out) :
    Gathers g (headRest s sheet).toList out := by
  have hclosing : Gathers g "</head>".toList [] :=
    gathers_frameClosing hg (by decide : "head" ∈ frameNames)
  have hbefore := (gathers_title hg s.title).concat (gathers_canonicalUrl hg s.canonicalUrl)
  have hrest := (((hbefore.concat (gathers_viewport hg)).concat (gathers_boilerplate hg)).concat
    (gathers_styleSheet hg hsheet)).concat hmeta
  have hall := hrest.concat hclosing
  rw [List.append_nil] at hall
  exact hall

theorem gathers_runtimeScripts {o : CompileOptions} (hhost : ∀ c ∈ o.runtimeHost.toList, c ≠ '"')
    (hversion : ∀ c ∈ o.storyVersion.toList, c ≠ '"') (components : List RuntimeComponent) :
    Gathers g (runtimeScripts o components).toList
      ((runtimeTags o components).flatMap fun tag => g (.script tag)) := by
  have htrim := ne_of_mem_trimHost hhost
  have hname : ∀ c ∈ "amp-story".toList, c ≠ '"' := by simp
  have hstory := gathers_extensionScript hg htrim hname hversion
  have hcomponent (c : RuntimeComponent) : Gathers g
      (extensionScript (trimHost o.runtimeHost) c.elementName c.version).toList
      (g (.script (extensionTag (trimHost o.runtimeHost) c.elementName c.version))) :=
    gathers_extensionScript hg htrim (by cases c <;> simp [RuntimeComponent.elementName])
      (by simp [RuntimeComponent.version])
  have hcomponents := gathers_join fun c (_ : c ∈ components) => hcomponent c
  rw [runtimeTags, List.flatMap_cons, List.flatMap_cons, List.flatMap_map, ← List.append_assoc]
  exact ((gathers_runtimeScript hg htrim).concat hstory).concat hcomponents

/-- The scripts of the runtime are ahead of the metadata. -/
theorem gathers_headText {s : Story} {o : CompileOptions} (runtime : List RuntimeComponent)
    {sheet : String}
    (hhost : ∀ c ∈ o.runtimeHost.toList, c ≠ '"') (hversion : ∀ c ∈ o.storyVersion.toList, c ≠ '"')
    (hsheet : Contained sheet) {out : List α}
    (hmeta : Gathers g ((s.storyMeta.map renderMetadata).getD "").toList out) :
    Gathers g (headText s o runtime sheet).toList
      ((runtimeTags o runtime).flatMap (fun tag => g (.script tag)) ++ out) := by
  rw [headText_eq]
  exact ((gathers_charset hg).concat (gathers_runtimeScripts hg hhost hversion runtime)).concat
    (gathers_headRest hg hsheet hmeta)

end Gathers

end WebStory
