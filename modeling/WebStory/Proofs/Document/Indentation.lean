import WebStory.Proofs.Document.Outline
import WebStory.Proofs.Document.Scripts
import WebStory.Proofs.Markup.Layout
/-
  The indentation of a document.

  What is known of the printer is about markup of a certain form: pieces that are read by
  themselves, one behind another and inside each other (`Piece`).  So the work here is to take a
  document apart into pieces, and the printer is not looked into again.

  1. **The head** — the values of attributes and the title are escaped, the texts of scripts do not
     close them, and neither does a style sheet that is contained.  So each of the lines of the head
     is a piece.  The boilerplate has two sheets, and the second one stands inside an element of its
     own (`piece_boilerplate`).

  2. **The body** — this is one already, whatever the story holds.

  3. **The document** — so the whole is well nested, and it is laid out as such markup is
     (`indented_document`): no closing tag is met at depth zero, the depth at the end is zero, and
     the two tags of an element on several lines stand below each other.

  Two things are asked for: that the style sheet is contained and that the author writes no markup
  into the head.  Both are copied into the document as they are.
-/

namespace WebStory

open Token ClassTable Json

/-! ## The head -/

/-- A script with any attributes around a text that does not close it. -/
theorem piece_scriptElement {attributes : String}
    (hattributes : ∀ c ∈ attributes.toList.head?, c = ' ') (hclosed : Closed attributes.toList)
    {body : String} (hbody : ∀ rest, splitBefore ('<' :: '/' :: "script".toList)
      (body.toList ++ ('<' :: '/' :: "script".toList ++ rest)) =
        (body.toList, '<' :: '/' :: "script".toList ++ rest)) :
    Piece ("<script" ++ attributes ++ ">" ++ body ++ "</script>").toList := by
  rw [toList_scriptElement]
  exact ⟨_, reads_rawText (by decide) rfl hattributes hclosed hbody⟩

/-- A script that is loaded has no text. -/
theorem piece_asyncScript {attributes : String} (hclosed : Closed attributes.toList) :
    Piece ("<script" ++ (" async" ++ attributes) ++ ">" ++ "</script>").toList := by
  have hempty (rest : List Char) : splitBefore ('<' :: '/' :: "script".toList)
      ("".toList ++ ('<' :: '/' :: "script".toList ++ rest)) =
        ("".toList, '<' :: '/' :: "script".toList ++ rest) :=
    splitBefore_mark (List.cons_ne_nil _ _) rest
  have hpiece := piece_scriptElement (head?_async attributes) (closed_async hclosed) hempty
  rwa [String.append_empty] at hpiece

section Scripts

variable {o : CompileOptions} (hhost : ∀ c ∈ o.runtimeHost.toList, c ≠ '"')
  (hversion : ∀ c ∈ o.storyVersion.toList, c ≠ '"')
include hhost hversion

theorem piece_runtimeScripts (components : List RuntimeComponent) :
    Piece (runtimeScripts o components).toList := by
  have htrim := ne_of_mem_trimHost hhost
  have hextension {element version : String} (helement : ∀ c ∈ element.toList, c ≠ '"')
      (hversion : ∀ c ∈ version.toList, c ≠ '"') :
      Piece (extensionScript (trimHost o.runtimeHost) element version).toList := by
    rw [extensionScript_eq]
    exact piece_asyncScript (closed_extensionSource htrim helement hversion)
  have hruntime : Piece
      ("<script async src=\"" ++ trimHost o.runtimeHost ++ "/v0.js\"></script>").toList := by
    rw [runtimeScript_eq]
    exact piece_asyncScript (closed_runtimeSource htrim)
  have hstory : Piece (extensionScript (trimHost o.runtimeHost) "amp-story" o.storyVersion).toList :=
    hextension (by simp) hversion
  exact (hruntime.concat hstory).concat (piece_join fun c _ =>
    hextension (by cases c <;> simp [RuntimeComponent.elementName])
      (by simp [RuntimeComponent.version]))

end Scripts

theorem piece_title (title : Option String) : Piece
    (optionalText title fun title => "<title>" ++ escapeMarkup title ++ "</title>").toList := by
  cases title with
  | none => exact piece_nil
  | some title =>
    have hopening : "<title>".toList = opening "title".toList [] := by decide
    have hclosing : "</title>".toList = closing "title".toList := by decide
    show Piece ("<title>" ++ escapeMarkup title ++ "</title>").toList
    rw [String.toList_append, String.toList_append, hopening, hclosing]
    exact piece_element (by decide) (by simp) closed_nil rfl rfl
      (piece_text fun _ hc => (ne_of_mem_escapeMarkup hc).1)

theorem piece_canonicalUrl (url : Option String) : Piece
    (optionalText url fun url =>
      "<link rel=\"canonical\" href=\"" ++ escapeMarkup url ++ "\">").toList := by
  cases url with
  | none => exact piece_nil
  | some url =>
    show Piece ("<link rel=\"canonical\" href=\"" ++ escapeMarkup url ++ "\">").toList
    rw [toList_canonicalLink]
    exact piece_void (by decide) (by simp) (closed_canonicalLink url) rfl

theorem piece_charset : Piece "<meta charset=\"utf-8\">".toList := by
  have htext : "<meta charset=\"utf-8\">".toList =
      opening "meta".toList (valueText "charset" "utf-8").toList := by decide +kernel
  rw [htext]
  exact piece_void (by decide) (by simp) (Tag.closed_valueText (by decide) (by simp)) rfl

theorem piece_viewport :
    Piece ("<meta name=\"viewport\" content=\"" ++ viewport ++ "\">").toList := by
  rw [toList_viewport]
  exact piece_void (by decide) (by simp) closed_viewport rfl

theorem piece_styleElement {attributes : List Char}
    (hattributes : ∀ c ∈ attributes.head?, c = ' ') (hclosed : Closed attributes)
    {body : List Char} (hbody : ¬EndsStyle body) :
    Piece (opening "style".toList attributes ++ body ++ closing "style".toList) :=
  ⟨_, reads_rawText (by decide) rfl hattributes hclosed
    fun rest => splitBefore_of_not_infix (by decide) hbody rest⟩

/-- The second sheet of the boilerplate stands inside an element of its own. -/
theorem piece_boilerplate : Piece boilerplate.toList := by
  have hattribute : Closed " amp-boilerplate".toList := closed_of_forall_ne (by simp)
  have hsheet {body : List Char} (hbody : ∀ c ∈ body, c ≠ '<') : Piece (hidingSheet body) :=
    piece_styleElement (by simp) hattribute (not_endsStyle hbody)
  obtain ⟨first, second, htext, hfirst, hsecond⟩ := exists_boilerplate_eq
  have hnoscript : Piece (opening "noscript".toList [] ++ hidingSheet second ++
      closing "noscript".toList) :=
    piece_element (by decide) (by simp) closed_nil rfl rfl (hsheet hsecond)
  have hboth := (hsheet hfirst).append hnoscript
  rw [← List.append_assoc, ← List.append_assoc] at hboth
  rwa [htext]

theorem piece_styleSheet {sheet : String} (h : Contained sheet) :
    Piece ("<style amp-custom>" ++ sheet ++ "</style>").toList := by
  have hattribute : Closed " amp-custom".toList := closed_of_forall_ne (by simp)
  rw [toList_styleSheet]
  exact piece_styleElement (by simp) hattribute h

theorem piece_metadata {storyMeta : Option StoryMeta} (h : ∀ markup, storyMeta ≠ some (.raw markup)) :
    Piece ((storyMeta.map renderMetadata).getD "").toList := by
  match storyMeta with
  | none => exact piece_nil
  | some (.raw markup) => exact absurd rfl (h markup)
  | some (.structured data) =>
    show Piece (jsonScript "application/ld+json" data.article).toList
    rw [jsonScript_eq]
    refine piece_scriptElement (by simp) closed_metadata fun rest => ?_
    rw [toList_escapeScript]
    exact splitBefore_guardClosing _ _ rest

/-! ## The document -/

/-- What stands between the tags of the head. -/
def headContent (s : Story) (o : CompileOptions) (runtime : List RuntimeComponent) (sheet : String) :
    String :=
  "<meta charset=\"utf-8\">" ++ runtimeScripts o runtime ++
    optionalText s.title (fun title => "<title>" ++ escapeMarkup title ++ "</title>") ++
    optionalText s.canonicalUrl
      (fun url => "<link rel=\"canonical\" href=\"" ++ escapeMarkup url ++ "\">") ++
    ("<meta name=\"viewport\" content=\"" ++ viewport ++ "\">") ++
    boilerplate ++
    ("<style amp-custom>" ++ sheet ++ "</style>") ++
    (s.storyMeta.map renderMetadata).getD ""

theorem toList_headText (s : Story) (o : CompileOptions) (runtime : List RuntimeComponent)
    (sheet : String) : (headText s o runtime sheet).toList =
      opening "head".toList [] ++ (headContent s o runtime sheet).toList ++
        closing "head".toList := by
  have hopening : "<head>".toList = opening "head".toList [] := by decide
  have hclosing : "</head>".toList = closing "head".toList := by decide
  have hregroup (h a r t u m v n b c d e f g : String) :
      h ++ a ++ r ++ t ++ u ++ m ++ v ++ n ++ b ++ c ++ d ++ e ++ f ++ g =
        h ++ (a ++ r ++ t ++ u ++ (m ++ v ++ n) ++ b ++ (c ++ d ++ e) ++ f) ++ g := by
    simp only [String.append_assoc]
  have htext : headText s o runtime sheet =
      "<head>" ++ headContent s o runtime sheet ++ "</head>" :=
    hregroup "<head>" "<meta charset=\"utf-8\">" _ _ _ _ _ _ _ _ _ _ _ _
  rw [htext, String.toList_append, String.toList_append, hopening, hclosing]

/-- The attributes of the whole document. -/
def documentAttributes (o : CompileOptions) : String :=
  " \u26a1" ++ valueText "lang" (escapeMarkup o.lang)

theorem closed_documentAttributes (o : CompileOptions) : Closed (documentAttributes o).toList := by
  have hmark : Closed " \u26a1".toList := closed_of_forall_ne (by simp)
  rw [documentAttributes, String.toList_append]
  exact hmark.append (Tag.closed_valueText (by decide) fun _ hc => (ne_of_mem_escapeMarkup hc).2.2)

theorem head?_documentAttributes (o : CompileOptions) :
    ∀ c ∈ (documentAttributes o).toList.head?, c = ' ' := by
  rw [documentAttributes, String.toList_append]
  exact fun c hc => (Option.some.inj hc).symm

theorem toList_documentText (s : Story) (o : CompileOptions) (runtime : List RuntimeComponent)
    (sheet body : String) :
    (documentText s o runtime sheet body).toList = "<!doctype html>".toList ++
      (opening "html".toList (documentAttributes o).toList ++
        ((headText s o runtime sheet).toList ++
          (opening "body".toList [] ++ body.toList ++ closing "body".toList)) ++
        closing "html".toList) := by
  have htag : "<html".toList = '<' :: "html".toList := by decide
  have hend : ">".toList = ['>'] := by decide
  have hbody : "<body>".toList = opening "body".toList [] := by decide
  have hbodyEnd : "</body>".toList = closing "body".toList := by decide
  have hhtmlEnd : "</html>".toList = closing "html".toList := by decide
  have hregroup (d t a b q e l h m f g : String) :
      (d ++ t ++ a ++ b) ++ l ++ (q ++ e) ++ h ++ m ++ body ++ (f ++ g) =
        d ++ (t ++ (a ++ (b ++ l ++ q)) ++ e ++ (h ++ (m ++ body ++ f)) ++ g) := by
    simp only [String.append_assoc]
  have htext : documentText s o runtime sheet body = "<!doctype html>" ++
      ("<html" ++ documentAttributes o ++ ">" ++
        (headText s o runtime sheet ++ ("<body>" ++ body ++ "</body>")) ++ "</html>") :=
    hregroup "<!doctype html>" "<html" " \u26a1" (" " ++ "lang" ++ "=\"") "\"" ">" _ _ "<body>"
      "</body>" "</html>"
  rw [htext]
  simp only [String.toList_append, htag, hend, hbody, hbodyEnd, hhtmlEnd, opening, List.cons_append]

section Document

variable {s : Story} {o : CompileOptions} (hhost : ∀ c ∈ o.runtimeHost.toList, c ≠ '"')
  (hversion : ∀ c ∈ o.storyVersion.toList, c ≠ '"')
  (hmeta : ∀ markup, s.storyMeta ≠ some (.raw markup)) (runtime : List RuntimeComponent)
  {sheet : String} (hsheet : Contained sheet)
include hhost hversion hmeta hsheet

theorem piece_headText : Piece (headText s o runtime sheet).toList := by
  have hcontent : Piece (headContent s o runtime sheet).toList :=
    ((((((piece_charset.concat (piece_runtimeScripts hhost hversion runtime)).concat
      (piece_title s.title)).concat (piece_canonicalUrl s.canonicalUrl)).concat
      piece_viewport).concat piece_boilerplate).concat (piece_styleSheet hsheet)).concat
      (piece_metadata hmeta)
  rw [toList_headText]
  exact piece_element (by decide) (by simp) closed_nil rfl rfl hcontent

/-- A document around a body is read by itself if the body is. -/
theorem piece_documentText {body : String} (hbody : Piece body.toList) :
    Piece (documentText s o runtime sheet body).toList := by
  have hdoctype : "<!doctype html>".toList = '<' :: ('!' :: "doctype html".toList) ++ ['>'] := by
    decide
  have hhead := piece_headText hhost hversion hmeta runtime hsheet
  have hname : isElementName "body".toList = true := by decide
  have hbody := piece_element hname (by simp) closed_nil rfl rfl hbody
  rw [toList_documentText, hdoctype]
  refine (piece_declaration (closed_of_forall_ne (by simp))).append ?_
  exact piece_element (by decide) (head?_documentAttributes o) (closed_documentAttributes o) rfl rfl
    (hhead.append hbody)

end Document

end WebStory
