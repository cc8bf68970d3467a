import WebStory.Proofs.Document.Classes
import WebStory.Proofs.Markup.Inline
import WebStory.Proofs.Markup.Pieces
import WebStory.Proofs.Style.Containment
/-
  The style sheet of a document, and where it ends.

  1. **The block** — the sheet stands between a tag and its closing tag, and to a reader of markup
     it ends at the first `</style`.  So the block is read as one sheet exactly if the sheet has no
     such mark in it (`scan_styleBlock_eq_iff`).

  2. **Rules** — rules are put together so that no mark comes about between their parts: a character
     that cannot stand inside the mark is between any two of them.  So the mark is in the sheet
     exactly if it is in a selector, a property or a value (`contained_rules_iff`).

  3. **Strings** — these have it only from strings of the story: a string of a style record, or a
     name under which a default style stands (`ensures_defaultRules`, `contained_rules_assignAll`).
     A conversion makes no mark that was not in the record.

  4. **Records** — the records that ask for classes are not those of the story, as a tag puts in
     defaults of its own.  It is enough that they have no mark that the records of the story do not
     have (`contained_of_mem_requests`).

  Such strings are not guarded, so a value that holds the closing tag ends the sheet
  (`style_value_ends_sheet`).
-/

namespace WebStory

open Token ClassTable Json

/-! ## Records that ask for classes -/

/-- The style records that are met. -/
def Visit.records : Visit → List StyleRecord
  | .thirds _ _ => []
  | .range _ styles => [styles]
  | .own _ styles => styles.toList
  | .box _ styles => styles.toList

/-- Parts in a row have the records of each, whatever its index. -/
theorem records_parts {β : Type} {parts : List β} {visits : β → Nat → List Visit}
    {records : β → List StyleRecord}
    (h : ∀ b ∈ parts, ∀ i, (visits b i).flatMap Visit.records = records b) (index : Nat) :
    ((parts.zipIdx index).flatMap fun (b, i) => visits b i).flatMap Visit.records =
      parts.flatMap records := by
  induction parts generalizing index with
  | nil => rfl
  | cons b rest ih =>
    rw [List.forall_mem_cons] at h
    rw [List.zipIdx_cons, List.flatMap_cons, List.flatMap_append, h.1, ih h.2, List.flatMap_cons]

theorem Element.records_visits (e : Element) (path : Path) :
    (e.visits path).flatMap Visit.records = e.styleRecords := by
  induction e using Element.induct generalizing path with
  | container id styles elements ih =>
    rw [Element.visits, Element.styleRecords, List.flatMap_append, childVisits_eq_flatMap,
      records_parts fun e he i => ih e he (path.keyItem "elements" i), elementRecords_eq_flatMap,
      List.flatMap_singleton]
    rfl
  | text t =>
    have hrange : ∀ s ∈ t.inlineStyles, ∀ i : Nat,
        [Visit.range (path.keyItem "inlineStyles" i) s.styles].flatMap Visit.records =
          [s.styles] := fun s _ i => rfl
    rw [Element.visits, Element.styleRecords, List.flatMap_append, rangeVisits, List.map_eq_flatMap,
      records_parts hrange, ← List.map_eq_flatMap, List.flatMap_singleton]
    rfl
  | image i => rw [Element.visits, Element.styleRecords, List.flatMap_singleton]; rfl
  | video v => rw [Element.visits, Element.styleRecords, List.flatMap_singleton]; rfl

theorem Layer.records_visits (l : Layer) (path : Path) :
    (l.visits path).flatMap Visit.records = l.styleRecords := by
  have hthirds : (if l.template = .thirds then [Visit.thirds path l.elements.length] else []).flatMap
      Visit.records = [] := by
    split <;> rfl
  rw [Layer.visits, Layer.styleRecords, List.flatMap_append, List.flatMap_append, hthirds,
    records_parts (fun (e : Element) _ i => e.records_visits (layerElementPath l.template path i)),
    elementRecords_eq_flatMap, List.flatMap_singleton]
  rfl

/-- What is met on the way through a story are the style records of its pages. -/
theorem Story.records_visits (s : Story) :
    s.visits.flatMap Visit.records = s.pages.flatMap Page.styleRecords := by
  have hpage (p : Page) (i : Nat) :
      (p.visits (pagePath i)).flatMap Visit.records = p.styleRecords :=
    records_parts (fun (l : Layer) _ j => l.records_visits ((pagePath i).keyItem "layers" j)) 0
  exact records_parts (fun p _ i => hpage p i) 0

/-- A box without styles of its own asks for a class with the default for boxes. -/
theorem contained_boxStyles {styles : Option StyleRecord} (h : ∀ r ∈ styles, r.Contained) :
    (boxStyles styles).Contained := by
  have hgiven : (styles.getD .empty).Contained := by
    cases styles with
    | none => exact nofun
    | some r => exact h r rfl
  have hentries := Value.contained_object.1 hgiven
  have hdisplay : Contained "display" := by decide
  refine Value.contained_object.2 (List.forall_mem_cons.2 ⟨⟨hdisplay, ?_⟩, fun e he => ?_⟩)
  · show (((styles.getD .empty).get? "display").getD (.string "flex")).Contained
    cases hget : (styles.getD .empty).get? "display" with
    | none => exact Value.contained_string.2 (by decide)
    | some v => exact (hentries _ (Entries.mem_of_get? hget)).2
  · exact hentries e (List.mem_of_mem_filter he)

/-- The records that ask for a class have no mark that the records of the story do not have. -/
theorem contained_of_mem_requests {s : Story} (h : ∀ r ∈ s.styleRecords, r.Contained) :
    ∀ q ∈ s.requests, q.record.Contained := by
  intro q hq
  obtain ⟨v, hv, hrequest⟩ := List.mem_filterMap.1 hq
  have hrecords : ∀ r ∈ v.records, r.Contained := fun r hr =>
    h r (List.mem_append_left _ (s.records_visits ▸ List.mem_flatMap_of_mem hv hr))
  cases v with
  | thirds path count => cases hrequest
  | range path styles =>
    cases hrequest
    exact hrecords _ (List.mem_singleton.2 rfl)
  | own path styles =>
    obtain ⟨r, hr, rfl⟩ := Option.map_eq_some_iff.1 hrequest
    obtain ⟨rfl, -⟩ := Option.filter_eq_some_iff.1 hr
    exact hrecords r (List.mem_singleton.2 rfl)
  | box path styles =>
    cases hrequest
    exact contained_boxStyles fun r hr => hrecords r (Option.mem_toList.2 hr)

/-! ## Rules -/

/-- Neither the selector nor a property nor a value has the mark. -/
def Rule.Contained (r : Rule) : Prop := WebStory.Contained r.selector ∧ r.declarations.Contained

theorem contained_declarations_iff {d : Declarations} : Contained d.text ↔ d.Contained := by
  rw [Contained, Declarations.text, endsStyle_intercalate (by decide), Declarations.Contained]
  simp only [List.mem_map, not_exists, not_and, forall_exists_index, and_imp,
    forall_apply_eq_imp_iff₂, endsStyle_separated (by decide : Separates ":"), not_or]

theorem contained_rules_iff {rules : List Rule} :
    Contained (sheetText rules) ↔ ∀ r ∈ rules, r.Contained := by
  induction rules with
  | nil => exact ⟨fun _ => nofun, fun _ => by decide⟩
  | cons r rest ih =>
    have hjoin : sheetText (r :: rest) = r.text ++ sheetText rest := String.join_cons
    rw [List.forall_mem_cons, ← ih, Rule.Contained, ← contained_declarations_iff, hjoin, Rule.text,
      Contained, endsStyle_separated (by decide), endsStyle_separated (by decide), not_or, not_or]

theorem contained_defaultStyleSelector {name : String} (h : Contained name) :
    Contained (defaultStyleSelector name) := by
  unfold defaultStyleSelector
  split
  · decide
  · split
    · decide
    · split
      · decide
      · cases TextKind.ofName? name with
        | none => exact h
        | some kind =>
          have hexempt : ∀ tag ∈ Tag.flexExempt, Contained tag := by decide
          exact hexempt _ kind.tagName_mem_flexExempt

theorem ensures_defaultRules {styles : List (String × StyleRecord)}
    (h : ∀ e ∈ styles, Contained e.1 ∧ e.2.Contained) :
    Ensures (fun rules => ∀ r ∈ rules, r.Contained) (defaultRules styles) := by
  induction styles with
  | nil => exact ensures_ok nofun
  | cons e rest ih =>
    obtain ⟨name, style⟩ := e
    rw [List.forall_mem_cons] at h
    refine (ensures_convertStyle h.1.2 _).bind fun d hd => (ih h.2).bind fun rules hrules => ?_
    exact ensures_ok (List.forall_mem_cons.2 ⟨⟨contained_defaultStyleSelector h.1.1, hd⟩, hrules⟩)

theorem contained_classSelector (i : Nat) : Contained ("." ++ className i) := by
  have hdigits : ¬EndsStyle (toString (i + 1)).toList := not_endsStyle fun c hc => by
    rintro rfl
    exact absurd (isDigit_of_mem_toString hc) (by decide)
  rw [Contained, className, String.toList_append, String.toList_append]
  exact fun hends => hdigits ((hends.of_append (by simp)).of_append (by simp))

/-- A request adds no rule, or that of its record. -/
theorem contained_rules_assign {t : ClassTable} (h : ∀ rule ∈ t.rules, rule.Contained)
    {r : StyleRecord} (hr : r.Contained) (path : Path) :
    ∀ rule ∈ (t.assign r path).2.rules, rule.Contained := by
  rcases t.assign_cases r path with ⟨_, _, heq⟩ | ⟨_, _, _, heq⟩ | ⟨d, _, hconv, heq⟩
  · rw [heq]
    exact h
  · rw [heq]
    exact h
  · rw [heq, List.forall_mem_append, List.forall_mem_singleton]
    exact ⟨h, contained_classSelector _, ensures_convertStyle hr path d hconv⟩

/-- The rules of classes are those of records that asked for one. -/
theorem contained_rules_assignAll {t : ClassTable} (h : ∀ rule ∈ t.rules, rule.Contained)
    {requests : List ClassRequest} (hrequests : ∀ q ∈ requests, q.record.Contained) :
    ∀ rule ∈ (t.assignAll requests).2.rules, rule.Contained := by
  induction requests generalizing t with
  | nil => exact h
  | cons q rest ih =>
    rw [List.forall_mem_cons] at hrequests
    exact ih (contained_rules_assign h hrequests.1 q.path) hrequests.2

/-! ## The block of a style sheet -/

/-- The tokens of a style sheet that is read as one text. -/
def sheetTokens (sheet : String) : List Token :=
  .openTag "style".toList "<style amp-custom>".toList ::
    (textOf sheet.toList ++ [.closeTag "style".toList "</style>".toList])

/-- A style sheet is read up to the first mark. -/
theorem scan_styleBlock (sheet : String) :
    scan ("<style amp-custom>" ++ sheet ++ "</style>").toList =
      .openTag "style".toList "<style amp-custom>".toList ::
        (textOf (splitBefore styleEnd (sheet.toList ++ (styleEnd ++ ['>']))).1 ++
          scan (splitBefore styleEnd (sheet.toList ++ (styleEnd ++ ['>']))).2) := by
  have hname : isElementName "style".toList = true := by decide
  have hattribute : Closed " amp-custom".toList := closed_of_forall_ne (by simp)
  have htext : ("<style amp-custom>" ++ sheet ++ "</style>").toList =
      opening "style".toList " amp-custom".toList ++ (sheet.toList ++ (styleEnd ++ ['>'])) := by
    rw [String.toList_append, String.toList_append, List.append_assoc]
    rfl
  rw [htext, scan_rawTag rfl (splitTag_opening hname hattribute _)
    (ofTag_opening hname (by simp)) (rfl : rawTextEnd? _ = some styleEnd)]
  rfl

/-- The sheet is one text, with its closing tag behind it, exactly if it has no mark. -/
theorem scan_styleBlock_eq_iff (sheet : String) :
    scan ("<style amp-custom>" ++ sheet ++ "</style>").toList = sheetTokens sheet ↔
      Contained sheet := by
  have hclosing : scan (styleEnd ++ ['>']) = [.closeTag "style".toList "</style>".toList] := by
    decide +kernel
  have hmark : '<' ∉ '/' :: "style".toList := by decide
  rw [scan_styleBlock, sheetTokens, List.cons_inj_right]
  constructor
  · exact fun htokens hends => scan_splitBefore_ne hends _ _ htokens
  · intro hcontained
    have hsplit : splitBefore styleEnd (sheet.toList ++ (styleEnd ++ ['>'])) =
        (sheet.toList, styleEnd ++ ['>']) := splitBefore_of_not_infix hmark hcontained ['>']
    rw [hsplit, hclosing]

/-! ## The style sheet of a document -/

/-- In a document without a style sheet of the author's own, the block of the style sheet is read as
    one text exactly if no selector, no property and no value has `</style`.  None of them has it
    unless a string of a style record or the name of a default style has it. -/
theorem style_sheet_ended_only_by_strings {s : Story} {o : CompileOptions} {document : String}
    (h : compile s o = .ok document) (hcss : s.customCss = none) :
    ∃ defaults body state, defaultRules s.defaultStyles = .ok defaults ∧
      (renderStory s).run .empty = .ok (body, state) ∧
      let sheet := sheetText (defaults ++ state.classes.rules)
      let text := documentText s o state.runtime sheet body
      document = (if o.pretty then indentMarkup text else text) ∧
      -- how the block is read
      (scan ("<style amp-custom>" ++ sheet ++ "</style>").toList = sheetTokens sheet ↔
        Contained sheet) ∧
      -- which parts can have the mark, and from where
      (Contained sheet ↔ ∀ rule ∈ defaults ++ state.classes.rules, rule.Contained) ∧
      ((∀ r ∈ s.styleRecords, r.Contained) → (∀ e ∈ s.defaultStyles, Contained e.1) →
        Contained sheet) := by
  obtain ⟨-, body, state, defaults, hbody, hdefaults, hdocument⟩ := compile_eq_ok_iff.1 h
  refine ⟨defaults, body, state, hdefaults, hbody, ?_, scan_styleBlock_eq_iff _,
    contained_rules_iff, fun hrecords hnames => contained_rules_iff.2 ?_⟩
  · have hsheet : s.customCss.getD "" ++ sheetText defaults ++ sheetText state.classes.rules =
        sheetText (defaults ++ state.classes.rules) := by
      rw [hcss, sheetText, sheetText, sheetText, List.map_append, String.join_append]
      exact congrArg (· ++ _) String.empty_append
    rw [hdocument, Story.documentWith, hsheet]
  · obtain ⟨-, -, rfl⟩ := of_renderStory_eq_ok hbody
    have hstyles : ∀ e ∈ s.defaultStyles, Contained e.1 ∧ e.2.Contained := fun e he =>
      ⟨hnames e he, hrecords _ (List.mem_append_right _ (List.mem_map_of_mem he))⟩
    have hempty : ∀ rule ∈ empty.rules, rule.Contained := nofun
    exact List.forall_mem_append.2 ⟨ensures_defaultRules hstyles defaults hdefaults,
      contained_rules_assignAll hempty (contained_of_mem_requests hrecords)⟩

/-- The style sheet of one color is read as one text. -/
theorem style_sheet_of_one_color :
    let red : StyleRecord := ⟨[("color", .string "red")]⟩
    let s : Story :=
      { title := none, canonicalUrl := none, preview := none, storyMeta := none, customCss := none
        defaultStyles := [("p", red)], pages := [⟨"p", none, [⟨.vertical, some red, []⟩]⟩]
        analytics := [], ads := none, bookendConfigSrc := none }
    (compile s .standard).isOk = true ∧ s.customCss = none ∧ (∀ r ∈ s.styleRecords, r.Contained) ∧
      ∃ body runtime sheet, compile s .standard = .ok (documentText s .standard runtime sheet body) ∧
        scan ("<style amp-custom>" ++ sheet ++ "</style>").toList = sheetTokens sheet := by
  intro red s
  have hisOk : (compile s .standard).isOk = true := by decide +kernel
  have hred : red.Contained := by
    have hstrings : ∀ x ∈ red.toValue.strings, Contained x := by decide
    exact hstrings
  have hrecords : ∀ r ∈ s.styleRecords, r.Contained := by
    have hall : s.styleRecords = [red, red] := rfl
    rw [hall]
    simpa using hred
  obtain ⟨document, hdocument⟩ := exists_eq_ok hisOk
  obtain ⟨defaults, body, state, -, -, heq, htokens, -, hcontained⟩ :=
    style_sheet_ended_only_by_strings hdocument rfl
  have hname : ∀ e ∈ s.defaultStyles, Contained e.1 :=
    List.forall_mem_singleton.2 (by decide : Contained "p")
  exact ⟨hisOk, rfl, hrecords, body, _, _, hdocument.trans (congrArg _ heq),
    htokens.2 (hcontained hrecords hname)⟩

/-- A value that holds the closing tag of a style sheet ends the sheet. -/
theorem style_value_ends_sheet :
    let value : Json.Value := .object [("pages", .array [.object [("layers", .array [.object
      [("template", .string "vertical"),
        ("styles", .object [("color", .string "</style>")])]])]])]
    let sheet := ".s-1\x7bcolor:</style>;grid-gap:0\x7d"
    let body := "<amp-story standalone><amp-story-page id=\"page-0\"><amp-story-grid-layer " ++
      "template=\"vertical\" class=\"s-1\"></amp-story-grid-layer></amp-story-page></amp-story>"
    ∃ s, parseStory value = .ok s ∧ s.customCss = none ∧ s.storyMeta.isNone = true ∧
      compile s .standard = .ok (documentText s .standard [] sheet body) ∧ ¬Contained sheet ∧
      scan ("<style amp-custom>" ++ sheet ++ "</style>").toList =
        [.openTag "style".toList "<style amp-custom>".toList, .text ".s-1\x7bcolor:".toList,
          .closeTag "style".toList "</style>".toList, .text ";grid-gap:0\x7d".toList,
          .closeTag "style".toList "</style>".toList] := by
  intro value sheet body
  obtain ⟨s, hs⟩ := exists_eq_ok (x := parseStory value) (by decide +kernel)
  have hauthor : (do return ((← parseStory value).customCss, (← parseStory value).storyMeta.isNone) :
      Except Error _).toOption = some (none, true) := by decide +kernel
  have hcompiled : (do compile (← parseStory value) .standard).toOption =
      (do return documentText (← parseStory value) .standard [] sheet body :
        Except Error String).toOption := by decide +kernel
  rw [hs] at hauthor hcompiled
  obtain ⟨hcss, hmeta⟩ := Prod.mk.inj (Option.some.inj hauthor)
  exact ⟨s, hs, hcss, hmeta, eq_ok_of_toOption hcompiled, by decide, by decide +kernel⟩

end WebStory
