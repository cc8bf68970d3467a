import Mathlib.Data.List.ReduceOption
import WebStory.Proofs.Document.GridAreas
import WebStory.Proofs.Document.Indentation
import WebStory.Proofs.Markup.Ended
import WebStory.Proofs.Story.Sources
/-
  Which ids the pages of a document have.

  1. **Places** — a page has the id that it is given, or one that is made of its place.  The made
     ones differ from each other, as the places do (`defaultPageId_injective`); but nothing keeps a
     page from being given the id that is made for another one.  So the ids of the pages are
     distinct exactly if the given ones are and none of them is that of the place of a page without
     one (`nodup_idsFrom_iff`).  The induction goes over the pages with the place of the first as a
     variable, so what is asked of the rest is asked at its own places.

  2. **Values** — what a page is given is read off the value that the story was read from, without
     its parser (`givenPageIds`), and the parser puts just these ids, or those of the places, into
     the story (`ids_of_parseStory`).

  3. **Tags** — the tags of pages are found in a body by their name.  Elements and blocks have other
     names, so there is one tag for each page and in order (`gathers_pages`), and it carries the id
     of its page and no other one (`map_carriedIds_readTag`).  An empty id is not written, so such a
     page carries none.

  4. **Documents** — around the body there are no tags of pages unless the author writes them there
     (`pageTags_documentWith`).  Metadata given as text are the only place where this can be done.
-/

namespace WebStory

open Json Token ClassTable

/-! ## Ids by places -/

theorem defaultPageId_injective {i j : Nat} (h : defaultPageId i = defaultPageId j) : i = j := by
  unfold defaultPageId at h
  rw [String.append_right_inj] at h
  exact toString_injective h

theorem defaultPageId_ne_empty (i : Nat) : defaultPageId i ≠ "" := by
  intro h
  have hchars := congrArg String.toList h
  rw [defaultPageId, String.toList_append] at hchars
  exact absurd (List.append_eq_nil_iff.1 hchars).1 (by decide)

/-- The ids of pages, the first of them in a certain place: those that are given, and for a page without
    one that of its place. -/
def idsFrom (place : Nat) (given : List (Option String)) : List String :=
  (given.zipIdx place).map fun x => x.1.getD (defaultPageId x.2)

/-- No page is given the id of the place of a page without one. -/
def SeparateFrom (place : Nat) (given : List (Option String)) : Prop :=
  ∀ i, (none, i) ∈ given.zipIdx place → defaultPageId i ∉ given.reduceOption

theorem mem_idsFrom {place : Nat} {given : List (Option String)} {id : String} :
    id ∈ idsFrom place given ↔
      id ∈ given.reduceOption ∨ ∃ i, (none, i) ∈ given.zipIdx place ∧ id = defaultPageId i := by
  rw [idsFrom, List.mem_map, List.reduceOption_mem_iff]
  constructor
  · rintro ⟨⟨given?, i⟩, hmem, rfl⟩
    cases given? with
    | none => exact Or.inr ⟨i, hmem, rfl⟩
    | some id => exact Or.inl (List.fst_mem_of_mem_zipIdx hmem)
  · rintro (hmem | ⟨i, hmem, rfl⟩)
    · rw [← List.zipIdx_map_fst place given, List.mem_map] at hmem
      obtain ⟨⟨_, i⟩, hmem, rfl⟩ := hmem
      exact ⟨_, hmem, rfl⟩
    · exact ⟨_, hmem, rfl⟩

/-- The ids of pages are distinct if those that are given are, and are none of those that are made. -/
theorem nodup_idsFrom_iff (place : Nat) (given : List (Option String)) :
    (idsFrom place given).Nodup ↔ given.reduceOption.Nodup ∧ SeparateFrom place given := by
  induction given generalizing place with
  | nil => exact ⟨fun _ => ⟨List.nodup_nil, nofun⟩, fun _ => List.nodup_nil⟩
  | cons given? rest ih =>
    have hcons : idsFrom place (given? :: rest) =
        given?.getD (defaultPageId place) :: idsFrom (place + 1) rest := rfl
    have hplaces {i : Nat} : (none, i) ∈ (given? :: rest).zipIdx place ↔
        (given? = none ∧ i = place) ∨ (none, i) ∈ rest.zipIdx (place + 1) := by
      rw [List.zipIdx_cons, List.mem_cons, Prod.mk.injEq, eq_comm (a := none)]
    rw [hcons, List.nodup_cons, mem_idsFrom, ih]
    unfold SeparateFrom
    simp only [hplaces]
    cases given? with
    | none =>
      rw [List.reduceOption_cons_of_none, Option.getD_none]
      -- the id that is made for the first page is not made for another one
      have hmade : ¬∃ i, (none, i) ∈ rest.zipIdx (place + 1) ∧ defaultPageId place = defaultPageId i := by
        rintro ⟨i, hmem, hid⟩
        have hle := List.le_snd_of_mem_zipIdx hmem
        rw [defaultPageId_injective hid] at hle
        exact absurd hle (by simp)
      constructor
      · rintro ⟨hfirst, hnodup, hrest⟩
        refine ⟨hnodup, ?_⟩
        rintro i (⟨-, rfl⟩ | hmem)
        · exact fun hgiven => hfirst (Or.inl hgiven)
        · exact hrest i hmem
      · rintro ⟨hnodup, hall⟩
        refine ⟨?_, hnodup, fun i hmem => hall i (Or.inr hmem)⟩
        rintro (hgiven | h)
        · exact hall place (Or.inl ⟨rfl, rfl⟩) hgiven
        · exact hmade h
    | some id =>
      rw [List.reduceOption_cons_of_some, Option.getD_some, List.nodup_cons]
      constructor
      · rintro ⟨hfirst, hnodup, hrest⟩
        refine ⟨⟨fun hgiven => hfirst (Or.inl hgiven), hnodup⟩, ?_⟩
        rintro i (⟨h, -⟩ | hmem)
        · cases h
        · intro hgiven
          rcases List.mem_cons.1 hgiven with hid | hgiven
          · exact hfirst (Or.inr ⟨i, hmem, hid.symm⟩)
          · exact hrest i hmem hgiven
      · rintro ⟨⟨hfirst, hnodup⟩, hall⟩
        refine ⟨?_, hnodup, fun i hmem hgiven => hall i (Or.inr hmem) (List.mem_cons_of_mem _ hgiven)⟩
        rintro (hgiven | ⟨i, hmem, rfl⟩)
        · exact hfirst hgiven
        · exact hall i (Or.inr hmem) List.mem_cons_self

/-! ## Ids in a story value -/

/-- The id that a page is given, if it is given one. -/
def givenPageId? : Value → Option String
  | .object members =>
    match present? members "id" with
    | some (.string id) => some id
    | _ => none
  | _ => none

/-- What the pages of a story are given as ids, in order. -/
def givenPageIds : Value → List (Option String)
  | .object members => (listUnder members "pages").map givenPageId?
  | _ => []

theorem id_of_parsePage {path : Path} {index : Nat} {v : Value} {p : Page}
    (h : parsePage path index v = .ok p) : p.id = (givenPageId? v).getD (defaultPageId index) := by
  obtain ⟨members, rfl⟩ := exists_members_of_parseObject h
  rw [parsePage] at h
  obtain ⟨_, hmembers, h⟩ := exists_of_bind_eq_ok h
  obtain rfl := Except.ok.inj hmembers
  obtain ⟨layers, -, h⟩ := exists_of_bind_eq_ok h
  obtain ⟨id?, hid, h⟩ := exists_of_bind_eq_ok h
  obtain ⟨advance, -, h⟩ := exists_of_bind_eq_ok h
  obtain rfl := Except.ok.inj h
  have hgiven : givenPageId? (.object members) = id? := by
    unfold optionalString at hid
    rw [givenPageId?]
    split at hid
    · next hnone =>
      rw [hnone]
      exact Except.ok.inj hid
    · next id hsome =>
      rw [hsome]
      exact Except.ok.inj hid
    · cases hid
  rw [hgiven]

/-- The pages of a story have the ids that they are given, or those of their places. -/
theorem ids_of_parseStory {v : Value} {s : Story} (h : parseStory v = .ok s) :
    s.pages.map (·.id) = idsFrom 0 (givenPageIds v) := by
  obtain ⟨members, rfl⟩ := exists_members_of_parseObject h
  have hpages := (indexed_parseStory members s h).imp fun x p hp => (id_of_parsePage hp).symm
  rw [← List.forall₂_map_right_iff, ← List.forall₂_map_left_iff, List.forall₂_eq_eq_eq] at hpages
  rw [← hpages, idsFrom, givenPageIds, List.zipIdx_map, List.map_map]
  rfl

/-! ## Tags of pages -/

/-- The tags of pages in some markup, as they are read. -/
def pageTags (markup : String) : List (Option (String × List Attribute)) :=
  (scan markup.toList).flatMap (tagsNamed ["amp-story-page"])

/-- The value of an attribute with a name. -/
def valueNamed? (name : String) : Attribute → Option String
  | .text other value => if other = name then some value else none
  | .flag _ => none

/-- The ids that a tag carries. -/
def carriedIds : Option (String × List Attribute) → List String
  | some (_, attributes) => attributes.filterMap (valueNamed? "id")
  | none => []

theorem named_pageTag (p : Page) : (pageTag p).AllNames IsName :=
  Tag.allNames_ofName "amp-story-page"
    |>.attr (by decide) p.id
    |>.optAttr (by decide) (p.autoAdvanceAfter.map AutoAdvance.text)

/-- What is read of the tag of a page, where the classes have certain names. -/
def Page.readTag (name : Naming) (p : Page) : Option (String × List Attribute) :=
  let t := pageTag p
  some (t.name, t.allAttributes
    (Tag.joinClasses t.explicitClass (stylesClass name (Tag.effectiveStyles t.name t.styles))))

/-- A page carries its id, if it is not empty, and no other one. -/
theorem carriedIds_readTag {p : Page} (hid : p.id ≠ "") (name : Naming) :
    carriedIds (p.readTag name) = [p.id] := by
  have hother {name : String} (hname : name ≠ "id") (value : Option String) :
      (value.map (Attribute.text name)).toList.filterMap (valueNamed? "id") = [] := by
    cases value <;> simp [valueNamed?, hname]
  have hown : (pageTag p).attributes.filterMap (valueNamed? "id") = [p.id] := by
    have hattr : ((Tag.ofName "amp-story-page").attr "id" p.id).attributes =
        [Attribute.text "id" p.id] := by
      rw [Tag.attr, if_neg (by rwa [String.isEmpty_iff])]
      rfl
    unfold pageTag Tag.optAttr
    split
    · next advance _ =>
      rw [Tag.attr]
      split
      · rw [hattr]
        rfl
      · rw [hattr]
        rfl
    · rw [hattr]
      rfl
  unfold carriedIds Page.readTag Tag.allAttributes
  simp only [List.filterMap_append, hown, hother (by decide : "width" ≠ "id"),
    hother (by decide : "height" ≠ "id"), hother (by decide : "src" ≠ "id"),
    hother (by decide : "class" ≠ "id"), hother (by decide : "grid-area" ≠ "id"), List.append_nil]

/-- Pages whose ids are not empty carry them. -/
theorem map_carriedIds_readTag {pages : List Page} (hid : ∀ p ∈ pages, p.id ≠ "") (name : Naming) :
    (pages.map (Page.readTag name)).map carriedIds = pages.map fun p => [p.id] := by
  rw [List.map_map]
  exact List.map_congr_left fun p hp => carriedIds_readTag (hid p hp) name

section Gathers

variable {name : Naming} (hname : name.Plain)
include hname

/-- Of the tags in a page, only its own is one of a page. -/
theorem gathers_page (p : Page) :
    Gathers (tagsNamed ["amp-story-page"]) (p.markup name).toList [p.readTag name] := by
  have htag : (pageTag p).name = "amp-story-page" := by simp [pageTag]
  have hlayers := gathers_layers (by decide : ∀ tag ∈ innerNames, tag ∉ ["amp-story-page"]) hname
    p.layers
  rw [foundTags_eq_nil (by decide)] at hlayers
  rw [Page.markup]
  refine gathers_wrap_of_mem (named_pageTag p) ?_ ?_ ?_ hlayers
  · rw [htag]
    decide
  · rw [htag]
    decide
  · rw [htag]
    exact List.mem_singleton.2 rfl

/-- The tags of pages in the markup of a story are those of its pages. -/
theorem gathers_pages (s : Story) :
    Gathers (tagsNamed ["amp-story-page"]) (s.markup name).toList (s.pages.map (Page.readTag name)) := by
  have htag : (storyTag s).name = "amp-story" := by simp [storyTag]
  have hpages := gathers_join fun p (_ : p ∈ s.pages) => gathers_page hname p
  rw [← List.map_eq_flatMap] at hpages
  rw [Story.markup]
  refine gathers_partTag (clean_storyTag s) ?_ ?_ ((gathers_blocks (by decide) s).concat hpages)
  · rw [htag]
    decide
  · rw [htag]
    decide

end Gathers

/-! ## Tags in a document -/

theorem skipsFrame_tagsNamed {names : List String} (h : ∀ tag ∈ frameNames, tag ∉ names) :
    SkipsFrame (tagsNamed names) where
  declaration _ := rfl
  text := tagsNamed_text
  closeTag := tagsNamed_closeTag
  frame name hname := tagsNamed_of_not_mem (h name hname)

/-- No script is a page. -/
theorem flatMap_pageTag_script (tags : List String) :
    (tags.flatMap fun tag => tagsNamed ["amp-story-page"] (.script tag)) = [] :=
  List.flatMap_eq_nil_iff.2 fun tag _ =>
    tagsNamed_of_not_mem (by decide : "script" ∉ ["amp-story-page"]) tag.toList

section Document

variable {s : Story} {o : CompileOptions} (hhost : ∀ c ∈ o.runtimeHost.toList, c ≠ '"')
  (hversion : ∀ c ∈ o.storyVersion.toList, c ≠ '"') (runtime : List RuntimeComponent)
  {sheet body : String} (hsheet : Contained sheet)
include hhost hversion hsheet

/-- What is collected from a document is collected from its scripts, its metadata and its body. -/
theorem gathers_documentText {α : Type} {g : Token → List α} (hg : SkipsFrame g) {out more : List α}
    (hmeta : Gathers g ((s.storyMeta.map renderMetadata).getD "").toList out)
    (hbody : Gathers g body.toList more) : Gathers g (documentText s o runtime sheet body).toList
      ((runtimeTags o runtime).flatMap (fun tag => g (.script tag)) ++ out ++ more) := by
  have hdoctype : "<!doctype html>".toList = '<' :: ('!' :: "doctype html".toList) ++ ['>'] := by
    decide
  have hdeclaration := gathers_declaration (g := g) (closed_of_forall_ne (by simp) :
    Closed "doctype html".toList)
  have hopening := gathers_frameTag hg (by decide : "html" ∈ frameNames) rfl
    (head?_documentAttributes o) (closed_documentAttributes o)
  have hhead := gathers_headText hg runtime hhost hversion hsheet hmeta
  have hbody := gathers_frameElement hg (by decide : "body" ∈ frameNames) rfl hbody
  have hclosing := gathers_frameClosing hg (by decide : "html" ∈ frameNames)
  have hdocument := hdeclaration.append ((hopening.append (hhead.append hbody)).append hclosing)
  rw [hg.declaration, List.nil_append, List.nil_append, List.append_nil] at hdocument
  rw [toList_documentText, hdoctype]
  exact hdocument

/-- The tags of pages in a document are those in the metadata and in the body. -/
theorem pageTags_documentText {out more : List (Option (String × List Attribute))}
    (hmeta : Gathers (tagsNamed ["amp-story-page"])
      ((s.storyMeta.map renderMetadata).getD "").toList out)
    (hbody : Gathers (tagsNamed ["amp-story-page"]) body.toList more) :
    pageTags (documentText s o runtime sheet body) = out ++ more := by
  have hdocument := gathers_documentText hhost hversion runtime hsheet (skipsFrame_tagsNamed (by decide)) hmeta
    hbody
  rw [flatMap_pageTag_script, List.nil_append] at hdocument
  exact hdocument.flatMap_scan

end Document

section Story

variable {name : Naming} (hname : name.Plain) {s : Story}
include hname

theorem pageTags_markup : pageTags (s.markup name) = s.pages.map (Page.readTag name) :=
  (gathers_pages hname s).flatMap_scan

/-- The tags of pages in a document are those of its pages, if the author writes no markup into the head:
    neither metadata that are fields nor the printer add any. -/
theorem pageTags_documentWith {o : CompileOptions} (hhost : ∀ c ∈ o.runtimeHost.toList, c ≠ '"')
    (hversion : ∀ c ∈ o.storyVersion.toList, c ≠ '"') (hmeta : ∀ markup, s.storyMeta ≠ some (.raw markup))
    {runtime : List RuntimeComponent} {defaults classes : List Rule}
    (hsheet : Contained (s.customCss.getD "" ++ sheetText defaults ++ sheetText classes)) :
    pageTags (s.documentWith o runtime defaults classes (s.markup name)) =
      s.pages.map (Page.readTag name) := by
  have hmetadata := gathers_metadata
    (skipsFrame_tagsNamed (by decide : ∀ tag ∈ frameNames, tag ∉ ["amp-story-page"])) hmeta
  rw [flatMap_pageTag_script] at hmetadata
  have hcompact := pageTags_documentText hhost hversion runtime hsheet hmetadata (gathers_pages hname s)
  rw [List.nil_append] at hcompact
  obtain ⟨_, -, hstory⟩ := exists_reads_story hname s
  have hpiece := piece_documentText hhost hversion hmeta runtime hsheet ⟨_, hstory⟩
  unfold Story.documentWith
  split
  · rw [pageTags, flatMap_scan_indentMarkup tagsNamed_text hpiece]
    exact hcompact
  · exact hcompact

end Story

/-! ## Compiled stories -/

/-- No page has an empty id if none is given one. -/
theorem id_ne_empty_of_parseStory {v : Value} {s : Story} (h : parseStory v = .ok s)
    (hgiven : some "" ∉ givenPageIds v) : ∀ p ∈ s.pages, p.id ≠ "" := by
  intro p hp hempty
  have hmem : "" ∈ idsFrom 0 (givenPageIds v) := by
    rw [← ids_of_parseStory h, ← hempty]
    exact List.mem_map_of_mem hp
  rcases mem_idsFrom.1 hmem with hmem | ⟨i, -, hid⟩
  · exact hgiven (List.reduceOption_mem_iff.1 hmem)
  · exact defaultPageId_ne_empty i hid.symm

/-- The tags of pages in the body of a document are those of the pages of its story, and where no page
    is given an empty id, each carries one id: that which its page is given, or that of its place.
    These ids are distinct exactly if those that are given are, and none of them is that of the place
    of a page without one.  The document has no other tags of pages, unless its author writes markup
    into the head. -/
theorem pageIds_of_compile {v : Value} {s : Story} {o : CompileOptions} {document : String}
    (hparse : parseStory v = .ok s) (hcompile : compile s o = .ok document)
    (hgiven : some "" ∉ givenPageIds v) :
    ∃ body state defaults, (renderStory s).run .empty = .ok (body, state) ∧
      defaultRules s.defaultStyles = .ok defaults ∧
      document = s.documentWith o state.runtime defaults state.classes.rules body ∧
      (pageTags body).map carriedIds = (idsFrom 0 (givenPageIds v)).map ([·]) ∧
      (((pageTags body).map carriedIds).Nodup ↔
        (givenPageIds v).reduceOption.Nodup ∧ SeparateFrom 0 (givenPageIds v)) ∧
      -- that the rest of the document has no tags of pages
      ((∀ c ∈ o.runtimeHost.toList, c ≠ '"') → (∀ c ∈ o.storyVersion.toList, c ≠ '"') →
        (∀ markup, s.storyMeta ≠ some (.raw markup)) →
        Contained (s.customCss.getD "" ++ sheetText defaults ++ sheetText state.classes.rules) →
        pageTags document = pageTags body) := by
  obtain ⟨-, body, state, defaults, hrun, hdefaults, rfl⟩ := compile_eq_ok_iff.1 hcompile
  obtain ⟨-, rfl, -⟩ := of_renderStory_eq_ok hrun
  have hname := plain_number (firstOccurrences s.requests)
  have hcarried := map_carriedIds_readTag (id_ne_empty_of_parseStory hparse hgiven)
    (number (firstOccurrences s.requests))
  rw [← pageTags_markup hname] at hcarried
  have hplaced : s.pages.map (fun p => [p.id]) = (idsFrom 0 (givenPageIds v)).map ([·]) := by
    rw [← ids_of_parseStory hparse, List.map_map]
    rfl
  have hinjective : Function.Injective fun id : String => [id] :=
    fun _ _ h => List.head_eq_of_cons_eq h
  refine ⟨_, state, defaults, hrun, hdefaults, rfl, hcarried.trans hplaced, ?_,
    fun hhost hversion hmeta hsheet => ?_⟩
  · rw [hcarried, hplaced, List.nodup_map_iff hinjective, nodup_idsFrom_iff]
  · rw [pageTags_documentWith hname hhost hversion hmeta hsheet, pageTags_markup hname]

/-- Pages with ids and without them, in any order. -/
theorem pageIds_of_mixed :
    let v : Value := .object [("pages", .array [.object [("id", .string "cover")], .object [],
      .object [("id", .string "page-7")], .object [("id", .null)]])]
    some "" ∉ givenPageIds v ∧ ∃ s document, parseStory v = .ok s ∧
      compile s .standard = .ok document ∧
      (pageTags document).map carriedIds = [["cover"], ["page-1"], ["page-7"], ["page-3"]] ∧
      ((pageTags document).map carriedIds).Nodup := by
  intro v
  let s : Story :=
    { title := none, canonicalUrl := none, preview := none, storyMeta := none, customCss := none
      defaultStyles := [], analytics := [], ads := none, bookendConfigSrc := none
      pages := [⟨"cover", none, []⟩, ⟨"page-1", none, []⟩, ⟨"page-7", none, []⟩,
        ⟨"page-3", none, []⟩] }
  have hgiven : some "" ∉ givenPageIds v := by decide
  have hparse : parseStory v = .ok s := rfl
  obtain ⟨document, hcompile⟩ := exists_eq_ok (x := compile s .standard) (by decide +kernel)
  obtain ⟨body, state, defaults, hrun, hdefaults, -, hids, hdistinct, htags⟩ :=
    pageIds_of_compile hparse hcompile hgiven
  have hcontained : ((renderStory s).run .empty).toOption.map (fun x =>
      decide (Contained ("" ++ sheetText [] ++ sheetText x.2.classes.rules))) = some true := by
    decide +kernel
  obtain rfl : [] = defaults := Except.ok.inj hdefaults
  rw [hrun] at hcontained
  have hplaces : ∀ x ∈ (givenPageIds v).zipIdx,
      x.1 = none → defaultPageId x.2 ∉ (givenPageIds v).reduceOption := by decide
  have hseparate : SeparateFrom 0 (givenPageIds v) := fun i hmem => hplaces (none, i) hmem rfl
  refine ⟨hgiven, s, document, hparse, hcompile, ?_⟩
  rw [htags (by simp [CompileOptions.standard]) (by simp [CompileOptions.standard]) (by simp [s])
    (of_decide_eq_true (Option.some.inj hcontained))]
  exact ⟨hids, hdistinct.2 ⟨by decide, hseparate⟩⟩

/-- How a story without default styles is compiled, if its classes do not end the style sheet. -/
theorem exists_compile_eq_ok {s : Story} (hdefaults : s.defaultStyles = [])
    (hisOk : (compile s .standard).isOk = true)
    (hcontained : ((renderStory s).run .empty).toOption.map (fun x =>
      decide (Contained (s.customCss.getD "" ++ sheetText [] ++ sheetText x.2.classes.rules))) =
        some true) :
    ∃ runtime classes, Contained (s.customCss.getD "" ++ sheetText [] ++ sheetText classes) ∧
      compile s .standard = .ok (s.documentWith .standard runtime [] classes
        (s.markup (number (firstOccurrences s.requests)))) := by
  obtain ⟨document, hcompile⟩ := exists_eq_ok hisOk
  obtain ⟨-, body, state, defaults, hrun, hrules, rfl⟩ := compile_eq_ok_iff.1 hcompile
  obtain ⟨-, rfl, -⟩ := of_renderStory_eq_ok hrun
  rw [hdefaults] at hrules
  obtain rfl : [] = defaults := Except.ok.inj hrules
  rw [hrun] at hcontained
  exact ⟨state.runtime, state.classes.rules, of_decide_eq_true (Option.some.inj hcontained), hcompile⟩

/-- A page can be given the id of the place of another one, which then has the same id; and metadata
    that the author writes can hold the tag of a page without any. -/
theorem pageIds_clash_and_readyMade :
    let clash : Value :=
      .object [("pages", .array [.object [("id", .string "page-1")], .object []])]
    let readyMade : Value := .object [("pages", .array [.object [("id", .string "cover")]]),
      ("meta", .string "<amp-story-page>")]
    (givenPageIds clash = [some "page-1", none] ∧ ∃ s document, parseStory clash = .ok s ∧
      compile s .standard = .ok document ∧
      (pageTags document).map carriedIds = [["page-1"], ["page-1"]]) ∧
    (givenPageIds readyMade = [some "cover"] ∧ ∃ s document, parseStory readyMade = .ok s ∧
      compile s .standard = .ok document ∧ (pageTags document).map carriedIds = [[], ["cover"]]) := by
  intro clash readyMade
  have hhost : ∀ c ∈ CompileOptions.standard.runtimeHost.toList, c ≠ '"' := by
    simp [CompileOptions.standard]
  have hversion : ∀ c ∈ CompileOptions.standard.storyVersion.toList, c ≠ '"' := by
    simp [CompileOptions.standard]
  constructor
  · let s : Story :=
      { title := none, canonicalUrl := none, preview := none, storyMeta := none, customCss := none
        defaultStyles := [], analytics := [], ads := none, bookendConfigSrc := none
        pages := [⟨"page-1", none, []⟩, ⟨"page-1", none, []⟩] }
    have hid : ∀ p ∈ s.pages, p.id ≠ "" := by decide
    obtain ⟨runtime, classes, hsheet, hcompile⟩ :=
      exists_compile_eq_ok (s := s) rfl (by decide +kernel) (by decide +kernel)
    refine ⟨rfl, s, _, rfl, hcompile, ?_⟩
    rw [pageTags_documentWith (s := s) (plain_number _) hhost hversion (by simp [s]) hsheet,
      map_carriedIds_readTag hid]
    rfl
  · let s : Story :=
      { title := none, canonicalUrl := none, preview := none, customCss := none
        storyMeta := some (.raw "<amp-story-page>"), defaultStyles := [], analytics := [], ads := none
        bookendConfigSrc := none, pages := [⟨"cover", none, []⟩] }
    have hid : ∀ p ∈ s.pages, p.id ≠ "" := by decide
    obtain ⟨runtime, classes, hsheet, hcompile⟩ :=
      exists_compile_eq_ok (s := s) rfl (by decide +kernel) (by decide +kernel)
    refine ⟨rfl, s, _, rfl, hcompile, ?_⟩
    -- the tag in the metadata stands ahead of that of the page
    have hopening := gathers_opening (g := tagsNamed ["amp-story-page"])
      (by decide : isElementName "amp-story-page".toList = true) (by simp) closed_nil rfl
    have hread : tagsNamed ["amp-story-page"] (.openTag "amp-story-page".toList
        (opening "amp-story-page".toList [])) = [some ("amp-story-page", [])] := by decide +kernel
    have hraw : opening "amp-story-page".toList [] = "<amp-story-page>".toList := by decide
    rw [hread, hraw] at hopening
    have htags := pageTags_documentText (s := s) hhost hversion runtime hsheet hopening
      (gathers_pages (plain_number (firstOccurrences s.requests)) s)
    have hdocument : (pageTags (s.documentWith .standard runtime [] classes
        (s.markup (number (firstOccurrences s.requests))))) = _ := htags
    rw [hdocument, List.map_append, map_carriedIds_readTag hid]
    rfl

end WebStory
