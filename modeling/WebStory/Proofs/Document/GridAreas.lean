import WebStory.Proofs.Document.Compile
import WebStory.Proofs.Document.Selectors
import WebStory.Proofs.Markup.Attributes
import WebStory.Proofs.Markup.Spans
/-
  Which elements have a grid area.

  1. **Spots** — beside an element stands its spot: directly in a layer, at an index, or in a
     container.  Only a spot in a layer of thirds has an area (`Spot.area?`), so among an element
     and all that is inside it there is no area but its own (`Element.areas_spots`), and in a layer
     of thirds there are three, in order (`Layer.areas_spots`).

  2. **Tags** — the index of an element in its layer reaches the tag of this element and no tag
     inside it, so the tag has the grid area of the spot and no other one
     (`gridAreas_ownAttributes`).

  3. **Reading** — the tags of elements are found in a body by their names, and they are those of
     the elements of the story, each element in front of those inside it (`gathers_spots`, by
     induction over the element).  Texts, spans, sources, blocks and scripts are passed over, as
     nothing in them is read as such a tag.  Which names are looked for is left open as far as
     possible, as other questions about a body ask for other names.

  In this way a body of which nothing is known but the text answers the question: each of its tags
  is that of one spot, with the attributes of this spot (`gridAreas_of_compile`).
-/

namespace WebStory

open Token ClassTable

/-! ## Spots -/

/-- Where an element stands. -/
inductive Spot where
  /-- Directly in a layer, at an index. -/
  | direct (template : LayerTemplate) (index : Nat)
  /-- In a container, at any depth. -/
  | nested

namespace Spot

/-- The grid area of a spot: thirds have one, from the top to the bottom. -/
def area? : Spot → Option String
  | .direct .thirds 0 => some "upper-third"
  | .direct .thirds 1 => some "middle-third"
  | .direct .thirds 2 => some "lower-third"
  | _ => none

def third : Spot → Option Nat
  | .direct template index => layerThird template index
  | .nested => none

theorem bind_gridArea? (spot : Spot) : spot.third.bind Tag.gridArea? = spot.area? := by
  rcases spot with ⟨_ | _ | _ | _, _ | _ | _ | index⟩ | _ <;> rfl

end Spot

mutual

/-- An element and all elements inside it, each behind the one around it, with their spots. -/
def Element.spots (spot : Spot) : Element → List (Spot × Element)
  | .container id styles elements => (spot, .container id styles elements) :: nestedSpots elements
  | .text t => [(spot, .text t)]
  | .image i => [(spot, .image i)]
  | .video v => [(spot, .video v)]

def nestedSpots : List Element → List (Spot × Element)
  | [] => []
  | e :: rest => e.spots .nested ++ nestedSpots rest

end

theorem nestedSpots_eq_flatMap (elements : List Element) :
    nestedSpots elements = elements.flatMap (Element.spots .nested) := by
  induction elements with
  | nil => rfl
  | cons e rest ih => rw [nestedSpots, ih, List.flatMap_cons]

/-- Whatever is inside an element, the only grid area among the spots is that of its own. -/
theorem Element.areas_spots (e : Element) (spot : Spot) :
    (e.spots spot).filterMap (·.1.area?) = spot.area?.toList := by
  induction e using Element.induct generalizing spot with
  | container id styles elements ih =>
    have hinside : (nestedSpots elements).filterMap (·.1.area?) = [] := by
      rw [nestedSpots_eq_flatMap, List.filterMap_flatMap, List.flatMap_eq_nil_iff]
      exact fun e he => ih e he .nested
    rw [Element.spots, List.filterMap_cons, hinside]
    cases spot.area? <;> rfl
  | _ => cases h : spot.area? <;> simp [Element.spots, h]

def Layer.spots (l : Layer) : List (Spot × Element) :=
  l.elements.zipIdx.flatMap fun (e, index) => e.spots (.direct l.template index)

/-- Of the elements of a layer and all inside them, those of thirds have the three areas in order. -/
theorem Layer.areas_spots (l : Layer) (h : l.template = .thirds → l.elements.length = 3) :
    l.spots.filterMap (·.1.area?) =
      if l.template = .thirds then ["upper-third", "middle-third", "lower-third"] else [] := by
  obtain ⟨template, styles, elements⟩ := l
  have hareas : (Layer.mk template styles elements).spots.filterMap (·.1.area?) =
      elements.zipIdx.flatMap fun x => (Spot.direct template x.2).area?.toList := by
    rw [Layer.spots, List.filterMap_flatMap]
    exact List.flatMap_congr fun x _ => x.1.areas_spots _
  rw [hareas]
  by_cases hthirds : template = .thirds
  · subst hthirds
    obtain ⟨a, b, c, rfl⟩ := List.length_eq_three.1 (h rfl)
    rfl
  · rw [if_neg hthirds, List.flatMap_eq_nil_iff]
    intro x _
    cases template with
    | thirds => exact absurd rfl hthirds
    | _ => rfl

def Story.spots (s : Story) : List (Spot × Element) :=
  s.pages.flatMap fun p => p.layers.flatMap Layer.spots

/-! ## Tags of elements -/

/-- The names of the tags of elements. -/
def elementNames : List String :=
  ["div", "amp-img", "amp-video", "p", "h1", "h2", "h3", "h4", "h5", "h6"]

/-- The tags of elements in a body, as they are read. -/
def elementTags (body : String) : List (Option (String × List Attribute)) :=
  (scan body.toList).flatMap (tagsNamed elementNames)

/-- The tag of an element itself. -/
def Element.ownTag (third : Option Nat) : Element → Tag
  | .container id styles _ => containerTag id styles third
  | .text t => textTag t third
  | .image i => imageTag i third
  | .video v => videoTag v third

section OwnTag

variable (third : Option Nat) (e : Element)

theorem name_ownTag : (e.ownTag third).name = e.type.tagName := by
  cases e <;> simp [Element.ownTag, Element.type, ElementType.tagName, containerTag, textTag,
    imageTag, videoTag]

theorem named_ownTag : (e.ownTag third).AllNames (· ∈ elementAttributes) := by
  cases e with
  | container id styles elements => exact named_containerTag third id styles
  | text t => exact named_textTag third t
  | image i => exact named_imageTag third i
  | video v => exact named_videoTag third v

theorem third_ownTag : (e.ownTag third).third = third := by
  cases e <;> rfl

end OwnTag

/-- Of the attributes of an element, at most one is a grid area, and this is that of its third. -/
theorem gridAreas_ownAttributes (spot : Spot) (e : Element) (classes : Option String) :
    ((e.ownTag spot.third).allAttributes classes).filter (·.name == "grid-area") =
      (spot.area?.map (Attribute.text "grid-area")).toList := by
  have hown : (e.ownTag spot.third).attributes.filter (·.name == "grid-area") = [] := by
    refine List.filter_eq_nil_iff.2 fun a ha harea => ?_
    have hnames : "grid-area" ∉ elementAttributes := by decide
    exact hnames (beq_iff_eq.1 harea ▸ named_ownTag spot.third e a ha)
  have hother {name : String} (hname : name ≠ "grid-area") (value : Option String) :
      (value.map (Attribute.text name)).toList.filter (·.name == "grid-area") = [] := by
    cases value <;> simp [Attribute.name, hname]
  have harea (value : Option String) :
      (value.map (Attribute.text "grid-area")).toList.filter (·.name == "grid-area") =
        (value.map (Attribute.text "grid-area")).toList := by
    cases value <;> simp [Attribute.name]
  simp only [Tag.allAttributes, List.filter_append, hown, hother (by decide : "width" ≠ "grid-area"),
    hother (by decide : "height" ≠ "grid-area"), hother (by decide : "src" ≠ "grid-area"),
    hother (by decide : "class" ≠ "grid-area"), harea, List.nil_append, third_ownTag,
    Spot.bind_gridArea?]

/-! ## Tags in a body -/

/-- The tag of an element is looked for, and has content. -/
theorem isBlock_typeTagName (type : ElementType) :
    Tag.isBlock type.tagName = true ∧ IsName type.tagName ∧ type.tagName ∈ elementNames := by
  cases type with
  | text kind =>
    cases kind with
    | paragraph => decide
    | heading level => cases level <;> decide
  | _ => decide

/-- What is read of the tag of an element, where the classes have certain names. -/
def Element.readTag (name : Naming) (spot : Spot) (e : Element) : Option (String × List Attribute) :=
  let t := e.ownTag spot.third
  some (t.name, t.allAttributes
    (Tag.joinClasses t.explicitClass (stylesClass name (Tag.effectiveStyles t.name t.styles))))

/-- Of the elements inside an element and itself, those whose tags have certain names, with what is
    read of their tags. -/
def foundTags (names : List String) (name : Naming) (spots : List (Spot × Element)) :
    List (Option (String × List Attribute)) :=
  (spots.filter fun x => names.contains x.2.type.tagName).map fun x => x.2.readTag name x.1

theorem foundTags_flatMap {α : Type} (names : List String) (name : Naming)
    (parts : List α) (spots : α → List (Spot × Element)) :
    foundTags names name (parts.flatMap spots) =
      parts.flatMap fun a => foundTags names name (spots a) := by
  rw [foundTags, List.filter_flatMap, List.map_flatMap]
  rfl

section Cons

variable {names : List String} {name : Naming} {x : Spot × Element} {rest : List (Spot × Element)}

theorem foundTags_of_mem (h : x.2.type.tagName ∈ names) :
    foundTags names name (x :: rest) = x.2.readTag name x.1 :: foundTags names name rest := by
  rw [foundTags, List.filter_cons, if_pos (List.contains_iff_mem.2 h)]
  rfl

theorem foundTags_of_not_mem (h : x.2.type.tagName ∉ names) :
    foundTags names name (x :: rest) = foundTags names name rest := by
  rw [foundTags, List.filter_cons, if_neg (mt List.contains_iff_mem.1 h)]
  rfl

end Cons

/-- All tags of elements have names of elements. -/
theorem foundTags_elementNames (name : Naming) (spots : List (Spot × Element)) :
    foundTags elementNames name spots = spots.map fun x => x.2.readTag name x.1 := by
  rw [foundTags, List.filter_eq_self.2]
  exact fun x _ => List.contains_iff_mem.2 (isBlock_typeTagName x.2.type).2.2

/-- Where no name of an element is looked for, no element is found. -/
theorem foundTags_eq_nil {names : List String} (h : ∀ tag ∈ elementNames, tag ∉ names)
    (name : Naming) (spots : List (Spot × Element)) : foundTags names name spots = [] := by
  rw [foundTags, List.map_eq_nil_iff, List.filter_eq_nil_iff]
  intro x _ hmem
  exact h _ (isBlock_typeTagName x.2.type).2.2 (List.contains_iff_mem.1 hmem)

/-- The names of the tags that stand around elements or inside them. -/
def innerNames : List String := ["amp-story-grid-layer", "source", "span", "br"]

/-- The names of the tags in the blocks ahead of the pages. -/
def blockNames : List String := ["amp-analytics", "amp-story-auto-ads", "script"]

section Gathers

variable {name : Naming} {names : List String}

/-- The tag of an element stands in front of those in its content, if it is looked for. -/
theorem gathers_ownTag (e : Element) (spot : Spot) {content : String}
    {inside : List (Spot × Element)}
    (hcontent : Gathers (tagsNamed names) content.toList (foundTags names name inside)) :
    Gathers (tagsNamed names) ((e.ownTag spot.third).markup name content).toList
      (foundTags names name ((spot, e) :: inside)) := by
  obtain ⟨hblock, hname, -⟩ := isBlock_typeTagName e.type
  have hnamed := named_ownTag spot.third e
  rw [← name_ownTag spot.third e] at hblock hname
  by_cases hmem : e.type.tagName ∈ names
  · have hnames : ∀ name ∈ elementAttributes, IsName name := by decide
    rw [foundTags_of_mem hmem]
    rw [← name_ownTag spot.third e] at hmem
    exact gathers_wrap_of_mem (hnamed.imp hnames) hname hblock hmem hcontent
  · rw [foundTags_of_not_mem hmem]
    rw [← name_ownTag spot.third e] at hmem
    exact gathers_wrap_of_not_mem (clean_of_named hnamed) hblock hmem hcontent

/-- Inside an element without others only its own tag can be found. -/
theorem gathers_leafTag (e : Element) (spot : Spot) {content : String}
    (hcontent : Gathers (tagsNamed names) content.toList []) :
    Gathers (tagsNamed names) ((e.ownTag spot.third).markup name content).toList
      (foundTags names name [(spot, e)]) := gathers_ownTag e spot hcontent

/-- A tag around parts is passed over. -/
theorem gathers_partTag {t : Tag} (hclean : t.Clean)
    (hname : t.name ∈ ["amp-story", "amp-story-page", "amp-story-grid-layer"]) (hmem : t.name ∉ names)
    {content : String} {out : List (Option (String × List Attribute))}
    (hcontent : Gathers (tagsNamed names) content.toList out) :
    Gathers (tagsNamed names) (t.markup name content).toList out := by
  have hparts : ∀ tag ∈ ["amp-story", "amp-story-page", "amp-story-grid-layer"],
      Tag.isBlock tag = true := by decide
  exact gathers_wrap_of_not_mem hclean (hparts _ hname) hmem hcontent

section Blocks

variable (hblocks : ∀ tag ∈ blockNames, tag ∉ names)
include hblocks

/-- The script of a service or of ads holds no tags. -/
theorem gathers_scriptContent (v : Json.Value) :
    Gathers (tagsNamed names) (jsonScript "application/json" v).toList [] := by
  have hscript : "script" ∉ names := hblocks _ (by decide)
  have hblank : ∀ c ∈ (Tag.attributeText "type" "application/json").toList.head?, c = ' ' :=
    fun c hc => (Option.some.inj hc).symm
  have hgathers := gathers_rawText (g := tagsNamed names)
    (by decide : isElementName "script".toList = true) hblank closed_scriptType
    (fun cs ds => rfl) rfl (splitBefore_guardClosing v.text.toList _)
  rw [tagsNamed_of_not_mem hscript, tagsNamed_text, tagsNamed_closeTag] at hgathers
  rw [toList_jsonScript, toList_escapeScript]
  exact hgathers

/-- Analytics and ads hold no tags but their own. -/
theorem gathers_blocks (s : Story) : Gathers (tagsNamed names) s.blocks.toList [] := by
  have hanalytics (a : AnalyticsConfig) : Gathers (tagsNamed names) a.markup.toList [] := by
    have hname : ((Tag.ofName "amp-analytics").optAttr "type" a.service).name = "amp-analytics" :=
      Tag.name_optAttr _ _ _
    rw [a.markup_eq_wrap]
    refine gathers_wrap_of_not_mem ((Tag.clean_ofName _).optAttr (by decide) a.service) ?_ ?_
      (gathers_scriptContent hblocks _)
    · rw [hname]
      decide
    · rw [hname]
      exact hblocks _ (by decide)
  have hads : Gathers (tagsNamed names) ((s.ads.map renderAds).getD "").toList [] := by
    cases s.ads with
    | none => exact gathers_nil
    | some config =>
      rw [Option.map_some, Option.getD_some, renderAds_eq_wrap]
      exact gathers_wrap_of_not_mem (Tag.clean_ofName _) (by decide) (hblocks _ (by decide))
        (gathers_scriptContent hblocks config)
  have hentries := gathers_join fun a (_ : a ∈ s.analytics) => hanalytics a
  rw [List.flatMap_eq_nil_iff.2 fun _ _ => rfl] at hentries
  exact hentries.concat hads

end Blocks

section Inside

variable (hinner : ∀ tag ∈ innerNames, tag ∉ names)
include hinner

theorem gathers_source (name : Naming) (s : VideoSource) :
    Gathers (tagsNamed names) ((sourceTag s).markup name "").toList [] := by
  have hname : (sourceTag s).name = "source" := by simp [sourceTag]
  refine gathers_wrap_void (clean_of_named (named_sourceTag s)) ?_ ?_ ?_ ?_
  · rw [hname]
    decide
  · rw [hname]
    decide
  · rw [hname]
    decide
  · rw [hname]
    exact hinner _ (by decide)

variable (hname : name.Plain)
include hname

/-- The tags in the markup of an element are those of the element and of the elements inside it, as
    far as they are looked for. -/
theorem gathers_spots (e : Element) (spot : Spot) :
    Gathers (tagsNamed names) (e.markup name spot.third).toList
      (foundTags names name (e.spots spot)) := by
  induction e using Element.induct generalizing spot with
  | container id styles elements ih =>
    have hchildren := gathers_join fun e he => ih e he .nested
    rw [← foundTags_flatMap, ← nestedSpots_eq_flatMap] at hchildren
    rw [Element.markup, childMarkup_eq_join, Element.spots]
    exact gathers_ownTag (.container id styles elements) spot hchildren
  | text t =>
    have hopen : ∀ tag ∈ ["br", "span"], ∀ raw,
        tagsNamed names (.openTag tag.toList raw) = [] := by
      intro tag htag raw
      have htags : ∀ tag ∈ ["br", "span"], tag ∈ innerNames := by decide
      exact tagsNamed_of_not_mem (hinner tag (htags tag htag)) raw
    rw [Element.markup, Element.spots]
    exact gathers_leafTag (.text t) spot (gathers_textMarkup_nil tagsNamed_text hopen
      tagsNamed_closeTag hname t.text t.inlineStyles)
  | image i =>
    rw [Element.markup, Element.spots]
    exact gathers_leafTag (.image i) spot gathers_nil
  | video v =>
    have hsources := gathers_join fun s (_ : s ∈ v.sources) => gathers_source hinner name s
    rw [List.flatMap_eq_nil_iff.2 fun _ _ => rfl] at hsources
    rw [Element.markup, Element.spots]
    exact gathers_leafTag (.video v) spot hsources

/-- The tags in layers are those of their elements and of the elements inside these. -/
theorem gathers_layers (layers : List Layer) :
    Gathers (tagsNamed names) (String.join (layers.map (Layer.markup name))).toList
      (foundTags names name (layers.flatMap Layer.spots)) := by
  have hlayer (l : Layer) : Gathers (tagsNamed names) (l.markup name).toList
      (foundTags names name l.spots) := by
    have helements := gathers_join fun x (_ : x ∈ l.elements.zipIdx) =>
      gathers_spots hinner hname x.1 (.direct l.template x.2)
    rw [← foundTags_flatMap] at helements
    have htag : (layerTag l).name = "amp-story-grid-layer" := by simp [layerTag]
    rw [Layer.markup]
    refine gathers_partTag (clean_layerTag l) ?_ ?_ helements
    · rw [htag]
      decide
    · rw [htag]
      exact hinner _ (by decide)
  have hlayers := gathers_join fun l (_ : l ∈ layers) => hlayer l
  rwa [← foundTags_flatMap] at hlayers

end Inside

/-- The tags of elements in the markup of a story are those of its elements. -/
theorem gathers_story (hname : name.Plain) (s : Story) :
    Gathers (tagsNamed elementNames) (s.markup name).toList
      (s.spots.map fun x => x.2.readTag name x.1) := by
  have hparts : ∀ tag ∈ ["amp-story", "amp-story-page"], tag ∉ elementNames := by decide
  have hlayers (p : Page) : Gathers (tagsNamed elementNames) (p.markup name).toList
      (foundTags elementNames name (p.layers.flatMap Layer.spots)) := by
    have htag : (pageTag p).name = "amp-story-page" := by simp [pageTag]
    rw [Page.markup]
    refine gathers_partTag (clean_pageTag p) ?_ ?_ (gathers_layers (by decide) hname p.layers)
    · rw [htag]
      decide
    · rw [htag]
      exact hparts _ (by decide)
  have hpages := gathers_join fun p (_ : p ∈ s.pages) => hlayers p
  have htag : (storyTag s).name = "amp-story" := by simp [storyTag]
  rw [← foundTags_flatMap, foundTags_elementNames] at hpages
  rw [Story.markup]
  refine gathers_partTag (clean_storyTag s) ?_ ?_ ((gathers_blocks (by decide) s).concat hpages)
  · rw [htag]
    decide
  · rw [htag]
    exact hparts _ (by decide)

end Gathers

/-! ## Compiled stories -/

/-- In the body of a compiled story the tags of elements are those of the story, and of their
    attributes the grid areas are these: a direct element of a layer of thirds has that of its third,
    and no other element has one.  A layer of thirds has three elements, so all three areas occur, in
    order. -/
theorem gridAreas_of_compile {s : Story} {o : CompileOptions} {document : String}
    (h : compile s o = .ok document) :
    ∃ body state defaults, (renderStory s).run .empty = .ok (body, state) ∧
      document = s.documentWith o state.runtime defaults state.classes.rules body ∧
      List.Forall₂ (fun x tag? => ∃ attributes, tag? = some (x.2.type.tagName, attributes) ∧
        attributes.filter (·.name == "grid-area") =
          (x.1.area?.map (Attribute.text "grid-area")).toList) s.spots (elementTags body) ∧
      ∀ p ∈ s.pages, ∀ l ∈ p.layers, (l.template = .thirds → l.elements.length = 3) ∧
        l.spots.filterMap (·.1.area?) =
          if l.template = .thirds then ["upper-third", "middle-third", "lower-third"] else [] := by
  obtain ⟨-, body, state, defaults, hrun, -, hdocument⟩ := compile_eq_ok_iff.1 h
  obtain ⟨hsound, rfl, -⟩ := of_renderStory_eq_ok hrun
  refine ⟨_, state, defaults, hrun, hdocument, ?_, fun p hp l hl => ?_⟩
  · have hgathers := gathers_story (plain_number (firstOccurrences s.requests)) s
    rw [elementTags, hgathers.flatMap_scan, List.forall₂_map_right_iff, List.forall₂_same]
    intro x _
    exact ⟨_, congrArg some (congrArg (·, _) (name_ownTag x.1.third x.2)),
      gridAreas_ownAttributes x.1 x.2 _⟩
  · have hthirds := (s.firstFault_eq_none_iff.1 hsound).1 p hp l hl
    exact ⟨hthirds, l.areas_spots hthirds⟩

/-- A container, an image and a heading as thirds, and a text that looks like a third. -/
theorem gridAreas_of_thirds :
    let text : Element :=
      .text ⟨.paragraph, none, "<div grid-area=\"upper-third\">", [], none⟩
    let image : Element := .image ⟨none, "a.png", none, none, none, none, none⟩
    let heading : Element := .text ⟨.heading .h1, none, "", [], none⟩
    let s : Story :=
      { title := none, canonicalUrl := none, preview := none, storyMeta := none, customCss := none
        defaultStyles := [], analytics := [], ads := none, bookendConfigSrc := none
        pages := [⟨"a", none, [⟨.thirds, none, [.container none none [text], image, heading]⟩,
          ⟨.fill, none, [text]⟩]⟩] }
    let area (name : String) : List Attribute := [.text "grid-area" name]
    ∃ document body state, compile s .standard = .ok document ∧
      (renderStory s).run .empty = .ok (body, state) ∧
      (elementTags body).map (·.map fun tag => (tag.1, tag.2.filter (·.name == "grid-area"))) =
        [some ("div", area "upper-third"), some ("p", []), some ("amp-img", area "middle-third"),
          some ("h1", area "lower-third"), some ("p", [])] := by
  intro text image heading s area
  obtain ⟨document, hcompile⟩ := exists_eq_ok (x := compile s .standard) (by decide +kernel)
  obtain ⟨body, state, -, hrun, -, htags, -⟩ := gridAreas_of_compile hcompile
  refine ⟨document, body, state, hcompile, hrun, ?_⟩
  have hspots : s.spots.map (fun x => some (x.2.type.tagName,
      (x.1.area?.map (Attribute.text "grid-area")).toList)) =
      [some ("div", area "upper-third"), some ("p", []), some ("amp-img", area "middle-third"),
        some ("h1", area "lower-third"), some ("p", [])] := rfl
  rw [← hspots, eq_comm, ← List.forall₂_eq_eq_eq, List.forall₂_map_left_iff,
    List.forall₂_map_right_iff]
  refine htags.imp ?_
  rintro x _ ⟨attributes, rfl, hareas⟩
  rw [Option.map_some, hareas]

end WebStory
