import WebStory.Proofs.Document.Classes
import WebStory.Proofs.Markup.Element
import WebStory.Proofs.Markup.Inline
import WebStory.Proofs.Story.Tree
/-
  The elements of a rendered story.

  Whatever texts a story holds, its body is read back as well-nested markup, and the elements in it
  are those of the story.

  1. **The statement** — an outline mirrors a story (`Story.Mirrors`) if it has blocks and pages inside
     the story, layers inside a page, elements inside a layer or a container, and nothing else but
     spans and line breaks inside texts and scripts inside blocks.  There is one constructor for
     each part of a story; the rendering does not occur in it.

  2. **Blocks** — the script of a block holds an author's values, and its text is raw to a reader,
     so all that matters is that it does not close the script (`reads_jsonScript`).

  3. **Tags** — a tag of a story has attributes with names of a short list, and this is all that is
     used of them: then the tag is read as one tag, whatever the values are (`clean_of_named`).

  4. **Parts** — every part is markup that is read by itself, so parts one after another are read as
     their elements (`reads_join`), and a tag around them as one element around these
     (`reads_markup`).  From here the argument follows the story from the elements up, with one
     lemma for each kind of part and an induction for containers only (`exists_reads_element`).
-/

namespace WebStory

open Token ClassTable

/-! ## Outlines of a story -/

inductive Element.Mirrors : Element → Outline → Prop where
  | container (id : Option String) (styles : Option StyleRecord) {elements : List Element}
      {inside : List Outline} (h : List.Forall₂ Element.Mirrors elements inside) :
      Element.Mirrors (.container id styles elements) (.node "div" inside)
  | text (t : TextElement) {parts : List Outline} (h : ∀ o ∈ parts, o.IsTextPart) :
      Element.Mirrors (.text t) (.node t.kind.tagName parts)
  | image (i : ImageElement) : Element.Mirrors (.image i) (.node "amp-img" [])
  /-- One source for each source. -/
  | video (v : VideoElement) :
      Element.Mirrors (.video v) (.node "amp-video" (v.sources.map fun _ => .node "source" []))

inductive Layer.Mirrors (l : Layer) : Outline → Prop where
  | layer {inside : List Outline} (h : List.Forall₂ Element.Mirrors l.elements inside) :
      Layer.Mirrors l (.node "amp-story-grid-layer" inside)

inductive Page.Mirrors (p : Page) : Outline → Prop where
  | page {inside : List Outline} (h : List.Forall₂ Layer.Mirrors p.layers inside) :
      Page.Mirrors p (.node "amp-story-page" inside)

/-- A block with its script. -/
def Outline.block (name : String) : Outline := .node name [.node "script" []]

/-- The analytics, the ads if there are any, then the pages. -/
inductive Story.Mirrors (s : Story) : Outline → Prop where
  | story {pages : List Outline} (h : List.Forall₂ Page.Mirrors s.pages pages) :
      Story.Mirrors s (.node "amp-story"
        (s.analytics.map (fun _ => .block "amp-analytics") ++
          (s.ads.map fun _ => .block "amp-story-auto-ads").toList ++ pages))

/-! ## Blocks -/

/-- A script as its open tag, its text and its closing tag. -/
theorem toList_jsonScript (v : Json.Value) : (jsonScript "application/json" v).toList =
    opening "script".toList (Tag.attributeText "type" "application/json").toList ++
      (escapeScript v.text).toList ++ closing "script".toList := by
  have hopening : opening "script".toList (Tag.attributeText "type" "application/json").toList =
      ("<script type=\"" ++ "application/json" ++ "\">").toList := by decide +kernel
  have hclosing : closing "script".toList = "</script>".toList := by decide +kernel
  unfold jsonScript jsonScriptWith
  rw [hopening, hclosing, String.toList_append, String.toList_append]

theorem closed_scriptType : Closed (Tag.attributeText "type" "application/json").toList :=
  Tag.closed_attributeText (closed_name (by decide : isElementName "type".toList = true)) _

theorem reads_jsonScript (v : Json.Value) :
    Reads (jsonScript "application/json" v).toList [.node "script" []] := by
  rw [toList_jsonScript]
  refine reads_script ?_ closed_scriptType _
  exact fun c hc => (Option.some.inj hc).symm

/-- The block of a service is a tag with the name of the service. -/
theorem AnalyticsConfig.markup_eq_wrap (a : AnalyticsConfig) :
    a.markup = ((Tag.ofName "amp-analytics").optAttr "type" a.service).wrap none
      (jsonScript "application/json" (.object a.options)) := by
  have hname : ((Tag.ofName "amp-analytics").optAttr "type" a.service).name = "amp-analytics" :=
    Tag.name_optAttr _ _ _
  have hvoid : Tag.isVoid "amp-analytics" = false := by decide
  have hopening : "<" ++ "amp-analytics" = "<amp-analytics" := by decide +kernel
  have hclosing : Tag.closeText "amp-analytics" = "</amp-analytics>" := by decide +kernel
  have hattribute : " " ++ "type" ++ "=\"" = " type=\"" := by decide +kernel
  unfold AnalyticsConfig.markup AnalyticsConfig.markupWith jsonScript
  rw [Tag.wrap_eq (by rwa [hname]), Tag.openText, hname, hopening, hclosing]
  obtain ⟨service, options⟩ := a
  cases service with
  | none => rfl
  | some service =>
    simp only [Tag.optAttr, Tag.attr]
    split
    · rfl
    · simp [Tag.allAttributes, Tag.ofName, Tag.Attribute.text, Tag.attributeText, ← hattribute]

theorem renderAds_eq_wrap (config : Json.Value) :
    renderAds config =
      (Tag.ofName "amp-story-auto-ads").wrap none (jsonScript "application/json" config) := by
  have hvoid : Tag.isVoid (Tag.ofName "amp-story-auto-ads").name = false := by decide
  have hopening : (Tag.ofName "amp-story-auto-ads").openText none = "<amp-story-auto-ads>" := by
    decide +kernel
  have hclosing : Tag.closeText (Tag.ofName "amp-story-auto-ads").name =
      "</amp-story-auto-ads>" := by decide +kernel
  unfold renderAds renderAdsWith jsonScript
  rw [Tag.wrap_eq hvoid, hopening, hclosing]

theorem reads_analytics (a : AnalyticsConfig) : Reads a.markup.toList [.block "amp-analytics"] := by
  have hclean : ((Tag.ofName "amp-analytics").optAttr "type" a.service).Clean :=
    (Tag.clean_ofName _).optAttr (by decide) a.service
  have hblock : Tag.isBlock ((Tag.ofName "amp-analytics").optAttr "type" a.service).name = true := by
    rw [Tag.name_optAttr]
    decide
  have hreads := Tag.reads_wrap hclean none hblock (reads_jsonScript (.object a.options))
  rwa [← a.markup_eq_wrap, Tag.name_optAttr] at hreads

theorem reads_ads (config : Json.Value) :
    Reads (renderAds config).toList [.block "amp-story-auto-ads"] := by
  rw [renderAds_eq_wrap]
  exact Tag.reads_wrap (Tag.clean_ofName _) none (by decide) (reads_jsonScript config)

/-! ## Parts one after another -/

/-- Parts that are each read as one element are read as their elements. -/
theorem exists_reads_join {β : Type} {text : β → String} {Mirrors : β → Outline → Prop}
    {parts : List β} (h : ∀ b ∈ parts, ∃ o, Mirrors b o ∧ Reads (text b).toList [o]) :
    ∃ inside, List.Forall₂ Mirrors parts inside ∧
      Reads (String.join (parts.map text)).toList inside := by
  induction parts with
  | nil => exact ⟨[], .nil, reads_nil⟩
  | cons b rest ih =>
    rw [List.forall_mem_cons] at h
    obtain ⟨o, ho, hreads⟩ := h.1
    obtain ⟨inside, hinside, hrest⟩ := ih h.2
    refine ⟨o :: inside, .cons ho hinside, ?_⟩
    rw [List.map_cons, String.join_cons, String.toList_append]
    exact hreads.append hrest

/-- The same where it is known as which element each part is read. -/
theorem reads_join {β : Type} {text : β → String} {outline : β → Outline} {parts : List β}
    (h : ∀ b ∈ parts, Reads (text b).toList [outline b]) :
    Reads (String.join (parts.map text)).toList (parts.map outline) := by
  have hpart : ∀ b ∈ parts, ∃ o, outline b = o ∧ Reads (text b).toList [o] :=
    fun b hb => ⟨_, rfl, h b hb⟩
  obtain ⟨inside, hinside, hreads⟩ := exists_reads_join hpart
  have hmap : List.Forall₂ Eq (parts.map outline) inside := List.forall₂_map_left_iff.2 hinside
  rw [List.forall₂_eq_eq_eq] at hmap
  rwa [hmap]

/-! ## Tags of a story -/

/-- The attributes that the tags of elements are given one by one. -/
def elementAttributes : List String := ["id", "alt", "layout", "type", "poster", "loop", "autoplay"]

section Tags

variable (third : Option Nat)

theorem named_containerTag (id : Option String) (styles : Option StyleRecord) :
    (containerTag id styles third).AllNames (· ∈ elementAttributes) :=
  Tag.allNames_ofName "div" |>.optAttr (by decide) id

theorem named_textTag (t : TextElement) : (textTag t third).AllNames (· ∈ elementAttributes) :=
  Tag.allNames_ofName t.kind.tagName |>.optAttr (by decide) t.id

theorem named_imageTag (i : ImageElement) : (imageTag i third).AllNames (· ∈ elementAttributes) :=
  Tag.allNames_ofName "amp-img"
    |>.optAttr (by decide) i.id
    |>.optAttr (by decide) i.alt
    |>.optAttr (by decide) (i.layout.map MediaLayout.name)

theorem named_sourceTag (s : VideoSource) : (sourceTag s).AllNames (· ∈ elementAttributes) := by
  have hsource : ((Tag.ofName "source").withSource (some s.source)).AllNames
      (· ∈ elementAttributes) := Tag.allNames_ofName "source"
  exact hsource.attr (by decide) s.mime

theorem named_videoTag (v : VideoElement) : (videoTag v third).AllNames (· ∈ elementAttributes) :=
  Tag.allNames_ofName "amp-video"
    |>.optAttr (by decide) v.id
    |>.optAttr (by decide) (v.layout.map MediaLayout.name)
    |>.optAttr (by decide) v.poster
    |>.flag (by decide) v.looping
    |>.flag (by decide) v.autoplay

/-- The tag of an element has no attributes but those of elements. -/
theorem clean_of_named {t : Tag} (h : t.AllNames (· ∈ elementAttributes)) : t.Clean := by
  have hnames : ∀ name ∈ elementAttributes, isElementName name.toList = true := by decide
  exact Tag.clean_iff_allNames.2 (h.imp hnames)

theorem clean_layerTag (l : Layer) : (layerTag l).Clean :=
  Tag.clean_ofName "amp-story-grid-layer" |>.attr (by decide) l.template.name

theorem clean_pageTag (p : Page) : (pageTag p).Clean :=
  Tag.clean_ofName "amp-story-page"
    |>.attr (by decide) p.id
    |>.optAttr (by decide) (p.autoAdvanceAfter.map AutoAdvance.text)

theorem clean_storyTag (s : Story) : (storyTag s).Clean :=
  Tag.clean_ofName "amp-story"
    |>.flag (by decide) true
    |>.optAttr (by decide) s.bookendConfigSrc
    |>.optAttr (by decide) s.title
    |>.optAttr (by decide) (s.preview.getD .empty).publisher
    |>.optAttr (by decide) (s.preview.getD .empty).publisherLogoSrc
    |>.optAttr (by decide) (s.preview.getD .empty).posterPortraitSrc
    |>.optAttr (by decide) (s.preview.getD .empty).posterSquareSrc
    |>.optAttr (by decide) (s.preview.getD .empty).posterLandscapeSrc

end Tags

/-! ## The parts of a story -/

theorem isBlock_tagName (kind : TextKind) : Tag.isBlock kind.tagName = true := by
  cases kind with
  | paragraph => decide
  | heading level => cases level <;> decide

section Parts

variable {name : Naming}

/-- A tag with its class around some markup. -/
theorem reads_markup {t : Tag} {tag : String} (hclean : t.Clean) (htag : t.name = tag)
    (hblock : Tag.isBlock tag = true) {content : String} {inside : List Outline}
    (hcontent : Reads content.toList inside) :
    Reads (t.markup name content).toList [.node tag inside] := by
  subst htag
  exact Tag.reads_wrap hclean _ hblock hcontent

/-- A tag without content. -/
theorem reads_markup_void {t : Tag} {tag : String} (hclean : t.Clean) (htag : t.name = tag)
    (hname : isElementName tag.toList = true) (hvoid : Tag.isVoid tag = true)
    (hvoid' : Token.voidNames.contains tag.toList = true) (content : String) :
    Reads (t.markup name content).toList [.node tag []] := by
  subst htag
  exact Tag.reads_wrap_void hclean _ hname hvoid hvoid' content

theorem reads_source (s : VideoSource) :
    Reads ((sourceTag s).markup name "").toList [.node "source" []] :=
  reads_markup_void (clean_of_named (named_sourceTag s)) (by simp [sourceTag]) (by decide) (by decide)
    (by decide) ""

variable (hname : name.Plain)
include hname

/-- An element is read as one that mirrors it. -/
theorem exists_reads_element (e : Element) (third : Option Nat) :
    ∃ o, e.Mirrors o ∧ Reads (e.markup name third).toList [o] := by
  induction e using Element.induct generalizing third with
  | container id styles elements ih =>
    obtain ⟨inside, hinside, hreads⟩ := exists_reads_join fun e he => ih e he none
    rw [← childMarkup_eq_join] at hreads
    refine ⟨_, .container id styles hinside, ?_⟩
    rw [Element.markup]
    exact reads_markup (clean_of_named (named_containerTag third id styles)) (by simp [containerTag])
      (by decide) hreads
  | text t =>
    obtain ⟨parts, hparts, hreads⟩ := exists_reads_textMarkup hname t.text t.inlineStyles
    refine ⟨_, .text t hparts, ?_⟩
    rw [Element.markup]
    exact reads_markup (clean_of_named (named_textTag third t)) (by simp [textTag])
      (isBlock_tagName t.kind) hreads
  | image i =>
    refine ⟨_, .image i, ?_⟩
    rw [Element.markup]
    exact reads_markup (clean_of_named (named_imageTag third i)) (by simp [imageTag]) (by decide)
      reads_nil
  | video v =>
    refine ⟨_, .video v, ?_⟩
    rw [Element.markup]
    exact reads_markup (clean_of_named (named_videoTag third v)) (by simp [videoTag]) (by decide)
      (reads_join fun s _ => reads_source s)

theorem exists_reads_layer (l : Layer) :
    ∃ o, l.Mirrors o ∧ Reads (l.markup name).toList [o] := by
  have hpart : ∀ x ∈ l.elements.zipIdx, ∃ o, x.1.Mirrors o ∧
      Reads (x.1.markup name (layerThird l.template x.2)).toList [o] :=
    fun x _ => exists_reads_element hname x.1 _
  obtain ⟨inside, hinside, hreads⟩ := exists_reads_join hpart
  have helements : List.Forall₂ Element.Mirrors l.elements inside := by
    rw [← List.zipIdx_map_fst 0 l.elements]
    exact List.forall₂_map_left_iff.2 hinside
  refine ⟨_, .layer helements, ?_⟩
  rw [Layer.markup]
  exact reads_markup (clean_layerTag l) (by simp [layerTag]) (by decide) hreads

theorem exists_reads_page (p : Page) : ∃ o, p.Mirrors o ∧ Reads (p.markup name).toList [o] := by
  obtain ⟨inside, hinside, hreads⟩ := exists_reads_join fun l (_ : l ∈ p.layers) =>
    exists_reads_layer hname l
  refine ⟨_, .page hinside, ?_⟩
  rw [Page.markup]
  exact reads_markup (clean_pageTag p) (by simp [pageTag]) (by decide) hreads

theorem exists_reads_story (s : Story) : ∃ o, s.Mirrors o ∧ Reads (s.markup name).toList [o] := by
  obtain ⟨pages, hpages, hreads⟩ := exists_reads_join fun p (_ : p ∈ s.pages) =>
    exists_reads_page hname p
  have hads : Reads ((s.ads.map renderAds).getD "").toList
      (s.ads.map fun _ => Outline.block "amp-story-auto-ads").toList := by
    cases s.ads with
    | none => exact reads_nil
    | some config => exact reads_ads config
  have hblocks : Reads s.blocks.toList (s.analytics.map (fun _ => Outline.block "amp-analytics") ++
      (s.ads.map fun _ => Outline.block "amp-story-auto-ads").toList) := by
    rw [Story.blocks, String.toList_append]
    exact (reads_join fun a _ => reads_analytics a).append hads
  refine ⟨_, .story hpages, ?_⟩
  rw [Story.markup]
  refine reads_markup (clean_storyTag s) (by simp [storyTag]) (by decide) ?_
  rw [String.toList_append]
  exact hblocks.append hreads

end Parts

/-! ## Rendered stories -/

theorem plain_number (first : List ClassRequest) : Naming.Plain (number first) :=
  fun _ => isClassChar_className _

/-- The tokens of a rendered body are well nested, nothing is left open, and the elements that they
    describe are those of the story. -/
theorem rendered_story_mirrors {s : Story} {body : String} {state : BodyState}
    (h : (renderStory s).run .empty = .ok (body, state)) :
    ∃ o, outline? [] [] (scan body.toList) = some [o] ∧ s.Mirrors o := by
  obtain ⟨-, rfl, -⟩ := of_renderStory_eq_ok h
  obtain ⟨o, ho, hreads⟩ := exists_reads_story (plain_number (firstOccurrences s.requests)) s
  have hread := hreads [] [] []
  rw [List.append_nil] at hread
  exact ⟨o, hread.trans (by rw [scan, outline?]; rfl), ho⟩

/-- Quotes, tags, line breaks and the end of a script are no more than texts of a story. -/
theorem story_of_markup_mirrors :
    let markup := "\"'><p>\r\n</script>"
    let range : InlineStyle := ⟨1, 4, ⟨[("color", .string "red")]⟩⟩
    let text : Element := .text ⟨.heading .h2, some markup, markup, [range], none⟩
    let video : Element :=
      .video ⟨none, [⟨markup, markup⟩], none, none, none, some markup, true, false, none⟩
    let s : Story :=
      { title := some markup, canonicalUrl := none, preview := none, storyMeta := none
        customCss := none, defaultStyles := []
        pages := [⟨markup, none, [⟨.vertical, none, [.container none none [text, video]]⟩]⟩]
        analytics := [⟨some markup, [(markup, .string markup)]⟩], ads := some (.string markup)
        bookendConfigSrc := some markup }
    ∃ body state o, (renderStory s).run .empty = .ok (body, state) ∧
      outline? [] [] (scan body.toList) = some [o] ∧ s.Mirrors o := by
  intro markup range text video s
  obtain ⟨⟨body, state⟩, hbody⟩ := exists_eq_ok (x := (renderStory s).run .empty) (by decide +kernel)
  obtain ⟨o, hread, ho⟩ := rendered_story_mirrors hbody
  exact ⟨body, state, o, hbody, hread, ho⟩

end WebStory
