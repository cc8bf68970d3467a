import WebStory.Proofs.Story.Properties
import WebStory.Proofs.Story.Readers
import WebStory.Proofs.Story.Sources
/-
  Which values are elements, and which element each of them is.

  1. **Grammar** — the elements are a grammar over JSON values (`IsElement`): of each type it says
     which keys are asked for and what may stand under them, at any depth of containers.  A key that
     may be left out may also be null.  It is an inductive predicate, as the items of a container
     are elements again.

  2. **What is given** — beside it stands the element that a value gives (`Gives`): each part comes
     from the key of its own, and the elements inside come from the list under `elements`, one by
     one.  Without it one would know only that something is read.

  3. **Parts** — texts, images and videos are read property by property, and what is read of each is
     known from its key alone.  So each of them is read exactly if it is given, and is given exactly
     where the grammar says so (`parseText_eq_ok_iff`, `exists_textElement_iff`).

  4. **Containers** — the readers of an element and of the items of a list call each other.  Items
     that are read one by one are a list of the same length, each read from the item in its place
     (`parseIndexed_eq_ok_iff`), so an induction on the value goes through
     (`parseElement_eq_ok_iff_gives`).  That there is an element wherever the grammar says so is a
     second induction: from one element for each item to a list of elements (`exists_gives_iff`).

  An element is read exactly from the values of the grammar, wherever it stands, and what is read is
  the element they give (`parseElement_reads`).
-/

namespace WebStory

open Json

/-! ## Types of elements -/

/-- The `type` of an object stands for this type of element. -/
def HasType (members : Members) : ElementType → Prop
  | .container => Entries.get? members "type" = some (.string "container")
  | .image => Entries.get? members "type" = some (.string "image")
  | .video => Entries.get? members "type" = some (.string "video")
  | .text kind => ∃ name, Entries.get? members "type" = some (.string name) ∧
      TextKind.ofName? name = some kind

/-- A type is known by its name alone. -/
theorem hasType_iff {members : Members} {type : ElementType} :
    HasType members type ↔
      ∃ name, Entries.get? members "type" = some (.string name) ∧
        ElementType.ofName? name = some type := by
  constructor
  · intro h
    cases type with
    | container => exact ⟨_, h, rfl⟩
    | image => exact ⟨_, h, rfl⟩
    | video => exact ⟨_, h, rfl⟩
    | text kind =>
      obtain ⟨name, hname, hkind⟩ := h
      refine ⟨name, hname, ?_⟩
      -- no text has the name of another type
      have hcontainer : name ≠ "container" := by rintro rfl; cases hkind
      have himage : name ≠ "image" := by rintro rfl; cases hkind
      have hvideo : name ≠ "video" := by rintro rfl; cases hkind
      rw [ElementType.ofName?_of_ne hcontainer himage hvideo, hkind]
      rfl
  · rintro ⟨name, hname, htype⟩
    by_cases hcontainer : name = "container"
    · subst hcontainer
      obtain rfl := Option.some.inj htype
      exact hname
    by_cases himage : name = "image"
    · subst himage
      obtain rfl := Option.some.inj htype
      exact hname
    by_cases hvideo : name = "video"
    · subst hvideo
      obtain rfl := Option.some.inj htype
      exact hname
    rw [ElementType.ofName?_of_ne hcontainer himage hvideo] at htype
    obtain ⟨kind, hkind, rfl⟩ := Option.map_eq_some_iff.1 htype
    exact ⟨name, hname, hkind⟩

/-- An element is read by its type. -/
theorem parseElement_eq_ok_iff {members : Members} {path : Path} {e : Element} :
    parseElement path (.object members) = .ok e ↔
      ∃ type, HasType members type ∧ parseFields type members path = .ok e := by
  simp only [parseElement_object, bind_eq_ok_iff, requiredString_eq_ok_iff, hasType_iff]
  have hknown {name : String} {type : ElementType} :
      knownType path name = .ok type ↔ ElementType.ofName? name = some type := by
    unfold knownType
    cases ElementType.ofName? name <;> simp
  constructor
  · rintro ⟨name, hname, type, htype, h⟩
    exact ⟨type, ⟨name, hname, hknown.1 htype⟩, h⟩
  · rintro ⟨type, ⟨name, hname, htype⟩, h⟩
    exact ⟨name, hname, type, hknown.2 htype, h⟩

/-! ## Texts, images and videos -/

structure IsTextElement (members : Members) : Prop where
  id : Optionally IsString members "id"
  text : Necessarily IsString members "text"
  inlineStyles : Optionally (IsListOf IsRange) members "inlineStyles"
  styles : Optionally IsObject members "styles"

structure IsImage (members : Members) : Prop where
  id : Optionally IsString members "id"
  source : Necessarily IsString members "source"
  alt : Optionally IsString members "alt"
  width : Optionally IsDimension members "width"
  height : Optionally IsDimension members "height"
  layout : Optionally IsLayout members "layout"
  styles : Optionally IsObject members "styles"

structure IsVideo (members : Members) : Prop where
  id : Optionally IsString members "id"
  sources : Necessarily (IsSomeOf IsVideoSource) members "sources"
  width : Optionally IsDimension members "width"
  height : Optionally IsDimension members "height"
  layout : Optionally IsLayout members "layout"
  poster : Optionally IsString members "poster"
  looping : Optionally IsBool members "loop"
  autoplay : Optionally IsBool members "autoplay"
  styles : Optionally IsObject members "styles"

structure TextElement.GivenBy (members : Members) (t : TextElement) : Prop where
  id : Given TextOf members "id" t.id
  text : Given TextOf members "text" (some t.text)
  inlineStyles : GivenOr RangesOf members "inlineStyles" [] t.inlineStyles
  styles : Given StylesOf members "styles" t.styles

structure ImageElement.GivenBy (members : Members) (i : ImageElement) : Prop where
  id : Given TextOf members "id" i.id
  source : Given TextOf members "source" (some i.source)
  alt : Given TextOf members "alt" i.alt
  width : Given DimensionOf members "width" i.width
  height : Given DimensionOf members "height" i.height
  layout : Given (Decodes MediaLayout.decode) members "layout" i.layout
  styles : Given StylesOf members "styles" i.styles

structure VideoElement.GivenBy (members : Members) (v : VideoElement) : Prop where
  id : Given TextOf members "id" v.id
  sources : Given SourcesOf members "sources" (some v.sources)
  width : Given DimensionOf members "width" v.width
  height : Given DimensionOf members "height" v.height
  layout : Given (Decodes MediaLayout.decode) members "layout" v.layout
  poster : Given TextOf members "poster" v.poster
  looping : GivenOr (Decodes decodeBool) members "loop" false v.looping
  autoplay : GivenOr (Decodes decodeBool) members "autoplay" false v.autoplay
  styles : Given StylesOf members "styles" v.styles

section Leaf

variable {members : Members} {path : Path}

theorem emptyRange?_eq_none_iff {styles : List InlineStyle} :
    emptyRange? styles = none ↔ ∀ s ∈ styles, s.length ≠ 0 := by
  rw [emptyRange?, List.findIdx?_eq_none_iff]
  simp

theorem parseText_eq_ok_iff {kind : TextKind} {t : TextElement} :
    parseText kind members path = .ok t ↔ t.kind = kind ∧ t.GivenBy members := by
  -- what is asked of the ranges that are there holds of those that stand for none
  have hlengths {ranges? : Option (List InlineStyle)} :
      emptyRange? (ranges?.getD []) = none ↔ ∀ ranges ∈ ranges?, ∀ s ∈ ranges, s.length ≠ 0 := by
    rw [emptyRange?_eq_none_iff]
    cases ranges? <;> simp
  simp only [parseText, bind_eq_ok_iff, optionalTyped_eq_ok_iff]
  constructor
  · rintro ⟨ranges?, hranges, h⟩
    split at h
    · cases h
    · next hnone =>
      simp only [bind_eq_ok_iff, optionalString_eq_ok_iff_given, requiredString_eq_ok_iff_given,
        optionalStyle_eq_ok_iff] at h
      obtain ⟨id, hid, text, htext, styles, hstyles, ⟨⟩⟩ := h
      have hranges := given_and_iff.2 ⟨hranges, hlengths.1 hnone⟩
      exact ⟨rfl, hid, htext, ⟨ranges?, hranges, rfl⟩, hstyles⟩
  · rintro ⟨rfl, h⟩
    obtain ⟨ranges?, hgiven, heq⟩ := h.inlineStyles
    obtain ⟨hranges, hall⟩ := given_and_iff.1 hgiven
    refine ⟨ranges?, hranges, ?_⟩
    rw [hlengths.2 hall]
    simp only [bind_eq_ok_iff, optionalString_eq_ok_iff_given, requiredString_eq_ok_iff_given,
      optionalStyle_eq_ok_iff]
    refine ⟨t.id, h.id, t.text, h.text, t.styles, h.styles, ?_⟩
    rw [← heq]

theorem parseImage_eq_ok_iff {i : ImageElement} :
    parseImage members path = .ok i ↔ i.GivenBy members := by
  simp only [parseImage, bind_eq_ok_iff, optionalString_eq_ok_iff_given,
    requiredString_eq_ok_iff_given, optionalDimension_eq_ok_iff, optionalTyped_eq_ok_iff,
    optionalStyle_eq_ok_iff]
  constructor
  · rintro ⟨id, hid, source, hsource, alt, halt, width, hwidth, height, hheight, layout, hlayout,
      styles, hstyles, ⟨⟩⟩
    exact ⟨hid, hsource, halt, hwidth, hheight, hlayout, hstyles⟩
  · intro h
    exact ⟨i.id, h.id, i.source, h.source, i.alt, h.alt, i.width, h.width, i.height, h.height,
      i.layout, h.layout, i.styles, h.styles, rfl⟩

theorem parseVideo_eq_ok_iff {v : VideoElement} :
    parseVideo members path = .ok v ↔ v.GivenBy members := by
  rw [parseVideo, bind_eq_ok_iff]
  simp only [optionalTyped_eq_ok_iff]
  constructor
  · rintro ⟨sources?, hsources, h⟩
    split at h
    · cases h
    · cases h
    · next sources hne =>
      simp only [bind_eq_ok_iff, optionalString_eq_ok_iff_given, optionalDimension_eq_ok_iff,
        optionalTyped_eq_ok_iff, optionalStyle_eq_ok_iff] at h
      obtain ⟨id, hid, width, hwidth, height, hheight, layout, hlayout, poster, hposter, looping,
        hlooping, autoplay, hautoplay, styles, hstyles, ⟨⟩⟩ := h
      exact {
        id := hid, sources := given_and_iff.2 ⟨hsources, fun _ h => Option.some.inj h ▸ hne⟩
        width := hwidth, height := hheight, layout := hlayout, poster := hposter
        looping := ⟨looping, hlooping, rfl⟩, autoplay := ⟨autoplay, hautoplay, rfl⟩
        styles := hstyles }
  · intro h
    obtain ⟨hsources, hne⟩ := given_and_iff.1 h.sources
    refine ⟨some v.sources, hsources, ?_⟩
    obtain ⟨looping, hlooping, hloop⟩ := h.looping
    obtain ⟨autoplay, hautoplay, hauto⟩ := h.autoplay
    split
    · next hnone => cases hnone
    · next hnil => exact absurd (Option.some.inj hnil) (hne _ rfl)
    · next sources _ hsources =>
      obtain rfl := Option.some.inj hsources
      simp only [bind_eq_ok_iff, optionalString_eq_ok_iff_given, optionalDimension_eq_ok_iff,
        optionalTyped_eq_ok_iff, optionalStyle_eq_ok_iff]
      refine ⟨v.id, h.id, v.width, h.width, v.height, h.height, v.layout, h.layout, v.poster,
        h.poster, looping, hlooping, autoplay, hautoplay, v.styles, h.styles, ?_⟩
      rw [← hloop, ← hauto]

/-- There is a text exactly where the grammar says so. -/
theorem exists_textElement_iff (kind : TextKind) :
    (∃ t : TextElement, t.kind = kind ∧ t.GivenBy members) ↔ IsTextElement members := by
  constructor
  · rintro ⟨t, -, h⟩
    exact {
      id := (exists_given_iff exists_text_iff).1 ⟨t.id, h.id⟩
      text := (exists_given_some_iff exists_text_iff).1 ⟨t.text, h.text⟩
      inlineStyles := (exists_givenOr_iff exists_ranges_iff []).1 ⟨t.inlineStyles, h.inlineStyles⟩
      styles := (exists_given_iff exists_styles_iff).1 ⟨t.styles, h.styles⟩ }
  · intro h
    obtain ⟨id, hid⟩ := (exists_given_iff exists_text_iff).2 h.id
    obtain ⟨text, htext⟩ := (exists_given_some_iff exists_text_iff).2 h.text
    obtain ⟨ranges, hranges⟩ := (exists_givenOr_iff exists_ranges_iff []).2 h.inlineStyles
    obtain ⟨styles, hstyles⟩ := (exists_given_iff exists_styles_iff).2 h.styles
    exact ⟨⟨kind, id, text, ranges, styles⟩, rfl, hid, htext, hranges, hstyles⟩

theorem exists_image_iff : (∃ i : ImageElement, i.GivenBy members) ↔ IsImage members := by
  constructor
  · rintro ⟨i, h⟩
    exact {
      id := (exists_given_iff exists_text_iff).1 ⟨i.id, h.id⟩
      source := (exists_given_some_iff exists_text_iff).1 ⟨i.source, h.source⟩
      alt := (exists_given_iff exists_text_iff).1 ⟨i.alt, h.alt⟩
      width := (exists_given_iff exists_dimension_iff).1 ⟨i.width, h.width⟩
      height := (exists_given_iff exists_dimension_iff).1 ⟨i.height, h.height⟩
      layout := (exists_given_iff exists_layout_iff).1 ⟨i.layout, h.layout⟩
      styles := (exists_given_iff exists_styles_iff).1 ⟨i.styles, h.styles⟩ }
  · intro h
    obtain ⟨id, hid⟩ := (exists_given_iff exists_text_iff).2 h.id
    obtain ⟨source, hsource⟩ := (exists_given_some_iff exists_text_iff).2 h.source
    obtain ⟨alt, halt⟩ := (exists_given_iff exists_text_iff).2 h.alt
    obtain ⟨width, hwidth⟩ := (exists_given_iff exists_dimension_iff).2 h.width
    obtain ⟨height, hheight⟩ := (exists_given_iff exists_dimension_iff).2 h.height
    obtain ⟨layout, hlayout⟩ := (exists_given_iff exists_layout_iff).2 h.layout
    obtain ⟨styles, hstyles⟩ := (exists_given_iff exists_styles_iff).2 h.styles
    exact ⟨⟨id, source, alt, width, height, layout, styles⟩, hid, hsource, halt, hwidth, hheight,
      hlayout, hstyles⟩

theorem exists_video_iff : (∃ v : VideoElement, v.GivenBy members) ↔ IsVideo members := by
  constructor
  · rintro ⟨v, h⟩
    exact {
      id := (exists_given_iff exists_text_iff).1 ⟨v.id, h.id⟩
      sources := (exists_given_some_iff exists_sources_iff).1 ⟨v.sources, h.sources⟩
      width := (exists_given_iff exists_dimension_iff).1 ⟨v.width, h.width⟩
      height := (exists_given_iff exists_dimension_iff).1 ⟨v.height, h.height⟩
      layout := (exists_given_iff exists_layout_iff).1 ⟨v.layout, h.layout⟩
      poster := (exists_given_iff exists_text_iff).1 ⟨v.poster, h.poster⟩
      looping := (exists_givenOr_iff exists_bool_iff false).1 ⟨v.looping, h.looping⟩
      autoplay := (exists_givenOr_iff exists_bool_iff false).1 ⟨v.autoplay, h.autoplay⟩
      styles := (exists_given_iff exists_styles_iff).1 ⟨v.styles, h.styles⟩ }
  · intro h
    obtain ⟨id, hid⟩ := (exists_given_iff exists_text_iff).2 h.id
    obtain ⟨sources, hsources⟩ := (exists_given_some_iff exists_sources_iff).2 h.sources
    obtain ⟨width, hwidth⟩ := (exists_given_iff exists_dimension_iff).2 h.width
    obtain ⟨height, hheight⟩ := (exists_given_iff exists_dimension_iff).2 h.height
    obtain ⟨layout, hlayout⟩ := (exists_given_iff exists_layout_iff).2 h.layout
    obtain ⟨poster, hposter⟩ := (exists_given_iff exists_text_iff).2 h.poster
    obtain ⟨looping, hlooping⟩ := (exists_givenOr_iff exists_bool_iff false).2 h.looping
    obtain ⟨autoplay, hautoplay⟩ := (exists_givenOr_iff exists_bool_iff false).2 h.autoplay
    obtain ⟨styles, hstyles⟩ := (exists_given_iff exists_styles_iff).2 h.styles
    exact ⟨⟨id, sources, width, height, layout, poster, looping, autoplay, styles⟩, hid, hsources,
      hwidth, hheight, hlayout, hposter, hlooping, hautoplay, hstyles⟩

end Leaf

/-! ## Elements in elements -/

/-- The value is an element: an object of a known type with the members that this type asks for, and
    of a container also the items of its list are elements. -/
inductive IsElement : Value → Prop where
  | container {members : Members} (type : HasType members .container)
      (id : Optionally IsString members "id") (styles : Optionally IsObject members "styles")
      (elements : Optionally IsArray members "elements")
      (inside : ∀ v ∈ listUnder members "elements", IsElement v) : IsElement (.object members)
  | image {members : Members} (type : HasType members .image) (fields : IsImage members) :
      IsElement (.object members)
  | video {members : Members} (type : HasType members .video) (fields : IsVideo members) :
      IsElement (.object members)
  | text {members : Members} {kind : TextKind} (type : HasType members (.text kind))
      (fields : IsTextElement members) : IsElement (.object members)

/-- The value gives the element: it is of the type of the element, and has each of its parts where
    it belongs, the elements inside as the items of its list. -/
inductive Gives : Value → Element → Prop where
  | container {members : Members} {id : Option String} {styles : Option StyleRecord}
      {elements : List Element} (type : HasType members .container)
      (own_id : Given TextOf members "id" id) (own_styles : Given StylesOf members "styles" styles)
      (list : Optionally IsArray members "elements")
      (inside : List.Forall₂ Gives (listUnder members "elements") elements) :
      Gives (.object members) (.container id styles elements)
  | image {members : Members} {i : ImageElement} (type : HasType members .image)
      (fields : i.GivenBy members) : Gives (.object members) (.image i)
  | video {members : Members} {v : VideoElement} (type : HasType members .video)
      (fields : v.GivenBy members) : Gives (.object members) (.video v)
  | text {members : Members} {t : TextElement} (type : HasType members (.text t.kind))
      (fields : t.GivenBy members) : Gives (.object members) (.text t)

section Parts

variable {α : Type} {parse : Nat → Value → Parsed α} {R : Value → α → Prop}

/-- Items are read one by one. -/
theorem parseIndexed_eq_ok_iff {items : List Value}
    (h : ∀ v ∈ items, ∀ i a, parse i v = .ok a ↔ R v a) (index : Nat) {as : List α} :
    parseIndexed parse index items = .ok as ↔ List.Forall₂ R items as := by
  induction items generalizing index as with
  | nil =>
    rw [parseIndexed, List.forall₂_nil_left_iff]
    exact ⟨fun h => (Except.ok.inj h).symm, fun h => congrArg Except.ok h.symm⟩
  | cons v rest ih =>
    obtain ⟨hv, hrest⟩ := List.forall_mem_cons.1 h
    simp only [parseIndexed, bind_eq_ok_iff, hv, ih hrest]
    constructor
    · rintro ⟨a, ha, as, has, ⟨⟩⟩
      exact .cons ha has
    · rintro (_ | ⟨ha, has⟩)
      exact ⟨_, ha, _, has, rfl⟩

/-- The parts under a key are read from the items of the list there. -/
theorem parseParts_eq_ok_iff {members : Members} {key : String} {path : Path}
    (h : ∀ v ∈ listUnder members key, ∀ i a, parse i v = .ok a ↔ R v a) {as : List α} :
    parseParts parse members key path = .ok as ↔
      Optionally IsArray members key ∧ List.Forall₂ R (listUnder members key) as := by
  rw [← parseIndexed_eq_ok_iff h 0]
  unfold parseParts Optionally
  split
  · next hnone =>
    rw [listUnder_eq_nil hnone, hnone]
    simp [parseIndexed]
  · next items hitems =>
    rw [hitems, listUnder_eq (present?_eq_some_iff.1 hitems).1]
    simp [IsArray]
  · next v hother hv =>
    rw [hv]
    constructor
    · intro h
      cases h
    · rintro ⟨hlist, -⟩
      obtain ⟨items, rfl⟩ := hlist v rfl
      exact absurd rfl (hother items)

end Parts

theorem get?_of_mem_listUnder {members : Members} {key : String} {v : Value}
    (h : v ∈ listUnder members key) :
    Entries.get? members key = some (.array (listUnder members key)) := by
  obtain ⟨i, hi⟩ := List.getElem?_of_mem h
  exact get?_of_getElem?_listUnder hi

/-- There is something for each item exactly where there is something for every one. -/
theorem exists_forall₂_iff {α β : Type} {R : α → β → Prop} {as : List α} :
    (∃ bs, List.Forall₂ R as bs) ↔ ∀ a ∈ as, ∃ b, R a b := by
  induction as with
  | nil => simp
  | cons a rest ih =>
    rw [List.forall_mem_cons, ← ih]
    constructor
    · rintro ⟨_, h⟩
      cases h with
      | cons hab hrest => exact ⟨⟨_, hab⟩, _, hrest⟩
    · rintro ⟨⟨b, hab⟩, bs, hrest⟩
      exact ⟨b :: bs, .cons hab hrest⟩

theorem parseContainerHead_eq_ok_iff {members : Members} {path : Path} {id : Option String}
    {styles : Option StyleRecord} :
    parseContainerHead members path = .ok (id, styles) ↔
      Given TextOf members "id" id ∧ Given StylesOf members "styles" styles := by
  simp only [parseContainerHead, bind_eq_ok_iff, optionalString_eq_ok_iff_given,
    optionalStyle_eq_ok_iff]
  constructor
  · rintro ⟨_, hid, _, hstyles, ⟨⟩⟩
    exact ⟨hid, hstyles⟩
  · rintro ⟨hid, hstyles⟩
    exact ⟨id, hid, styles, hstyles, rfl⟩

/-- A container is read from its own properties and, in turn, from the items of its list. -/
theorem parseFields_container_eq_ok_iff {members : Members} {path : Path} {e : Element}
    (ih : ∀ v ∈ listUnder members "elements", ∀ path e, parseElement path v = .ok e ↔ Gives v e) :
    parseFields .container members path = .ok e ↔
      ∃ id styles elements, e = .container id styles elements ∧
        Given TextOf members "id" id ∧ Given StylesOf members "styles" styles ∧
        Optionally IsArray members "elements" ∧
        List.Forall₂ Gives (listUnder members "elements") elements := by
  have hparts {elements : List Element} :
      parseMember path "elements" members = .ok elements ↔
        Optionally IsArray members "elements" ∧
          List.Forall₂ Gives (listUnder members "elements") elements := by
    rw [parseMember_eq]
    exact parseParts_eq_ok_iff fun v hv i e => ih v hv _ e
  rw [parseFields, bind_eq_ok_iff]
  constructor
  · rintro ⟨⟨id, styles⟩, hhead, h⟩
    obtain ⟨hid, hstyles⟩ := parseContainerHead_eq_ok_iff.1 hhead
    obtain ⟨elements, helements, h⟩ := exists_of_bind_eq_ok h
    obtain rfl := Except.ok.inj h
    exact ⟨id, styles, elements, rfl, hid, hstyles, hparts.1 helements⟩
  · rintro ⟨id, styles, elements, rfl, hid, hstyles, h⟩
    refine ⟨(id, styles), parseContainerHead_eq_ok_iff.2 ⟨hid, hstyles⟩, ?_⟩
    exact bind_eq_ok_iff.2 ⟨elements, hparts.2 h, rfl⟩

/-- What is read from a value is what it gives. -/
theorem parseElement_eq_ok_iff_gives (v : Value) (path : Path) (e : Element) :
    parseElement path v = .ok e ↔ Gives v e := by
  induction v using Value.induct_listed generalizing path e with
  | other v hv =>
    constructor
    · intro h
      cases v with
      | object members => exact absurd rfl (hv members)
      | _ => cases h
    · rintro (_ | _ | _ | _) <;> exact absurd rfl (hv _)
  | object members ih =>
    rw [parseElement_eq_ok_iff]
    -- the elements inside stand in the list under a key, which is where the induction leads
    have hinside : ∀ v ∈ listUnder members "elements", ∀ path e,
        parseElement path v = .ok e ↔ Gives v e :=
      fun v hv => ih "elements" _ (get?_of_mem_listUnder hv) v hv
    constructor
    · rintro ⟨type, htype, h⟩
      cases type with
      | container =>
        obtain ⟨id, styles, elements, rfl, hid, hstyles, hlist, hall⟩ :=
          (parseFields_container_eq_ok_iff hinside).1 h
        exact .container htype hid hstyles hlist hall
      | image =>
        obtain ⟨i, hi, rfl⟩ := map_eq_ok_iff.1 h
        exact .image htype (parseImage_eq_ok_iff.1 hi)
      | video =>
        obtain ⟨v, hv, rfl⟩ := map_eq_ok_iff.1 h
        exact .video htype (parseVideo_eq_ok_iff.1 hv)
      | text kind =>
        obtain ⟨t, ht, rfl⟩ := map_eq_ok_iff.1 h
        obtain ⟨hkind, ht⟩ := parseText_eq_ok_iff.1 ht
        exact .text (hkind ▸ htype) ht
    · intro h
      cases h with
      | container htype hid hstyles hlist hall =>
        exact ⟨.container, htype, (parseFields_container_eq_ok_iff hinside).2
          ⟨_, _, _, rfl, hid, hstyles, hlist, hall⟩⟩
      | image htype hi => exact ⟨.image, htype, map_eq_ok_iff.2 ⟨_, parseImage_eq_ok_iff.2 hi, rfl⟩⟩
      | video htype hv => exact ⟨.video, htype, map_eq_ok_iff.2 ⟨_, parseVideo_eq_ok_iff.2 hv, rfl⟩⟩
      | text htype ht =>
        exact ⟨.text _, htype, map_eq_ok_iff.2 ⟨_, parseText_eq_ok_iff.2 ⟨rfl, ht⟩, rfl⟩⟩

/-- The values that give an element are those of the grammar. -/
theorem exists_gives_iff (v : Value) : (∃ e, Gives v e) ↔ IsElement v := by
  induction v using Value.induct_listed with
  | other v hv =>
    constructor
    · rintro ⟨e, _ | _ | _ | _⟩ <;> exact absurd rfl (hv _)
    · rintro (_ | _ | _ | _) <;> exact absurd rfl (hv _)
  | object members ih =>
    have hinside : (∃ elements, List.Forall₂ Gives (listUnder members "elements") elements) ↔
        ∀ v ∈ listUnder members "elements", IsElement v := by
      rw [exists_forall₂_iff]
      exact forall₂_congr fun v hv => ih "elements" _ (get?_of_mem_listUnder hv) v hv
    constructor
    · rintro ⟨e, h⟩
      cases h with
      | container htype hid hstyles hlist hall =>
        exact .container htype ((exists_given_iff exists_text_iff).1 ⟨_, hid⟩)
          ((exists_given_iff exists_styles_iff).1 ⟨_, hstyles⟩) hlist (hinside.1 ⟨_, hall⟩)
      | image htype hi => exact .image htype (exists_image_iff.1 ⟨_, hi⟩)
      | video htype hv => exact .video htype (exists_video_iff.1 ⟨_, hv⟩)
      | text htype ht => exact .text htype ((exists_textElement_iff _).1 ⟨_, rfl, ht⟩)
    · intro h
      cases h with
      | container htype hid hstyles hlist hall =>
        obtain ⟨id, hid⟩ := (exists_given_iff exists_text_iff).2 hid
        obtain ⟨styles, hstyles⟩ := (exists_given_iff exists_styles_iff).2 hstyles
        obtain ⟨elements, hall⟩ := hinside.2 hall
        exact ⟨.container id styles elements, .container htype hid hstyles hlist hall⟩
      | image htype hi =>
        obtain ⟨i, hi⟩ := exists_image_iff.2 hi
        exact ⟨.image i, .image htype hi⟩
      | video htype hv =>
        obtain ⟨v, hv⟩ := exists_video_iff.2 hv
        exact ⟨.video v, .video htype hv⟩
      | @text _ kind htype ht =>
        obtain ⟨t, hkind, ht⟩ := (exists_textElement_iff kind).2 ht
        exact ⟨.text t, .text (hkind ▸ htype) ht⟩

/-- An element is read exactly from the values of the grammar, wherever they stand, and what is read
    is the element they give. -/
theorem parseElement_reads (path : Path) (v : Value) :
    ((∃ e, parseElement path v = .ok e) ↔ IsElement v) ∧
      ∀ e, parseElement path v = .ok e ↔ Gives v e := by
  refine ⟨?_, parseElement_eq_ok_iff_gives v path⟩
  rw [← exists_gives_iff v]
  exact exists_congr (parseElement_eq_ok_iff_gives v path)

end WebStory
