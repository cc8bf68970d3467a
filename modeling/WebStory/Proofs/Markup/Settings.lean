import WebStory.Proofs.Markup.Attributes
import WebStory.Proofs.Markup.Tag
/-
  Tags that are read back as they were set up.

  1. **Settings** — a tag is set up by one setter after another, and a list of settings stands for
     any such sequence (`Tag.build`).  What the tag ought to have is said of the list alone, without
     running the setters: the attributes given one by one are kept in order, and of the settings of
     one field the last counts (`attributes`).

  2. **One setter** — each of them adds an attribute at the end, or replaces what one field holds
     (`set_eq`).  Some leave the field empty for an empty text; it makes no difference whether that
     is done when the text is set or when the last one is looked up (`lastD_nonempty`).

  3. **All of them** — so by induction on the list the tag ends up with what the list says
     (`build_eq`), and writes the attributes that the settings ask for, in a fixed order of its own
     (`allAttributes_build`).

  4. **Reading back** — the open tag of what is rendered ends where the reader says it ends, and is
     read as the name and the attributes of the settings (`render_reads_settings`).
-/

namespace WebStory.Tag

open Token

/-! ## Settings -/

/-- An attribute with a setter of its own, which takes a text. -/
inductive Slot where
  | width
  | height
  | source
  | explicitClass
deriving DecidableEq

/-- A setter with its arguments. -/
inductive Setting where
  | attr (name value : String)
  | optAttr (name : String) (value : Option String)
  | flag (name : String) (on : Bool)
  | slot (place : Slot) (value : Option String)
  | styles (record : Option StyleRecord)
  | third (index : Option Nat)

/-- The tag after one more setter. -/
def set (t : Tag) : Setting → Tag
  | .attr name value => t.attr name value
  | .optAttr name value => t.optAttr name value
  | .flag name on => t.flag name on
  | .slot .width value => t.withWidth value
  | .slot .height value => t.withHeight value
  | .slot .source value => t.withSource value
  | .slot .explicitClass value => t.withClass value
  | .styles record => t.withStyles record
  | .third index => t.withThird index

/-- The tag with a name after setters in order. -/
def build (name : String) (settings : List Setting) : Tag := settings.foldl set (ofName name)

namespace Setting

/-- The attribute that is added. -/
def attribute? : Setting → Option Attribute
  | .attr name value | .optAttr name (some value) =>
    if value = "" then none else some (.text name value)
  | .flag name true => some (.flag name)
  | _ => none

/-- What is put into a slot. -/
def text? (s : Slot) : Setting → Option (Option String)
  | .slot place value => if place = s then some value else none
  | _ => none

def styles? : Setting → Option (Option StyleRecord)
  | .styles record => some record
  | _ => none

def third? : Setting → Option (Option Nat)
  | .third index => some index
  | _ => none

/-- What a field holds after settings, given what it held before: what was written last. -/
def lastD {α : Type} (write : Setting → Option α) (before : α) (settings : List Setting) : α :=
  (settings.filterMap write).getLast?.getD before

/-- The text in a slot: what it was last set to, if that is not empty. -/
def lastText? (s : Slot) (settings : List Setting) : Option String :=
  (lastD (text? s) none settings).filter (· ≠ "")

/-- The classes with a space between them, if there are any. -/
def classText? (explicit generated : Option String) : Option String :=
  match explicit.toList ++ generated.toList with
  | [] => none
  | names => some (" ".intercalate names)

/-- The attributes that settings ask for, given the generated class. -/
def attributes (settings : List Setting) (generated : Option String) : List Attribute :=
  let area? : Option String :=
    (lastD third? none settings).bind (["upper-third", "middle-third", "lower-third"][·]?)
  settings.filterMap attribute? ++
    [("width", lastText? .width settings), ("height", lastText? .height settings),
      ("src", lastText? .source settings),
      ("class", classText? (lastText? .explicitClass settings) generated),
      ("grid-area", area?)].filterMap fun (key, value?) => value?.map (WebStory.Attribute.text key)

end Setting

/-! ## What a tag ends up with -/

/-- What one setter does. -/
theorem set_eq (t : Tag) (s : Setting) : t.set s =
    { name := t.name
      attributes := t.attributes ++ s.attribute?.toList
      width := ((s.text? .width).map nonempty?).getD t.width
      height := ((s.text? .height).map nonempty?).getD t.height
      source := ((s.text? .source).map nonempty?).getD t.source
      styles := s.styles?.getD t.styles
      explicitClass := ((s.text? .explicitClass).map nonempty?).getD t.explicitClass
      third := s.third?.getD t.third } := by
  have hattr (name value : String) : t.attr name value =
      { t with attributes := t.attributes ++ (Setting.attr name value).attribute?.toList } := by
    by_cases h : value = "" <;> simp [attr, Setting.attribute?, h]
  rcases s with ⟨name, value⟩ | ⟨name, _ | value⟩ | ⟨name, _ | _⟩ | ⟨_ | _ | _ | _, value⟩ | record |
    index
  · exact hattr name value
  · simp [set, optAttr, Setting.attribute?, Setting.text?, Setting.styles?, Setting.third?]
  · exact hattr name value
  · simp [set, flag, Setting.attribute?, Setting.text?, Setting.styles?, Setting.third?]
  · rfl
  all_goals simp [set, withWidth, withHeight, withSource, withClass, withStyles, withThird,
    Setting.attribute?, Setting.text?, Setting.styles?, Setting.third?]

theorem lastD_cons {α : Type} (write : Setting → Option α) (before : α) (s : Setting)
    (settings : List Setting) : Setting.lastD write before (s :: settings) =
      Setting.lastD write ((write s).getD before) settings := by
  unfold Setting.lastD
  cases hwrite : write s with
  | none => rw [List.filterMap_cons_none hwrite, Option.getD_none]
  | some a =>
    rw [List.filterMap_cons_some hwrite, List.getLast?_cons, Option.getD_some, Option.getD_some]

/-- What setters do one after another. -/
theorem foldl_set (settings : List Setting) (t : Tag) : settings.foldl set t =
    { name := t.name
      attributes := t.attributes ++ settings.filterMap Setting.attribute?
      width := Setting.lastD (fun s => (s.text? .width).map nonempty?) t.width settings
      height := Setting.lastD (fun s => (s.text? .height).map nonempty?) t.height settings
      source := Setting.lastD (fun s => (s.text? .source).map nonempty?) t.source settings
      styles := Setting.lastD Setting.styles? t.styles settings
      explicitClass :=
        Setting.lastD (fun s => (s.text? .explicitClass).map nonempty?) t.explicitClass settings
      third := Setting.lastD Setting.third? t.third settings } := by
  induction settings generalizing t with
  | nil => simp [Setting.lastD]
  | cons s rest ih =>
    have hattributes : (s :: rest).filterMap Setting.attribute? =
        s.attribute?.toList ++ rest.filterMap Setting.attribute? := by
      cases h : s.attribute? <;> simp [h]
    simp only [List.foldl_cons, ih, lastD_cons, hattributes, set_eq, List.append_assoc]

/-- An empty text is no text, whenever it is left out. -/
theorem lastD_nonempty (s : Slot) (settings : List Setting) :
    Setting.lastD (fun setting => (setting.text? s).map nonempty?) none settings =
      Setting.lastText? s settings := by
  have hnonempty (value : Option String) : nonempty? value = value.filter (· ≠ "") := by
    cases value with
    | none => rfl
    | some value => by_cases h : value = "" <;> simp [nonempty?, Option.filter, h]
  unfold Setting.lastText? Setting.lastD
  rw [← List.map_filterMap, List.getLast?_map, ← hnonempty]
  cases (settings.filterMap (Setting.text? s)).getLast? <;> rfl

/-- What the tag ends up with. -/
theorem build_eq (name : String) (settings : List Setting) : build name settings =
    { name
      attributes := settings.filterMap Setting.attribute?
      width := Setting.lastText? .width settings
      height := Setting.lastText? .height settings
      source := Setting.lastText? .source settings
      styles := Setting.lastD Setting.styles? none settings
      explicitClass := Setting.lastText? .explicitClass settings
      third := Setting.lastD Setting.third? none settings } := by
  simp only [build, foldl_set, ofName, lastD_nonempty, List.nil_append]

theorem classText?_eq (explicit generated : Option String) :
    Setting.classText? explicit generated = joinClasses explicit generated := by
  have hpair (a b : String) : " ".intercalate [a, b] = a ++ " " ++ b := rfl
  have hsingle (a : String) : " ".intercalate [a] = a := rfl
  cases explicit <;> cases generated <;> simp [Setting.classText?, joinClasses, hpair, hsingle]

/-- The attributes of the tag are those that the settings ask for. -/
theorem allAttributes_build (name : String) (settings : List Setting) (generated : Option String) :
    (build name settings).allAttributes
        (joinClasses (build name settings).explicitClass generated) =
      Setting.attributes settings generated := by
  have hcons (key : String) (value? : Option String) (rest : List (String × Option String)) :
      ((key, value?) :: rest).filterMap (fun (key, value?) => value?.map (WebStory.Attribute.text key)) =
        (value?.map (WebStory.Attribute.text key)).toList ++
          rest.filterMap fun (key, value?) => value?.map (WebStory.Attribute.text key) := by
    cases value? <;> rfl
  simp only [build_eq, ← classText?_eq, Setting.attributes, hcons, allAttributes,
    List.filterMap_nil, List.append_nil, List.append_assoc]
  rfl

/-! ## Reading back -/

/-- What is rendered begins with a tag that ends where the reader says it does, and is read as the
    name and the attributes that the settings ask for; the generated class is that of a tag with
    this name and with the styles that were set last. -/
theorem render_reads_settings {name : String} {settings : List Setting} {path : Path}
    {content html : String} {table next : ClassTable} (hname : IsName name)
    (hnames : ∀ a ∈ settings.filterMap Setting.attribute?, IsName a.name)
    (hrun : ((build name settings).render path content).run table = .ok (html, next)) :
    ∃ generated tag,
      (((ofName name).withStyles (Setting.lastD Setting.styles? none settings)).generatedClass
        path).run table = .ok (generated, next) ∧
      splitTag none html.toList =
        (tag, if isVoid name then [] else content.toList ++ ("</" ++ name ++ ">").toList) ∧
      readTag? tag = some (name, Setting.attributes settings generated) := by
  obtain ⟨generated, hgenerated, rfl⟩ := exists_of_render_eq_ok hrun
  have htname : (build name settings).name = name := congrArg Tag.name (build_eq name settings)
  have hstyles : (build name settings).styles = Setting.lastD Setting.styles? none settings :=
    congrArg Tag.styles (build_eq name settings)
  have hattributes : (build name settings).attributes = settings.filterMap Setting.attribute? :=
    congrArg Tag.attributes (build_eq name settings)
  have hnamed := AllNames.allAttributes (P := IsName) (t := build name settings)
    (fun a ha => hnames a (hattributes ▸ ha)) (by decide)
    (joinClasses (build name settings).explicitClass generated)
  refine ⟨generated, ((build name settings).openText
    (joinClasses (build name settings).explicitClass generated)).toList, ?_, ?_, ?_⟩
  · rw [generatedClass, htname, hstyles] at hgenerated
    exact hgenerated
  · rw [splitTag_wrap (htname.symm ▸ hname) hnamed, htname]
  · rw [readTag?_openText (htname.symm ▸ hname) hnamed, htname, allAttributes_build]

/-- Values with all that markup is made of, and settings that are taken back. -/
theorem render_reads_settings_taken_back :
    let settings : List Setting :=
      [.attr "title" "'<b title=\"x\">' &amp; &lt;", .slot .width (some "10"), .flag "hidden" true,
        .third (some 1), .attr "id" "", .flag "async" false, .slot .source (some "a.png?b=1&c=2"),
        .slot .explicitClass (some "wide"), .slot .width (some ""), .third (some 3)]
    let attributes : List Attribute :=
      [.text "title" "'<b title=\"x\">' &amp; &lt;", .flag "hidden", .text "src" "a.png?b=1&c=2",
        .text "class" "wide s-1"]
    ∃ html table tag, ((build "div" settings).render .story "<p>x</p>").run .empty = .ok (html, table) ∧
      splitTag none html.toList = (tag, "<p>x</p></div>".toList) ∧
      readTag? tag = some ("div", attributes) := by
  intro settings attributes
  obtain ⟨⟨html, table⟩, hrun⟩ := exists_eq_ok
    (x := ((build "div" settings).render .story "<p>x</p>").run .empty) (by decide +kernel)
  obtain ⟨generated, tag, hgenerated, hsplit, hread⟩ :=
    render_reads_settings (by decide) (by decide +kernel) hrun
  have hclass : ((((ofName "div").withStyles (Setting.lastD Setting.styles? none settings)).generatedClass
      .story).run .empty).toOption.map (·.1) = some (some "s-1") := by decide +kernel
  rw [hgenerated] at hclass
  obtain rfl : generated = some "s-1" := Option.some.inj hclass
  exact ⟨html, table, tag, hrun, hsplit, hread⟩

end WebStory.Tag
