import WebStory.Markup.Tag
import WebStory.Proofs.Markup.Pieces
/-
  Tags that are read back as elements.

  1. **Names** — the values of attributes are escaped, so an open tag ends where it was written to
     end, whatever its attributes hold.  Of the attributes only the names must be names
     (`Tag.Clean`), and those of a story are: the few that a tag writes by itself, and those that
     are given one by one in the program.

  2. **Attributes** — a name, an equals sign and a value in quotes leave no quote open.  So they can
     stand one behind the other and still end no tag (`closed_attributes`).

  3. **Two tables** — the writer and the reader of markup each have a table of elements without
     content.  A name in one of them only would be written as a tag that is never closed, or read as
     one that needs no closing.  On the names of a story the tables agree (`isBlock`), and such a
     tag around some markup is read as one element (`reads_wrap`).
-/

namespace WebStory

open Token

def Attribute.name : Attribute → String
  | .text name _ => name
  | .flag name => name

/-- All attributes given one by one have names of a certain kind. -/
def Tag.AllNames (P : String → Prop) (t : Tag) : Prop := ∀ a ∈ t.attributes, P a.name

/-- All attributes given one by one have names. -/
def Tag.Clean (t : Tag) : Prop := ∀ a ∈ t.attributes, isElementName a.name.toList = true

namespace Tag

/-! ## The names of attributes -/

section AllNames

variable {P Q : String → Prop} {t : Tag} {name : String}

theorem allNames_ofName (name : String) : (ofName name).AllNames P := nofun

theorem AllNames.imp (h : t.AllNames P) (himp : ∀ name, P name → Q name) : t.AllNames Q :=
  fun a ha => himp _ (h a ha)

theorem AllNames.add {a : Attribute} (h : t.AllNames P) (ha : P a.name) :
    Tag.AllNames P { t with attributes := t.attributes ++ [a] } :=
  List.forall_mem_append.2 ⟨h, List.forall_mem_singleton.2 ha⟩

theorem AllNames.attr (h : t.AllNames P) (hname : P name) (value : String) :
    (t.attr name value).AllNames P := by
  unfold Tag.attr
  split
  · exact h
  · exact h.add hname

theorem AllNames.optAttr (h : t.AllNames P) (hname : P name) (value : Option String) :
    (t.optAttr name value).AllNames P := by
  cases value with
  | none => exact h
  | some value => exact h.attr hname value

theorem AllNames.flag (h : t.AllNames P) (hname : P name) (on : Bool) :
    (t.flag name on).AllNames P := by
  cases on with
  | false => exact h
  | true => exact h.add hname

/-- The attributes that are written besides those given one by one have five names. -/
theorem AllNames.allAttributes (h : t.AllNames P)
    (hP : ∀ name ∈ ["width", "height", "src", "class", "grid-area"], P name)
    (classes : Option String) : ∀ a ∈ t.allAttributes classes, P a.name := by
  have hnamed {name : String} (hname : P name) (value : Option String) :
      ∀ a ∈ (value.map (WebStory.Attribute.text name)).toList, P a.name := by
    cases value with
    | none => exact nofun
    | some value => exact List.forall_mem_singleton.2 hname
  unfold Tag.allAttributes
  simp only [List.forall_mem_append]
  exact ⟨⟨⟨⟨⟨h, hnamed (hP _ (by simp)) _⟩, hnamed (hP _ (by simp)) _⟩, hnamed (hP _ (by simp)) _⟩,
    hnamed (hP _ (by simp)) _⟩, hnamed (hP _ (by simp)) _⟩

end AllNames

/-! ## Clean tags -/

section Clean

variable {t : Tag} {name : String}

theorem clean_iff_allNames :
    t.Clean ↔ t.AllNames fun name => isElementName name.toList = true := Iff.rfl

theorem clean_ofName (name : String) : (ofName name).Clean := nofun

theorem Clean.attr (h : t.Clean) (hname : isElementName name.toList = true) (value : String) :
    (t.attr name value).Clean := by
  rw [clean_iff_allNames] at h ⊢
  exact h.attr hname value

theorem Clean.optAttr (h : t.Clean) (hname : isElementName name.toList = true)
    (value : Option String) : (t.optAttr name value).Clean := by
  rw [clean_iff_allNames] at h ⊢
  exact h.optAttr hname value

theorem Clean.flag (h : t.Clean) (hname : isElementName name.toList = true) (on : Bool) :
    (t.flag name on).Clean := by
  rw [clean_iff_allNames] at h ⊢
  exact h.flag hname on

/-- All attributes that are written have names. -/
theorem Clean.closed_allAttributes (h : t.Clean) (classes : Option String) :
    ∀ a ∈ t.allAttributes classes, Closed a.name.toList := fun a ha =>
  closed_name ((clean_iff_allNames.1 h).allAttributes (by decide) classes a ha)

end Clean

/-! ## Attributes inside a tag -/

/-- A value in quotes, which has no quotes itself, behind its name. -/
theorem closed_quotedText {name value : String} (h : Closed name.toList)
    (hvalue : ∀ c ∈ value.toList, c ≠ '"') :
    Closed (" " ++ name ++ "=\"" ++ value ++ "\"").toList := by
  have hblank : Closed [' '] := closed_of_forall_ne (by simp)
  have hequals : Closed ['='] := closed_of_forall_ne (by simp)
  have htext : (" " ++ name ++ "=\"" ++ value ++ "\"").toList = [' '] ++ name.toList ++ ['='] ++
      ('"' :: value.toList ++ ['"']) := by
    simp
  rw [htext]
  exact ((hblank.append h).append hequals).append (closed_quoted hvalue)

theorem closed_valueText {name value : String} (h : isElementName name.toList = true)
    (hvalue : ∀ c ∈ value.toList, c ≠ '"') :
    Closed (" " ++ name ++ "=\"" ++ value ++ "\"").toList :=
  closed_quotedText (closed_name h) hvalue

theorem closed_attributeText {name : String} (h : Closed name.toList) (value : String) :
    Closed (attributeText name value).toList :=
  closed_quotedText h fun _ hc => (ne_of_mem_escapeMarkup hc).2.2

theorem closed_attribute {a : Attribute} (h : Closed a.name.toList) :
    Closed (Attribute.text a).toList := by
  cases a with
  | text name value => exact closed_attributeText h value
  | flag name =>
    have hblank : Closed [' '] := closed_of_forall_ne (by simp)
    have htext : (Attribute.text (.flag name)).toList = [' '] ++ name.toList := by
      simp [Attribute.text]
    rw [htext]
    exact hblank.append h

theorem head?_attribute (a : Attribute) : (Attribute.text a).toList.head? = some ' ' := by
  cases a <;> simp [Attribute.text, attributeText]

/-- The attributes of a tag, one after another. -/
theorem closed_attributes {attributes : List Attribute}
    (h : ∀ a ∈ attributes, Closed a.name.toList) :
    Closed (String.join (attributes.map Attribute.text)).toList := by
  induction attributes with
  | nil => exact closed_nil
  | cons a rest ih =>
    rw [List.forall_mem_cons] at h
    rw [List.map_cons, String.join_cons, String.toList_append]
    exact (closed_attribute h.1).append (ih h.2)

theorem head?_attributes (attributes : List Attribute) :
    ∀ c ∈ (String.join (attributes.map Attribute.text)).toList.head?, c = ' ' := by
  cases attributes with
  | nil => exact nofun
  | cons a rest =>
    intro c hc
    rw [List.map_cons, String.join_cons, String.toList_append, List.head?_append, head?_attribute,
      Option.some_or] at hc
    exact (Option.some.inj hc).symm

/-! ## Elements -/

/-- An element that has content, for the writer and for the reader, and this is read as markup. -/
def isBlock (name : String) : Bool :=
  isElementName name.toList && !isVoid name && !Token.voidNames.contains name.toList &&
    !rawTextNames.contains name.toList

theorem toList_openText (t : Tag) (classes : Option String) :
    (t.openText classes).toList =
      opening t.name.toList (String.join ((t.allAttributes classes).map Attribute.text)).toList := by
  simp [openText, opening]

/-- A tag with content, as it is written. -/
theorem wrap_eq {t : Tag} (hvoid : isVoid t.name = false) (classes : Option String)
    (content : String) :
    t.wrap classes content = t.openText classes ++ content ++ closeText t.name := by
  rw [wrap, hvoid, if_neg Bool.false_ne_true]
  exact String.append_assoc.symm

theorem toList_wrap (t : Tag) (classes : Option String) (content : String) :
    (t.wrap classes content).toList = (t.openText classes).toList ++
      if isVoid t.name then [] else content.toList ++ (closeText t.name).toList := by
  rw [wrap, String.toList_append]
  split
  · rfl
  · rw [String.toList_append]

theorem toList_closeText (name : String) : (closeText name).toList = closing name.toList := by
  simp [closeText, closing]

section Gathers

variable {α : Type} {g : Token → List α} {t : Tag} {classes : Option String}
  (hname : isElementName t.name.toList = true)
  (hraw : rawTextNames.contains t.name.toList = false)
  (hattributes : ∀ a ∈ t.allAttributes classes, Closed a.name.toList)
include hname hraw hattributes

/-- From a tag around its content a reader gets what it gets from the open tag, from the content and
    from the closing tag. -/
theorem gathers_element {content : String} {out : List α} (hcontent : Gathers g content.toList out) :
    Gathers g (t.wrap classes content).toList
      (g (.openTag t.name.toList (t.openText classes).toList) ++
        if isVoid t.name then []
        else out ++ g (.closeTag t.name.toList (closeText t.name).toList)) := by
  have hopening : Gathers g (t.openText classes).toList
      (g (.openTag t.name.toList (t.openText classes).toList)) := by
    rw [toList_openText]
    exact gathers_opening hname (head?_attributes _) (closed_attributes hattributes) hraw
  rw [toList_wrap, toList_closeText]
  split
  · exact hopening.append gathers_nil
  · exact hopening.append (hcontent.append (gathers_closing hname))

end Gathers

section Wrap

variable {t : Tag} (hclean : t.Clean) (classes : Option String)
include hclean

/-- A tag around some markup is one element, around the elements of the markup. -/
theorem reads_wrap (hname : isBlock t.name = true) {content : String} {inside : List Outline}
    (hcontent : Reads content.toList inside) :
    Reads (t.wrap classes content).toList [.node t.name inside] := by
  simp only [isBlock, Bool.and_eq_true, Bool.not_eq_true'] at hname
  obtain ⟨⟨⟨hname, hvoid⟩, hvoid'⟩, hraw⟩ := hname
  have htext : (t.wrap classes content).toList =
      opening t.name.toList (String.join ((t.allAttributes classes).map Attribute.text)).toList ++
        content.toList ++ closing t.name.toList := by
    simp [wrap_eq hvoid, toList_openText, toList_closeText]
  rw [htext]
  exact reads_element hname (head?_attributes _) (closed_attributes (hclean.closed_allAttributes classes))
    hvoid' hraw hcontent

/-- A tag without content is one element, without elements inside. -/
theorem reads_wrap_void (hname : isElementName t.name.toList = true) (hvoid : isVoid t.name = true)
    (hvoid' : Token.voidNames.contains t.name.toList = true) (content : String) :
    Reads (t.wrap classes content).toList [.node t.name []] := by
  have htext : (t.wrap classes content).toList =
      opening t.name.toList (String.join ((t.allAttributes classes).map Attribute.text)).toList := by
    simp [wrap, hvoid, toList_openText]
  rw [htext]
  exact reads_void hname (head?_attributes _) (closed_attributes (hclean.closed_allAttributes classes)) hvoid'

end Wrap

end Tag

end WebStory
