import WebStory.Document.Body
import WebStory.Proofs.Outcome
/-
  What the setters of a tag leave as it is, and what rendering it gives.

  Every setter writes one field.  The name of a tag is that it was made with, its styles are those
  that were set, and no tag of a story has an explicit class.
-/

namespace WebStory.Tag

variable (t : Tag) (name : String)

/-! ## The name -/

@[simp] theorem name_ofName : (ofName name).name = name := rfl

@[simp] theorem name_attr (value : String) : (t.attr name value).name = t.name := by
  unfold attr
  split <;> rfl

@[simp] theorem name_optAttr (value : Option String) : (t.optAttr name value).name = t.name := by
  cases value with
  | none => rfl
  | some value => exact name_attr t name value

@[simp] theorem name_flag (on : Bool) : (t.flag name on).name = t.name := by cases on <;> rfl

@[simp] theorem name_withWidth (width : Option String) : (t.withWidth width).name = t.name := rfl

@[simp] theorem name_withHeight (height : Option String) : (t.withHeight height).name = t.name := rfl

@[simp] theorem name_withSource (source : Option String) : (t.withSource source).name = t.name := rfl

@[simp] theorem name_withStyles (styles : Option StyleRecord) :
    (t.withStyles styles).name = t.name := rfl

@[simp] theorem name_withThird (third : Option Nat) : (t.withThird third).name = t.name := rfl

/-! ## The styles -/

@[simp] theorem styles_ofName : (ofName name).styles = none := rfl

@[simp] theorem styles_attr (value : String) : (t.attr name value).styles = t.styles := by
  unfold attr
  split <;> rfl

@[simp] theorem styles_optAttr (value : Option String) :
    (t.optAttr name value).styles = t.styles := by
  cases value with
  | none => rfl
  | some value => exact styles_attr t name value

@[simp] theorem styles_flag (on : Bool) : (t.flag name on).styles = t.styles := by cases on <;> rfl

@[simp] theorem styles_withSource (source : Option String) :
    (t.withSource source).styles = t.styles := rfl

@[simp] theorem styles_withStyles (styles : Option StyleRecord) :
    (t.withStyles styles).styles = styles := rfl

@[simp] theorem styles_withThird (third : Option Nat) : (t.withThird third).styles = t.styles := rfl

/-! ## The explicit class -/

@[simp] theorem explicitClass_ofName : (ofName name).explicitClass = none := rfl

@[simp] theorem explicitClass_attr (value : String) :
    (t.attr name value).explicitClass = t.explicitClass := by
  unfold attr
  split <;> rfl

@[simp] theorem explicitClass_optAttr (value : Option String) :
    (t.optAttr name value).explicitClass = t.explicitClass := by
  cases value with
  | none => rfl
  | some value => exact explicitClass_attr t name value

@[simp] theorem explicitClass_flag (on : Bool) :
    (t.flag name on).explicitClass = t.explicitClass := by cases on <;> rfl

@[simp] theorem explicitClass_withWidth (width : Option String) :
    (t.withWidth width).explicitClass = t.explicitClass := rfl

@[simp] theorem explicitClass_withHeight (height : Option String) :
    (t.withHeight height).explicitClass = t.explicitClass := rfl

@[simp] theorem explicitClass_withSource (source : Option String) :
    (t.withSource source).explicitClass = t.explicitClass := rfl

@[simp] theorem explicitClass_withStyles (styles : Option StyleRecord) :
    (t.withStyles styles).explicitClass = t.explicitClass := rfl

@[simp] theorem explicitClass_withThird (third : Option Nat) :
    (t.withThird third).explicitClass = t.explicitClass := rfl

/-! ## Rendering -/

/-- What is rendered is the tag around its content, with its generated class. -/
theorem exists_of_render_eq_ok {t : Tag} {path : Path} {content html : String}
    {table next : ClassTable} (h : (t.render path content).run table = .ok (html, next)) :
    ∃ generated, (t.generatedClass path).run table = .ok (generated, next) ∧
      html = t.wrap (joinClasses t.explicitClass generated) content := by
  obtain ⟨⟨generated, _⟩, hgenerated, hhtml⟩ := exists_of_bind_eq_ok h
  obtain ⟨rfl, rfl⟩ := Prod.mk.inj (Except.ok.inj hhtml)
  exact ⟨generated, hgenerated, rfl⟩

end WebStory.Tag

namespace WebStory

/-! ## Effective styles -/

theorem TextKind.tagName_mem_flexExempt (kind : TextKind) : kind.tagName ∈ Tag.flexExempt := by
  cases kind with
  | paragraph => decide
  | heading level => cases level <;> decide

/-- An exempt tag has its own styles, unless they are empty. -/
theorem effectiveStyles_of_exempt {name : String} (h : name ∈ Tag.flexExempt)
    (styles : Option StyleRecord) :
    Tag.effectiveStyles name styles = styles.filter (!·.isEmpty) := by
  rw [Tag.effectiveStyles, if_pos (List.contains_iff_mem.2 h)]

end WebStory
