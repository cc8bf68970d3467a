import WebStory.Proofs.Markup.Tag
import WebStory.Proofs.Outcome
import WebStory.Proofs.Style.Faults
import WebStory.Proofs.Style.Numbering
/-
  The flex default, left out or spelled out.

  A tag that is not exempt is displayed as a flex box unless its styles say otherwise.  Styles that
  say nothing about it, and the same styles with `flex` spelled out at some place among them, give
  the tag one and the same record (`effectiveStyles_insertAt`).  So nothing that is rendered tells
  them apart.

  What a failing tag leaves behind is not part of a rendering.  Here a tag is followed together with
  its table, whatever the outcome (`renderFrom`); where there is a rendering, it is this one
  (`run_render`).  A tag asks for one class at most, and a record that has asked once adds nothing
  by asking again, wherever it stands then (`assign_again_elsewhere`).
-/

namespace WebStory

open Json

/-! ## An entry among others -/

namespace StyleRecord

/-- The record with one more entry, behind as many of the others as `place` says. -/
def insertAt (r : StyleRecord) (place : Nat) (key : String) (value : Value) : StyleRecord :=
  ⟨r.entries.take place ++ (key, value) :: r.entries.drop place⟩

variable {r : StyleRecord} {key : String} (h : r.get? key = none)
include h

/-- Leaving out a key that is not there leaves out nothing. -/
theorem filter_of_get?_eq_none : r.entries.filter (fun e => e.1 != key) = r.entries := by
  have hkey : key ∉ Entries.names r.entries := Entries.get?_eq_none_iff.1 h
  rw [List.filter_eq_self]
  intro e he
  rw [bne_iff_ne]
  rintro rfl
  exact hkey (Entries.name_mem_of_mem he)

/-- A key that is not there is put in front with its default. -/
theorem withLeadingDefault_of_get?_eq_none (fallback : Value) :
    r.withLeadingDefault key fallback = ⟨(key, fallback) :: r.entries⟩ := by
  rw [withLeadingDefault, h, filter_of_get?_eq_none h]
  rfl

/-- A new entry is the one that is found. -/
theorem get?_insertAt_self (place : Nat) (value : Value) :
    (r.insertAt place key value).get? key = some value := by
  have hbefore : (r.entries.take place).filter (fun e => e.1 == key) = [] := by
    have hkey : key ∉ Entries.names r.entries := Entries.get?_eq_none_iff.1 h
    rw [List.filter_eq_nil_iff]
    intro e he hname
    rw [beq_iff_eq] at hname
    subst hname
    exact hkey (Entries.name_mem_of_mem (List.mem_of_mem_take he))
  rw [get?, insertAt, Entries.get?_eq_head?, List.filter_append, hbefore, List.nil_append,
    List.filter_cons_of_pos (by simp)]
  rfl

/-- From wherever it was put, a new entry is moved to the front. -/
theorem withLeadingDefault_insertAt (place : Nat) (value fallback : Value) :
    (r.insertAt place key value).withLeadingDefault key fallback =
      ⟨(key, value) :: r.entries⟩ := by
  have hother : (r.insertAt place key value).entries.filter (fun e => e.1 != key) = r.entries := by
    rw [insertAt, List.filter_append, List.filter_cons_of_neg (by simp), ← List.filter_append,
      List.take_append_drop]
    exact filter_of_get?_eq_none h
  rw [withLeadingDefault, get?_insertAt_self h, hother]
  rfl

end StyleRecord

/-! ## Asking again -/

namespace ClassTable

section Again

variable {t : ClassTable} {r : StyleRecord} {path : Path}

/-- A record that got a class gets it again, wherever it stands. -/
theorem assign_again_of_ok {name : String} (h : (t.assign r path).1 = .ok name)
    (elsewhere : Path) :
    (t.assign r path).2.assign r elsewhere = (.ok name, (t.assign r path).2) := by
  rw [assign, classOf?_assign h]

/-- A record that asks a second time gets the same answer, and changes nothing. -/
theorem assign_again (t : ClassTable) (r : StyleRecord) (path : Path) :
    (t.assign r path).2.assign r path = t.assign r path := by
  cases hanswer : (t.assign r path).1 with
  | error e => rw [assign_error hanswer]
  | ok name => rw [assign_again_of_ok hanswer, ← hanswer]

/-- Wherever it asks a second time, it changes nothing. -/
theorem assign_again_elsewhere (t : ClassTable) (r : StyleRecord) (path elsewhere : Path) :
    ((t.assign r path).2.assign r elsewhere).2 = (t.assign r path).2 := by
  cases hanswer : (t.assign r path).1 with
  | ok name => rw [assign_again_of_ok hanswer]
  | error e =>
    rw [assign_error hanswer]
    rcases t.assign_cases r elsewhere with ⟨_, _, heq⟩ | ⟨_, _, _, heq⟩ | ⟨d, hkey, hok, _⟩
    · rw [heq]
    · rw [heq]
    · -- what can be converted here could be converted there
      have hsound : r.fault? = none := convertStyle_isOk_iff_fault?.1 ⟨d, hok⟩
      obtain ⟨d', hok'⟩ : ∃ d', convertStyle r path = .ok d' :=
        convertStyle_isOk_iff_fault?.2 hsound
      obtain ⟨name, hname⟩ := assign_ok_of_convertStyle (t := t) hok'
      rw [hname] at hanswer
      cases hanswer

end Again

end ClassTable

/-! ## A tag and its table -/

namespace Tag

/-- What a tag is rendered as from a table on, or its failure, and the table after that. -/
def renderFrom (t : Tag) (path : Path) (content : String) (table : ClassTable) :
    Except Error String × ClassTable :=
  match effectiveStyles t.name t.styles with
  | some r =>
    let (answer, next) := table.assign r path
    (answer.map fun c => t.wrap (joinClasses t.explicitClass (some c)) content, next)
  | none => (.ok (t.wrap (joinClasses t.explicitClass none) content), table)

/-- A rendering is what the tag is rendered as, with the table after that. -/
theorem run_render (t : Tag) (path : Path) (content : String) (table : ClassTable) :
    (t.render path content).run table =
      (t.renderFrom path content table).1.map (·, (t.renderFrom path content table).2) := by
  unfold render generatedClass renderFrom
  cases effectiveStyles t.name t.styles with
  | none => rfl
  | some r =>
    have hclass : (assignClass r path).run table =
        (table.assign r path).1.map (·, (table.assign r path).2) := by
      show assignClass r path table = _
      unfold assignClass
      cases table.assign r path with
      | mk answer next => cases answer <;> rfl
    simp only [StateT.run_bind, StateT.run_map, hclass]
    cases (table.assign r path).1 <;> rfl

/-- A tag adds one rule at most, and if it fails it adds nothing. -/
theorem rules_renderFrom (t : Tag) (path : Path) (content : String) (table : ClassTable) :
    (∃ new : List Rule, new.length ≤ 1 ∧
      (t.renderFrom path content table).2.rules = table.rules ++ new) ∧
    ∀ e, (t.renderFrom path content table).1 = .error e →
      (t.renderFrom path content table).2 = table := by
  unfold renderFrom
  cases effectiveStyles t.name t.styles with
  | none => exact ⟨⟨[], Nat.zero_le 1, (List.append_nil _).symm⟩, fun _ _ => rfl⟩
  | some r =>
    refine ⟨table.rules_assign r path, ?_⟩
    intro e he
    cases hanswer : (table.assign r path).1 with
    | error e' => exact ClassTable.assign_error hanswer
    | ok name =>
      simp only [hanswer] at he
      cases he

/-- A tag that is rendered a second time is rendered as it was, and adds nothing. -/
theorem renderFrom_again (t : Tag) (path : Path) (content : String) (table : ClassTable) :
    t.renderFrom path content (t.renderFrom path content table).2 =
      t.renderFrom path content table := by
  unfold renderFrom
  cases effectiveStyles t.name t.styles with
  | none => rfl
  | some r =>
    show Prod.map _ id ((table.assign r path).2.assign r path) =
      Prod.map _ id (table.assign r path)
    rw [table.assign_again r path]

/-- Wherever it stands the second time, and whatever it holds, it adds nothing. -/
theorem renderFrom_again_elsewhere (t : Tag) (path elsewhere : Path) (content other : String)
    (table : ClassTable) :
    (t.renderFrom elsewhere other (t.renderFrom path content table).2).2 =
      (t.renderFrom path content table).2 := by
  unfold renderFrom
  cases effectiveStyles t.name t.styles with
  | none => rfl
  | some r => exact table.assign_again_elsewhere r path elsewhere

end Tag

/-! ## The default -/

section FlexDefault

variable {t : Tag} {styles : Option StyleRecord}

/-- Styles without a `display` of their own, and with `flex` put in at some place, are one record to a
    tag that is not exempt. -/
theorem effectiveStyles_insertAt {name : String} (hname : name ∉ Tag.flexExempt)
    (hown : styles.bind (·.get? "display") = none) (place : Nat) :
    Tag.effectiveStyles name
        (some ((styles.getD .empty).insertAt place "display" (.string "flex"))) =
      Tag.effectiveStyles name styles := by
  have hnone : (styles.getD .empty).get? "display" = none := by
    cases styles with
    | none => rfl
    | some r => exact hown
  have hexempt : ¬Tag.flexExempt.contains name = true := by simpa using hname
  rw [Tag.effectiveStyles, Tag.effectiveStyles, if_neg hexempt, if_neg hexempt, Option.getD_some,
    StyleRecord.withLeadingDefault_insertAt hnone,
    StyleRecord.withLeadingDefault_of_get?_eq_none hnone]

/-- A tag that is not exempt, once without a `display` of its own and once with `flex` spelled out at
    some place among its styles: both are rendered alike and with one class, from any table on.  One
    after the other they get what the first of them got, and the second adds no rule, wherever it
    stands.  What a tag is rendered as, and the table after that, are those of its rendering where it
    has one.  A tag of any kind adds one rule at most, and none if it fails. -/
theorem render_flex_spelled_out (hname : t.name ∉ Tag.flexExempt)
    (hown : styles.bind (·.get? "display") = none) (place : Nat) :
    let plain := t.withStyles styles
    let spelled :=
      t.withStyles (some ((styles.getD .empty).insertAt place "display" (.string "flex")))
    (∀ path content, plain.render path content = spelled.render path content) ∧
    (∀ path, plain.generatedClass path = spelled.generatedClass path) ∧
    (∀ first ∈ [plain, spelled], ∀ second ∈ [plain, spelled], ∀ path content table,
      second.renderFrom path content (first.renderFrom path content table).2 =
        first.renderFrom path content table ∧
      ∀ elsewhere other,
        (second.renderFrom elsewhere other (first.renderFrom path content table).2).2 =
          (first.renderFrom path content table).2) ∧
    ∀ (u : Tag) path content table,
      (u.render path content).run table =
        (u.renderFrom path content table).1.map (·, (u.renderFrom path content table).2) ∧
      (∃ new : List Rule, new.length ≤ 1 ∧
        (u.renderFrom path content table).2.rules = table.rules ++ new) ∧
      ∀ e, (u.renderFrom path content table).1 = .error e →
        (u.renderFrom path content table).2 = table := by
  intro plain spelled
  have hrecord : Tag.effectiveStyles spelled.name spelled.styles =
      Tag.effectiveStyles plain.name plain.styles := effectiveStyles_insertAt hname hown place
  have hclass (path : Path) : plain.generatedClass path = spelled.generatedClass path := by
    rw [Tag.generatedClass, Tag.generatedClass, hrecord]
  have hrender (path : Path) (content : String) :
      plain.render path content = spelled.render path content := by
    rw [Tag.render, Tag.render, hclass]
    rfl
  -- whichever of the two comes first, it is the same function of the table
  have hfrom : plain.renderFrom = spelled.renderFrom := by
    funext path content table
    rw [Tag.renderFrom, Tag.renderFrom, hrecord]
    rfl
  have hboth : ∀ u ∈ [plain, spelled], u.renderFrom = plain.renderFrom := by
    intro u hu
    have hu : u = plain ∨ u = spelled := by simpa using hu
    rcases hu with h | h
    · rw [h]
    · rw [h, hfrom]
  refine ⟨hrender, hclass, ?_, fun u path content table =>
    ⟨u.run_render path content table, u.rules_renderFrom path content table⟩⟩
  intro first hfirst second hsecond path content table
  rw [hboth first hfirst, hboth second hsecond]
  refine ⟨plain.renderFrom_again path content table, ?_⟩
  intro elsewhere other
  exact plain.renderFrom_again_elsewhere path elsewhere content other table

/-- The same box twice, the second time with `flex` between its styles and at another place. -/
theorem render_flex_spelled_out_between :
    let record : StyleRecord := ⟨[("color", .string "red"), ("opacity", .bool true)]⟩
    let plain := (Tag.ofName "div").withStyles (some record)
    let spelled := (Tag.ofName "div").withStyles
      (some ⟨[("color", .string "red"), ("display", .string "flex"), ("opacity", .bool true)]⟩)
    let once := (plain.renderFrom .story "x" .empty).2
    let twice := (spelled.renderFrom (Path.story.key "other") "y" once).2
    "div" ∉ Tag.flexExempt ∧ (some record).bind (·.get? "display") = none ∧
    plain.render .story "x" = spelled.render .story "x" ∧
    (plain.render .story "x").run .empty =
      (plain.renderFrom .story "x" .empty).1.map (·, once) ∧
    twice = once ∧ twice.rules.length ≤ 1 := by
  intro record plain spelled once twice
  have hname : "div" ∉ Tag.flexExempt := by decide
  have hown : (some record).bind (·.get? "display") = none := by
    simp [record, StyleRecord.get?, Entries.get?]
  obtain ⟨hrender, -, hafter, hrules⟩ :=
    render_flex_spelled_out (t := Tag.ofName "div") hname hown 1
  have hmem : spelled ∈ [plain, spelled] := by simp
  have htwice : twice = once :=
    (hafter plain List.mem_cons_self spelled hmem .story "x" .empty).2 _ "y"
  obtain ⟨htie, ⟨new, hnew, honce⟩, -⟩ := hrules plain .story "x" .empty
  refine ⟨hname, hown, hrender .story "x", htie, htwice, ?_⟩
  rw [htwice]
  show (plain.renderFrom .story "x" .empty).2.rules.length ≤ 1
  rw [honce]
  exact hnew

end FlexDefault

end WebStory
