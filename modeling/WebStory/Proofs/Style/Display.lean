import WebStory.Proofs.Json.Canonical
import WebStory.Proofs.Markup.Tag
import WebStory.Proofs.Outcome
import WebStory.Proofs.Style.PropertyNames
import WebStory.Proofs.Style.Reachable
/-
  How a tag is displayed.

  A tag that is not exempt is displayed as a flex box unless its styles say otherwise.

  1. **One entry** — the record that gives the tag its class has one entry for `display`: the one it
     came with, or the default that was put in front.  No other key names this property
     (`dasherize_eq_iff`), and nothing writes it after the entries, so the declarations have the
     text of this entry (`get?_display_of_convert`).

  2. **Another record** — but the class may have been made for an earlier record with the same
     canonical form.  Then the text is that of the entry there.  Canonical forms keep all entries,
     so that record has one entry for `display` as well, and its value has the same canonical form
     (`exists_display_of_key_eq`); it need not be spelled the same way.

  3. **Tags** — from the tag to its class, from the class to its only rule and from the rule to the
     record it was made for (`exists_first_of_render`): so the value that is shown is known up to
     its spelling (`render_displays`).
-/

namespace WebStory

open Json

/-! ## The declaration of `display` -/

/-- A record with one entry for `display`, which is not null, declares the text of this entry. -/
theorem get?_display_of_convert {r : StyleRecord} {d : Declarations} (hconvert : r.convert = .ok d)
    {v : Value} (hentry : r.entries.filter (·.1 == "display") = [("display", v)])
    (hv : v.isNull = false) : d.get? "display" = some (plainText v) := by
  have hself : dasherize "display" = "display" := (dasherize_eq_iff (by decide)).2 rfl
  have hclosing : "display" ∉ r.closingProperties := fun hmem =>
    absurd (mem_of_mem_closingProperties hmem) (by decide)
  have hdeclares : declares ("display", v) = true := by
    rw [declares, hv]
    rfl
  have hnames (e : String × Value) : (dasherize e.1 == "display") = (e.1 == "display") := by
    rw [Bool.eq_iff_iff, beq_iff_eq, beq_iff_eq, dasherize_eq_iff (by decide)]
  have htext : entryText ("display", v) = .ok (plainText v) := rfl
  have hget := get?_of_filter_eq hconvert htext
  rw [hself] at hget
  refine hget hclosing ?_
  simp only [hnames]
  rw [← List.filter_filter, hentry, List.filter_cons_of_pos hdeclares, List.filter_nil]

/-! ## Entries with one canonical form -/

/-- Where one record has one entry with a key, a record with the same canonical form has one entry
    with the key too, and their values have one canonical form. -/
theorem exists_entry_of_canonical_eq {r q : StyleRecord} (h : q.canonical = r.canonical)
    {key : String} {v : Value} (hentry : r.entries.filter (·.1 == key) = [(key, v)]) :
    ∃ w, q.entries.filter (·.1 == key) = [(key, w)] ∧ w.canonical = v.canonical := by
  have hcanonical (p : StyleRecord) : p.canonical.entries.filter (·.1 == key) =
      (p.entries.filter (·.1 == key)).map canonicalMember := by
    rw [StyleRecord.canonical, filter_sortMembers, List.filter_map]
    rfl
  have hq := hcanonical q
  rw [h, hcanonical r, hentry, List.map_singleton] at hq
  obtain ⟨⟨k, w⟩, hfilter, hmember⟩ := List.map_eq_singleton_iff.1 hq.symm
  obtain ⟨rfl, hw⟩ := Prod.mk.inj hmember
  exact ⟨w, hfilter, hw⟩

/-- Where one record has one entry for `display`, a record with the same canonical key is shown with
    a value that has the same canonical form. -/
theorem exists_display_of_key_eq {r q : StyleRecord} {d : Declarations} {v : Value}
    (hkey : q.canonicalKey = r.canonicalKey) (hconvert : q.convert = .ok d)
    (hentry : r.entries.filter (·.1 == "display") = [("display", v)]) (hv : v.isNull = false) :
    ∃ w, q.get? "display" = some w ∧ w.canonical = v.canonical ∧
      d.get? "display" = some (plainText w) := by
  obtain ⟨w, hw, hcanonical⟩ :=
    exists_entry_of_canonical_eq (StyleRecord.canonical_eq_of_canonicalKey_eq hkey) hentry
  have hnull : w.isNull = false := by
    rw [← isNull_canonical, hcanonical, isNull_canonical, hv]
  have hget : q.get? "display" = some w := by
    rw [StyleRecord.get?, Entries.get?_eq_head?, hw]
    rfl
  exact ⟨w, hget, hcanonical, get?_display_of_convert hconvert hw hnull⟩

theorem filter_withLeadingDefault (r : StyleRecord) (key : String) (fallback : Value) :
    (r.withLeadingDefault key fallback).entries.filter (·.1 == key) =
      [(key, (r.get? key).getD fallback)] := by
  rw [StyleRecord.withLeadingDefault]
  simp [List.filter_filter]

/-! ## Tags -/

/-- What a tag that is not exempt asks for its class with. -/
def Tag.flexRequest (t : Tag) (path : Path) : ClassRequest :=
  ⟨(t.styles.getD .empty).withLeadingDefault "display" (.string "flex"), path⟩

/-- Such a tag is rendered with the class that it asked for. -/
theorem exists_class_of_render {t : Tag} {path : Path} {content html : String}
    {table next : ClassTable} (hname : t.name ∉ Tag.flexExempt)
    (hrun : (t.render path content).run table = .ok (html, next)) :
    ∃ c, table.assign (t.flexRequest path).record path = (.ok c, next) ∧
      html = t.wrap (Tag.joinClasses t.explicitClass (some c)) content := by
  obtain ⟨generated, hgenerated, rfl⟩ := Tag.exists_of_render_eq_ok hrun
  have hstyles : Tag.effectiveStyles t.name t.styles = some (t.flexRequest path).record := by
    rw [Tag.effectiveStyles, if_neg (by simpa using hname)]
    rfl
  rw [Tag.generatedClass, hstyles] at hgenerated
  obtain ⟨⟨c, after⟩, hclass, hsome⟩ := exists_of_bind_eq_ok hgenerated
  obtain ⟨rfl, rfl⟩ := Prod.mk.inj (Except.ok.inj hsome)
  refine ⟨c, ?_, rfl⟩
  have hassign : assignClass (t.flexRequest path).record path table = .ok (c, after) := hclass
  unfold assignClass at hassign
  split at hassign
  · next heq =>
    obtain ⟨rfl, rfl⟩ := Prod.mk.inj (Except.ok.inj hassign)
    exact heq
  · cases hassign

/-- The only rule of this class is what the first record with the canonical key of the styles was
    converted to. -/
theorem exists_first_of_render {requests : List ClassRequest} {t : Tag} {path : Path}
    {content html : String} {next : ClassTable} (hname : t.name ∉ Tag.flexExempt)
    (hrun : (t.render path content).run (ClassTable.empty.assignAll requests).2 = .ok (html, next)) :
    ∃ c d first, html = t.wrap (Tag.joinClasses t.explicitClass (some c)) content ∧
      Rule.ofClass c d ∈ next.rules ∧
      (∀ rule ∈ next.rules, rule.selector = "." ++ c → rule = Rule.ofClass c d) ∧
      (requests ++ [t.flexRequest path]).find? (·.key == (t.flexRequest path).key) = some first ∧
      first.record.convert = .ok d := by
  obtain ⟨c, hassign, hhtml⟩ := exists_class_of_render hname hrun
  have hnext : (ClassTable.empty.assignAll (requests ++ [t.flexRequest path])).2 = next := by
    rw [ClassTable.assignAll_append]
    exact congrArg Prod.snd hassign
  have hclass := ClassTable.classOf?_assign (congrArg Prod.fst hassign)
  rw [hassign, ← hnext, ← ClassRequest.key] at hclass
  obtain ⟨first, d, hfirst, hconvert, hrule, hunique⟩ := ClassTable.exists_first_of_classOf? hclass
  rw [hnext] at hrule hunique
  exact ⟨c, d, first, hhtml, hrule, hunique, hfirst, ClassTable.convertStyle_eq_ok_iff.1 hconvert⟩

/-- A tag that is not exempt gets a class, whose only rule has a text for `display`.  Without a value
    of its own it is `flex`; otherwise it is the text of the value in the first record with the
    canonical form of the styles, and this value has the canonical form of the own one. -/
theorem render_displays {requests : List ClassRequest} {t : Tag} {path : Path}
    {content html : String} {next : ClassTable} (hname : t.name ∉ Tag.flexExempt)
    (hown : t.styles.bind (·.get? "display") ≠ some .null)
    (hrun : (t.render path content).run (ClassTable.empty.assignAll requests).2 = .ok (html, next)) :
    ∃ c d, html = t.wrap (Tag.joinClasses t.explicitClass (some c)) content ∧
      Rule.ofClass c d ∈ next.rules ∧
      (∀ rule ∈ next.rules, rule.selector = "." ++ c → rule = Rule.ofClass c d) ∧
      (t.styles.bind (·.get? "display") = none → d.get? "display" = some "flex") ∧
      ∀ v, t.styles.bind (·.get? "display") = some v → ∃ (first : ClassRequest) (w : Value),
        (requests ++ [t.flexRequest path]).find? (·.key == (t.flexRequest path).key) = some first ∧
        first.record.get? "display" = some w ∧ w.canonical = v.canonical ∧
        d.get? "display" = some (plainText w) ∧
        ((∀ q ∈ requests, q.key ≠ (t.flexRequest path).key) → w = v) ∧
        ∀ text, v = .string text → w = v := by
  obtain ⟨c, d, first, hhtml, hrule, hunique, hfirst, hconvert⟩ := exists_first_of_render hname hrun
  have hkey : first.key = (t.flexRequest path).key := by
    have hsome := List.find?_some hfirst
    exact beq_iff_eq.1 hsome
  have hvalue : (t.styles.getD .empty).get? "display" = t.styles.bind (·.get? "display") := by
    cases t.styles <;> rfl
  have hnull : (((t.styles.getD .empty).get? "display").getD (.string "flex")).isNull = false := by
    rw [hvalue]
    cases hv : t.styles.bind (·.get? "display") with
    | none => rfl
    | some v =>
      cases v with
      | null => exact absurd hv hown
      | _ => rfl
  -- the rule is that of the first record with the key, which says the same in its own spelling
  obtain ⟨w, hget, hw, htext⟩ :=
    exists_display_of_key_eq hkey hconvert (filter_withLeadingDefault _ _ _) hnull
  have hstring {text : String} (h : w.canonical = .string text) : w = .string text := by
    cases w <;> simp_all [Value.canonical]
  rw [hvalue] at hw
  refine ⟨c, d, hhtml, hrule, hunique, fun hnone => ?_, fun v hv => ?_⟩
  · rw [hnone] at hw
    rw [htext, hstring hw]
    rfl
  · rw [hv] at hw
    refine ⟨first, w, hfirst, hget, hw, htext, fun hnew => ?_, ?_⟩
    · -- no request before has the key, so the first is the own one
      have hown : first = t.flexRequest path := by
        rw [List.find?_append, List.find?_eq_none.2 (by simpa using hnew), Option.none_or,
          List.find?_singleton, if_pos (beq_self_eq_true _)] at hfirst
        exact (Option.some.inj hfirst).symm
      rw [hown, Tag.flexRequest, StyleRecord.get?_withLeadingDefault_self, hvalue, hv] at hget
      exact (Option.some.inj hget).symm
    · rintro text rfl
      exact hstring hw

/-- A box that is displayed as an earlier one. -/
theorem render_displays_block :
    let record : StyleRecord := ⟨[("display", .string "block")]⟩
    let requests : List ClassRequest := [⟨⟨[("color", .string "red")]⟩, .story⟩, ⟨record, .story⟩]
    let t := (Tag.ofName "div").withStyles (some record)
    t.name ∉ Tag.flexExempt ∧ t.styles.bind (·.get? "display") ≠ some .null ∧
    ∃ html next c d,
      (t.render .story "x").run (ClassTable.empty.assignAll requests).2 = .ok (html, next) ∧
      html = t.wrap (some c) "x" ∧ Rule.ofClass c d ∈ next.rules ∧
      d.get? "display" = some "block" := by
  intro record requests t
  have hname : t.name ∉ Tag.flexExempt := by decide
  have hown : t.styles.bind (·.get? "display") ≠ some .null := by
    simp [t, record, Tag.withStyles, StyleRecord.get?, Entries.get?]
  obtain ⟨⟨html, next⟩, hrun⟩ := exists_eq_ok (x := (t.render .story "x").run
    (ClassTable.empty.assignAll requests).2) (by decide +kernel)
  obtain ⟨c, d, hhtml, hrule, -, -, hdisplay⟩ := render_displays hname hown hrun
  obtain ⟨first, w, -, -, -, htext, -, hstring⟩ := hdisplay (.string "block") rfl
  rw [hstring "block" rfl] at htext
  exact ⟨hname, hown, html, next, c, d, hrun, hhtml, hrule, htext⟩

/-- A value may be shown as an earlier record spells it, and a value that is null is not replaced:
    in neither case has the rule the text of the own value, or `flex`. -/
theorem display_respelled_and_null :
    let one : Value := .number (.int 1 (by decide))
    let onePointZero : Value := .number (.float ((Binary64.ofInt? 1).getD default))
    let box (display : Value) := (Tag.ofName "div").withStyles (some ⟨[("display", display)]⟩)
    let t := (ClassTable.empty.assign ⟨[("display", .array [one])]⟩ .story).2
    (((box (.array [onePointZero])).render .story "").run t).toOption.map
        (fun p => (p.1, p.2.rules)) =
      some ("<div class=\"s-1\"></div>", [⟨".s-1", ⟨[("display", "[1]"), ("grid-gap", "0")]⟩⟩]) ∧
    plainText (.array [onePointZero]) = "[1.0]" ∧
    (((box .null).render .story "").run .empty).toOption.map (fun p => (p.1, p.2.rules)) =
      some ("<div class=\"s-1\"></div>", [⟨".s-1", ⟨[("grid-gap", "0")]⟩⟩]) := by
  decide +kernel

end WebStory
