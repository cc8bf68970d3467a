import WebStory.Markup.Inline
import WebStory.Proofs.Document.Markup
import WebStory.Proofs.Markup.Nesting
import WebStory.Proofs.Number.Digits
/-
  The elements inside a text.

  A text becomes spans, and its line breaks are written only after that, in the whole markup.  They
  are written inside spans and between them, and never in a tag.  So the only elements inside a text
  are line breaks, and spans around line breaks (`Outline.IsTextPart`), whatever characters the text
  is made of (`readsText_spans`).

  1. **Character by character** — a carriage return may be the last character of one piece and its
     line feed the first of the next, and the two are one line break then.  So what is shown of
     markup is about the markup with its line breaks written (`ReadsText`), and further text is put
     in front of it one character at a time (`readsText_cons`).

  2. **Spans** — a tag holds neither of the two characters, so the text of a span is broken apart
     from its tags (`breakLines_span`).  For this the classes must be words that may stand in an
     attribute, which those of a table are (`Naming.Plain`).
-/

namespace WebStory

open Token

/-- An element inside a text: a line break, or a span around some. -/
inductive Outline.IsTextPart : Outline → Prop where
  | lineBreak : Outline.IsTextPart (.node "br" [])
  | span (count : Nat) : Outline.IsTextPart (.node "span" (List.replicate count (.node "br" [])))

/-- With its line breaks written, the markup holds only elements that a text may hold. -/
def ReadsText (cs : List Char) : Prop :=
  ∃ parts : List Outline, (∀ o ∈ parts, o.IsTextPart) ∧ Reads (breakLines cs) parts

/-! ## Line breaks -/

theorem reads_lineBreak : Reads lineBreak [.node "br" []] := by
  have hname : isElementName "br".toList = true := by decide
  exact reads_void hname (by simp) closed_nil (by decide)

/-- Text without tags holds line breaks only. -/
theorem exists_reads_breakLines {cs : List Char} (h : ∀ c ∈ cs, c ≠ '<') :
    ∃ count, Reads (breakLines cs) (List.replicate count (.node "br" [])) := by
  induction cs with
  | nil => exact ⟨0, reads_nil⟩
  | cons c cs ih =>
    rw [List.forall_mem_cons] at h
    obtain ⟨count, hcount⟩ := ih h.2
    rw [breakLines_cons]
    split
    · exact ⟨count, hcount⟩
    · split
      · exact ⟨count + 1, reads_lineBreak.append hcount⟩
      · exact ⟨count, (reads_char h.1).append hcount⟩

theorem readsText_nil : ReadsText [] := ⟨[], nofun, reads_nil⟩

/-- One character of text in front. -/
theorem readsText_cons {c : Char} {cs : List Char} (h : c ≠ '<') (hcs : ReadsText cs) :
    ReadsText (c :: cs) := by
  obtain ⟨parts, hparts, hreads⟩ := hcs
  unfold ReadsText
  rw [breakLines_cons]
  split
  · exact ⟨parts, hparts, hreads⟩
  · split
    · exact ⟨.node "br" [] :: parts, List.forall_mem_cons.2 ⟨.lineBreak, hparts⟩,
        reads_lineBreak.append hreads⟩
    · exact ⟨parts, hparts, (reads_char h).append hreads⟩

/-- Text without tags in front. -/
theorem readsText_append {cs ds : List Char} (h : ∀ c ∈ cs, c ≠ '<') (hds : ReadsText ds) :
    ReadsText (cs ++ ds) := by
  induction cs with
  | nil => exact hds
  | cons c cs ih =>
    rw [List.forall_mem_cons] at h
    exact readsText_cons h.1 (ih h.2)

/-! ## Spans -/

/-- Characters that may stand in the class of a span. -/
def IsClassChar (c : Char) : Prop := c ≠ '"' ∧ c ≠ '\r' ∧ c ≠ '\n'
deriving Decidable

/-- The class of a span, as it stands in the tag. -/
def classAttribute (classes : List Char) : List Char := " class=".toList ++ ('"' :: classes ++ ['"'])

theorem head?_classAttribute (classes : List Char) : ∀ c ∈ (classAttribute classes).head?, c = ' ' := by
  intro c hc
  exact (Option.some.inj hc).symm

theorem closed_classAttribute {classes : List Char} (h : ∀ c ∈ classes, IsClassChar c) :
    Closed (classAttribute classes) := by
  have hequals : Closed " class=".toList := closed_of_forall_ne (by simp)
  exact hequals.append (closed_quoted fun c hc => (h c hc).1)

/-- No line break stands in a tag, so the text of a span is broken apart from its tags. -/
theorem breakLines_span {classes : List Char} (h : ∀ c ∈ classes, IsClassChar c)
    (body ds : List Char) :
    breakLines (opening "span".toList (classAttribute classes) ++
      (body ++ (closing "span".toList ++ ds))) =
      opening "span".toList (classAttribute classes) ++
        (breakLines body ++ (closing "span".toList ++ breakLines ds)) := by
  have hopening : ∀ c ∈ opening "span".toList (classAttribute classes), c ≠ '\r' ∧ c ≠ '\n' := by
    have hattribute : ∀ c ∈ classAttribute classes, c ≠ '\r' ∧ c ≠ '\n' := by
      unfold classAttribute
      refine List.forall_mem_append.2 ⟨by simp, List.forall_mem_append.2 ⟨?_, by simp⟩⟩
      exact List.forall_mem_cons.2 ⟨by decide, fun c hc => (h c hc).2⟩
    unfold opening
    refine List.forall_mem_append.2 ⟨List.forall_mem_cons.2 ⟨by decide, ?_⟩, by simp⟩
    exact List.forall_mem_append.2 ⟨by simp, hattribute⟩
  have hclosing : ∀ c ∈ closing "span".toList, c ≠ '\r' ∧ c ≠ '\n' := by simp [closing]
  have hnext : (closing "span".toList ++ ds).head? ≠ some '\n' := by simp [closing]
  rw [breakLines_of_forall_ne hopening, breakLines_append body hnext,
    breakLines_of_forall_ne hclosing]

/-- A span around some text, in front of further markup. -/
theorem readsText_span {classes body ds : List Char} (hclasses : ∀ c ∈ classes, IsClassChar c)
    (hbody : ∀ c ∈ body, c ≠ '<') (hds : ReadsText ds) :
    ReadsText (opening "span".toList (classAttribute classes) ++
      (body ++ (closing "span".toList ++ ds))) := by
  obtain ⟨parts, hparts, hreads⟩ := hds
  obtain ⟨count, hcount⟩ := exists_reads_breakLines hbody
  have hname : isElementName "span".toList = true := by decide
  have hspan := reads_element hname (head?_classAttribute classes) (closed_classAttribute hclasses)
    (by decide) (by decide) hcount
  refine ⟨.node "span" (List.replicate count (.node "br" [])) :: parts,
    List.forall_mem_cons.2 ⟨.span count, hparts⟩, ?_⟩
  rw [breakLines_span hclasses, ← List.append_assoc, ← List.append_assoc]
  exact hspan.append hreads

theorem toList_span (classes body : String) :
    ("<span class=\"" ++ classes ++ "\">" ++ body ++ "</span>").toList =
      opening "span".toList (classAttribute classes.toList) ++
        (body.toList ++ closing "span".toList) := by
  have hopening : "<span class=\"".toList = '<' :: ("span".toList ++ " class=".toList ++ ['"']) := by
    decide +kernel
  have hbracket : "\">".toList = ['"', '>'] := by decide +kernel
  have hclosing : "</span>".toList = closing "span".toList := by decide +kernel
  rw [String.toList_append, String.toList_append, String.toList_append, String.toList_append,
    hopening, hbracket, hclosing]
  unfold classAttribute
  generalize "span".toList = name
  generalize " class=".toList = before
  simp [opening]

theorem isClassChar_intercalate {classes : List String}
    (h : ∀ k ∈ classes, ∀ c ∈ k.toList, IsClassChar c) :
    ∀ c ∈ (" ".intercalate classes).toList, IsClassChar c := by
  induction classes with
  | nil => exact nofun
  | cons k rest ih =>
    rw [List.forall_mem_cons] at h
    cases rest with
    | nil => simpa using h.1
    | cons k' rest =>
      rw [String.intercalate_cons_cons, String.toList_append, String.toList_append]
      refine List.forall_mem_append.2 ⟨List.forall_mem_append.2 ⟨h.1, ?_⟩, ih h.2⟩
      exact List.forall_mem_singleton.2 ⟨by decide, by decide, by decide⟩

/-- Spans one after another. -/
theorem readsText_spans {spans : List Span}
    (h : ∀ s ∈ spans, ∀ k ∈ s.classes, ∀ c ∈ k.toList, IsClassChar c) :
    ReadsText (renderSpans spans).toList := by
  induction spans with
  | nil => exact readsText_nil
  | cons s rest ih =>
    rw [List.forall_mem_cons] at h
    have hrest := ih h.2
    have hbody : ∀ c ∈ (escapeMarkup (String.ofList s.text)).toList, c ≠ '<' := fun c hc =>
      (ne_of_mem_escapeMarkup hc).1
    have hcons : (renderSpans (s :: rest)).toList = s.markup.toList ++ (renderSpans rest).toList := by
      rw [renderSpans, List.map_cons, String.join_cons, String.toList_append]
      rfl
    rw [hcons, Span.markup]
    split
    · exact readsText_append hbody hrest
    · rw [toList_span, List.append_assoc, List.append_assoc]
      exact readsText_span (isClassChar_intercalate h.1) hbody hrest

/-! ## Texts -/

theorem mem_consSpan {c : Char} {classes : List String} {spans : List Span} {s : Span}
    (h : s ∈ consSpan c classes spans) : s.classes = classes ∨ s ∈ spans := by
  cases spans with
  | nil => exact .inl (congrArg Span.classes (List.mem_singleton.1 h))
  | cons t rest =>
    rw [consSpan] at h
    split at h
    · rcases List.mem_cons.1 h with rfl | h
      · exact .inl rfl
      · exact .inr (List.mem_cons_of_mem _ h)
    · rcases List.mem_cons.1 h with rfl | h
      · exact .inl rfl
      · exact .inr h

/-- The classes of spans are those of ranges. -/
theorem mem_classes_of_mem_spansFrom {ranges : List (InlineStyle × String)} {index : Nat}
    {cs : List Char} {s : Span} (hs : s ∈ spansFrom ranges index cs) {k : String}
    (hk : k ∈ s.classes) : k ∈ ranges.map (·.2) := by
  induction cs generalizing index with
  | nil => exact absurd hs List.not_mem_nil
  | cons c rest ih =>
    rcases mem_consSpan hs with hclasses | hs
    · rw [hclasses] at hk
      obtain ⟨r, hr, rfl⟩ := List.mem_map.1 hk
      exact List.mem_map_of_mem (List.mem_filter.1 hr).1
    · exact ih hs

/-- The names of classes may stand in markup. -/
def Naming.Plain (name : Naming) : Prop := ∀ key, ∀ c ∈ (name key).toList, IsClassChar c

theorem isClassChar_className (index : Nat) :
    ∀ c ∈ (ClassTable.className index).toList, IsClassChar c := by
  rw [ClassTable.className, String.toList_append]
  refine List.forall_mem_append.2 ⟨by simp [IsClassChar], fun c hc => ?_⟩
  have hc := isDigit_of_mem_toString hc
  refine ⟨?_, ?_, ?_⟩ <;>
  · rintro rfl
    exact absurd hc (by decide)

/-- Inside a text there are line breaks, and spans around line breaks. -/
theorem exists_reads_textMarkup {name : Naming} (hname : name.Plain) (text : String)
    (ranges : List InlineStyle) :
    ∃ parts : List Outline, (∀ o ∈ parts, o.IsTextPart) ∧
      Reads (textMarkup name text ranges).toList parts := by
  have hspans : ∀ s ∈ textSpans name text ranges, ∀ k ∈ s.classes, ∀ c ∈ k.toList,
      IsClassChar c := by
    intro s hs k hk
    unfold textSpans at hs
    split at hs
    · obtain rfl := List.mem_singleton.1 hs
      exact absurd hk List.not_mem_nil
    · obtain ⟨⟨r, k'⟩, hr, rfl⟩ := List.mem_map.1 (mem_classes_of_mem_spansFrom hs hk)
      obtain ⟨r', -, rfl⟩ := List.mem_map.1 (List.of_mem_zip hr).2
      exact hname _
  rw [textMarkup, replaceLineBreaks, String.toList_ofList]
  exact readsText_spans hspans

end WebStory
