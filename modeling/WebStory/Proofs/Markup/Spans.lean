import WebStory.Proofs.Document.Rendering
import WebStory.Proofs.Markup.Inline
import WebStory.Proofs.Markup.Pieces
/-
  What ranges do to a text.

  The ranges of a text divide it into spans, and nothing of the text is lost or moved.  One might
  expect that without the tags of its spans the markup is that of the text without ranges.  It
  nearly is.

  1. **Spans** — each character goes into the first of the spans behind it or in front of them, so
     the texts of the spans make up the text (`flatMap_text_spansFrom`) and neighbours differ in
     their classes (`separate_spansFrom`).

  2. **Line breaks** — these are written in the whole markup, tags included, and last of all.  No
     tag of a span has a line end in it, so each span gets its own line breaks, just as if it stood
     alone (`breakLines_renderSpans`).

  3. **Divided pairs** — the crux.  A carriage return with its line feed is one line break, but only
     if both lie in one span: if they do not, each of them is written as a line break.  How often
     that happens is counted on the text and its ranges alone (`dividedBreaks`), by induction along
     the text with a look at one further character (`lines_spansFrom`).

  4. **Rendered texts** — spans are told apart by classes and ranges by styles.  Once all ranges of
     a text have their classes these are in step (`canonicalKey_eq_of_naming_eq`), so the count does
     not depend on the table that the text met.

  So what is left without the spans is the text without its ranges, with one more line break
  wherever a pair is divided (`withoutSpans_renderText`).
-/

namespace WebStory

open Token ClassTable

/-! ## Spans -/

namespace Span

/-- The text of a span with its line breaks. -/
def lines (s : Span) : List Char := breakLines (escapeMarkup (String.ofList s.text)).toList

def openTag (s : Span) : List Char :=
  opening "span".toList (classAttribute (" ".intercalate s.classes).toList)

/-- A span as it stands in a text, with its line breaks. -/
def piece (s : Span) : List Char :=
  if s.classes.isEmpty then s.lines else s.openTag ++ (s.lines ++ closing "span".toList)

/-- The classes of a span may stand in markup. -/
def Plain (s : Span) : Prop := ∀ k ∈ s.classes, ∀ c ∈ k.toList, IsClassChar c

end Span

/-- Spans next to each other have different classes. -/
def Separate (spans : List Span) : Prop := spans.IsChain fun s s' => s.classes ≠ s'.classes

theorem toList_renderSpans_cons (s : Span) (rest : List Span) :
    (renderSpans (s :: rest)).toList = s.markup.toList ++ (renderSpans rest).toList := by
  rw [renderSpans, List.map_cons, String.join_cons, String.toList_append]
  rfl

/-- Line breaks are written in each span by itself. -/
theorem breakLines_renderSpans {spans : List Span} (hplain : ∀ s ∈ spans, s.Plain)
    (hseparate : Separate spans) :
    breakLines (renderSpans spans).toList = spans.flatMap Span.piece := by
  induction spans with
  | nil => rfl
  | cons s rest ih =>
    rw [List.forall_mem_cons] at hplain
    have hrest := ih hplain.2 hseparate.tail
    rw [toList_renderSpans_cons, List.flatMap_cons, ← hrest, Span.markup, Span.piece]
    by_cases hclasses : s.classes.isEmpty = true
    · -- a span without classes is followed by a tag, so no line feed stands behind it
      have hnext : (renderSpans rest).toList.head? ≠ some '\n' := by
        cases rest with
        | nil => simp [renderSpans]
        | cons s' more =>
          have hne : s.classes ≠ s'.classes := (List.isChain_cons_cons.1 hseparate).1
          rw [List.isEmpty_iff.1 hclasses] at hne
          have hs' : ¬s'.classes.isEmpty = true := fun h => hne (List.isEmpty_iff.1 h).symm
          rw [toList_renderSpans_cons, Span.markup, if_neg hs', toList_span]
          simp [opening]
      rw [if_pos hclasses, if_pos hclasses]
      exact breakLines_append _ hnext
    · rw [if_neg hclasses, if_neg hclasses, toList_span, List.append_assoc, List.append_assoc,
        breakLines_span (isClassChar_intercalate hplain.1)]
      simp only [Span.lines, Span.openTag, List.append_assoc]

/-! ## The spans of a text -/

section SpansFrom

variable (ranges : List (InlineStyle × String))

/-- The first span has the classes of the first character. -/
theorem exists_spansFrom_cons (index : Nat) (c : Char) (rest : List Char) :
    ∃ text more, spansFrom ranges index (c :: rest) =
      ⟨c :: text, activeClasses ranges index⟩ :: more := by
  rw [spansFrom]
  cases spansFrom ranges (index + 1) rest with
  | nil => exact ⟨[], [], rfl⟩
  | cons s more =>
    rw [consSpan]
    by_cases h : s.classes = activeClasses ranges index
    · exact ⟨s.text, more, if_pos h⟩
    · exact ⟨[], s :: more, if_neg h⟩

theorem separate_spansFrom (index : Nat) (cs : List Char) :
    Separate (spansFrom ranges index cs) := by
  induction cs generalizing index with
  | nil => exact .nil
  | cons c rest ih =>
    have hrest := ih (index + 1)
    rw [spansFrom]
    cases hspans : spansFrom ranges (index + 1) rest with
    | nil => exact .singleton _
    | cons s more =>
      rw [hspans] at hrest
      rw [consSpan]
      by_cases h : s.classes = activeClasses ranges index
      · -- the first span grows, and keeps its classes
        rw [if_pos h]
        cases more with
        | nil => exact .singleton _
        | cons s' more =>
          obtain ⟨hne, hmore⟩ := List.isChain_cons_cons.1 hrest
          exact List.isChain_cons_cons.2 ⟨h ▸ hne, hmore⟩
      · rw [if_neg h]
        exact List.isChain_cons_cons.2 ⟨Ne.symm h, hrest⟩

/-- No character of a text is lost or moved. -/
theorem flatMap_text_spansFrom (index : Nat) (cs : List Char) :
    (spansFrom ranges index cs).flatMap Span.text = cs := by
  induction cs generalizing index with
  | nil => rfl
  | cons c rest ih =>
    have hrest := ih (index + 1)
    rw [spansFrom]
    cases hspans : spansFrom ranges (index + 1) rest with
    | nil =>
      rw [hspans] at hrest
      exact congrArg (c :: ·) hrest
    | cons s more =>
      rw [hspans] at hrest
      rw [consSpan]
      by_cases h : s.classes = activeClasses ranges index
      · rw [if_pos h]
        exact congrArg (c :: ·) hrest
      · rw [if_neg h]
        exact congrArg (c :: ·) hrest

end SpansFrom

section TextSpans

variable {name : Naming} (text : String) (ranges : List InlineStyle)

theorem plain_textSpans (hname : name.Plain) : ∀ s ∈ textSpans name text ranges, s.Plain := by
  intro s hs k hk
  unfold textSpans at hs
  split at hs
  · obtain rfl := List.mem_singleton.1 hs
    exact absurd hk List.not_mem_nil
  · obtain ⟨⟨r, k'⟩, hr, rfl⟩ := List.mem_map.1 (mem_classes_of_mem_spansFrom hs hk)
    obtain ⟨r', -, rfl⟩ := List.mem_map.1 (List.of_mem_zip hr).2
    exact hname _

theorem separate_textSpans : Separate (textSpans name text ranges) := by
  unfold textSpans
  split
  · exact .singleton _
  · exact separate_spansFrom _ 0 _

theorem flatMap_text_textSpans : (textSpans name text ranges).flatMap Span.text = text.toList := by
  unfold textSpans
  split
  · exact List.append_nil _
  · exact flatMap_text_spansFrom _ 0 _

/-- A text as markup is its spans, each with its own line breaks. -/
theorem toList_textMarkup (hname : name.Plain) :
    (textMarkup name text ranges).toList = (textSpans name text ranges).flatMap Span.piece := by
  rw [textMarkup, replaceLineBreaks, String.toList_ofList]
  exact breakLines_renderSpans (plain_textSpans text ranges hname) (separate_textSpans text ranges)

end TextSpans

/-! ## What is collected from spans -/

section Gathers

variable {α : Type} {g : Token → List α} {f : Char → List α}
  (htext : ∀ cs, g (.text cs) = cs.flatMap f)
  (hbreak : g (.openTag "br".toList lineBreak) = lineBreak.flatMap f)
include htext hbreak

/-- A reader that takes texts and line breaks character by character does so with the lines. -/
theorem gathers_breakLines {cs : List Char} (h : ∀ c ∈ cs, c ≠ '<') :
    Gathers g (breakLines cs) ((breakLines cs).flatMap f) := by
  have hadditive : Additive g := fun cs ds => by rw [htext, htext, htext, List.flatMap_append]
  have hlineBreak : Gathers g lineBreak (lineBreak.flatMap f) := by
    have hopening : Gathers g (opening "br".toList []) (g (.openTag "br".toList lineBreak)) :=
      gathers_opening (by decide) nofun closed_nil (by decide)
    rwa [hbreak] at hopening
  induction cs with
  | nil => exact gathers_nil
  | cons c cs ih =>
    rw [List.forall_mem_cons] at h
    have hrest := ih h.2
    rw [breakLines_cons]
    split
    · exact hrest
    · rw [List.flatMap_append]
      split
      · exact hlineBreak.append hrest
      · have hchar := gathers_text hadditive (List.forall_mem_singleton.2 h.1)
        rw [htext] at hchar
        exact hchar.append hrest

/-- Of a span such a reader takes the lines; what it gives for the tags is its own affair. -/
theorem gathers_span {s : Span} (h : s.Plain) :
    Gathers g s.piece (if s.classes.isEmpty then s.lines.flatMap f
      else g (.openTag "span".toList s.openTag) ++
        (s.lines.flatMap f ++ g (.closeTag "span".toList (closing "span".toList)))) := by
  have hname : isElementName "span".toList = true := by decide
  have hlines : Gathers g s.lines (s.lines.flatMap f) :=
    gathers_breakLines htext hbreak fun c hc => (ne_of_mem_escapeMarkup hc).1
  unfold Span.piece
  split
  · exact hlines
  · have hopening := gathers_opening (g := g) hname (head?_classAttribute _)
      (closed_classAttribute (isClassChar_intercalate h)) (by decide)
    exact hopening.append (hlines.append (gathers_closing hname))

end Gathers

/-- A reader that takes neither texts nor line breaks nor spans gets nothing from a text. -/
theorem gathers_textMarkup_nil {α : Type} {g : Token → List α} (htext : ∀ cs, g (.text cs) = [])
    (hopen : ∀ name ∈ ["br", "span"], ∀ raw, g (.openTag name.toList raw) = [])
    (hclose : ∀ name raw, g (.closeTag name raw) = []) {name : Naming} (hname : name.Plain)
    (text : String) (ranges : List InlineStyle) :
    Gathers g (textMarkup name text ranges).toList [] := by
  have hnothing (cs : List Char) : cs.flatMap (fun _ => ([] : List α)) = [] :=
    List.flatMap_eq_nil_iff.2 fun _ _ => rfl
  have hpiece : ∀ s ∈ textSpans name text ranges, Gathers g s.piece [] := by
    intro s hs
    have hgathers := gathers_span (g := g) (f := fun _ => []) (fun cs => by rw [htext, hnothing])
      (by rw [hopen _ (by simp), hnothing]) (plain_textSpans text ranges hname s hs)
    rwa [hopen "span" (by simp), hclose, hnothing, List.append_nil, List.append_nil,
      ite_self] at hgathers
  rw [toList_textMarkup text ranges hname]
  have hpieces := gathers_flatMap hpiece
  rwa [List.flatMap_eq_nil_iff.2 fun _ _ => rfl] at hpieces

/-! ## Markup without its spans -/

/-- The source of a token, unless it is a tag of a span. -/
def Token.rawButSpan : Token → List Char
  | .openTag name raw => if name = "span".toList then [] else raw
  | .closeTag name raw => if name = "span".toList then [] else raw
  | t => t.raw

/-- Markup without the tags of its spans. -/
def withoutSpans (markup : String) : List Char := (scan markup.toList).flatMap rawButSpan

theorem withoutSpans_textMarkup {name : Naming} (hname : name.Plain) (text : String)
    (ranges : List InlineStyle) :
    withoutSpans (textMarkup name text ranges) =
      (textSpans name text ranges).flatMap Span.lines := by
  have hopening (raw : List Char) : rawButSpan (.openTag "span".toList raw) = [] := by
    rw [rawButSpan, if_pos rfl]
  have hclosing (raw : List Char) : rawButSpan (.closeTag "span".toList raw) = [] := by
    rw [rawButSpan, if_pos rfl]
  have hpiece : ∀ s ∈ textSpans name text ranges, Gathers rawButSpan s.piece s.lines := by
    intro s hs
    have hgathers := gathers_span (g := rawButSpan) (fun cs => (List.flatMap_singleton' cs).symm) rfl
      (plain_textSpans text ranges hname s hs)
    rwa [hopening, hclosing, List.nil_append, List.append_nil, ite_self,
      List.flatMap_singleton'] at hgathers
  rw [withoutSpans, toList_textMarkup text ranges hname]
  exact (gathers_flatMap hpiece).flatMap_scan

/-! ## Divided line breaks -/

/-- How many line feeds stand behind their carriage return, but not in the same ranges.  In which
    ranges the character at an index lies is given by `covering`. -/
def dividedBreaks (covering : Nat → List String) : Nat → List Char → Nat
  | index, c :: d :: rest =>
    (if c = '\r' ∧ d = '\n' ∧ covering index ≠ covering (index + 1) then 1 else 0) +
      dividedBreaks covering (index + 1) (d :: rest)
  | _, _ => 0

/-- It counts only where the ranges change. -/
theorem dividedBreaks_congr {covering covering' : Nat → List String}
    (h : ∀ i j, covering i = covering j ↔ covering' i = covering' j) (index : Nat)
    (cs : List Char) : dividedBreaks covering index cs = dividedBreaks covering' index cs := by
  induction cs generalizing index with
  | nil => rfl
  | cons c rest ih =>
    cases rest with
    | nil => rfl
    | cons d rest =>
      rw [dividedBreaks, dividedBreaks, ih]
      simp only [ne_eq, h]

/-- Ranges that are the same everywhere divide nothing. -/
theorem dividedBreaks_of_forall_eq {covering : Nat → List String}
    (h : ∀ i j, covering i = covering j) (index : Nat) (cs : List Char) :
    dividedBreaks covering index cs = 0 := by
  induction cs generalizing index with
  | nil => rfl
  | cons c rest ih =>
    cases rest with
    | nil => rfl
    | cons d rest => rw [dividedBreaks, ih, if_neg fun hdivided => hdivided.2.2 (h _ _)]

/-- The styles of the ranges that hold the character at an index, each by its canonical key. -/
def coveringKeys (ranges : List InlineStyle) (index : Nat) : List String :=
  (ranges.filter (·.covers index)).map (·.styles.canonicalKey)

/-- A text with its line breaks, as it is written where it has no ranges. -/
def textLines (cs : List Char) : List Char := breakLines (cs.flatMap escapeMarkupChar)

theorem Span.lines_eq (s : Span) : s.lines = textLines s.text := by
  rw [Span.lines, escapeMarkup, String.toList_ofList, String.toList_ofList, textLines]

/-- A character stays as it is, or it becomes an entity, which has no line breaks in it. -/
theorem escapeMarkupChar_cases (c : Char) :
    escapeMarkupChar c = [c] ∨ ((c ≠ '\r' ∧ c ≠ '\n') ∧ (escapeMarkupChar c).head? = some '&' ∧
      ∀ d ∈ escapeMarkupChar c, d ≠ '\r' ∧ d ≠ '\n') := by
  by_cases h : c ∈ ['&', '<', '>', '"']
  · right
    have hentity : ∀ c ∈ ['&', '<', '>', '"'], (c ≠ '\r' ∧ c ≠ '\n') ∧
        (escapeMarkupChar c).head? = some '&' ∧
          ∀ d ∈ escapeMarkupChar c, d ≠ '\r' ∧ d ≠ '\n' := by simp [escapeMarkupChar]
    exact hentity c h
  · left
    exact escapeMarkupChar_of_not_mem h

theorem head?_flatMap_escapeMarkupChar (cs : List Char) :
    (cs.flatMap escapeMarkupChar).head? = some '\n' ↔ cs.head? = some '\n' := by
  cases cs with
  | nil => exact Iff.rfl
  | cons c cs =>
    rw [List.flatMap_cons, List.head?_append, List.head?_cons]
    rcases escapeMarkupChar_cases c with h | ⟨hne, hhead, -⟩
    · rw [h, List.head?_cons, Option.some_or]
    · rw [hhead, Option.some_or]
      exact ⟨fun h => absurd h (by decide), fun h => absurd (Option.some.inj h) hne.2⟩

/-- The first character of a text, in front of the rest of it: only in front of its line feed is a
    carriage return no line break. -/
theorem textLines_cons (c : Char) (cs : List Char) :
    textLines (c :: cs) =
      (if c = '\r' ∧ cs.head? = some '\n' then [] else textLines [c]) ++ textLines cs := by
  unfold textLines
  rw [List.flatMap_cons, List.flatMap_singleton]
  rcases escapeMarkupChar_cases c with h | ⟨hne, -, hinside⟩
  · rw [h, List.singleton_append, breakLines_cons, breakLines_singleton]
    simp only [head?_flatMap_escapeMarkupChar]
    split
    · rfl
    · rfl
  · have halone : breakLines (escapeMarkupChar c) = escapeMarkupChar c := by
      have h := breakLines_of_forall_ne hinside []
      rwa [breakLines, List.append_nil] at h
    rw [if_neg fun hc => hne.1 hc.1, breakLines_of_forall_ne hinside, halone]

/-- Texts joined from spans: where the spans divide a carriage return from its line feed, one more
    line break stands. -/
theorem lines_spansFrom (ranges : List (InlineStyle × String)) (index : Nat) (cs : List Char) :
    (textLines cs).Sublist ((spansFrom ranges index cs).flatMap Span.lines) ∧
      ((spansFrom ranges index cs).flatMap Span.lines).length =
        (textLines cs).length + 4 * dividedBreaks (activeClasses ranges) index cs := by
  induction cs generalizing index with
  | nil => exact ⟨.slnil, rfl⟩
  | cons c rest ih =>
    obtain ⟨hsublist, hlength⟩ := ih (index + 1)
    cases rest with
    | nil =>
      have hlines : (spansFrom ranges index [c]).flatMap Span.lines = textLines [c] := by
        rw [spansFrom, spansFrom, consSpan, List.flatMap_singleton, Span.lines_eq]
      rw [hlines]
      exact ⟨List.Sublist.refl _, rfl⟩
    | cons d rest =>
      obtain ⟨text, more, hspans⟩ := exists_spansFrom_cons ranges (index + 1) d rest
      have hfirst (ds : List Char) : textLines (c :: d :: ds) =
          (if c = '\r' ∧ d = '\n' then [] else textLines [c]) ++ textLines (d :: ds) := by
        rw [textLines_cons, List.head?_cons]
        simp only [Option.some.injEq]
      rw [hspans, List.flatMap_cons, Span.lines_eq] at hsublist hlength
      rw [spansFrom, hspans, consSpan, hfirst, dividedBreaks]
      by_cases hclasses : activeClasses ranges (index + 1) = activeClasses ranges index
      · -- both characters lie in one span
        have hjoined : ¬(c = '\r' ∧ d = '\n' ∧
            activeClasses ranges index ≠ activeClasses ranges (index + 1)) :=
          fun h => h.2.2 hclasses.symm
        rw [if_pos hclasses, List.flatMap_cons, Span.lines_eq, hfirst, if_neg hjoined,
          List.append_assoc]
        refine ⟨hsublist.append_left _, ?_⟩
        rw [List.length_append, hlength, List.length_append]
        omega
      · have halone : Span.lines ⟨[c], activeClasses ranges index⟩ = textLines [c] := Span.lines_eq _
        rw [if_neg hclasses, List.flatMap_cons, List.flatMap_cons, halone, Span.lines_eq]
        by_cases hbreak : c = '\r' ∧ d = '\n'
        · -- the carriage return is the last character of its span
          obtain ⟨rfl, rfl⟩ := hbreak
          have hreturn : (textLines ['\r']).length = 4 := rfl
          rw [if_pos ⟨rfl, rfl⟩, if_pos ⟨rfl, rfl, Ne.symm hclasses⟩, List.nil_append]
          refine ⟨hsublist.trans (List.sublist_append_right _ _), ?_⟩
          rw [List.length_append, hlength, hreturn]
          omega
        · rw [if_neg hbreak, if_neg fun h => hbreak ⟨h.1, h.2.1⟩]
          refine ⟨hsublist.append_left _, ?_⟩
          rw [List.length_append, hlength, List.length_append]
          omega

/-! ## Rendered texts -/

theorem eq_of_map_eq {α β : Type} {f : α → β} {as bs : List α}
    (hinj : ∀ a ∈ as, ∀ b ∈ bs, f a = f b → a = b) (h : as.map f = bs.map f) : as = bs := by
  induction as generalizing bs with
  | nil => exact (List.map_eq_nil_iff.1 h.symm).symm
  | cons a as ih =>
    cases bs with
    | nil => cases h
    | cons b bs =>
      rw [List.map_cons, List.map_cons, List.cons.injEq] at h
      have hhead : a = b := hinj a List.mem_cons_self b List.mem_cons_self h.1
      have htail : as = bs := ih (fun a ha b hb =>
        hinj a (List.mem_cons_of_mem _ ha) b (List.mem_cons_of_mem _ hb)) h.2
      rw [hhead, htail]

theorem activeClasses_zip (name : Naming) (ranges : List InlineStyle) (index : Nat) :
    activeClasses (ranges.zip (ranges.map fun s => name s.styles.canonicalKey)) index =
      (coveringKeys ranges index).map name := by
  have hzip : ranges.zip (ranges.map fun s => name s.styles.canonicalKey) =
      ranges.map fun s => (s, name s.styles.canonicalKey) := by
    conv_lhs => rw [← List.map_id ranges, List.map_map, List.zip_map']
    rfl
  rw [activeClasses, hzip, List.filter_map, List.map_map, coveringKeys, List.map_map]
  rfl

/-- A text without ranges can always be rendered, and leaves the table as it is. -/
theorem run_renderText_nil (t : ClassTable) (text : String) (path : Path) :
    (renderText text [] path).run t = .ok (String.ofList (textLines text.toList), t) := by
  have hspans : replaceLineBreaks (renderSpans [⟨text.toList, []⟩]) =
      String.ofList (textLines text.toList) := by
    rw [replaceLineBreaks, renderSpans, List.map_singleton, String.join_cons, String.join_nil,
      String.append_empty, Span.markup, if_pos List.isEmpty_nil, String.ofList_toList, escapeMarkup,
      String.toList_ofList, textLines]
  rw [← hspans]
  rfl

/-- The spans of a text divide its line breaks as its ranges do. -/
theorem lines_textSpans {name : Naming} (text : String) {ranges : List InlineStyle}
    (hinj : ∀ r ∈ ranges, ∀ r' ∈ ranges, name r.styles.canonicalKey = name r'.styles.canonicalKey →
      r.styles.canonicalKey = r'.styles.canonicalKey) :
    (textLines text.toList).Sublist ((textSpans name text ranges).flatMap Span.lines) ∧
      ((textSpans name text ranges).flatMap Span.lines).length =
        (textLines text.toList).length +
          4 * dividedBreaks (coveringKeys ranges) 0 text.toList := by
  have hiff (i j : Nat) :
      activeClasses (ranges.zip (ranges.map fun s => name s.styles.canonicalKey)) i =
          activeClasses (ranges.zip (ranges.map fun s => name s.styles.canonicalKey)) j ↔
        coveringKeys ranges i = coveringKeys ranges j := by
    rw [activeClasses_zip, activeClasses_zip]
    refine ⟨eq_of_map_eq fun k hk k' hk' => ?_, congrArg _⟩
    obtain ⟨r, hr, rfl⟩ := List.mem_map.1 hk
    obtain ⟨r', hr', rfl⟩ := List.mem_map.1 hk'
    exact hinj r (List.mem_filter.1 hr).1 r' (List.mem_filter.1 hr').1
  have hspans := lines_spansFrom
    (ranges.zip (ranges.map fun s => name s.styles.canonicalKey)) 0 text.toList
  rw [dividedBreaks_congr hiff] at hspans
  unfold textSpans
  by_cases hempty : ranges.isEmpty = true
  · -- no range covers anything
    obtain rfl := List.isEmpty_iff.1 hempty
    rw [if_pos hempty, List.flatMap_singleton, Span.lines_eq,
      dividedBreaks_of_forall_eq fun _ _ => rfl]
    exact ⟨List.Sublist.refl _, rfl⟩
  · rwa [if_neg hempty]

/-- Once the ranges of a text have their classes, these tell their styles apart. -/
theorem canonicalKey_eq_of_naming_eq {t : ClassTable} (ht : t.Reachable) {ranges : List InlineStyle}
    {path : Path} (hsound : firstFault (rangeVisits path ranges) = none) {r r' : InlineStyle}
    (hr : r ∈ ranges) (hr' : r' ∈ ranges)
    (heq : (t.after (rangeVisits path ranges)).naming r.styles.canonicalKey =
      (t.after (rangeVisits path ranges)).naming r'.styles.canonicalKey) :
    r.styles.canonicalKey = r'.styles.canonicalKey := by
  have hcached {r : InlineStyle} (hr : r ∈ ranges) : ∃ c,
      (t.after (rangeVisits path ranges)).classOf? r.styles.canonicalKey = some c := by
    obtain ⟨i, hi⟩ := List.mem_iff_getElem?.1 hr
    have hvisit : Visit.range (path.keyItem "inlineStyles" i) r.styles ∈ rangeVisits path ranges :=
      List.mem_map.2 ⟨(r, i), List.mk_mem_zipIdx_iff_getElem?.2 hi, rfl⟩
    exact ht.exists_classOf?_after hsound hvisit rfl
  exact (ht.after (rangeVisits path ranges)).consistent.eq_of_naming_eq (hcached hr) (hcached hr') heq

/-- From every reachable table on which a text with ranges can be rendered, so can the text without
    them, and it leaves the table as it was.  The markup consists of spans whose texts make up the
    text.  Without the tags of the spans it is the text of each span with its line breaks.  That is
    the markup without ranges, with one more line break wherever a carriage return and its line feed
    lie in different ranges; the two are the same exactly if there is no such place. -/
theorem withoutSpans_renderText {t u : ClassTable} (ht : t.Reachable) {text markup : String}
    {ranges : List InlineStyle} {path : Path}
    (h : (renderText text ranges path).run t = .ok (markup, u)) :
    ∃ plain spans, (renderText text [] path).run t = .ok (plain, t) ∧
      markup = replaceLineBreaks (renderSpans spans) ∧ spans.flatMap Span.text = text.toList ∧
      withoutSpans markup = spans.flatMap Span.lines ∧
      plain.toList.Sublist (withoutSpans markup) ∧
      (withoutSpans markup).length =
        plain.toList.length + 4 * dividedBreaks (coveringKeys ranges) 0 text.toList ∧
      (withoutSpans markup = plain.toList ↔
        dividedBreaks (coveringKeys ranges) 0 text.toList = 0) := by
  obtain ⟨hsound, rfl, hout⟩ := (renders_text text ranges path).of_run_eq_ok ht h
  obtain rfl := hout _ (ht.after (rangeVisits path ranges)).consistent.gives_naming
  have hplain : (t.after (rangeVisits path ranges)).naming.Plain := fun _ => isClassChar_className _
  obtain ⟨hsublist, hlength⟩ := lines_textSpans text fun _ hr _ hr' =>
    canonicalKey_eq_of_naming_eq ht hsound hr hr'
  refine ⟨_, textSpans _ text ranges, run_renderText_nil t text path, rfl,
    flatMap_text_textSpans text ranges, withoutSpans_textMarkup hplain text ranges, ?_⟩
  rw [withoutSpans_textMarkup hplain, String.toList_ofList]
  refine ⟨hsublist, hlength, fun heq => ?_, fun hnone => ?_⟩
  · rw [heq] at hlength
    omega
  · rw [hnone, Nat.mul_zero, Nat.add_zero] at hlength
    exact (hsublist.eq_of_length hlength.symm).symm

/-- A range that holds one of two letters changes nothing but that it stands in a span. -/
theorem withoutSpans_one_letter :
    let red : StyleRecord := ⟨[("color", .string "red")]⟩
    ∃ markup u, (renderText "a\r\nb" [⟨0, 1, red⟩] .story).run .empty = .ok (markup, u) ∧
      withoutSpans markup = "a<br>b".toList := by
  intro red
  obtain ⟨⟨markup, u⟩, hrun⟩ :=
    exists_eq_ok (x := (renderText "a\r\nb" [⟨0, 1, red⟩] .story).run .empty) (by decide +kernel)
  obtain ⟨plain, spans, hplain, -, -, -, -, -, hiff⟩ := withoutSpans_renderText reachable_empty hrun
  have hnone : dividedBreaks (coveringKeys [⟨0, 1, red⟩]) 0 "a\r\nb".toList = 0 := by decide +kernel
  rw [run_renderText_nil] at hplain
  obtain ⟨rfl, -⟩ := Prod.mk.inj (Except.ok.inj hplain)
  refine ⟨markup, u, hrun, (hiff.2 hnone).trans ?_⟩
  decide +kernel

/-- A range that ends between a carriage return and its line feed makes two line breaks of one. -/
theorem two_breaks_for_one :
    let red : StyleRecord := ⟨[("color", .string "red")]⟩
    let range : InlineStyle := ⟨0, 2, red⟩
    ∃ markup u plain, (renderText "a\r\nb" [range] .story).run .empty = .ok (markup, u) ∧
      (renderText "a\r\nb" [] .story).run .empty = .ok (plain, .empty) ∧
      markup = "<span class=\"s-1\">a<br></span><br>b" ∧ plain = "a<br>b" ∧
      withoutSpans markup ≠ plain.toList := by
  intro red range
  obtain ⟨⟨markup, u⟩, hrun⟩ :=
    exists_eq_ok (x := (renderText "a\r\nb" [range] .story).run .empty) (by decide +kernel)
  have hmarkup : ((renderText "a\r\nb" [range] .story).run .empty).toOption.map (·.1) =
      some "<span class=\"s-1\">a<br></span><br>b" := by decide +kernel
  rw [hrun] at hmarkup
  obtain rfl : markup = _ := Option.some.inj hmarkup
  exact ⟨_, u, _, hrun, run_renderText_nil .empty _ .story, rfl, by decide +kernel,
    by decide +kernel⟩

end WebStory
