import WebStory.Proofs.Markup.Spans
/-
  The spans of a text as a partition of it.

  1. **Requests** — the ranges of a text ask for their classes first, one after another and whatever
     the text is; the spans depend on nothing but the answers (`run_splitText_eq_ok_iff`).  So the
     rest is about classes that are given.

  2. **Ranges** — whether a range holds a character is tested by a difference, so that no end has to
     be added up.  The test is that of an interval (`InlineStyle.covers_eq`), on machine numbers as
     well, where an end beyond them all could not be written down (`InlineStyle.covers_toNat`).

  3. **Spans** — these are made from the end of the text: a character joins the span behind it if
     that has the same classes, and begins a span of its own otherwise.  Seen from outside there is
     no such walk.  Every character stands in its place, with the classes of just those ranges that
     hold it (`flatMap_labelled_spansFrom`), and two spans next to each other differ in their
     classes.
-/

namespace WebStory

open ClassTable

/-! ## What a range holds -/

/-- A range is an interval of unbounded integers, wherever it ends. -/
theorem InlineStyle.covers_eq (s : InlineStyle) (index : Nat) : s.covers index =
    decide (s.start.toNat ≤ index ∧ index < s.start.toNat + s.length.toNat) := by
  rw [covers, ← Bool.decide_and, decide_eq_decide]
  omega

/-- On machine numbers it is the same test, since the difference never wraps around. -/
theorem InlineStyle.covers_toNat (s : InlineStyle) (index : UInt64) :
    s.covers index.toNat = (index ≥ s.start && index - s.start < s.length) := by
  rw [covers, ← Bool.decide_and, ← Bool.decide_and, decide_eq_decide, ge_iff_le, ge_iff_le,
    UInt64.le_iff_toNat_le, UInt64.lt_iff_toNat_lt]
  refine and_congr_right fun hle => ?_
  rw [UInt64.toNat_sub_of_le _ _ (UInt64.le_iff_toNat_le.2 hle)]

/-! ## Classes of ranges -/

/-- The requests of the ranges of a text, in the order of declaration. -/
def rangeRequests (path : Path) (index : Nat) (ranges : List InlineStyle) : List ClassRequest :=
  (ranges.zipIdx index).map fun (r, i) => ⟨r.styles, path.keyItem "inlineStyles" i⟩

/-- Ranges have classes if none of their requests is refused, and these are the answers. -/
theorem run_rangeClasses_eq_ok_iff {path : Path} {ranges : List InlineStyle} {index : Nat}
    {t u : ClassTable} {names : List String} :
    (rangeClasses path index ranges).run t = .ok (names, u) ↔
      t.assignAll (rangeRequests path index ranges) = (names.map .ok, u) := by
  induction ranges generalizing index t names with
  | nil =>
    have hnil : (rangeClasses path index []).run t = .ok ([], t) := rfl
    rw [hnil, rangeRequests, List.zipIdx_nil, List.map_nil, assignAll]
    simp only [Except.ok.injEq, Prod.mk.injEq, List.nil_eq, List.map_eq_nil_iff]
  | cons r rest ih =>
    have hrun : (rangeClasses path index (r :: rest)).run t =
        (assignClass r.styles (path.keyItem "inlineStyles" index)).run t >>= fun first =>
          (rangeClasses path (index + 1) rest).run first.2 >>= fun others =>
            .ok (first.1 :: others.1, others.2) := rfl
    have hrequests : rangeRequests path index (r :: rest) =
        ⟨r.styles, path.keyItem "inlineStyles" index⟩ :: rangeRequests path (index + 1) rest := rfl
    rw [hrun, hrequests, assignAll, StateT.run, assignClass]
    rcases t.assign r.styles (path.keyItem "inlineStyles" index) with ⟨e | name, next⟩
    · -- the range is refused, and no list of classes has its answer
      constructor
      · intro h
        cases h
      · intro h
        cases names with
        | nil => cases (Prod.mk.inj h).1
        | cons name names => cases (List.cons.inj (Prod.mk.inj h).1).1
    · show ((rangeClasses path (index + 1) rest).run next >>= fun others =>
          .ok (name :: others.1, others.2)) = .ok (names, u) ↔
        (.ok name :: (next.assignAll (rangeRequests path (index + 1) rest)).1,
          (next.assignAll (rangeRequests path (index + 1) rest)).2) = (names.map Except.ok, u)
      -- the range has a class, and the rest is asked from the next table on
      constructor
      · intro h
        cases hrest : (rangeClasses path (index + 1) rest).run next with
        | error e => rw [hrest] at h; cases h
        | ok others =>
          obtain ⟨others, last⟩ := others
          rw [hrest] at h
          cases h
          rw [ih.1 hrest, List.map_cons]
      · intro h
        cases names with
        | nil => cases (Prod.mk.inj h).1
        | cons first others =>
          simp only [List.map_cons, Prod.mk.injEq, List.cons.injEq, Except.ok.injEq] at h
          obtain ⟨⟨rfl, hanswers⟩, hlast⟩ := h
          have hrest : next.assignAll (rangeRequests path (index + 1) rest) =
              (others.map Except.ok, u) := Prod.ext hanswers hlast
          rw [ih.2 hrest]
          rfl

/-- A text with ranges is divided if none of them is refused; their classes decide how. -/
theorem run_splitText_eq_ok_iff {text : String} {ranges : List InlineStyle} (h : ranges ≠ [])
    {path : Path} {t u : ClassTable} {spans : List Span} :
    (splitText text ranges path).run t = .ok (spans, u) ↔
      ∃ names : List String, t.assignAll (rangeRequests path 0 ranges) = (names.map .ok, u) ∧
        spans = spansFrom (ranges.zip names) 0 text.toList := by
  have hrun : (splitText text ranges path).run t =
      (rangeClasses path 0 ranges).run t >>= fun first =>
        .ok (spansFrom (ranges.zip first.1) 0 text.toList, first.2) := by
    rw [splitText, if_neg (mt List.isEmpty_iff.1 h)]
    rfl
  rw [hrun]
  constructor
  · intro h
    cases hnames : (rangeClasses path 0 ranges).run t with
    | error e => rw [hnames] at h; cases h
    | ok first =>
      obtain ⟨names, last⟩ := first
      rw [hnames] at h
      cases h
      exact ⟨names, run_rangeClasses_eq_ok_iff.1 hnames, rfl⟩
  · rintro ⟨names, hnames, rfl⟩
    rw [run_rangeClasses_eq_ok_iff.2 hnames]
    rfl

/-! ## Characters and their classes -/

/-- The characters of a span, each with the classes of the span. -/
def Span.labelled (s : Span) : List (Char × List String) := s.text.map fun c => (c, s.classes)

theorem flatMap_labelled_spansFrom (ranges : List (InlineStyle × String)) (index : Nat)
    (cs : List Char) : (spansFrom ranges index cs).flatMap Span.labelled =
      (cs.zipIdx index).map fun (c, i) => (c, activeClasses ranges i) := by
  induction cs generalizing index with
  | nil => rfl
  | cons c rest ih =>
    have hrest := ih (index + 1)
    rw [spansFrom, List.zipIdx_cons, List.map_cons, ← hrest]
    cases spansFrom ranges (index + 1) rest with
    | nil => rfl
    | cons s more =>
      rw [consSpan]
      split
      · next h =>
        have hfirst : Span.labelled ⟨c :: s.text, activeClasses ranges index⟩ =
            (c, activeClasses ranges index) :: s.labelled := by
          rw [Span.labelled, Span.labelled, h, List.map_cons]
        rw [List.flatMap_cons, hfirst]
        rfl
      · rfl

/-- Every span begins with some character. -/
theorem text_ne_nil_of_mem_spansFrom {ranges : List (InlineStyle × String)} {index : Nat}
    {cs : List Char} {s : Span} (hs : s ∈ spansFrom ranges index cs) : s.text ≠ [] := by
  induction cs generalizing index with
  | nil => cases hs
  | cons c rest ih =>
    rw [spansFrom] at hs
    cases hspans : spansFrom ranges (index + 1) rest with
    | nil =>
      rw [hspans, consSpan, List.mem_singleton] at hs
      rw [hs]
      exact List.cons_ne_nil _ _
    | cons s' more =>
      have hmore : s ∈ s' :: more → s.text ≠ [] := fun h => ih (hspans ▸ h)
      rw [hspans, consSpan] at hs
      split at hs
      · rcases List.mem_cons.1 hs with rfl | hs
        · exact List.cons_ne_nil _ _
        · exact hmore (List.mem_cons_of_mem _ hs)
      · rcases List.mem_cons.1 hs with rfl | hs
        · exact List.cons_ne_nil _ _
        · exact hmore hs

/-- A span has the classes of each of its characters. -/
theorem classes_eq_activeClasses {ranges : List (InlineStyle × String)} {cs : List Char}
    {before after : List Span} {s : Span} (h : spansFrom ranges 0 cs = before ++ s :: after)
    {i : Nat} (hstart : (before.flatMap Span.text).length ≤ i)
    (hend : i < (before.flatMap Span.text).length + s.text.length) :
    s.classes = activeClasses ranges i := by
  have hlabels := flatMap_labelled_spansFrom ranges 0 cs
  have hlength : (before.flatMap Span.labelled).length = (before.flatMap Span.text).length := by
    simp only [List.length_flatMap, Span.labelled, List.length_map]
  obtain ⟨j, rfl⟩ := Nat.exists_eq_add_of_le hstart
  have hj : j < s.text.length := by omega
  rw [h, List.flatMap_append, List.flatMap_cons] at hlabels
  have hlabel := congrArg (·[(before.flatMap Span.text).length + j]?) hlabels
  simp only at hlabel
  rw [← hlength, List.getElem?_append_right (Nat.le_add_right _ _), Nat.add_sub_cancel_left,
    List.getElem?_append_left (by rwa [Span.labelled, List.length_map]), Span.labelled,
    List.getElem?_map, List.getElem?_eq_getElem hj, List.getElem?_map] at hlabel
  obtain ⟨⟨c, i⟩, hi, heq⟩ := Option.map_eq_some_iff.1 hlabel.symm
  rw [List.getElem?_zipIdx] at hi
  obtain ⟨d, -, hd⟩ := Option.map_eq_some_iff.1 hi
  cases hd
  rw [Nat.zero_add, hlength] at heq
  exact (Prod.mk.inj heq).2.symm

/-! ## The partition -/

/-- A text without ranges is one span, and the table stays as it is.  The spans of a text with ranges
    make up the text and are not empty, and two spans next to each other have different classes.  The
    classes of a span are those of the ranges that hold the character at any of its indices, in the
    order of declaration.  The table is that after the requests of all ranges. -/
theorem spans_partition_text (text : String) (ranges : List InlineStyle) (path : Path)
    (t : ClassTable) :
    (ranges = [] → (splitText text ranges path).run t = .ok ([⟨text.toList, []⟩], t)) ∧
    (ranges ≠ [] → ∀ spans u, (splitText text ranges path).run t = .ok (spans, u) →
      ∃ names : List String, t.assignAll (rangeRequests path 0 ranges) = (names.map .ok, u) ∧
        spans.flatMap Span.text = text.toList ∧ (∀ s ∈ spans, s.text ≠ []) ∧ Separate spans ∧
        ∀ before s after, spans = before ++ s :: after →
          ∀ i, (before.flatMap Span.text).length ≤ i →
            i < (before.flatMap Span.text).length + s.text.length →
            s.classes = ((ranges.zip names).filter fun (r, _) =>
              r.start.toNat ≤ i ∧ i < r.start.toNat + r.length.toNat).map (·.2)) := by
  constructor
  · rintro rfl
    rfl
  · intro hranges spans u h
    obtain ⟨names, hnames, rfl⟩ := (run_splitText_eq_ok_iff hranges).1 h
    refine ⟨names, hnames, flatMap_text_spansFrom _ 0 _, fun s hs => text_ne_nil_of_mem_spansFrom hs,
      separate_spansFrom _ 0 _, fun before s after hspans i hstart hend => ?_⟩
    rw [classes_eq_activeClasses hspans hstart hend, activeClasses]
    simp only [InlineStyle.covers_eq]

/-- Ranges that overlap, that end beyond every machine number and that hold no character, two of them
    with one class, from a table that has met one of the records. -/
theorem spans_partition_overlapping :
    let red : StyleRecord := ⟨[("color", .string "red")]⟩
    let blue : StyleRecord := ⟨[("color", .string "blue")]⟩
    let last : UInt64 := 0xffffffffffffffff
    let ranges : List InlineStyle := [⟨1, last, red⟩, ⟨0, 2, blue⟩, ⟨last, last, red⟩]
    let t := (empty.assign blue .story).2
    ∃ spans u, (splitText "hé!" ranges .story).run t = .ok (spans, u) ∧
      t.assignAll (rangeRequests .story 0 ranges) = (["s-2", "s-1", "s-2"].map .ok, u) ∧
      spans.flatMap Span.text = "hé!".toList ∧ (∀ s ∈ spans, s.text ≠ []) ∧ Separate spans := by
  intro red blue last ranges t
  obtain ⟨⟨spans, u⟩, hrun⟩ :=
    exists_eq_ok (x := (splitText "hé!" ranges .story).run t) (by decide +kernel)
  obtain ⟨names, hnames, htext, hne, hseparate, -⟩ :=
    (spans_partition_text "hé!" ranges .story t).2 (List.cons_ne_nil _ _) spans u hrun
  have hanswers : (t.assignAll (rangeRequests .story 0 ranges)).1.map Except.toOption =
      ["s-2", "s-1", "s-2"].map some := by decide +kernel
  rw [hnames, List.map_map] at hanswers
  obtain rfl : names = ["s-2", "s-1", "s-2"] :=
    List.map_injective_iff.2 (Option.some_injective _) hanswers
  exact ⟨spans, u, hrun, hnames, htext, hne, hseparate⟩

end WebStory
