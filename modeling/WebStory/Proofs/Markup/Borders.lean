import Mathlib.Data.List.Perm.Subperm
import WebStory.Proofs.Markup.Partition
/-
  Where the spans of a text meet.

  Two spans meet at a border: the index of the first character of the second.

  1. **Ends of ranges** — the characters on the two sides of a border have different lists of
     classes (`classes_of_meet`), so they do not lie in the same ranges (`exists_covers_ne`), and a
     range that holds just one of two neighbours begins or ends between them
     (`InlineStyle.mem_ends`).

  2. **Counting** — borders grow from left to right, so no two of them are equal, and `n` ranges
     have two ends each.  A text has one span more than it has borders.  So it has at most
     `2 * n + 1` spans, however long it is (`borders_are_range_ends`).

  3. **Sets of classes** — spans are told apart by lists of classes, and a list names a class once
     for every range that has it.  Ranges with the same style have one class: where they overlap,
     the class is listed twice (`nodup_activeClasses_iff`), and where one of them goes on for
     another, the lists may differ although the sets of classes are the same.  In this case each
     range that begins or ends at the border is relieved there by another of its class (`Relieved`).

  4. **Apart** — no such thing happens as long as ranges of one class are apart, with a character
     between them.  A range that relieves another would have to touch it (`not_relieved`).  There is
     nothing else that divides a text without need (`spans_maximal_up_to_shared_classes`).
-/

namespace WebStory

open ClassTable

/-! ## Borders -/

/-- Two spans next to each other, and the index of the first character of the second. -/
def Meet (spans : List Span) (s s' : Span) (border : Nat) : Prop :=
  ∃ before after, spans = before ++ s :: s' :: after ∧
    border = ((before ++ [s]).flatMap Span.text).length

/-- The indices at which spans meet, if the first of them begins at `index`. -/
def borders : Nat → List Span → List Nat
  | index, s :: s' :: rest =>
    (index + s.text.length) :: borders (index + s.text.length) (s' :: rest)
  | _, _ => []

theorem length_borders (index : Nat) (spans : List Span) :
    (borders index spans).length = spans.length - 1 := by
  induction spans generalizing index with
  | nil => rfl
  | cons s rest ih =>
    cases rest with
    | nil => rfl
    | cons s' rest =>
      rw [borders, List.length_cons, ih]
      rfl

/-- Spans that are not empty meet at greater and greater indices. -/
theorem pairwise_borders {spans : List Span} (h : ∀ s ∈ spans, s.text ≠ []) (index : Nat) :
    (index :: borders index spans).Pairwise (· < ·) := by
  induction spans generalizing index with
  | nil => exact List.pairwise_singleton _ _
  | cons s rest ih =>
    cases rest with
    | nil => exact List.pairwise_singleton _ _
    | cons s' rest =>
      rw [List.forall_mem_cons] at h
      have hrest := ih h.2 (index + s.text.length)
      have hstep : index < index + s.text.length :=
        Nat.lt_add_of_pos_right (List.length_pos_iff.2 h.1)
      rw [borders]
      refine List.Pairwise.cons ?_ hrest
      intro border hborder
      rcases List.mem_cons.1 hborder with rfl | hborder
      · exact hstep
      · exact Nat.lt_trans hstep (List.rel_of_pairwise_cons hrest hborder)

theorem exists_meet_of_mem_borders {spans : List Span} {index border : Nat}
    (h : border ∈ borders index spans) :
    ∃ s s' offset, Meet spans s s' offset ∧ border = index + offset := by
  induction spans generalizing index with
  | nil => cases h
  | cons s rest ih =>
    cases rest with
    | nil => cases h
    | cons s' rest =>
      rw [borders] at h
      rcases List.mem_cons.1 h with rfl | h
      · refine ⟨s, s', s.text.length, ⟨[], rest, rfl, ?_⟩, rfl⟩
        rw [List.nil_append, List.flatMap_singleton]
      · obtain ⟨left, right, offset, ⟨before, after, hspans, hoffset⟩, hborder⟩ := ih h
        refine ⟨left, right, s.text.length + offset, ⟨s :: before, after, ?_, ?_⟩, ?_⟩
        · rw [hspans, List.cons_append]
        · rw [hoffset, List.cons_append, List.flatMap_cons, List.length_append]
        · omega

/-! ## Characters on the two sides of a border -/

section SpansFrom

variable {ranges : List (InlineStyle × String)} {cs : List Char} {s s' : Span} {border : Nat}

/-- Spans that meet have the classes of the characters on the two sides, and these differ. -/
theorem classes_of_meet (h : Meet (spansFrom ranges 0 cs) s s' border) :
    s.classes = activeClasses ranges (border - 1) ∧ s'.classes = activeClasses ranges border ∧
      s.classes ≠ s'.classes := by
  obtain ⟨before, after, hspans, rfl⟩ := h
  have hlength : ((before ++ [s]).flatMap Span.text).length =
      (before.flatMap Span.text).length + s.text.length := by
    rw [List.flatMap_append, List.flatMap_singleton, List.length_append]
  have hspans' : spansFrom ranges 0 cs = (before ++ [s]) ++ s' :: after := by
    rw [hspans, List.append_assoc, List.singleton_append]
  have hs : 0 < s.text.length := List.length_pos_iff.2
    (text_ne_nil_of_mem_spansFrom (hspans ▸ List.mem_append_right _ List.mem_cons_self))
  have hs' : 0 < s'.text.length := List.length_pos_iff.2
    (text_ne_nil_of_mem_spansFrom (hspans' ▸ List.mem_append_right _ List.mem_cons_self))
  refine ⟨?_, ?_, ?_⟩
  · apply classes_eq_activeClasses hspans
    · omega
    · omega
  · apply classes_eq_activeClasses hspans'
    · exact Nat.le_refl _
    · omega
  · have hseparate := separate_spansFrom ranges 0 cs
    rw [hspans, Separate, List.isChain_append_cons_cons] at hseparate
    exact hseparate.2.1

/-- Behind a border there is at least one character. -/
theorem lt_length_of_meet (h : Meet (spansFrom ranges 0 cs) s s' border) : border < cs.length := by
  obtain ⟨before, after, hspans, rfl⟩ := h
  have hs' : 0 < s'.text.length := List.length_pos_iff.2
    (text_ne_nil_of_mem_spansFrom (hspans ▸ List.mem_append_right _
      (List.mem_cons_of_mem _ List.mem_cons_self)))
  have htext := congrArg List.length (flatMap_text_spansFrom ranges 0 cs)
  rw [hspans] at htext
  simp only [List.flatMap_append, List.flatMap_cons, List.flatMap_nil, List.length_append,
    List.length_nil] at htext ⊢
  omega

/-- What holds of the classes of all characters holds of the classes of all spans. -/
theorem forall_classes_spansFrom_iff {p : List String → Prop} :
    (∀ s ∈ spansFrom ranges 0 cs, p s.classes) ↔ ∀ i < cs.length, p (activeClasses ranges i) := by
  have hlabels := flatMap_labelled_spansFrom ranges 0 cs
  constructor
  · intro h i hi
    have hmem : (cs[i], activeClasses ranges i) ∈ (spansFrom ranges 0 cs).flatMap Span.labelled := by
      rw [hlabels]
      refine List.mem_map.2 ⟨(cs[i], i), ?_, rfl⟩
      rw [List.mk_mem_zipIdx_iff_getElem?, List.getElem?_eq_getElem hi]
    obtain ⟨s, hs, hlabel⟩ := List.mem_flatMap.1 hmem
    obtain ⟨c, -, heq⟩ := List.mem_map.1 hlabel
    rw [← (Prod.mk.inj heq).2]
    exact h s hs
  · intro h s hs
    obtain ⟨c, hc⟩ := List.exists_mem_of_ne_nil _ (text_ne_nil_of_mem_spansFrom hs)
    have hmem : (c, s.classes) ∈ (spansFrom ranges 0 cs).flatMap Span.labelled :=
      List.mem_flatMap.2 ⟨s, hs, List.mem_map.2 ⟨c, hc, rfl⟩⟩
    rw [hlabels] at hmem
    obtain ⟨⟨d, i⟩, hi, heq⟩ := List.mem_map.1 hmem
    rw [← (Prod.mk.inj heq).2]
    rw [List.mk_mem_zipIdx_iff_getElem?, List.getElem?_eq_some_iff] at hi
    exact h i hi.1

end SpansFrom

/-! ## Classes of one character -/

section ActiveClasses

variable {ranges : List (InlineStyle × String)} {i j : Nat}

theorem mem_activeClasses {k : String} :
    k ∈ activeClasses ranges i ↔ ∃ r ∈ ranges, r.1.covers i = true ∧ r.2 = k := by
  simp only [activeClasses, List.mem_map, List.mem_filter, and_assoc]

/-- Characters with different lists of classes do not lie in the same ranges. -/
theorem exists_covers_ne (h : activeClasses ranges i ≠ activeClasses ranges j) :
    ∃ r ∈ ranges, r.1.covers i ≠ r.1.covers j := by
  by_contra hnone
  push Not at hnone
  have hfilter : ranges.filter (·.1.covers i) = ranges.filter (·.1.covers j) :=
    List.filter_congr hnone
  apply h
  rw [activeClasses, activeClasses, hfilter]

/-- The list of classes of a character names no class twice if no two ranges that have one class
    hold the character. -/
theorem nodup_activeClasses_iff :
    (activeClasses ranges i).Nodup ↔
      ranges.Pairwise fun r r' => r.2 = r'.2 → ¬(r.1.covers i = true ∧ r'.1.covers i = true) := by
  rw [activeClasses, List.Nodup, List.pairwise_map, List.pairwise_filter]
  refine List.Pairwise.iff fun r r' => ?_
  constructor
  · rintro h heq ⟨hr, hr'⟩
    exact h hr hr' heq
  · intro h hr hr' heq
    exact h heq ⟨hr, hr'⟩

/-- Two characters have the same set of classes if of every range that holds just one of them there is
    another, with the same class, that holds the other. -/
theorem mem_activeClasses_iff_iff :
    (∀ k, k ∈ activeClasses ranges i ↔ k ∈ activeClasses ranges j) ↔
      ∀ r ∈ ranges, r.1.covers i ≠ r.1.covers j →
        ∃ r' ∈ ranges, r'.2 = r.2 ∧ r'.1.covers (if r.1.covers i then j else i) = true := by
  simp only [mem_activeClasses]
  constructor
  · intro h r hr hne
    by_cases hi : r.1.covers i = true
    · obtain ⟨r', hr', hj, hk⟩ := (h r.2).1 ⟨r, hr, hi, rfl⟩
      rw [if_pos hi]
      exact ⟨r', hr', hk, hj⟩
    · have hj : r.1.covers j = true := by
        rw [Bool.not_eq_true] at hi
        rw [hi] at hne
        exact Bool.eq_true_of_not_eq_false (Ne.symm hne)
      obtain ⟨r', hr', hi', hk⟩ := (h r.2).2 ⟨r, hr, hj, rfl⟩
      rw [if_neg hi]
      exact ⟨r', hr', hk, hi'⟩
  · intro h k
    constructor
    · rintro ⟨r, hr, hi, rfl⟩
      by_cases hj : r.1.covers j = true
      · exact ⟨r, hr, hj, rfl⟩
      · obtain ⟨r', hr', hk, hj'⟩ := h r hr fun heq => hj (heq ▸ hi)
        rw [if_pos hi] at hj'
        exact ⟨r', hr', hj', hk⟩
    · rintro ⟨r, hr, hj, rfl⟩
      by_cases hi : r.1.covers i = true
      · exact ⟨r, hr, hi, rfl⟩
      · obtain ⟨r', hr', hk, hi'⟩ := h r hr fun heq => hi (heq ▸ hj)
        rw [if_neg hi] at hi'
        exact ⟨r', hr', hi', hk⟩

end ActiveClasses

/-! ## The classes that ranges ask for -/

/-- The spans of a text are those of its ranges with the classes that these ask for; without ranges
    there is one span. -/
theorem exists_styled_of_run_splitText {text : String} {ranges : List InlineStyle} {path : Path}
    {t u : ClassTable} {spans : List Span} (h : (splitText text ranges path).run t = .ok (spans, u)) :
    ∃ styled : List (InlineStyle × String), styled.map (·.1) = ranges ∧
      t.assignAll (rangeRequests path 0 ranges) = (styled.map fun r => .ok r.2, u) ∧
      (spans = spansFrom styled 0 text.toList ∨ styled = [] ∧ spans = [⟨text.toList, []⟩]) := by
  by_cases hranges : ranges = []
  · subst hranges
    cases h
    exact ⟨[], rfl, rfl, .inr ⟨rfl, rfl⟩⟩
  · obtain ⟨names, hnames, hspans⟩ := (run_splitText_eq_ok_iff hranges).1 h
    have hlength : ranges.length = names.length := by
      have hanswers := congrArg (·.1.length) hnames
      simp only [length_assignAll, rangeRequests, List.length_map, List.length_zipIdx] at hanswers
      exact hanswers
    refine ⟨ranges.zip names, List.map_fst_zip (Nat.le_of_eq hlength), ?_, .inl hspans⟩
    have hzip : (ranges.zip names).map (·.2) = names := List.map_snd_zip (Nat.le_of_eq hlength.symm)
    rw [hnames]
    conv_lhs => rw [← hzip, List.map_map]
    rfl

/-- The class that a range asked for is that of its style, from then on. -/
theorem classOf?_of_styled {styled : List (InlineStyle × String)} {path : Path} {t u : ClassTable}
    (ht : t.Reachable) (h : t.assignAll (rangeRequests path 0 (styled.map (·.1))) =
      (styled.map fun r => .ok r.2, u)) {r : InlineStyle × String} (hr : r ∈ styled) :
    u.classOf? r.1.styles.canonicalKey = some r.2 := by
  obtain ⟨i, hi⟩ := List.mem_iff_getElem?.1 hr
  have hrequest : (rangeRequests path 0 (styled.map (·.1)))[i]? =
      some ⟨r.1.styles, path.keyItem "inlineStyles" i⟩ := by
    rw [rangeRequests, List.getElem?_map, List.getElem?_zipIdx, List.getElem?_map, hi, Nat.zero_add]
    rfl
  have hanswer : (t.assignAll (rangeRequests path 0 (styled.map (·.1)))).1[i]? =
      some (.ok r.2) := by
    rw [h, List.getElem?_map, hi]
    rfl
  have hclass := classOf?_of_answer ht.consistent hrequest hanswer
  rwa [h] at hclass

/-- From a reachable table on, ranges have one class exactly if they have one style. -/
theorem class_eq_iff_of_styled {styled : List (InlineStyle × String)} {path : Path}
    {t u : ClassTable} (ht : t.Reachable)
    (h : t.assignAll (rangeRequests path 0 (styled.map (·.1))) = (styled.map fun r => .ok r.2, u))
    {r r' : InlineStyle × String} (hr : r ∈ styled) (hr' : r' ∈ styled) :
    r.2 = r'.2 ↔ r.1.styles.canonicalKey = r'.1.styles.canonicalKey := by
  have hclass := classOf?_of_styled ht h hr
  have hclass' := classOf?_of_styled ht h hr'
  have hu : u.Reachable := by
    have hreach := ht.assignAll (rangeRequests path 0 (styled.map (·.1)))
    rwa [h] at hreach
  constructor
  · intro heq
    rw [← heq] at hclass'
    exact hu.consistent.classOf?_injective hclass hclass'
  · intro heq
    rw [heq, hclass'] at hclass
    exact (Option.some.inj hclass).symm

/-- One span meets no other. -/
theorem not_meet_singleton {s₀ s s' : Span} {border : Nat} : ¬Meet [s₀] s s' border := by
  rintro ⟨before, after, hspans, -⟩
  have hlength := congrArg List.length hspans
  simp only [List.length_append, List.length_cons, List.length_nil] at hlength
  omega

/-! ## Ends of ranges -/

/-- Where a range begins and the index behind its last character. -/
def InlineStyle.ends (r : InlineStyle) : List Nat :=
  [r.start.toNat, r.start.toNat + r.length.toNat]

theorem length_flatMap_ends (ranges : List InlineStyle) :
    (ranges.flatMap InlineStyle.ends).length = 2 * ranges.length := by
  induction ranges with
  | nil => rfl
  | cons r rest ih =>
    have hends : r.ends.length = 2 := rfl
    rw [List.flatMap_cons, List.length_append, ih, hends, List.length_cons]
    omega

/-- A range that holds one of two neighbours begins or ends between them. -/
theorem InlineStyle.mem_ends {r : InlineStyle} {border : Nat}
    (h : r.covers (border - 1) ≠ r.covers border) : border ∈ r.ends := by
  by_contra hends
  rw [ends, List.mem_cons, List.mem_singleton, not_or] at hends
  have hstart : r.start.toNat ≤ border - 1 ↔ r.start.toNat ≤ border := by omega
  have hend : border - 1 < r.start.toNat + r.length.toNat ↔
      border < r.start.toNat + r.length.toNat := by omega
  apply h
  rw [covers_eq, covers_eq, decide_eq_decide]
  exact and_congr hstart hend

/-- Two spans meet only where a range begins or ends.  So there are at most two spans for each range
    and one more, whatever the text is. -/
theorem borders_are_range_ends {text : String} {ranges : List InlineStyle} {path : Path}
    {t u : ClassTable} {spans : List Span} (h : (splitText text ranges path).run t = .ok (spans, u)) :
    (∀ s s' border, Meet spans s s' border →
      ∃ r ∈ ranges, border = r.start.toNat ∨ border = r.start.toNat + r.length.toNat) ∧
    spans.length ≤ 2 * ranges.length + 1 := by
  obtain ⟨styled, rfl, -, rfl | ⟨rfl, rfl⟩⟩ := exists_styled_of_run_splitText h
  · have hends {s s' : Span} {border : Nat}
        (hmeet : Meet (spansFrom styled 0 text.toList) s s' border) :
        ∃ r ∈ styled.map (·.1), border ∈ r.ends := by
      obtain ⟨hs, hs', hne⟩ := classes_of_meet hmeet
      rw [hs, hs'] at hne
      obtain ⟨r, hr, hcovers⟩ := exists_covers_ne hne
      exact ⟨r.1, List.mem_map_of_mem hr, InlineStyle.mem_ends hcovers⟩
    constructor
    · intro s s' border hmeet
      obtain ⟨r, hr, hborder⟩ := hends hmeet
      rw [InlineStyle.ends, List.mem_cons, List.mem_singleton] at hborder
      exact ⟨r, hr, hborder⟩
    · -- the borders are different ends of ranges
      have hnodup : (borders 0 (spansFrom styled 0 text.toList)).Nodup :=
        (pairwise_borders (fun s hs => text_ne_nil_of_mem_spansFrom hs) 0).tail.imp Nat.ne_of_lt
      have hsubset : borders 0 (spansFrom styled 0 text.toList) ⊆
          (styled.map (·.1)).flatMap InlineStyle.ends := by
        intro border hborder
        obtain ⟨s, s', offset, hmeet, rfl⟩ := exists_meet_of_mem_borders hborder
        rw [Nat.zero_add]
        exact List.mem_flatMap.2 (hends hmeet)
      have hlength := (List.subperm_of_subset hnodup hsubset).length_le
      rw [length_borders, length_flatMap_ends] at hlength
      omega
  · constructor
    · intro s s' border hmeet
      exact absurd hmeet not_meet_singleton
    · exact Nat.le_refl 1

/-- Two ranges, one inside the other, with the most spans that two ranges can make: a span begins at
    each of their four ends. -/
theorem borders_of_nested_ranges :
    let red : StyleRecord := ⟨[("color", .string "red")]⟩
    let blue : StyleRecord := ⟨[("color", .string "blue")]⟩
    let ranges : List InlineStyle := [⟨1, 3, red⟩, ⟨2, 1, blue⟩]
    let spans : List Span := [⟨['h'], []⟩, ⟨['ë'], ["s-1"]⟩, ⟨['l'], ["s-1", "s-2"]⟩, ⟨['l'], ["s-1"]⟩,
      ⟨['o'], []⟩]
    ∃ u, (splitText "hëllo" ranges .story).run .empty = .ok (spans, u) ∧
      (∀ border ∈ [1, 2, 3, 4], ∃ s s', Meet spans s s' border) ∧
      (∀ s s' border, Meet spans s s' border → border = 1 ∨ border = 4 ∨ border = 2 ∨ border = 3) ∧
      spans.length ≤ 5 := by
  intro red blue ranges spans
  obtain ⟨⟨spans', u⟩, hrun⟩ :=
    exists_eq_ok (x := (splitText "hëllo" ranges .story).run .empty) (by decide +kernel)
  have hspans : ((splitText "hëllo" ranges .story).run .empty).toOption.map (·.1) = some spans := by
    decide +kernel
  rw [hrun] at hspans
  obtain rfl : spans' = spans := Option.some.inj hspans
  obtain ⟨hborders, hlength⟩ := borders_are_range_ends hrun
  refine ⟨u, hrun, ?_, fun s s' border hmeet => ?_, hlength⟩
  · intro border hborder
    simp only [List.mem_cons, List.not_mem_nil, or_false] at hborder
    rcases hborder with rfl | rfl | rfl | rfl
    · exact ⟨_, _, [], _, rfl, rfl⟩
    · exact ⟨_, _, [_], _, rfl, rfl⟩
    · exact ⟨_, _, [_, _], _, rfl, rfl⟩
    · exact ⟨_, _, [_, _, _], _, rfl, rfl⟩
  · obtain ⟨r, hr, hborder⟩ := hborders s s' border hmeet
    rcases List.mem_cons.1 hr with rfl | hr
    · rcases hborder with h | h
      · exact .inl h
      · exact .inr (.inl h)
    · rw [List.mem_singleton.1 hr] at hborder
      exact .inr (.inr hborder)

/-! ## Sets of classes -/

/-- A character of a text of `length` characters stands between two ranges. -/
def InlineStyle.Apart (length : Nat) (r r' : InlineStyle) : Prop :=
  ∀ i < length, ∀ j < length, r.covers i = true → r'.covers j = true → i + 1 < j ∨ j + 1 < i

instance (length : Nat) (r r' : InlineStyle) : Decidable (r.Apart length r') :=
  inferInstanceAs (Decidable (∀ i < length, ∀ j < length, _ → _ → _))

/-- At a border every range that begins there has another of its class in front of the border, and
    every range that ends there has one behind it. -/
def Relieved (styled : List (InlineStyle × String)) (border : Nat) : Prop :=
  ∀ r ∈ styled, r.1.covers (border - 1) ≠ r.1.covers border →
    ∃ r' ∈ styled, r'.2 = r.2 ∧
      r'.1.covers (if r.1.covers (border - 1) then border else border - 1) = true

/-- At a border between ranges that are apart, if they have one class, no range is relieved. -/
theorem not_relieved {styled : List (InlineStyle × String)} {length border : Nat}
    (hapart : styled.Pairwise fun r r' => r.2 = r'.2 → r.1.Apart length r'.1)
    (hlength : border < length)
    (hne : activeClasses styled (border - 1) ≠ activeClasses styled border) :
    ¬Relieved styled border := by
  intro hrelieved
  have hsymm : Std.Symm fun r r' : InlineStyle × String => r.2 = r'.2 → r.1.Apart length r'.1 :=
    ⟨fun r r' h heq i hi j hj hcovers hcovers' =>
      (h heq.symm j hj i hi hcovers' hcovers).symm⟩
  -- a range and the one that relieves it are two, since there is a character that one of them holds
  have hclash {r r' : InlineStyle × String} (hr : r ∈ styled) (hr' : r' ∈ styled) (heq : r'.2 = r.2)
      {i j : Nat} (hi : i < length) (hj : j < length) (hnear : i ≤ j + 1 ∧ j ≤ i + 1)
      (hleft : r.1.covers i = true) (hright : r'.1.covers j = true)
      (hne : r.1.covers i ≠ r.1.covers j) : False := by
    have hother : r ≠ r' := by
      rintro rfl
      exact hne (hleft.trans hright.symm)
    have hgap := hapart.forall hr hr' hother heq.symm i hi j hj hleft hright
    omega
  obtain ⟨r, hr, hcovers⟩ := exists_covers_ne hne
  obtain ⟨r', hr', heq, hcovers'⟩ := hrelieved r hr hcovers
  have hbefore : border - 1 < length := Nat.lt_of_le_of_lt (Nat.sub_le _ _) hlength
  by_cases hleft : r.1.covers (border - 1) = true
  · rw [if_pos hleft] at hcovers'
    exact hclash hr hr' heq hbefore hlength (by omega) hleft hcovers' hcovers
  · rw [if_neg hleft] at hcovers'
    rw [Bool.not_eq_true] at hleft
    have hright : r.1.covers border = true := by
      rw [hleft] at hcovers
      exact Bool.eq_true_of_not_eq_false (Ne.symm hcovers)
    exact hclash hr hr' heq hlength hbefore (by omega) hright hcovers' (Ne.symm hcovers)

/-- The classes that ranges ask for decide how a text is divided; from a reachable table on, two ranges
    have one class exactly if they have one style.  No span lists a class twice exactly if no character
    lies in two ranges of one class.  Two spans that meet have the same set of classes exactly if each
    range that begins or ends there is relieved by another of its class.  So as long as ranges of one
    class are apart, no class is listed twice, and spans that meet have different sets of classes. -/
theorem spans_maximal_up_to_shared_classes {text : String} {ranges : List InlineStyle} {path : Path}
    {t u : ClassTable} {spans : List Span} (h : (splitText text ranges path).run t = .ok (spans, u)) :
    ∃ styled : List (InlineStyle × String), styled.map (·.1) = ranges ∧
      t.assignAll (rangeRequests path 0 ranges) = (styled.map fun r => .ok r.2, u) ∧
      (t.Reachable → ∀ r ∈ styled, ∀ r' ∈ styled,
        (r.2 = r'.2 ↔ r.1.styles.canonicalKey = r'.1.styles.canonicalKey)) ∧
      ((∀ s ∈ spans, s.classes.Nodup) ↔ ∀ i < text.length, styled.Pairwise fun r r' =>
        r.2 = r'.2 → ¬(r.1.covers i = true ∧ r'.1.covers i = true)) ∧
      (∀ s s' border, Meet spans s s' border →
        ((∀ k, k ∈ s.classes ↔ k ∈ s'.classes) ↔ Relieved styled border)) ∧
      (styled.Pairwise (fun r r' => r.2 = r'.2 → r.1.Apart text.length r'.1) →
        (∀ s ∈ spans, s.classes.Nodup) ∧
        ∀ s s' border, Meet spans s s' border → ¬∀ k, k ∈ s.classes ↔ k ∈ s'.classes) := by
  obtain ⟨styled, rfl, hanswers, rfl | ⟨rfl, rfl⟩⟩ := exists_styled_of_run_splitText h
  · have hnodup : (∀ s ∈ spansFrom styled 0 text.toList, s.classes.Nodup) ↔
        ∀ i < text.length, styled.Pairwise fun r r' =>
          r.2 = r'.2 → ¬(r.1.covers i = true ∧ r'.1.covers i = true) := by
      rw [forall_classes_spansFrom_iff, String.length_toList]
      simp only [nodup_activeClasses_iff]
    have hrelieved {s s' : Span} {border : Nat}
        (hmeet : Meet (spansFrom styled 0 text.toList) s s' border) :
        (∀ k, k ∈ s.classes ↔ k ∈ s'.classes) ↔ Relieved styled border := by
      obtain ⟨hs, hs', -⟩ := classes_of_meet hmeet
      rw [hs, hs', mem_activeClasses_iff_iff, Relieved]
    refine ⟨styled, rfl, hanswers, fun ht r hr r' hr' => class_eq_iff_of_styled ht hanswers hr hr',
      hnodup, fun s s' border => hrelieved, fun hapart => ⟨?_, ?_⟩⟩
    · refine hnodup.2 fun i hi => hapart.imp fun hr heq hcovers => ?_
      have := hr heq i hi i hi hcovers.1 hcovers.2
      omega
    · intro s s' border hmeet hsame
      obtain ⟨hs, hs', hne⟩ := classes_of_meet hmeet
      rw [hs, hs'] at hne
      have hlength : border < text.length := String.length_toList ▸ lt_length_of_meet hmeet
      exact not_relieved hapart hlength hne ((hrelieved hmeet).1 hsame)
  · -- without ranges the text is one span
    refine ⟨[], rfl, hanswers, fun _ => nofun, ?_, ?_, fun _ => ⟨?_, ?_⟩⟩
    · exact iff_of_true (List.forall_mem_singleton.2 List.nodup_nil) fun i _ => .nil
    · intro s s' border hmeet
      exact absurd hmeet not_meet_singleton
    · exact List.forall_mem_singleton.2 List.nodup_nil
    · intro s s' border hmeet
      exact absurd hmeet not_meet_singleton

/-- Two ranges of one class that are apart, and one of another class around them. -/
theorem spans_maximal_around_gap :
    let red : StyleRecord := ⟨[("color", .string "red")]⟩
    let blue : StyleRecord := ⟨[("color", .string "blue")]⟩
    let ranges : List InlineStyle := [⟨2, 9, red⟩, ⟨0, 3, blue⟩, ⟨0, 1, red⟩]
    ∃ spans u, (splitText "a&b!" ranges .story).run .empty = .ok (spans, u) ∧
      (∀ s ∈ spans, s.classes.Nodup) ∧
      ∀ s s' border, Meet spans s s' border → ¬∀ k, k ∈ s.classes ↔ k ∈ s'.classes := by
  intro red blue ranges
  obtain ⟨⟨spans, u⟩, hrun⟩ :=
    exists_eq_ok (x := (splitText "a&b!" ranges .story).run .empty) (by decide +kernel)
  obtain ⟨styled, hranges, hanswers, -, -, -, hmaximal⟩ := spans_maximal_up_to_shared_classes hrun
  have hnames : (empty.assignAll (rangeRequests .story 0 ranges)).1.map Except.toOption =
      ["s-1", "s-2", "s-1"].map some := by decide +kernel
  rw [hanswers, List.map_map] at hnames
  have hclasses : styled.map (·.2) = ["s-1", "s-2", "s-1"] := by
    apply List.map_injective_iff.2 (Option.some_injective String)
    rw [← hnames, List.map_map]
    rfl
  obtain rfl : styled = ranges.zip ["s-1", "s-2", "s-1"] := List.zip_of_prod hranges hclasses
  exact ⟨spans, u, hrun, hmaximal (by decide +kernel)⟩

/-- Of two ranges with one style, one inside the other.  The first of two spans lists their class
    twice and the second once, and the two have the same set of classes. -/
theorem two_spans_with_one_class :
    let red : StyleRecord := ⟨[("color", .string "red")]⟩
    let spans : List Span := [⟨['a'], ["s-1", "s-1"]⟩, ⟨['b'], ["s-1"]⟩]
    ∃ u, (splitText "ab" [⟨0, 2, red⟩, ⟨0, 1, red⟩] .story).run .empty = .ok (spans, u) ∧
      (¬∀ s ∈ spans, s.classes.Nodup) ∧
      ∃ s s' border, Meet spans s s' border ∧ ∀ k, k ∈ s.classes ↔ k ∈ s'.classes := by
  intro red spans
  obtain ⟨⟨spans', u⟩, hrun⟩ := exists_eq_ok
    (x := (splitText "ab" [⟨0, 2, red⟩, ⟨0, 1, red⟩] .story).run .empty) (by decide +kernel)
  have hspans : ((splitText "ab" [⟨0, 2, red⟩, ⟨0, 1, red⟩] .story).run .empty).toOption.map (·.1) =
      some spans := by decide +kernel
  rw [hrun] at hspans
  obtain rfl : spans' = spans := Option.some.inj hspans
  refine ⟨u, hrun, by decide, _, _, 1, ⟨[], [], rfl, rfl⟩, ?_⟩
  simp

end WebStory
