import WebStory.Proofs.Markup.Reprinting
/-
  Markup without a tag that is left open.

  A tag without its end swallows what follows it, so markup that ends in one is not read by itself: the
  end of an element behind it would not be met (`Piece.hasEnd`).  Hence of markup that is read by itself
  the printer changes no tag, and the tags are read back as they were (`filter_isTag_indentMarkup`).
-/

namespace WebStory

namespace Token

/-! ## A tag that goes on -/

/-- Where there is no `>`, no tag ends, whatever quote is open. -/
theorem hasEnd_of_not_mem {cs : List Char} (h : '>' ∉ cs) (quote : Option Char) :
    hasEnd quote cs = false := by
  induction cs generalizing quote with
  | nil => rfl
  | cons c cs ih =>
    rw [List.mem_cons, not_or] at h
    cases quote with
    | some q => exact ih h.2 _
    | none => rw [hasEnd, beq_false_of_ne (Ne.symm h.1), ih h.2, Bool.or_false]

theorem hasEnd_append {more : List Char} (hmore : '>' ∉ more) (quote : Option Char) (raw : List Char) :
    hasEnd quote (raw ++ more) = hasEnd quote raw := by
  induction raw generalizing quote with
  | nil => exact hasEnd_of_not_mem hmore quote
  | cons c raw ih =>
    cases quote with
    | some q => exact ih _
    | none => rw [List.cons_append, hasEnd, hasEnd, ih]

/-- A tag without an end is all there is. -/
theorem splitTag_of_not_hasEnd {quote : Option Char} {raw : List Char}
    (h : hasEnd quote raw = false) : splitTag quote raw = (raw, []) := by
  induction raw generalizing quote with
  | nil => cases quote <;> rfl
  | cons c raw ih =>
    cases quote with
    | some q =>
      rw [hasEnd] at h
      simp only [splitTag, ih h]
    | none =>
      rw [hasEnd, Bool.or_eq_false_iff] at h
      simp only [splitTag, if_neg (ne_of_beq_false h.1), ih h.2]

/-- What follows a blank does not belong to the name. -/
theorem nameOf_append_blank (raw more : List Char) : nameOf (raw ++ ' ' :: more) = nameOf raw := by
  have hname (cs : List Char) (p : Char → Bool) (h : p ' ' = false) :
      (cs ++ ' ' :: more).takeWhile p = cs.takeWhile p := by
    rw [List.takeWhile_append, List.takeWhile_cons_of_neg (Bool.eq_false_iff.1 h), List.append_nil]
    split
    · next hall => exact (List.takeWhile_prefix p).eq_of_length hall |>.symm
    · rfl
  rw [nameOf, nameOf, List.dropWhile_append]
  split
  · next h =>
    rw [List.isEmpty_iff.1 h, List.dropWhile_cons_of_neg (by decide)]
    exact congrArg _ (hname [] _ rfl)
  · exact congrArg _ (hname _ _ rfl)

/-- A tag that goes on behind a blank is read as before. -/
theorem outline?_ofTag_append_blank (raw more : List Char) (around : List (List Char × List Outline))
    (done : List Outline) : outline? around done [ofTag (raw ++ ' ' :: more)] =
      outline? around done [ofTag raw] := by
  have hmark (c : Char) (hc : c ≠ ' ') :
      ['<', c].isPrefixOf (raw ++ ' ' :: more) = ['<', c].isPrefixOf raw := by
    match raw with
    | [] => simp [List.isPrefixOf]
    | [d] => simp [List.isPrefixOf, hc]
    | d :: d' :: raw => simp [List.isPrefixOf]
  rw [ofTag, ofTag, hmark '!' (by decide), hmark '/' (by decide), nameOf_append_blank]
  split
  · simp only [outline?]
  · split
    · cases around <;> simp only [outline?]
    · simp only [outline?]

/-- What is read first decides nothing about what is read then. -/
theorem outline?_append_congr (before : List Token) {tokens tokens' : List Token}
    (h : ∀ around done, outline? around done tokens = outline? around done tokens')
    (around : List (List Char × List Outline)) (done : List Outline) :
    outline? around done (before ++ tokens) = outline? around done (before ++ tokens') := by
  induction before generalizing around done with
  | nil => exact h around done
  | cons t before ih =>
    rw [List.cons_append, List.cons_append]
    cases t with
    | text raw => simp only [outline?, ih]
    | declaration raw => simp only [outline?, ih]
    | openTag name raw => simp only [outline?, ih]
    | closeTag name raw => cases around <;> simp only [outline?, ih]

/-- A last tag without its end takes in what has no `>`. -/
theorem Legible.extend {mark more : List Char} {before : List Token} {t : Token}
    (h : Legible mark (before ++ [t])) (ht : t.isTag = true) (hend : hasEnd none t.raw = false)
    (hmore : '>' ∉ more) : Legible mark (before ++ [ofTag (t.raw ++ more)]) := by
  induction before generalizing mark with
  | nil =>
    cases h with
    | text => cases ht
    | tag htag hmark _ _ =>
      refine .tag ?_ ?_ ?_ (.nil _)
      · rw [raw_ofTag]
      · rw [raw_ofTag]
        exact hmark.trans (List.prefix_append _ _)
      · rw [raw_ofTag, show rawAll [] = [] from rfl, List.append_nil]
        exact splitTag_of_not_hasEnd ((hasEnd_append hmore none t.raw).trans hend)
  | cons u before ih =>
    cases h with
    | text hne hmark htag h =>
      refine .text hne hmark ?_ (ih h)
      cases before with
      | nil =>
        rintro u ⟨⟩
        exact isTag_ofTag _
      | cons v before => exact htag
    | tag htag hmark hsplit h =>
      have hne := h.rawAll_ne_nil (isMark_textEnd u)
        (List.append_ne_nil_of_right_ne_nil before (List.cons_ne_nil t []))
      exact .tag htag hmark (splitTag_of_hasEnd hsplit (.inl hne) _) (ih h)

/-- A tag is read from its source. -/
theorem Legible.ofTag_raw {mark : List Char} {tokens : List Token} (h : Legible mark tokens) :
    ∀ t ∈ tokens, t.isTag = true → ofTag t.raw = t := by
  induction h with
  | nil => exact nofun
  | text _ _ _ _ ih => exact List.forall_mem_cons.2 ⟨nofun, ih⟩
  | tag htag _ _ _ ih => exact List.forall_mem_cons.2 ⟨fun _ => htag, ih⟩

/-- Where markup ends in a tag without its end, what has no `>` goes into this tag. -/
theorem scan_append_of_not_hasEnd {cs more : List Char} {before : List Token} {t : Token}
    (hscan : scan cs = before ++ [t]) (ht : t.isTag = true) (hend : hasEnd none t.raw = false)
    (hmore : '>' ∉ more) : scan (cs ++ more) = before ++ [ofTag (t.raw ++ more)] := by
  have hlegible := (hscan ▸ legible_scan cs).extend ht hend hmore
  have hone (t : Token) : rawAll [t] = t.raw := List.flatMap_singleton raw t
  have hraw := rawAll_scan cs
  rw [hscan, rawAll_append, hone] at hraw
  rw [← scan_rawAll_iff.2 hlegible, rawAll_append, hone, raw_ofTag, ← List.append_assoc, hraw]

/-- A last tag of markup that is read by itself has its end. -/
theorem Piece.hasEnd {cs : List Char} (h : Piece cs) :
    ∀ t ∈ (scan cs).getLast?, t.isTag = true → hasEnd none t.raw = true := by
  intro t ht htag
  by_contra hend
  rw [Bool.not_eq_true] at hend
  obtain ⟨before, hscan⟩ := List.getLast?_eq_some_iff.1 ht
  obtain ⟨elements, hreads⟩ := h
  have hwhole : outline? [] [] (scan cs) = some elements := by
    have hnil := hreads [] [] []
    rwa [List.append_nil, show scan [] = [] by rw [scan]] at hnil
  -- behind the markup stands the end of an element that has not begun
  have hbehind : outline? [] [] (scan (cs ++ ' ' :: "</p".toList)) = none := by
    rw [hreads, show scan (' ' :: "</p".toList) = [.text [' '], .closeTag ['p'] "</p".toList] by
      decide +kernel]
    rfl
  -- but it is not met
  have hread := outline?_append_congr before (outline?_ofTag_append_blank t.raw "</p".toList) [] []
  have hmem : t ∈ scan cs := List.mem_of_getLast? ht
  rw [← scan_append_of_not_hasEnd hscan htag hend (by decide), (legible_scan cs).ofTag_raw t hmem htag,
    ← hscan, hbehind, hwhole] at hread
  cases hread

end Token

open Token

/-- The tags of markup that is read by itself are printed as they are, and are read back. -/
theorem filter_isTag_indentMarkup {html : String} (h : Piece html.toList) :
    (scan (indentMarkup html).toList).filter isTag = (scan html.toList).filter isTag := by
  have hapart : TextsApart (scan html.toList) := (legible_scan html.toList).textsApart
  rw [scan_indentMarkup h.hasEnd, ← filter_isTag_skeleton, skeleton_printedTokens hapart,
    filter_isTag_skeleton]

section Tags

variable {α : Type} {g : Token → List α} (hg : ∀ raw, g (.text raw) = [])
include hg

theorem flatMap_filter_isTag (tokens : List Token) :
    (tokens.filter isTag).flatMap g = tokens.flatMap g := by
  induction tokens with
  | nil => rfl
  | cons t rest ih =>
    by_cases ht : t.isTag = true
    · rw [List.filter_cons_of_pos ht, List.flatMap_cons, List.flatMap_cons, ih]
    · rw [List.filter_cons_of_neg ht, List.flatMap_cons, eq_text_of_not_isTag ht, hg, ih,
        List.nil_append]

/-- A reader of tags finds the same in what is printed. -/
theorem flatMap_scan_indentMarkup {html : String} (h : Piece html.toList) :
    (scan (indentMarkup html).toList).flatMap g = (scan html.toList).flatMap g := by
  rw [← flatMap_filter_isTag hg, filter_isTag_indentMarkup h, flatMap_filter_isTag hg]

end Tags

end WebStory
