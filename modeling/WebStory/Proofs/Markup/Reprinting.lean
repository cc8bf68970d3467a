import WebStory.Proofs.Markup.Respacing
/-
  Markup that is printed twice.

  Markup that has been printed stays as it is when it is printed again
  (`indentMarkup_indentMarkup`).  This is no consequence of how the printer works: it reads markup
  and forgets how it was spaced, so one has to show that it reads its own lines as the lines it
  meant.

  1. **Layout** — the line of a tag is decided by its name and by the tags behind it.  Printing puts
     blanks in front of tags only, so an element that must stay on one line does so again, and the
     end that was not found the first time is not found the second (`row_printed`).  A text that is
     only blanks has no line.  So printed tokens have the lines of the tokens they were printed for
     (`lines_printed`).

  2. **Reading** — it remains to be shown that printed text is read as the printed tokens, and for
     this it is enough that they are legible.  No mark has a blank in it, so no text gets one from
     the blanks around it (`not_infix_textLine`).  And behind what stays on one line there is a
     closing tag, where markup is read from anew, so nothing on that line takes part in how the next
     one is read (`Legible.behind_row`).

  3. **The exception** — a tag without its end would swallow the end of its line, and one more each
     time it is printed.  Only the last token of markup can be such a tag, so the condition is about
     that one token.
-/

namespace WebStory

namespace Token

open Text (AllBlank)

/-! ## The layout of what is printed -/

theorem textRows_congr {raw raw' : List Char} (h : Text.trim raw = Text.trim raw') (depth : Nat) :
    textRows depth raw = textRows depth raw' := by
  rw [textRows, textRows, h]

theorem textRows_of_allBlank {raw : List Char} (h : AllBlank raw) (depth : Nat) :
    textRows depth raw = [] := by
  rw [textRows, Text.trim_of_allBlank h]
  rfl

theorem filter_isTag_newLine {tokens : List Token} (h : TextsApart tokens) (depth : Nat) :
    (newLine (printed depth tokens)).filter isTag = tokens.filter isTag := by
  have hskeleton := skeleton_printed h depth allBlank_newline
  rw [List.singleton_append] at hskeleton
  rw [newLine, ← filter_isTag_skeleton, hskeleton, filter_isTag_skeleton]

/-- An element that is laid out over several lines is so again: its end is found only if it was found
    before, and behind its open tag stands the end of a line. -/
theorem openLayout_newLine {name : List Char} {rest : List Token} (hapart : TextsApart rest)
    (h : openLayout name rest = .block) (depth : Nat) :
    openLayout name (newLine (printed depth rest)) = .block := by
  unfold openLayout at h
  split at h
  · cases h
  · next hvoid =>
    split at h
    · cases h
    · next hsplit =>
      have hend : (if unbrokenNames.contains name = true then
          splitClose? name 1 (newLine (printed depth rest)) else none) = none := by
        split at hsplit
        · next hname =>
          rw [if_pos hname, ← splitClose?_filter_eq_none_iff, filter_isTag_newLine hapart,
            splitClose?_filter_eq_none_iff]
          exact hsplit
        · next hname => exact if_neg hname
      unfold openLayout
      rw [if_neg hvoid, hend]
      rfl

/-- The line of a tag is printed as one that will be the same. -/
theorem row_printed {t : Token} {rest : List Token} (h : TextsApart rest) (depth : Nat) :
    row depth t ((row depth t rest).onLine ++
        newLine (printed (row depth t rest).next (row depth t rest).after)) =
      { row depth t rest with
        after := newLine (printed (row depth t rest).next (row depth t rest).after) } := by
  cases t with
  | openTag name raw =>
    rw [row, row]
    cases hlayout : openLayout name rest with
    | unbroken onLine after =>
      have hagain := openLayout_unbroken hlayout (newLine (printed depth after))
      rw [OpenLayout.row, hagain]
      rfl
    | block =>
      have hagain := openLayout_newLine h hlayout (depth + 1)
      rw [OpenLayout.row, List.nil_append, hagain]
      rfl
  | _ => rfl

/-- What is printed has the same lines. -/
theorem lines_printed {tokens : List Token} (h : TextsApart tokens) (depth : Nat)
    {blanks : List Char} (hblanks : AllBlank blanks) :
    lines depth (.text (blanks ++ (printed depth tokens).1) :: (printed depth tokens).2) =
      lines depth tokens := by
  induction depth, tokens using row_induction generalizing blanks with
  | nil depth =>
    rw [printed_nil, List.append_nil, lines_text, textRows_of_allBlank hblanks]
    rfl
  | text depth raw rest ih =>
    have hblank := allBlank_printed h.isTag_head? depth
    have hrest := ih h.tail Text.allBlank_nil
    rw [List.nil_append, lines_text, textRows_of_allBlank hblank, List.nil_append] at hrest
    rw [printed_text, lines_text, lines_text, textRows_congr (trim_textLine hblanks hblank depth raw),
      hrest]
  | tag depth t rest ht ih =>
    have hafter := ih (h.row_after depth) allBlank_newline
    rw [printed_tag ht, lines_text,
      textRows_of_allBlank (hblanks.append (allBlank_indentation _)), List.nil_append, lines_tag ht,
      row_printed h.tail, lines_tag ht]
    exact congrArg _ hafter

/-! ## Reading what is printed -/

/-- A word without blanks does not begin in blanks. -/
theorem infix_of_append_blank {word blanks cs : List Char} (hne : word ≠ [])
    (hword : ∀ c ∈ word, Text.isBlank c = false) (hblanks : AllBlank blanks)
    (h : word <:+: blanks ++ cs) : word <:+: cs := by
  induction blanks with
  | nil => exact h
  | cons b blanks ih =>
    obtain ⟨hb, hblanks⟩ := List.forall_mem_cons.1 hblanks
    rcases List.infix_cons_iff.1 h with hbegin | hinside
    · cases word with
      | nil => exact absurd rfl hne
      | cons c word =>
        obtain ⟨rfl, -⟩ := List.cons_prefix_cons.1 hbegin
        rw [hword _ List.mem_cons_self] at hb
        cases hb
    · exact ih hblanks hinside

/-- A text without the mark does not get it from blanks around it. -/
theorem not_infix_of_allBlank {mark cs : List Char} (hmark : IsMark mark) (h : ¬mark <:+: cs)
    {before after : List Char} (hbefore : AllBlank before) (hafter : AllBlank after) :
    ¬mark <:+: before ++ (cs ++ after) := by
  intro hheld
  have hword : ∀ c ∈ mark, Text.isBlank c = false := fun c hc => hmark.isBlank_eq_false hc
  have hbehind := infix_of_append_blank hmark.ne_nil hword hbefore hheld
  rw [← List.reverse_infix, List.reverse_append] at hbehind
  refine h (List.reverse_infix.1 (infix_of_append_blank ?_ ?_ ?_ hbehind))
  · exact List.reverse_eq_nil_iff.not.2 hmark.ne_nil
  · exact fun c hc => hword c (List.mem_reverse.1 hc)
  · exact fun c hc => hafter c (List.mem_reverse.1 hc)

theorem not_infix_blank {mark blanks : List Char} (hmark : IsMark mark) (h : AllBlank blanks) :
    ¬mark <:+: blanks := by
  have hnil := not_infix_of_allBlank hmark (List.infix_nil.not.2 hmark.ne_nil) h Text.allBlank_nil
  rwa [List.append_nil, List.append_nil] at hnil

/-- The line of a text, with blanks around it, holds no mark that the text does not hold. -/
theorem not_infix_textLine {mark raw : List Char} (hmark : IsMark mark) (h : ¬mark <:+: raw)
    {before after : List Char} (hbefore : AllBlank before) (hafter : AllBlank after) (depth : Nat) :
    ¬mark <:+: before ++ (textLine depth raw ++ after) := by
  have htrim : ¬mark <:+: Text.trim raw := by
    obtain ⟨front, back, -, -, heq⟩ := Text.exists_eq_trim raw
    exact fun hheld => h (hheld.trans ⟨front, back, heq.symm⟩)
  rw [textLine, textRows]
  split
  · exact not_infix_of_allBlank hmark (List.infix_nil.not.2 hmark.ne_nil) hbefore hafter
  · rw [List.flatMap_singleton, lineAt]
    have hline := not_infix_of_allBlank hmark htrim (hbefore.append (allBlank_indentation depth))
      (allBlank_newline.append hafter)
    simpa only [List.append_assoc] using hline

/-- Legible tokens that are put in the place of others behind a closing tag. -/
theorem Legible.replace {mark : List Char} {before : List Token} {name raw : List Char}
    {after more : List Token} (h : Legible mark (before ++ .closeTag name raw :: after))
    (hmore : Legible ['<'] more)
    (hwhole : ∀ t ∈ before ++ [.closeTag name raw], t.isTag = true → t.Whole) :
    Legible mark (before ++ .closeTag name raw :: more) := by
  induction before generalizing mark with
  | nil =>
    cases h with
    | tag htag hmark _ _ =>
      exact .tag htag hmark (hwhole _ List.mem_cons_self rfl _) hmore
  | cons t before ih =>
    rw [List.cons_append, List.forall_mem_cons] at hwhole
    rw [List.cons_append] at h ⊢
    cases h with
    | text hne hmark htag h =>
      refine .text hne hmark ?_ (ih h hwhole.2)
      cases before with
      | nil => exact htag
      | cons t' before => exact htag
    | tag htag hmark _ h =>
      exact .tag htag hmark (hwhole.1 (htag ▸ isTag_ofTag _) _) (ih h hwhole.2)

theorem Legible.of_append_closeTag {mark : List Char} {before : List Token} {name raw : List Char}
    {after : List Token} (h : Legible mark (before ++ .closeTag name raw :: after)) :
    Legible ['<'] after := by
  induction before generalizing mark with
  | nil =>
    cases h with
    | tag _ _ _ h => exact h
  | cons t before ih =>
    rw [List.cons_append] at h
    cases h with
    | text _ _ _ h => exact ih h
    | tag _ _ _ h => exact ih h

theorem mem_of_mem_row_after {depth : Nat} {t t' : Token} {rest : List Token}
    (h : t' ∈ (row depth t rest).after) : t' ∈ rest := by
  rw [← row_append depth t rest]
  exact List.mem_append_right _ h

/-- Behind the line of a tag markup is read from anew, or there is nothing on the line beside the tag. -/
theorem Legible.behind_row {t : Token} {rest more : List Token} (h : Legible (textEnd t) rest)
    (hwhole : ∀ t' ∈ rest, t'.isTag = true → t'.Whole) (depth : Nat)
    (hmore : ∀ {mark}, IsMark mark → Legible mark (row depth t rest).after → Legible mark more) :
    Legible (textEnd t) ((row depth t rest).onLine ++ more) := by
  have happend := row_append depth t rest
  rcases row_onLine depth t rest with hnil | ⟨before, name, raw, honLine⟩
  · rw [hnil, List.nil_append] at happend ⊢
    apply hmore (isMark_textEnd t)
    rwa [happend]
  · rw [honLine, List.append_assoc, List.singleton_append] at happend ⊢
    rw [← happend] at h
    refine h.replace (hmore isMark_lt h.of_append_closeTag) fun t' ht' => hwhole t' ?_
    rw [← row_append depth t rest, honLine]
    exact List.mem_append_left _ ht'

/-- What is printed for legible tokens is legible. -/
theorem legible_printed {mark : List Char} {tokens : List Token} (hmark : IsMark mark)
    (h : Legible mark tokens) (hwhole : ∀ t ∈ tokens, t.isTag = true → t.Whole) (depth : Nat)
    {blanks : List Char} (hblanks : AllBlank blanks) (hne : blanks ≠ []) :
    Legible mark (.text (blanks ++ (printed depth tokens).1) :: (printed depth tokens).2) := by
  induction depth, tokens using row_induction generalizing mark blanks with
  | nil depth =>
    rw [printed_nil, List.append_nil]
    exact .text hne (not_infix_blank hmark hblanks) isTag_head?_nil (.nil mark)
  | text depth raw rest ih =>
    have hblank := allBlank_printed h.textsApart.isTag_head? depth
    rw [List.forall_mem_cons] at hwhole
    obtain ⟨-, hheld, -, h⟩ := legible_text_iff.1 h
    have hrest := ih hmark h hwhole.2 allBlank_newline (List.cons_ne_nil _ _)
    obtain ⟨-, -, htag, hrest⟩ := legible_text_iff.1 hrest
    rw [printed_text]
    refine .text ?_ (not_infix_textLine hmark hheld hblanks hblank depth) htag hrest
    exact fun hnil => hne (List.append_eq_nil_iff.1 hnil).1
  | tag depth t rest ht ih =>
    rw [List.forall_mem_cons] at hwhole
    cases h with
    | text => cases ht
    | tag htag hbegin _ hrest =>
      have htail := hrest.behind_row hwhole.2 depth fun hmark' h =>
        ih hmark' h (fun t' ht' => hwhole.2 t' (mem_of_mem_row_after ht')) allBlank_newline
          (List.cons_ne_nil _ _)
      rw [printed_tag ht]
      refine .text ?_ (not_infix_blank hmark (hblanks.append (allBlank_indentation _))) ?_
        (.tag htag hbegin (hwhole.1 ht _) htail)
      · exact fun hnil => hne (List.append_eq_nil_iff.1 hnil).1
      · intro t' ht'
        cases ht'
        exact ht

/-- Blanks in front of legible tokens may be left out. -/
theorem Legible.of_append_text {mark blanks raw : List Char} {rest : List Token}
    (h : Legible mark (.text (blanks ++ raw) :: rest)) : Legible mark (textOf raw ++ rest) := by
  obtain ⟨-, hmark, htag, h⟩ := legible_text_iff.1 h
  by_cases hraw : raw = []
  · rw [hraw]
    exact h
  · rw [textOf_of_ne_nil hraw]
    exact .text hraw (fun hheld => hmark (hheld.trans (List.suffix_append _ _).isInfix)) htag h

/-! ## Printed markup -/

theorem lines_textOf (depth : Nat) (raw : List Char) (rest : List Token) :
    lines depth (textOf raw ++ rest) = lines depth (.text raw :: rest) := by
  unfold textOf
  split
  · next h =>
    rw [List.isEmpty_iff.1 h, lines_text, textRows_of_allBlank Text.allBlank_nil]
    rfl
  · rfl

/-- Printed markup is read as the tokens that were printed. -/
theorem scan_indentMarkup {html : String}
    (hlast : ∀ t ∈ (scan html.toList).getLast?, t.isTag = true → hasEnd none t.raw = true) :
    scan (indentMarkup html).toList = printedTokens (scan html.toList) := by
  have hscan : Legible ['<'] (scan html.toList) := legible_scan html.toList
  rw [← rawAll_printedTokens, scan_rawAll_iff, printedTokens]
  split
  · exact .text (List.cons_ne_nil _ _) (not_infix_blank isMark_lt allBlank_newline) isTag_head?_nil
      (.nil _)
  · exact (legible_printed isMark_lt hscan (hscan.whole hlast) 0 allBlank_newline
      (List.cons_ne_nil _ _)).of_append_text

/-- The tokens that are printed are laid out as the tokens they are printed for. -/
theorem lines_printedTokens {tokens : List Token} (h : TextsApart tokens) :
    lines 0 (printedTokens tokens) = lines 0 tokens := by
  rw [printedTokens]
  split
  · next hlines =>
    rw [List.isEmpty_iff.1 hlines, lines_text, textRows_of_allBlank allBlank_newline, lines,
      List.append_nil]
  · rw [lines_textOf]
    exact lines_printed h 0 Text.allBlank_nil

end Token

open Token

/-- Markup that is printed twice is the same as markup that is printed once, unless its last token is a
    tag or a declaration that has no `>` outside quotes. -/
theorem indentMarkup_indentMarkup {html : String}
    (hlast : ∀ t ∈ (scan html.toList).getLast?, t.isTag = true → hasEnd none t.raw = true) :
    indentMarkup (indentMarkup html) = indentMarkup html := by
  have hlines : lines 0 (scan (indentMarkup html).toList) = lines 0 (scan html.toList) := by
    rw [scan_indentMarkup hlast]
    exact lines_printedTokens (legible_scan html.toList).textsApart
  rw [indentMarkup, hlines, indentMarkup]

example : indentMarkup "<a" = "<a\n" ∧ indentMarkup "<a\n" = "<a\n\n" := by decide +kernel

/-- Markup with an end that nothing begins, an element without its end, and a script without its
    end. -/
theorem indentMarkup_indentMarkup_unbalanced :
    let html := "</p><div ><b>x <i>\n y<script>if (a<b) \"<p>\""
    indentMarkup (indentMarkup html) = indentMarkup html := by
  intro html
  exact indentMarkup_indentMarkup (by decide +kernel)

end WebStory
