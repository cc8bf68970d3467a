import WebStory.Markup.Token
import WebStory.Markup.Escape
/-
  What the escapes keep out of markup.

  An escaped text has no `<`, `>` or double quote, so it neither begins a tag nor ends the value of an
  attribute.  A guarded script text has no `</`, so the script ends where its closing tag stands
  (`splitBefore_guardClosing`).  Line breaks are written from the left, and what stands on two sides
  of a point that does not split a carriage return from its line feed is written apart
  (`breakLines_append`).
-/

namespace WebStory

/-! ## Entities -/

/-- Only four characters are written as entities. -/
theorem escapeMarkupChar_of_not_mem {c : Char} (h : c ∉ ['&', '<', '>', '"']) :
    escapeMarkupChar c = [c] := by
  simp only [List.mem_cons, List.not_mem_nil, or_false, not_or] at h
  rw [escapeMarkupChar, if_neg h.1, if_neg h.2.1, if_neg h.2.2.1, if_neg h.2.2.2]

theorem ne_of_mem_escapeMarkupChar {c d : Char} (h : c ∈ escapeMarkupChar d) :
    c ≠ '<' ∧ c ≠ '>' ∧ c ≠ '"' := by
  have hentity {entity : List Char} (hc : c ∈ entity)
      (hall : ∀ c ∈ entity, c ≠ '<' ∧ c ≠ '>' ∧ c ≠ '"') := hall c hc
  unfold escapeMarkupChar at h
  split at h
  · exact hentity h (by simp)
  · split at h
    · exact hentity h (by simp)
    · split at h
      · exact hentity h (by simp)
      · split at h
        · exact hentity h (by simp)
        · obtain rfl := List.mem_singleton.1 h
          exact ⟨‹_›, ‹_›, ‹_›⟩

/-- No character of an escaped text means anything to a reader of markup. -/
theorem ne_of_mem_escapeMarkup {s : String} {c : Char} (h : c ∈ (escapeMarkup s).toList) :
    c ≠ '<' ∧ c ≠ '>' ∧ c ≠ '"' := by
  rw [escapeMarkup, String.toList_ofList] at h
  obtain ⟨d, -, hc⟩ := List.mem_flatMap.1 h
  exact ne_of_mem_escapeMarkupChar hc

/-! ## Scripts -/

theorem toList_escapeScript (json : String) :
    (escapeScript json).toList = guardClosing json.toList := String.toList_ofList

/-- Guarding leaves the first character as it is. -/
theorem head?_guardClosing (cs : List Char) : (guardClosing cs).head? = cs.head? := by
  fun_cases guardClosing cs <;> rfl

/-- A text is passed over while a mark that begins with `</` does not stand there. -/
theorem splitBefore_cons {mark : List Char} {c : Char} {cs : List Char}
    (h : c = '<' → cs.head? ≠ some '/') :
    Token.splitBefore ('<' :: '/' :: mark) (c :: cs) =
      (c :: (Token.splitBefore ('<' :: '/' :: mark) cs).1,
        (Token.splitBefore ('<' :: '/' :: mark) cs).2) := by
  have hprefix : ¬('<' :: '/' :: mark) <+: c :: cs := by
    rintro ⟨rest, hrest⟩
    rw [List.cons_append, List.cons_append, List.cons.injEq] at hrest
    obtain ⟨hc, hcs⟩ := hrest
    exact h hc.symm (by rw [← hcs]; rfl)
  rw [Token.splitBefore, if_neg fun hp => hprefix (List.isPrefixOf_iff_prefix.1 hp)]

theorem splitBefore_mark {mark : List Char} (h : mark ≠ []) (rest : List Char) :
    Token.splitBefore mark (mark ++ rest) = ([], mark ++ rest) := by
  cases mark with
  | nil => exact absurd rfl h
  | cons c mark =>
    rw [List.cons_append, Token.splitBefore, if_pos]
    exact List.isPrefixOf_iff_prefix.2 (List.prefix_append _ _)

/-- A guarded text is passed over up to the mark behind it. -/
theorem splitBefore_guardClosing (cs mark rest : List Char) :
    Token.splitBefore ('<' :: '/' :: mark) (guardClosing cs ++ ('<' :: '/' :: mark ++ rest)) =
      (guardClosing cs, '<' :: '/' :: mark ++ rest) := by
  fun_induction guardClosing cs with
  | case1 => exact splitBefore_mark (List.cons_ne_nil _ _) rest
  | case2 cs ih =>
    simp only [List.cons_append] at ih ⊢
    rw [splitBefore_cons fun _ => by simp, splitBefore_cons fun h => absurd h (by decide),
      splitBefore_cons fun h => absurd h (by decide), ih]
  | case3 c cs hne ih =>
    -- the text behind is the mark or begins as the unguarded text does
    have hhead : c = '<' → (guardClosing cs ++ ('<' :: '/' :: mark ++ rest)).head? ≠ some '/' := by
      rintro rfl
      rw [List.head?_append, head?_guardClosing]
      cases cs with
      | nil => simp
      | cons d ds =>
        intro h
        obtain rfl : d = '/' := by simpa using h
        exact hne ds rfl rfl
    rw [List.cons_append, splitBefore_cons hhead, ih]

/-! ## Line breaks -/

/-- One character at a time; a carriage return in front of a line feed is passed over. -/
theorem breakLines_cons (c : Char) (cs : List Char) :
    breakLines (c :: cs) =
      if c = '\r' ∧ cs.head? = some '\n' then breakLines cs
      else (if c = '\r' ∨ c = '\n' then lineBreak else [c]) ++ breakLines cs := by
  split
  · next h =>
    obtain ⟨rfl, hhead⟩ := h
    cases cs with
    | nil => cases hhead
    | cons d ds =>
      obtain rfl : d = '\n' := Option.some.inj hhead
      rfl
  · next h =>
    rw [breakLines]
    rintro rest rfl rfl
    exact h ⟨rfl, rfl⟩

theorem breakLines_singleton (c : Char) :
    breakLines [c] = if c = '\r' ∨ c = '\n' then lineBreak else [c] := by
  rw [breakLines_cons, if_neg (by simp), breakLines, List.append_nil]

/-- Two texts are written apart where no carriage return stands in front of a line feed. -/
theorem breakLines_append_of_not_pair (cs : List Char) {ds : List Char}
    (h : ¬(cs.getLast? = some '\r' ∧ ds.head? = some '\n')) :
    breakLines (cs ++ ds) = breakLines cs ++ breakLines ds := by
  induction cs with
  | nil => rfl
  | cons c cs ih =>
    cases cs with
    | nil =>
      have hc : ¬(c = '\r' ∧ ds.head? = some '\n') := fun hpair => h ⟨congrArg some hpair.1, hpair.2⟩
      rw [List.singleton_append, breakLines_cons, if_neg hc, breakLines_singleton]
    | cons d cs =>
      rw [List.getLast?_cons_cons] at h
      rw [List.cons_append, breakLines_cons, breakLines_cons, ih h, List.cons_append,
        List.head?_cons, List.head?_cons]
      split
      · rfl
      · rw [List.append_assoc]

/-- Text that does not begin with a line feed is written apart from what stands before it. -/
theorem breakLines_append (cs : List Char) {ds : List Char} (h : ds.head? ≠ some '\n') :
    breakLines (cs ++ ds) = breakLines cs ++ breakLines ds :=
  breakLines_append_of_not_pair cs fun hpair => h hpair.2

/-- Text without line breaks stays as it is. -/
theorem breakLines_of_forall_ne {cs : List Char} (h : ∀ c ∈ cs, c ≠ '\r' ∧ c ≠ '\n')
    (ds : List Char) : breakLines (cs ++ ds) = cs ++ breakLines ds := by
  induction cs with
  | nil => rfl
  | cons c cs ih =>
    rw [List.forall_mem_cons] at h
    rw [List.cons_append, breakLines_cons, if_neg fun hc => h.1.1 hc.1,
      if_neg (not_or.2 h.1), ih h.2]
    rfl

end WebStory
