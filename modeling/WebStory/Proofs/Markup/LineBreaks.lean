import WebStory.Proofs.Markup.Escape
/-
  Line ends and the tags that stand for them.

  A line ends with a carriage return and a line feed, or with one of the two alone.  As a pattern
  this is a list of alternatives (`lineEnds`), and its matches are replaced from the left: where
  several alternatives stand at one place the first is taken, and the search goes on behind the match
  (`replaceMatches`).  The pair comes first in the list, so it is never matched as two ends.

  Seen from a single character, what is written for it depends on the character behind it and on no
  other (`charBreak`, `breakLines_eq_flatMap`).  So a text may be cut anywhere and its parts written one
  by one, unless the cut goes through a pair.
-/

namespace WebStory

/-! ## Matches of a pattern -/

/-- The ends of a line, in the order in which they are tried. -/
def lineEnds : List (List Char) := [['\r', '\n'], ['\r'], ['\n']]

/-- Replaces the matches of some alternatives, none of which is empty: leftmost, then first. -/
def replaceMatches (alternatives : List (List Char)) (text : List Char) : List Char → List Char
  | [] => []
  | c :: rest =>
    match alternatives.find? (·.isPrefixOf (c :: rest)) with
    | some found => text ++ replaceMatches alternatives text (rest.drop (found.length - 1))
    | none => c :: replaceMatches alternatives text rest
termination_by cs => cs.length
decreasing_by
  · simp only [List.length_drop, List.length_cons]
    omega
  · exact Nat.lt_succ_self _

/-- The alternative that stands at the beginning of a text. -/
theorem find?_lineEnds (c : Char) (rest : List Char) :
    lineEnds.find? (·.isPrefixOf (c :: rest)) =
      if c = '\r' ∧ rest.head? = some '\n' then some ['\r', '\n']
      else if c = '\r' ∨ c = '\n' then some [c] else none := by
  have hpair : ['\r', '\n'].isPrefixOf (c :: rest) = decide (c = '\r' ∧ rest.head? = some '\n') := by
    rw [Bool.eq_iff_iff, List.isPrefixOf_iff_prefix, List.cons_prefix_cons, decide_eq_true_iff]
    cases rest <;> simp [eq_comm]
  have halone (d : Char) : [d].isPrefixOf (c :: rest) = decide (c = d) := by
    rw [Bool.eq_iff_iff, List.isPrefixOf_iff_prefix, List.cons_prefix_cons, decide_eq_true_iff]
    simp [eq_comm]
  simp only [lineEnds, List.find?_cons, hpair, halone, List.find?_nil]
  by_cases hp : c = '\r' ∧ rest.head? = some '\n'
  · rw [decide_eq_true hp, if_pos hp]
  rw [decide_eq_false hp, if_neg hp]
  by_cases hr : c = '\r'
  · rw [decide_eq_true hr, if_pos (.inl hr), hr]
  rw [decide_eq_false hr]
  by_cases hn : c = '\n'
  · rw [decide_eq_true hn, if_pos (.inr hn), hn]
  · rw [decide_eq_false hn, if_neg (not_or.2 ⟨hr, hn⟩)]

/-- Line ends are replaced as matches of the pattern. -/
theorem replaceMatches_lineEnds (cs : List Char) :
    replaceMatches lineEnds lineBreak cs = breakLines cs := by
  fun_induction breakLines cs with
  | case1 => rw [replaceMatches]
  | case2 rest ih =>
    rw [replaceMatches, find?_lineEnds, if_pos ⟨rfl, rfl⟩]
    exact congrArg (lineBreak ++ ·) ih
  | case3 c rest hne ih =>
    have hpair : ¬(c = '\r' ∧ rest.head? = some '\n') := by
      rintro ⟨rfl, hhead⟩
      obtain ⟨more, rfl⟩ := List.head?_eq_some_iff.1 hhead
      exact hne more rfl rfl
    rw [replaceMatches, find?_lineEnds, if_neg hpair]
    by_cases hend : c = '\r' ∨ c = '\n'
    · rw [if_pos hend, if_pos hend]
      exact congrArg (lineBreak ++ ·) ih
    · rw [if_neg hend, if_neg hend]
      exact congrArg (c :: ·) ih

/-! ## Character by character -/

/-- Each character of a text with the one behind it. -/
def withBehind (cs : List Char) : List (Char × Option Char) := cs.zip (cs.tail.map some ++ [none])

/-- What is written for a character, given the one behind it.  The break of a pair is written for the
    line feed. -/
def charBreak (c : Char) (behind : Option Char) : List Char :=
  if c = '\r' ∧ behind = some '\n' then []
  else if c = '\r' ∨ c = '\n' then lineBreak
  else [c]

theorem withBehind_cons (c : Char) (cs : List Char) :
    withBehind (c :: cs) = (c, cs.head?) :: withBehind cs := by
  cases cs <;> rfl

theorem breakLines_eq_flatMap (cs : List Char) :
    breakLines cs = (withBehind cs).flatMap fun x => charBreak x.1 x.2 := by
  induction cs with
  | nil => rfl
  | cons c cs ih =>
    rw [withBehind_cons, List.flatMap_cons, ← ih, breakLines_cons, charBreak]
    by_cases hpair : c = '\r' ∧ cs.head? = some '\n'
    · rw [if_pos hpair, if_pos hpair, List.nil_append]
    · rw [if_neg hpair, if_neg hpair]

theorem ne_of_mem_charBreak {c d : Char} {behind : Option Char} (h : d ∈ charBreak c behind) :
    d ≠ '\r' ∧ d ≠ '\n' := by
  unfold charBreak at h
  split at h
  · exact absurd h List.not_mem_nil
  · split at h
    · have hbreak : ∀ d ∈ lineBreak, d ≠ '\r' ∧ d ≠ '\n' := by simp [lineBreak]
      exact hbreak d h
    · next hc =>
      rw [List.mem_singleton.1 h]
      exact not_or.1 hc

/-- No line end is left. -/
theorem ne_of_mem_breakLines {cs : List Char} {c : Char} (h : c ∈ breakLines cs) :
    c ≠ '\r' ∧ c ≠ '\n' := by
  rw [breakLines_eq_flatMap] at h
  obtain ⟨x, -, hx⟩ := List.mem_flatMap.1 h
  exact ne_of_mem_charBreak hx

/-! ## Cutting a text -/

/-- A cut between a carriage return and its line feed makes two breaks of one. -/
theorem breakLines_cut_pair (cs ds : List Char) :
    breakLines (cs ++ ['\r']) = breakLines cs ++ lineBreak ∧
    breakLines ('\n' :: ds) = lineBreak ++ breakLines ds ∧
    breakLines (cs ++ ['\r'] ++ '\n' :: ds) = breakLines cs ++ lineBreak ++ breakLines ds := by
  refine ⟨?_, rfl, ?_⟩
  · rw [breakLines_append cs (by simp), breakLines_singleton, if_pos (.inl rfl)]
  · rw [List.append_assoc, breakLines_append cs (by simp), List.append_assoc]
    rfl

/-- Every end of a line becomes one line break, however the text is cut, but for a pair that is
    cut in two. -/
theorem line_ends_become_breaks (s a b : String) :
    (replaceLineBreaks s).toList = replaceMatches lineEnds lineBreak s.toList ∧
    (replaceLineBreaks s).toList = (withBehind s.toList).flatMap (fun x => charBreak x.1 x.2) ∧
    '\r' ∉ (replaceLineBreaks s).toList ∧ '\n' ∉ (replaceLineBreaks s).toList ∧
    if a.toList.getLast? = some '\r' ∧ b.toList.head? = some '\n' then
      ∃ before after, replaceLineBreaks a = before ++ "<br>" ∧
        replaceLineBreaks b = "<br>" ++ after ∧
        replaceLineBreaks (a ++ b) = before ++ "<br>" ++ after
    else replaceLineBreaks (a ++ b) = replaceLineBreaks a ++ replaceLineBreaks b := by
  have hlist (t : String) : (replaceLineBreaks t).toList = breakLines t.toList :=
    String.toList_ofList
  have hbreak : "<br>".toList = lineBreak := rfl
  rw [hlist]
  refine ⟨(replaceMatches_lineEnds _).symm, breakLines_eq_flatMap _,
    fun h => (ne_of_mem_breakLines h).1 rfl, fun h => (ne_of_mem_breakLines h).2 rfl, ?_⟩
  split
  · next hpair =>
    -- both halves of the pair are ends of lines by themselves
    obtain ⟨hlast, hhead⟩ := hpair
    obtain ⟨cs, hcs⟩ := List.getLast?_eq_some_iff.1 hlast
    obtain ⟨ds, hds⟩ := List.head?_eq_some_iff.1 hhead
    obtain ⟨ha, hb, hab⟩ := breakLines_cut_pair cs ds
    refine ⟨String.ofList (breakLines cs), String.ofList (breakLines ds), ?_, ?_, ?_⟩
    · rw [← String.toList_inj, hlist, hcs, ha, String.toList_append, hbreak, String.toList_ofList]
    · rw [← String.toList_inj, hlist, hds, hb, String.toList_append, hbreak, String.toList_ofList]
    · rw [← String.toList_inj, hlist, String.toList_append, hcs, hds, hab, String.toList_append,
        String.toList_append, hbreak, String.toList_ofList, String.toList_ofList]
  · next hpair =>
    rw [← String.toList_inj, hlist, String.toList_append, String.toList_append, hlist, hlist,
      breakLines_append_of_not_pair _ hpair]

example : replaceLineBreaks "\r\r\n\n" = "<br><br><br>" := by decide

end WebStory
