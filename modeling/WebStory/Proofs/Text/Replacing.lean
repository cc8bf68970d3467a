import Mathlib.Data.List.Basic
/-
  Replacing a character by a text.

  `String.replace` goes through a string with a searcher, which yields steps: a match, or a stretch
  between two positions in which nothing matches.  Here the pattern is one character, so a match is
  one character long and a stretch does not hold it.  Read as lists, replacing is a map of the
  characters (`toList_replace`).  The invariant of the loop is on the right of a position: what the
  steps from there on write is what the map makes of the rest of the string
  (`toList_foldl_replaceStep`).
-/

namespace WebStory

section Replacing

open String.Slice String.Slice.Pattern String.Slice.Pattern.Model

/-- What stands for a character where `c` is replaced by a text. -/
def substitute (c : Char) (text : List Char) (d : Char) : List Char := if d = c then text else [d]

theorem flatMap_substitute_of_not_mem {c : Char} {cs : List Char} (h : c ∉ cs) (text : List Char) :
    cs.flatMap (substitute c text) = cs := by
  have hkeep : ∀ d ∈ cs, substitute c text d = [d] := by
    intro d hd
    refine if_neg ?_
    rintro rfl
    exact h hd
  rw [List.flatMap_congr hkeep, List.flatMap_singleton']

/-- A stretch in which a character does not match does not hold it. -/
theorem not_mem_of_not_matchesAt {c : Char} {s : String.Slice} {start stop : s.Pos}
    {before middle after : String} (hstart : start.Splits before (middle ++ after))
    (hstop : stop.Splits (before ++ middle) after)
    (h : ∀ p, start ≤ p → p < stop → ¬MatchesAt c p) : c ∉ middle.toList := by
  intro hc
  obtain ⟨xs, ys, hmiddle⟩ := List.append_of_mem hc
  obtain rfl : middle = String.ofList xs ++ (String.singleton c ++ String.ofList ys) := by
    rw [← String.toList_inj, hmiddle]
    simp
  -- the position in front of the character lies in the stretch
  have hwhole : s.copy = (before ++ String.ofList xs) ++
      (String.singleton c ++ (String.ofList ys ++ after)) := by
    rw [hstart.eq_append]
    simp only [String.append_assoc]
  have hp := Pos.splits_ofEqAppend hwhole
  have hle := (hstart.le_iff_exists_eq_append hp).2
    ⟨String.ofList xs, rfl, by simp only [String.append_assoc]⟩
  have hlt := (hp.lt_iff_exists_eq_append hstop).2
    ⟨String.singleton c ++ String.ofList ys, by simp, by simp only [String.append_assoc],
      by simp only [String.append_assoc]⟩
  exact h _ hle hlt (Char.matchesAt_iff_splits.2 ⟨_, _, hp⟩)

/-- One step of the loop of `String.replace`. -/
def replaceStep (text : String) {s : String.Slice} (done : String) : SearchStep s → String
  | .matched _ _ => done ++ text.toSlice
  | .rejected start stop => done ++ s.slice! start stop

/-- The steps from a position on write the rest of the string with the character replaced. -/
theorem toList_foldl_replaceStep {c : Char} {s : String.Slice} {p : s.Pos}
    {steps : List (SearchStep s)} (h : IsValidSearchFrom c p steps) (text : String)
    {before after : String} (hp : p.Splits before after) (done : String) :
    (steps.foldl (replaceStep text) done).toList =
      done.toList ++ after.toList.flatMap (substitute c text.toList) := by
  induction h generalizing before after done with
  | endPos =>
    obtain rfl : after = "" := hp.eq_endPos_iff.1 rfl
    simp
  | matched hmatch _ ih =>
    obtain ⟨hne, rfl, rfl⟩ := Char.isLongestMatchAt_iff.1 hmatch
    obtain ⟨rest, rfl⟩ := hp.exists_eq_singleton_append hne
    rw [List.foldl_cons, ih hp.next]
    simp [replaceStep, substitute, String.appendSlice_eq]
  | @mismatched l start stop hlt hnone _ ih =>
    have hle : start ≤ stop := Std.le_of_lt hlt
    obtain ⟨_, rest, hstart, hstop⟩ := copy_slice_eq_iff_splits.1 ⟨hle, rfl⟩
    obtain ⟨rfl, rfl⟩ := hp.eq hstart
    have hkept := flatMap_substitute_of_not_mem
      (not_mem_of_not_matchesAt hstart hstop hnone) text.toList
    rw [List.foldl_cons, ih hstop, replaceStep, ← slice_eq_slice! (h := hle)]
    simp [String.appendSlice_eq, hkept]

theorem toList_replace (s : String) (c : Char) (text : String) :
    (s.replace c text).toList = s.toList.flatMap (substitute c text.toList) := by
  have hfold : s.replace c text =
      (ToForwardSearcher.toSearcher c s.toSlice).toList.foldl (replaceStep text) "" := by
    unfold String.replace String.Slice.replace
    rw [← Std.Iter.foldl_toList]
    congr 1
    funext done step
    cases step <;> rfl
  have hsearch : IsValidSearchFrom c s.toSlice.startPos
      (ToForwardSearcher.toSearcher c s.toSlice).toList :=
    LawfulToForwardSearcherModel.isValidSearchFrom_toList _
  have hcopy : s.toSlice.copy = s := by simp
  rw [hfold, toList_foldl_replaceStep hsearch text (splits_startPos s.toSlice), hcopy]
  rfl

end Replacing

end WebStory
