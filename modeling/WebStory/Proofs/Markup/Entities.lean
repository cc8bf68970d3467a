import WebStory.Proofs.Markup.Attributes
import WebStory.Proofs.Text.Replacing
/-
  Entities, one kind after another or all at once.

  `escapeMarkup` goes through a text once.  The same comes out when each of the four characters is
  replaced in the whole text before the next one is (`escapeInTurn`).  This rests on the order: `&`
  comes first, when no entity has been written yet, and none of the four entities holds one of the
  three characters that are replaced later.

  So an escaped text can be read in two ways.  A replacement in turn says what the text no longer
  holds; a single pass says where each part of it comes from, hence that every `&` begins an entity
  (`exists_entity_of_suffix`) and that undoing the entities gives the text back.
-/

namespace WebStory

/-- The characters that are written as entities. -/
def markupChars : List Char := ['&', '<', '>', '"']

theorem mem_markupChars {c : Char} : c ∈ markupChars ↔ c = '&' ∨ c = '<' ∨ c = '>' ∨ c = '"' := by
  simp only [markupChars, List.mem_cons, List.not_mem_nil, or_false]

/-- The entities that are written. -/
def entities : List (List Char) := ["&amp;", "&lt;", "&gt;", "&quot;"].map String.toList

/-- A text in which one character after another is replaced by its entity. -/
def escapeInTurn (s : String) : String :=
  (((s.replace '&' "&amp;").replace '<' "&lt;").replace '>' "&gt;").replace '"' "&quot;"

/-- The replacements one after another make of a character what the single pass makes of it. -/
theorem flatMap_substitute_char (c : Char) :
    (((substitute '&' "&amp;".toList c).flatMap (substitute '<' "&lt;".toList)).flatMap
      (substitute '>' "&gt;".toList)).flatMap (substitute '"' "&quot;".toList) =
        escapeMarkupChar c := by
  by_cases h : c ∈ markupChars
  · -- of an entity the later replacements change nothing
    rcases mem_markupChars.1 h with rfl | rfl | rfl | rfl <;> rfl
  · have hkeep {d : Char} (hd : d ∈ markupChars) (text : List Char) : substitute d text c = [c] := by
      refine if_neg ?_
      rintro rfl
      exact h hd
    rw [hkeep (by decide), List.flatMap_singleton, hkeep (by decide), List.flatMap_singleton,
      hkeep (by decide), List.flatMap_singleton, hkeep (by decide), escapeMarkupChar_of_not_mem h]

/-- Replacing the characters in turn is a single pass. -/
theorem escapeInTurn_eq (s : String) : escapeInTurn s = escapeMarkup s := by
  rw [← String.toList_inj, escapeInTurn, escapeMarkup, String.toList_ofList]
  simp only [toList_replace, List.flatMap_assoc]
  refine List.flatMap_congr fun c _ => ?_
  rw [← flatMap_substitute_char c]
  simp only [List.flatMap_assoc]

theorem escapeMarkup_append (s t : String) :
    escapeMarkup (s ++ t) = escapeMarkup s ++ escapeMarkup t := by
  unfold escapeMarkup
  rw [String.toList_append, List.flatMap_append, String.ofList_append]

/-- Undoing the entities tells texts apart. -/
theorem escapeMarkup_injective : Function.Injective escapeMarkup := by
  intro s t h
  rw [← String.toList_inj, ← unescapeMarkup_escapeMarkup s, h, unescapeMarkup_escapeMarkup]

/-! ## Every `&` begins an entity -/

/-- A character is written as an entity or, if it is none of the four, as itself. -/
theorem escapeMarkupChar_mem_entities_or (c : Char) :
    escapeMarkupChar c ∈ entities ∨ escapeMarkupChar c = [c] ∧ c ≠ '&' := by
  by_cases h : c ∈ markupChars
  · left
    rcases mem_markupChars.1 h with rfl | rfl | rfl | rfl <;> decide
  · right
    refine ⟨escapeMarkupChar_of_not_mem h, ?_⟩
    rintro rfl
    exact h (by decide)

/-- Only the first character of what is written for a character can be an `&`, and then all of it is
    an entity. -/
theorem eq_nil_of_escapeMarkupChar_eq {c : Char} {before rest : List Char}
    (h : escapeMarkupChar c = before ++ '&' :: rest) : before = [] ∧ '&' :: rest ∈ entities := by
  have htail : ∀ e ∈ entities, '&' ∉ e.tail := by decide
  rcases escapeMarkupChar_mem_entities_or c with hentity | ⟨hself, hc⟩
  · cases before with
    | nil =>
      rw [h] at hentity
      exact ⟨rfl, hentity⟩
    | cons d before =>
      refine absurd ?_ (htail _ hentity)
      rw [h]
      exact List.mem_append_right _ List.mem_cons_self
  · rw [hself] at h
    cases before with
    | nil => exact absurd (List.cons.inj h).1 hc
    | cons d before => exact absurd (List.cons.inj h).2 (by simp)

/-- An `&` of an escaped text is the first character of an entity. -/
theorem exists_entity_of_suffix {cs rest : List Char}
    (h : '&' :: rest <:+ cs.flatMap escapeMarkupChar) : ∃ e ∈ entities, e <+: '&' :: rest := by
  induction cs with
  | nil => exact absurd (List.suffix_nil.1 h) (List.cons_ne_nil _ _)
  | cons c cs ih =>
    rw [List.flatMap_cons] at h
    obtain ⟨before, hbefore⟩ := h
    -- the `&` stands in what is written for the first character, or behind it
    rcases List.append_eq_append_iff.1 hbefore with ⟨more, hchar, hrest⟩ | ⟨more, hbehind, hcs⟩
    · cases more with
      | nil => exact ih ⟨[], hrest⟩
      | cons d more =>
        obtain ⟨rfl, hmore⟩ := List.cons.inj hrest
        obtain ⟨rfl, hentity⟩ := eq_nil_of_escapeMarkupChar_eq hchar
        exact ⟨'&' :: more, hentity, cs.flatMap escapeMarkupChar, by rw [hrest]⟩
    · exact ih ⟨more, hcs.symm⟩

/-- Replacing the four characters in turn gives the single pass, and with it a text that holds no
    character with a meaning but at the beginning of an entity, that can be read back, and that falls
    into parts as the text does. -/
theorem escaping_in_turn_is_one_pass (s t : String) :
    escapeInTurn s = escapeMarkup s ∧
    (∀ c ∈ ['<', '>', '"'], c ∉ (escapeInTurn s).toList) ∧
    (∀ rest, '&' :: rest <:+ (escapeInTurn s).toList → ∃ e ∈ entities, e <+: '&' :: rest) ∧
    unescapeMarkup (escapeInTurn s).toList = s.toList ∧
    (escapeInTurn s = escapeInTurn t ↔ s = t) ∧
    escapeInTurn (s ++ t) = escapeInTurn s ++ escapeInTurn t := by
  simp only [escapeInTurn_eq]
  refine ⟨trivial, ?_, ?_, unescapeMarkup_escapeMarkup s, escapeMarkup_injective.eq_iff,
    escapeMarkup_append s t⟩
  · intro c hc hmem
    obtain ⟨hless, hgreater, hquote⟩ := ne_of_mem_escapeMarkup hmem
    simp [hless, hgreater, hquote] at hc
  · intro rest hrest
    rw [escapeMarkup, String.toList_ofList] at hrest
    exact exists_entity_of_suffix hrest

example : escapeMarkup "&lt;<" = "&amp;lt;&lt;" := by decide

end WebStory
