import Mathlib.Data.List.Infix
import WebStory.Proofs.Markup.Nesting
/-
  What is collected from markup, piece by piece.

  A reader that puts out something for every token collects it over the whole markup: all tags of a
  name, say, or all texts.

  1. **Pieces** — a piece of markup whose tokens do not depend on what follows it gives its own part
     (`Gathers`).  As this is said for every rest of markup, what is collected from pieces one after
     another is what is collected from each (`gathers_join`).

  2. **Texts** — only a text has no end of its own: it goes on into the text behind it.  That does
     no harm to a reader that may cut a text anywhere (`Additive`), as one that passes over texts,
     or takes them character by character.

  3. **Tags** — a tag ends by itself, and behind some tags stands text up to the mark of their end.
     That text must not hold the mark, nor begin one that the closing tag would complete.  The
     second cannot be: the first character of a mark occurs in it just once
     (`splitBefore_of_not_infix`).
-/

namespace WebStory.Token

variable {α : Type} {g : Token → List α}

/-- It makes no difference whether a text is read as one text or as two. -/
def Additive (g : Token → List α) : Prop := ∀ cs ds, g (.text (cs ++ ds)) = g (.text cs) ++ g (.text ds)

theorem Additive.text_nil (hg : Additive g) : g (.text []) = [] :=
  List.self_eq_append_left.1 (hg [] [])

/-- A piece of markup gives `out`, whatever follows it. -/
def Gathers (g : Token → List α) (cs : List Char) (out : List α) : Prop :=
  ∀ rest, (scan (cs ++ rest)).flatMap g = out ++ (scan rest).flatMap g

theorem gathers_nil : Gathers g [] [] := fun _ => rfl

theorem Gathers.append {cs ds : List Char} {out more : List α} (hcs : Gathers g cs out)
    (hds : Gathers g ds more) : Gathers g (cs ++ ds) (out ++ more) := by
  intro rest
  rw [List.append_assoc, hcs, hds, List.append_assoc]

theorem Gathers.concat {a b : String} {out more : List α} (ha : Gathers g a.toList out)
    (hb : Gathers g b.toList more) : Gathers g (a ++ b).toList (out ++ more) := by
  rw [String.toList_append]
  exact ha.append hb

/-- Pieces one after another. -/
theorem gathers_flatMap {β : Type} {pieces : List β} {text : β → List Char} {out : β → List α}
    (h : ∀ b ∈ pieces, Gathers g (text b) (out b)) :
    Gathers g (pieces.flatMap text) (pieces.flatMap out) := by
  induction pieces with
  | nil => exact gathers_nil
  | cons b rest ih =>
    rw [List.forall_mem_cons] at h
    exact h.1.append (ih h.2)

/-- The same of texts that are put together. -/
theorem gathers_join {β : Type} {parts : List β} {text : β → String} {out : β → List α}
    (h : ∀ b ∈ parts, Gathers g (text b).toList (out b)) :
    Gathers g (String.join (parts.map text)).toList (parts.flatMap out) := by
  rw [String.toList_join, List.flatMap_map]
  exact gathers_flatMap h

/-- Markup that is no more than a piece. -/
theorem Gathers.flatMap_scan {cs : List Char} {out : List α} (h : Gathers g cs out) :
    (scan cs).flatMap g = out := by
  have hscan := h []
  rwa [List.append_nil, show scan [] = [] by rw [scan], List.flatMap_nil, List.append_nil] at hscan

/-! ## Texts -/

/-- A text is read up to the next tag, wherever in the text the reading begins. -/
theorem flatMap_scan_text (hg : Additive g) (rest : List Char) :
    g (.text (rest.takeWhile (· != '<'))) ++ (scan (rest.dropWhile (· != '<'))).flatMap g =
      (scan rest).flatMap g := by
  cases rest with
  | nil => rw [List.takeWhile_nil, hg.text_nil]; rfl
  | cons d rest =>
    by_cases hd : d = '<'
    · rw [List.takeWhile_cons_of_neg (by simp [hd]), List.dropWhile_cons_of_neg (by simp [hd]),
        hg.text_nil, List.nil_append]
    · rw [List.takeWhile_cons_of_pos (by simpa using hd),
        List.dropWhile_cons_of_pos (by simpa using hd), scan, if_neg hd, List.flatMap_cons]

theorem gathers_text (hg : Additive g) {cs : List Char} (h : ∀ c ∈ cs, c ≠ '<') :
    Gathers g cs (g (.text cs)) := by
  intro rest
  cases cs with
  | nil => rw [hg.text_nil]; rfl
  | cons c cs =>
    rw [List.forall_mem_cons] at h
    have hinside : ∀ d ∈ cs, (d != '<') = true := by simpa using h.2
    rw [List.cons_append, scan, if_neg h.1, List.takeWhile_append_of_pos hinside,
      List.dropWhile_append_of_pos hinside, ← List.cons_append, List.flatMap_cons, hg,
      List.append_assoc, flatMap_scan_text hg]

/-! ## Text up to a mark -/

section Mark

variable {m : Char} {mark cs : List Char}

/-- A text without the mark is passed over up to the mark behind it.  No mark lies across the two, as
    its first character does not occur in the rest of it. -/
theorem splitBefore_of_not_infix (hm : m ∉ mark) (h : ¬m :: mark <:+: cs) (rest : List Char) :
    splitBefore (m :: mark) (cs ++ (m :: mark ++ rest)) = (cs, m :: mark ++ rest) := by
  induction cs with
  | nil => exact splitBefore_mark (List.cons_ne_nil m mark) rest
  | cons c cs ih =>
    rw [List.infix_cons_iff, not_or] at h
    -- a mark that began here would end inside the text, or reach into the mark behind it
    have hstart : ¬m :: mark <+: c :: cs ++ (m :: mark ++ rest) := by
      intro hbegins
      rcases List.prefix_or_prefix_of_prefix hbegins (List.prefix_append _ _) with hinside | hacross
      · exact h.1 hinside
      · obtain ⟨behind, hbehind⟩ := hacross
        rw [List.cons_append, List.cons.injEq] at hbehind
        obtain ⟨rfl, hbehind⟩ := hbehind
        cases behind with
        | nil =>
          rw [List.append_nil] at hbehind
          exact h.1 (hbehind ▸ List.prefix_rfl)
        | cons d behind =>
          rw [← hbehind, List.cons_append, List.cons_prefix_cons, List.prefix_append_right_inj,
            List.cons_append, List.cons_prefix_cons] at hbegins
          have hmem : d ∈ mark := hbehind ▸ List.mem_append_right cs List.mem_cons_self
          exact hm (hbegins.2.1 ▸ hmem)
    rw [List.cons_append, splitBefore, if_neg, ih h.2]
    rwa [List.isPrefixOf_iff_prefix]

/-- What is left begins with the mark, if anything is left. -/
theorem mark_prefix_splitBefore (mark cs : List Char) :
    (splitBefore mark cs).2 = [] ∨ mark <+: (splitBefore mark cs).2 := by
  fun_induction splitBefore mark cs with
  | case1 => exact Or.inl rfl
  | case2 c cs hstart => exact Or.inr (List.isPrefixOf_iff_prefix.1 hstart)
  | case3 c cs hstart before after hrest ih =>
    rw [hrest] at ih
    exact ih

/-- A text with the mark is not passed over. -/
theorem length_splitBefore_lt (h : m :: mark <:+: cs) (rest : List Char) :
    (splitBefore (m :: mark) (cs ++ rest)).1.length < cs.length := by
  induction cs with
  | nil => exact absurd (List.infix_nil.1 h) (List.cons_ne_nil m mark)
  | cons c cs ih =>
    rw [List.cons_append, splitBefore]
    split
    · exact Nat.zero_lt_succ _
    · next hstart =>
      rcases List.infix_cons_iff.1 h with hbegins | hinside
      · rw [List.isPrefixOf_iff_prefix, ← List.cons_append] at hstart
        exact absurd (hbegins.trans (List.prefix_append _ _)) hstart
      · exact Nat.succ_lt_succ (ih hinside)

/-- Markup that begins with `<` does not begin with a text. -/
theorem scan_ne_text_cons (rest raw : List Char) (tokens : List Token) :
    scan ('<' :: rest) ≠ .text raw :: tokens := by
  have htag (tag : List Char) : ofTag tag ≠ .text raw := by
    unfold ofTag
    split
    · nofun
    · split <;> nofun
  rw [scan, if_pos rfl]
  simp only
  split
  · exact fun h => htag _ (List.cons.inj h).1
  · exact fun h => htag _ (List.cons.inj h).1

theorem textOf_of_ne_nil (h : cs ≠ []) : textOf cs = [.text cs] :=
  if_neg fun hempty => h (List.isEmpty_iff.1 hempty)

/-- A text with the mark is not read as one text. -/
theorem scan_splitBefore_ne (h : '<' :: mark <:+: cs) (rest : List Char) (tokens : List Token) :
    textOf (splitBefore ('<' :: mark) (cs ++ rest)).1 ++
      scan (splitBefore ('<' :: mark) (cs ++ rest)).2 ≠ textOf cs ++ tokens := by
  have hlength := length_splitBefore_lt h rest
  have hwhole := splitBefore_append ('<' :: mark) (cs ++ rest)
  have hbehind := mark_prefix_splitBefore ('<' :: mark) (cs ++ rest)
  have hne : cs ≠ [] := by
    rintro rfl
    exact absurd hlength (Nat.not_lt_zero _)
  rw [textOf_of_ne_nil hne]
  generalize (splitBefore ('<' :: mark) (cs ++ rest)).1 = before at hlength hwhole
  generalize (splitBefore ('<' :: mark) (cs ++ rest)).2 = behind at hwhole hbehind
  by_cases hbefore : before = []
  · subst hbefore
    rw [List.nil_append] at hwhole
    rcases hbehind with hnil | ⟨more, rfl⟩
    · exact absurd (List.append_eq_nil_iff.1 (hwhole.symm.trans hnil)).1 hne
    · exact scan_ne_text_cons _ _ _
  · rw [textOf_of_ne_nil hbefore]
    intro htokens
    obtain rfl : before = cs := Token.text.inj (List.cons.inj htokens).1
    exact Nat.lt_irrefl _ hlength

end Mark

/-! ## Tags -/

theorem gathers_declaration {cs : List Char} (h : Closed cs) : Gathers g ('<' :: ('!' :: cs) ++ ['>'])
    (g (.declaration ('<' :: ('!' :: cs) ++ ['>']))) := by
  intro rest
  rw [scan_declaration h, List.flatMap_cons]

section Element

variable {name : String} (h : isElementName name.toList = true)
include h

theorem gathers_closing :
    Gathers g (closing name.toList) (g (.closeTag name.toList (closing name.toList))) := by
  intro rest
  rw [scan_tag rfl (splitTag_closing h rest) (ofTag_closing h) rfl, List.flatMap_cons]

variable {attributes : List Char} (hattributes : ∀ c ∈ attributes.head?, c = ' ')
  (hclosed : Closed attributes)
include hattributes hclosed

theorem gathers_opening (hraw : rawTextNames.contains name.toList = false) :
    Gathers g (opening name.toList attributes)
      (g (.openTag name.toList (opening name.toList attributes))) := by
  intro rest
  rw [scan_opening h hattributes hclosed hraw, List.flatMap_cons]

/-- An element whose content is text.  Its closing tag is found by its name alone. -/
theorem gathers_rawText (hg : Additive g) (hraw : rawTextNames.contains name.toList = true)
    {body : List Char} (hbody : ∀ rest, splitBefore ('<' :: '/' :: name.toList)
      (body ++ ('<' :: '/' :: name.toList ++ rest)) = (body, '<' :: '/' :: name.toList ++ rest)) :
    Gathers g (opening name.toList attributes ++ body ++ closing name.toList)
      (g (.openTag name.toList (opening name.toList attributes)) ++ g (.text body) ++
        g (.closeTag name.toList (closing name.toList))) := by
  intro rest
  have hmark : rawTextEnd? (.openTag name.toList (opening name.toList attributes)) =
      some ('<' :: '/' :: name.toList) := if_pos hraw
  have hclosing : closing name.toList ++ rest = '<' :: '/' :: name.toList ++ ('>' :: rest) := by
    simp [closing]
  have htext : (textOf body).flatMap g = g (.text body) := by
    cases body with
    | nil => exact hg.text_nil.symm
    | cons c body => exact List.flatMap_singleton g _
  rw [List.append_assoc, List.append_assoc,
    scan_rawTag rfl (splitTag_opening h hclosed _) (ofTag_opening h hattributes) hmark, hclosing,
    hbody, ← hclosing, List.flatMap_cons, List.flatMap_append, htext, gathers_closing h]
  simp only [List.append_assoc]

end Element

end WebStory.Token
