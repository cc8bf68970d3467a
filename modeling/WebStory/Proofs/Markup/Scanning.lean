import WebStory.Proofs.Markup.Respacing
/-
  The rounds of the token loop.

  Each round looks at what is left of the markup and goes on behind it in one of three ways: behind the
  text up to the next `<`, behind a tag, or behind a tag and the text that must follow it
  (`Scanning.next?`).  That text may be empty, and a tag or a quote may be left without its end; but a
  round always gets past the character that it begins with, so what is left becomes shorter
  (`Scanning.next_shortens`).  Nothing is skipped and nothing is read twice
  (`Scanning.source_reaches`).  The loop ends with the tokens of the markup
  (`Scanning.reaches_end`).
-/

namespace WebStory.Token

/-- How far the token loop is: the tokens that are found and the markup that is left. -/
structure Scanning where
  found : List Token
  left : List Char

namespace Scanning

def start (markup : List Char) : Scanning := ⟨[], markup⟩

/-- The next round, up to the end of the markup. -/
def next? : Scanning → Option Scanning
  | ⟨_, []⟩ => none
  | ⟨found, c :: rest⟩ =>
    if c = '<' then
      let tag := ofTag (splitTag none (c :: rest)).1
      let after := (splitTag none (c :: rest)).2
      match rawTextEnd? tag with
      | none => some ⟨found ++ [tag], after⟩
      | some mark =>
        some ⟨found ++ tag :: textOf (splitBefore mark after).1, (splitBefore mark after).2⟩
    else
      some ⟨found ++ [.text (c :: rest.takeWhile (· != '<'))], rest.dropWhile (· != '<')⟩

/-- All tokens: those that are found and those that will be. -/
def allTokens (p : Scanning) : List Token := p.found ++ scan p.left

/-- The markup as it was read so far, in front of what is left. -/
def source (p : Scanning) : List Char := rawAll p.found ++ p.left

variable {p q : Scanning}

/-- A round finds tokens of the markup. -/
theorem allTokens_next (h : p.next? = some q) : q.allTokens = p.allTokens := by
  obtain ⟨found, left⟩ := p
  cases left with
  | nil => cases h
  | cons c rest =>
    simp only [next?] at h
    simp only [allTokens]
    rw [scan]
    split at h
    · next hc =>
      rw [if_pos hc]
      split at h
      · next hmark =>
        cases h
        simp only [hmark, List.append_assoc, List.singleton_append]
      · next mark hmark =>
        cases h
        simp only [hmark, List.append_assoc, List.cons_append]
    · next hc =>
      cases h
      rw [if_neg hc, List.append_assoc, List.singleton_append]

/-- A round gets past at least one character. -/
theorem next_shortens (h : p.next? = some q) : q.left.length < p.left.length := by
  obtain ⟨found, left⟩ := p
  cases left with
  | nil => cases h
  | cons c rest =>
    have htag := length_splitTag_lt none c rest
    simp only [next?] at h
    split at h
    · split at h
      · cases h
        exact htag
      · -- the text behind a tag may be empty, but the tag is not
        cases h
        exact Nat.lt_of_le_of_lt (length_splitBefore_le _ _) htag
    · cases h
      exact Nat.lt_succ_of_le (List.dropWhile_sublist _).length_le

/-- A round loses nothing. -/
theorem source_next (h : p.next? = some q) : q.source = p.source := by
  have htokens := congrArg rawAll (allTokens_next h)
  simp only [allTokens, rawAll_append, rawAll_scan] at htokens
  exact htokens

/-- There is another round as long as something is left. -/
theorem left_eq_nil (h : p.next? = none) : p.left = [] := by
  obtain ⟨found, left⟩ := p
  cases left with
  | nil => rfl
  | cons c rest =>
    simp only [next?] at h
    split at h
    · split at h <;> cases h
    · cases h

/-- The loop gets from one point to another. -/
abbrev Reaches : Scanning → Scanning → Prop := Relation.ReflTransGen fun p q => p.next? = some q

theorem source_reaches (h : p.Reaches q) : q.source = p.source := eq_of_reaches source_next h

/-- The loop ends, with all tokens found. -/
theorem reaches_end (p : Scanning) : p.Reaches ⟨p.allTokens, []⟩ := by
  obtain ⟨q, hreach, hstop⟩ := exists_reaches_stop (fun p => p.left.length) next_shortens p
  have htokens : q.allTokens = p.allTokens := eq_of_reaches allTokens_next hreach
  have hleft := left_eq_nil hstop
  obtain ⟨found, left⟩ := q
  obtain rfl : left = [] := hleft
  rw [allTokens, scan, List.append_nil] at htokens
  rw [← htokens]
  exact hreach

end Scanning

/-- No token is empty. -/
theorem Legible.raw_ne_nil {mark : List Char} {tokens : List Token} (h : Legible mark tokens)
    (hmark : IsMark mark) : ∀ t ∈ tokens, t.raw ≠ [] := by
  induction h with
  | nil => exact nofun
  | text hne _ _ _ ih => exact List.forall_mem_cons.2 ⟨hne, ih hmark⟩
  | @tag mark t rest _ hbegin _ _ ih =>
    refine List.forall_mem_cons.2 ⟨fun hnil => ?_, ih (isMark_textEnd t)⟩
    rw [hnil] at hbegin
    exact hmark.ne_nil (List.prefix_nil.1 hbegin)

/-- What the token loop does with markup. -/
structure Tokenized (markup : List Char) (tokens : List Token) : Prop where
  /-- Every round leaves less to do. -/
  progress : ∀ p q, (Scanning.start markup).Reaches p → p.next? = some q →
    q.left.length < p.left.length
  /-- What is found and what is left make up the markup at any time. -/
  source : ∀ p, (Scanning.start markup).Reaches p → rawAll p.found ++ p.left = markup
  /-- The loop ends with the tokens. -/
  final : (Scanning.start markup).Reaches ⟨tokens, []⟩
  whole : rawAll tokens = markup
  nonempty : ∀ t ∈ tokens, t.raw ≠ []
  apart : TextsApart tokens

theorem tokenized_scan (markup : List Char) : Tokenized markup (scan markup) where
  progress _ _ _ hnext := Scanning.next_shortens hnext
  source _ hreach := Scanning.source_reaches hreach
  final := (Scanning.start markup).reaches_end
  whole := rawAll_scan markup
  nonempty := (legible_scan markup).raw_ne_nil isMark_lt
  apart := (legible_scan markup).textsApart

end WebStory.Token
