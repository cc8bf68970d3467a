import WebStory.Text.Blank
/-
  Markup as a list of tokens.

  A token is a tag, a declaration or the text between them, and holds its source unchanged: the
  sources of all tokens make up the markup.  A tag ends at the first `>` outside quotes.  What
  follows the open tag of a script or a style sheet is text up to the closing tag.
-/

namespace WebStory

/-- A piece of markup.  Each holds its source; tags also hold their name in small letters. -/
inductive Token where
  | declaration (raw : List Char)
  | openTag (name : List Char) (raw : List Char)
  | closeTag (name : List Char) (raw : List Char)
  | text (raw : List Char)
deriving DecidableEq, Repr

namespace Token

def raw : Token → List Char
  | .declaration raw => raw
  | .openTag _ raw => raw
  | .closeTag _ raw => raw
  | .text raw => raw

/-- The name of a tag: what follows `<` or `</`, up to a blank, `>` or a slash. -/
def nameOf (raw : List Char) : List Char :=
  ((raw.dropWhile fun c => c == '<' || c == '/').takeWhile fun c =>
    !Text.isBlank c && c != '>' && c != '/').map Char.toLower

/-- Splits markup after the first `>` outside quotes; `quote` is the quote that is open. -/
def splitTag : Option Char → List Char → List Char × List Char
  | _, [] => ([], [])
  | some q, c :: rest =>
    let (tag, after) := splitTag (if c = q then none else some q) rest
    (c :: tag, after)
  | none, c :: rest =>
    if c = '>' then ([c], rest)
    else
      let (tag, after) := splitTag (if c = '"' ∨ c = '\'' then some c else none) rest
      (c :: tag, after)

/-- Splits a text before the first occurrence of a mark. -/
def splitBefore (mark : List Char) : List Char → List Char × List Char
  | [] => ([], [])
  | c :: rest =>
    if mark.isPrefixOf (c :: rest) then ([], c :: rest)
    else
      let (before, after) := splitBefore mark rest
      (c :: before, after)

/-- Elements whose content is text. -/
def rawTextNames : List (List Char) := ["script".toList, "style".toList]

/-- The token of a tag or a declaration. -/
def ofTag (raw : List Char) : Token :=
  if ['<', '!'].isPrefixOf raw then .declaration raw
  else if ['<', '/'].isPrefixOf raw then .closeTag (nameOf raw) raw
  else .openTag (nameOf raw) raw

/-- What ends the text that must follow a token, where that text is not markup. -/
def rawTextEnd? : Token → Option (List Char)
  | .openTag name _ => if rawTextNames.contains name then some (['<', '/'] ++ name) else none
  | _ => none

/-- A text, unless it is empty. -/
def textOf (raw : List Char) : List Token := if raw.isEmpty then [] else [.text raw]

/-! ## Nothing is lost -/

theorem splitTag_append (quote : Option Char) (cs : List Char) :
    (splitTag quote cs).1 ++ (splitTag quote cs).2 = cs := by
  fun_induction splitTag quote cs <;> simp_all

theorem splitBefore_append (mark cs : List Char) :
    (splitBefore mark cs).1 ++ (splitBefore mark cs).2 = cs := by
  fun_induction splitBefore mark cs <;> simp_all

theorem splitTag_cons_ne_nil (quote : Option Char) (c : Char) (rest : List Char) :
    (splitTag quote (c :: rest)).1 ≠ [] := by
  cases quote with
  | some q => simp [splitTag]
  | none => by_cases h : c = '>' <;> simp [splitTag, h]

theorem length_splitTag_lt (quote : Option Char) (c : Char) (rest : List Char) :
    (splitTag quote (c :: rest)).2.length < (c :: rest).length := by
  have h := congrArg List.length (splitTag_append quote (c :: rest))
  have := List.length_pos_iff.2 (splitTag_cons_ne_nil quote c rest)
  simp only [List.length_append] at h
  omega

theorem length_splitBefore_le (mark cs : List Char) :
    (splitBefore mark cs).2.length ≤ cs.length := by
  have h := congrArg List.length (splitBefore_append mark cs)
  simp only [List.length_append] at h
  omega

/-! ## The token list -/

/-- The tokens of markup. -/
def scan : List Char → List Token
  | [] => []
  | c :: rest =>
    if c = '<' then
      let tag := ofTag (splitTag none (c :: rest)).1
      let after := (splitTag none (c :: rest)).2
      match rawTextEnd? tag with
      | none => tag :: scan after
      | some mark => tag :: (textOf (splitBefore mark after).1 ++ scan (splitBefore mark after).2)
    else .text (c :: rest.takeWhile (· != '<')) :: scan (rest.dropWhile (· != '<'))
termination_by cs => cs.length
decreasing_by
  · exact length_splitTag_lt none c rest
  · exact Nat.lt_of_le_of_lt (length_splitBefore_le _ _) (length_splitTag_lt none c rest)
  · exact Nat.lt_succ_of_le (List.dropWhile_sublist _).length_le

end Token

end WebStory
