import WebStory.Markup.Token
/-
  Markup with one tag a line.

  Only white space between tags changes.  A text element, and any other element whose content
  must stay as it is, keeps its line; so does an element without content.  Every other element
  has its content between two lines, indented by two spaces more.
-/

namespace WebStory

namespace Token

/-- Tags that have no closing tag. -/
def voidNames : List (List Char) :=
  ["meta", "link", "source", "br", "img"].map String.toList

/-- Elements that stand on one line, with their content unchanged. -/
def unbrokenNames : List (List Char) :=
  ["h1", "h2", "h3", "h4", "h5", "h6", "p", "span", "title", "script", "style", "noscript"].map
    String.toList

/-- Splits a token list after the closing tag that matches `depth` open tags of a name.  There
    is no such place when the list ends before they are all closed. -/
def splitClose? (name : List Char) : Nat → List Token → Option (List Token × List Token)
  | _, [] => none
  | depth, t :: rest =>
    match t with
    | .openTag n _ =>
      let depth := if n = name ∧ !voidNames.contains name then depth + 1 else depth
      (splitClose? name depth rest).map fun (inside, after) => (t :: inside, after)
    | .closeTag n _ =>
      if n = name then
        if depth ≤ 1 then some ([t], rest)
        else (splitClose? name (depth - 1) rest).map fun (inside, after) => (t :: inside, after)
      else (splitClose? name depth rest).map fun (inside, after) => (t :: inside, after)
    | _ => (splitClose? name depth rest).map fun (inside, after) => (t :: inside, after)

theorem splitClose?_append {name : List Char} {depth : Nat} {tokens inside after : List Token}
    (h : splitClose? name depth tokens = some (inside, after)) : inside ++ after = tokens := by
  induction tokens generalizing depth inside with
  | nil => simp [splitClose?] at h
  | cons t rest ih =>
    have step {d : Nat} (h : (splitClose? name d rest).map (fun (x : List Token × List Token) =>
        (t :: x.1, x.2)) = some (inside, after)) : inside ++ after = t :: rest := by
      obtain ⟨⟨i, a⟩, hs, he⟩ := Option.map_eq_some_iff.1 h
      simp only [Prod.mk.injEq] at he
      obtain ⟨rfl, rfl⟩ := he
      simp [ih hs]
    cases t with
    | declaration raw => exact step h
    | text raw => exact step h
    | openTag n raw => exact step h
    | closeTag n raw =>
      simp only [splitClose?] at h
      split at h
      · split at h
        · simp only [Option.some.injEq, Prod.mk.injEq] at h
          obtain ⟨rfl, rfl⟩ := h
          rfl
        · exact step h
      · exact step h

/-- The indentation of a depth. -/
def indentation (depth : Nat) : List Char := List.replicate (2 * depth) ' '

/-- A line at a depth. -/
def lineAt (depth : Nat) (content : List Char) : List Char := indentation depth ++ content

/-- The sources of tokens, one after another. -/
def rawAll (tokens : List Token) : List Char := tokens.flatMap raw

/-- What an open tag does to the lines. -/
inductive OpenLayout where
  /-- The line holds these tokens beside the tag; the others follow. -/
  | unbroken (onLine after : List Token)
  /-- The tag stands alone, and what follows is inside it. -/
  | block
deriving DecidableEq, Repr

/-- How the element of an open tag is laid out, given the tokens after the tag. -/
def openLayout (name : List Char) (rest : List Token) : OpenLayout :=
  if voidNames.contains name then .unbroken [] rest
  else
    match if unbrokenNames.contains name then splitClose? name 1 rest else none with
    | some (inside, after) => .unbroken inside after
    | none =>
      match rest with
      | .closeTag n raw :: after => if n = name then .unbroken [.closeTag n raw] after else .block
      | _ => .block

theorem openLayout_append {name : List Char} {rest onLine after : List Token}
    (h : openLayout name rest = .unbroken onLine after) : onLine ++ after = rest := by
  unfold openLayout at h
  split at h
  · simp only [OpenLayout.unbroken.injEq] at h
    obtain ⟨rfl, rfl⟩ := h; rfl
  · split at h
    · next hs =>
      simp only [OpenLayout.unbroken.injEq] at h
      obtain ⟨rfl, rfl⟩ := h
      split at hs
      · exact splitClose?_append hs
      · simp at hs
    · split at h
      · split at h
        · simp only [OpenLayout.unbroken.injEq] at h
          obtain ⟨rfl, rfl⟩ := h; rfl
        · simp at h
      · simp at h

theorem length_after_le {name : List Char} {rest onLine after : List Token}
    (h : openLayout name rest = .unbroken onLine after) : after.length ≤ rest.length := by
  have := congrArg List.length (openLayout_append h)
  rw [List.length_append] at this
  omega

/-- The lines of a token list that begins at a depth. -/
def lines : Nat → List Token → List (List Char)
  | _, [] => []
  | depth, .declaration raw :: rest => lineAt depth raw :: lines depth rest
  | depth, .text raw :: rest =>
    let content := Text.trim raw
    if content.isEmpty then lines depth rest else lineAt depth content :: lines depth rest
  | depth, .closeTag _ raw :: rest => lineAt (depth - 1) raw :: lines (depth - 1) rest
  | depth, .openTag name raw :: rest =>
    match h : openLayout name rest with
    | .unbroken onLine after => lineAt depth (raw ++ rawAll onLine) :: lines depth after
    | .block => lineAt depth raw :: lines (depth + 1) rest
termination_by _ tokens => tokens.length
decreasing_by
  · exact Nat.lt_succ_self _
  · exact Nat.lt_succ_self _
  · exact Nat.lt_succ_self _
  · exact Nat.lt_succ_self _
  · exact Nat.lt_succ_of_le (length_after_le h)
  · exact Nat.lt_succ_self _

end Token

/-- Markup with one tag a line and a line feed at its end. -/
def indentMarkup (markup : String) : String :=
  let lines := Token.lines 0 (Token.scan markup.toList)
  String.ofList (['\n'].intercalate lines ++ ['\n'])

example : indentMarkup "<div><p>a<b>c</b></p><i></i></div>" =
    "<div>\n  <p>a<b>c</b></p>\n  <i></i>\n</div>\n" := by decide +kernel

end WebStory
