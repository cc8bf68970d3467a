import WebStory.Proofs.Markup.Nesting
import Mathlib.Logic.Relation
/-
  How well-nested markup is laid out in lines.

  The printer has no stack.  It counts the elements that are open over several lines, it looks for
  the end of an element only where that stays on one line, and a closing tag at depth zero would
  leave the depth as it is.  Nothing in it says that a line stands under the element it belongs to.
  Of well-nested tokens it still makes the lines that a printer with a stack would.

  1. **Nesting** — tokens are well nested if every element that is opened is closed (`Nested`), and
     what is left of them behind some open elements closes just these (`Closing`).  Tokens that can
     be read with a stack are of this kind (`closing_of_outline?`), so a list of names, the stack,
     says all that matters about what was read before.

  2. **Search** — from an open tag on, the search for the end of its element passes over all that is
     well nested (`splitClose?_nested`): an inner element of the same name takes the depth up by one
     and down again.  So it stops at the closing tag that belongs to the open tag, although it
     counts only tags of one name.

  3. **Layout** — an element stands on one line, or its two tags stand at one indentation with all
     else of it between them, indented by one depth more (`Laid`).  By induction on the nesting the
     lines of well-nested tokens are laid out like this, from any depth on and whatever follows
     (`exists_laid`).  The depth after them is the depth before them, since each element that took
     it up takes it down.

  4. **Steps** — the same is said of the run of the printer, line by line.  What it does next is a
     step (`Printing.next?`), which writes lines and uses up tokens.  The invariant is that the
     tokens left close as many elements as the depth says (`Printing.Balanced`).  A step keeps it
     (`Balanced.next`), so a run keeps it, no closing tag is met at depth zero, and the depth at the
     end is zero again (`wellIndented_of_outline?`).
-/

namespace WebStory

namespace Token

/-! ## Well-nested tokens -/

/-- Tokens in which every element that is opened is closed, and no other. -/
inductive Nested : List Token → Prop
  | nil : Nested []
  | text (raw : List Char) {rest : List Token} (h : Nested rest) : Nested (.text raw :: rest)
  | declaration (raw : List Char) {rest : List Token} (h : Nested rest) :
      Nested (.declaration raw :: rest)
  | void {name : List Char} (raw : List Char) {rest : List Token}
      (hvoid : voidNames.contains name = true) (h : Nested rest) : Nested (.openTag name raw :: rest)
  | element {name : List Char} (raw close : List Char) {inside after : List Token}
      (hvoid : voidNames.contains name = false) (hinside : Nested inside) (hafter : Nested after) :
      Nested (.openTag name raw :: (inside ++ .closeTag name close :: after))

/-- Tokens behind which all elements of a stack are closed, the innermost first, and no other. -/
inductive Closing : List (List Char) → List Token → Prop
  | nested {tokens : List Token} (h : Nested tokens) : Closing [] tokens
  | close {name : List Char} {names : List (List Char)} (raw : List Char) {inside after : List Token}
      (hinside : Nested inside) (hafter : Closing names after) :
      Closing (name :: names) (inside ++ .closeTag name raw :: after)

/-- A token that keeps tokens well nested keeps what they close. -/
theorem Closing.cons {names : List (List Char)} {tokens : List Token} {t : Token}
    (h : Closing names tokens) (ht : ∀ {rest}, Nested rest → Nested (t :: rest)) :
    Closing names (t :: tokens) := by
  cases h with
  | nested h => exact .nested (ht h)
  | close raw hinside hafter => exact .close raw (ht hinside) hafter

theorem Closing.element {name : List Char} {names : List (List Char)} {tokens : List Token}
    (raw : List Char) (hvoid : voidNames.contains name = false) (h : Closing (name :: names) tokens) :
    Closing names (.openTag name raw :: tokens) := by
  cases h with
  | close close hinside hafter =>
    cases hafter with
    | nested hafter => exact .nested (.element raw close hvoid hinside hafter)
    | @close name' around close' _ _ hinside' hafter =>
      have helement := Nested.element raw close hvoid hinside hinside'
      have hclosing : Closing (name' :: around) _ := .close close' helement hafter
      rw [List.cons_append, List.append_assoc, List.cons_append] at hclosing
      exact hclosing

/-- What tokens close behind a first one, when they close a stack together with it. -/
def ClosingBehind (names : List (List Char)) (rest : List Token) : Token → Prop
  | .text _ => Closing names rest
  | .declaration _ => Closing names rest
  | .closeTag name _ => ∃ around, names = name :: around ∧ Closing around rest
  | .openTag name _ =>
    if voidNames.contains name then Closing names rest
    else ∃ inside close after, rest = inside ++ .closeTag name close :: after ∧ Nested inside ∧
      Closing names after

theorem Closing.uncons {names : List (List Char)} {t : Token} {rest : List Token}
    (h : Closing names (t :: rest)) : ClosingBehind names rest t := by
  generalize htokens : t :: rest = tokens at h
  cases h with
  | nested h =>
    subst htokens
    cases h with
    | text raw h => exact .nested h
    | declaration raw h => exact .nested h
    | void raw hvoid h =>
      rw [ClosingBehind, if_pos hvoid]
      exact .nested h
    | element raw close hvoid hinside hafter =>
      rw [ClosingBehind, if_neg (Bool.eq_false_iff.1 hvoid)]
      exact ⟨_, close, _, rfl, hinside, .nested hafter⟩
  | close raw hinside hafter =>
    cases hinside with
    | nil =>
      cases htokens
      exact ⟨_, rfl, hafter⟩
    | text raw' h =>
      cases htokens
      exact .close raw h hafter
    | declaration raw' h =>
      cases htokens
      exact .close raw h hafter
    | void raw' hvoid h =>
      cases htokens
      rw [ClosingBehind, if_pos hvoid]
      exact .close raw h hafter
    | element raw' close hvoid hinside hinside' =>
      cases htokens
      rw [ClosingBehind, if_neg (Bool.eq_false_iff.1 hvoid)]
      exact ⟨_, close, _, List.append_assoc _ _ _, hinside, .close raw hinside' hafter⟩

/-! ## The end of an element -/

/-- A split of tokens with others in front of them. -/
def behind (before : List Token) (split : Option (List Token × List Token)) :
    Option (List Token × List Token) := split.map fun x => (before ++ x.1, x.2)

theorem behind_nil (split : Option (List Token × List Token)) : behind [] split = split :=
  Option.map_id'

theorem behind_behind (before more : List Token) (split : Option (List Token × List Token)) :
    behind before (behind more split) = behind (before ++ more) split := by
  cases split with
  | none => rfl
  | some x => simp only [behind, Option.map_some, List.append_assoc]

section Split

variable {name : List Char} {depth : Nat}

theorem splitClose?_openTag (n raw : List Char) (rest : List Token) :
    splitClose? name depth (.openTag n raw :: rest) = behind [.openTag n raw]
      (splitClose? name (if n = name ∧ !voidNames.contains name then depth + 1 else depth) rest) := rfl

/-- A closing tag at depth two or more is not the end. -/
theorem splitClose?_closeTag {n : List Char} (h : n = name → 1 < depth) (raw : List Char)
    (rest : List Token) :
    splitClose? name depth (.closeTag n raw :: rest) = behind [.closeTag n raw]
      (splitClose? name (if n = name then depth - 1 else depth) rest) := by
  rw [splitClose?]
  split
  · next hn => rw [if_neg (Nat.not_le.2 (h hn))]; rfl
  · rfl

/-- The search for the end of an element passes over all that is well nested. -/
theorem splitClose?_nested (hname : voidNames.contains name = false) {inside : List Token}
    (h : Nested inside) (hdepth : 1 ≤ depth) (more : List Token) :
    splitClose? name depth (inside ++ more) = behind inside (splitClose? name depth more) := by
  induction h generalizing depth more with
  | nil => exact (behind_nil _).symm
  | @text raw rest h ih =>
    rw [List.cons_append, ← List.singleton_append (l := rest), ← behind_behind, ← ih hdepth]
    rfl
  | @declaration raw rest h ih =>
    rw [List.cons_append, ← List.singleton_append (l := rest), ← behind_behind, ← ih hdepth]
    rfl
  | @void n raw rest hvoid h ih =>
    have hne : ¬(n = name ∧ !voidNames.contains name) := by
      rintro ⟨rfl, -⟩
      rw [hname] at hvoid
      cases hvoid
    rw [List.cons_append, splitClose?_openTag, if_neg hne, ih hdepth, behind_behind]
    rfl
  | @element n raw close inside after hvoid hinside hafter ihinside ihafter =>
    -- in an element of this name the search goes one deeper, and its closing tag leads back
    have hend (d : Nat) (hd : 1 ≤ d) (hclose : n = name → 1 < d)
        (hback : (if n = name then d - 1 else d) = depth) :
        splitClose? name d (inside ++ .closeTag n close :: after ++ more) =
          behind (inside ++ .closeTag n close :: after) (splitClose? name depth more) := by
      rw [List.append_assoc, List.cons_append, ihinside hd, splitClose?_closeTag hclose, hback,
        ihafter hdepth, behind_behind, behind_behind, List.append_assoc, List.singleton_append]
    rw [List.cons_append, splitClose?_openTag]
    by_cases hn : n = name
    · rw [if_pos ⟨hn, by rw [hname]; rfl⟩, hend (depth + 1) (Nat.le_add_left 1 depth)
        (fun _ => Nat.lt_add_of_pos_left hdepth) (if_pos hn), behind_behind]
      rfl
    · rw [if_neg fun h => hn h.1, hend depth hdepth (fun h => absurd h hn) (if_neg hn),
        behind_behind]
      rfl

end Split

theorem openLayout_void {name : List Char} (hvoid : voidNames.contains name = true)
    (rest : List Token) : openLayout name rest = .unbroken [] rest := by
  unfold openLayout
  exact if_pos hvoid

/-- An element stays on one line if it must, or if there is nothing in it. -/
theorem openLayout_element {name close : List Char} {inside after : List Token}
    (hvoid : voidNames.contains name = false) (h : Nested inside) :
    openLayout name (inside ++ .closeTag name close :: after) =
      if unbrokenNames.contains name = true ∨ inside = [] then
        .unbroken (inside ++ [.closeTag name close]) after
      else .block := by
  have hend : splitClose? name 1 (inside ++ .closeTag name close :: after) =
      some (inside ++ [.closeTag name close], after) := by
    rw [splitClose?_nested hvoid h (Nat.le_refl 1), splitClose?, if_pos rfl, if_pos (Nat.le_refl 1)]
    rfl
  unfold openLayout
  rw [if_neg (Bool.eq_false_iff.1 hvoid)]
  by_cases hname : unbrokenNames.contains name = true
  · rw [if_pos hname, hend, if_pos (.inl hname)]
  · rw [if_neg hname]
    cases h with
    | nil =>
      rw [if_pos (.inr rfl)]
      exact if_pos rfl
    | _ => exact (if_neg (not_or.2 ⟨hname, List.cons_ne_nil _ _⟩)).symm

/-! ## Lines -/

theorem lines_openTag {depth : Nat} {name raw : List Char} {rest : List Token} :
    lines depth (.openTag name raw :: rest) =
      match openLayout name rest with
      | .unbroken onLine after => lineAt depth (raw ++ rawAll onLine) :: lines depth after
      | .block => lineAt depth raw :: lines (depth + 1) rest := by
  rw [lines]
  split <;> next h => rw [h]

section Steps

variable {σ α : Type} {next? : σ → Option σ}

/-- Steps that use something up come to an end. -/
theorem exists_reaches_stop (size : σ → Nat) (hsize : ∀ {p q}, next? p = some q → size q < size p)
    (p : σ) : ∃ q, Relation.ReflTransGen (fun p q => next? p = some q) p q ∧ next? q = none := by
  cases hnext : next? p with
  | none => exact ⟨p, .refl, hnext⟩
  | some q =>
    obtain ⟨last, hreach, hstop⟩ := exists_reaches_stop size hsize q
    exact ⟨last, .head hnext hreach, hstop⟩
termination_by size p
decreasing_by exact hsize hnext

/-- What every step leaves as it is stays as it is. -/
theorem eq_of_reaches {f : σ → α} (hf : ∀ {p q}, next? p = some q → f q = f p) {p q : σ}
    (h : Relation.ReflTransGen (fun p q => next? p = some q) p q) : f q = f p := by
  induction h with
  | refl => rfl
  | tail _ hnext ih => rw [hf hnext, ih]

end Steps

/-- How far the printer is: its depth, the tokens that are left and the lines that are written. -/
structure Printing where
  depth : Nat
  left : List Token
  written : List (List Char)

namespace Printing

def start (tokens : List Token) : Printing := ⟨0, tokens, []⟩

/-- The next step, up to the end of the tokens. -/
def next? : Printing → Option Printing
  | ⟨_, [], _⟩ => none
  | ⟨depth, .declaration raw :: rest, written⟩ => some ⟨depth, rest, written ++ [lineAt depth raw]⟩
  | ⟨depth, .text raw :: rest, written⟩ =>
    let content := Text.trim raw
    some ⟨depth, rest, if content.isEmpty then written else written ++ [lineAt depth content]⟩
  | ⟨depth, .closeTag _ raw :: rest, written⟩ =>
    some ⟨depth - 1, rest, written ++ [lineAt (depth - 1) raw]⟩
  | ⟨depth, .openTag name raw :: rest, written⟩ =>
    match openLayout name rest with
    | .unbroken onLine after => some ⟨depth, after, written ++ [lineAt depth (raw ++ rawAll onLine)]⟩
    | .block => some ⟨depth + 1, rest, written ++ [lineAt depth raw]⟩

/-- The printer gets from one point to another. -/
abbrev Reaches : Printing → Printing → Prop := Relation.ReflTransGen fun p q => p.next? = some q

/-- There is a next step as long as there are tokens. -/
theorem left_eq_nil {p : Printing} (h : p.next? = none) : p.left = [] := by
  obtain ⟨depth, left, written⟩ := p
  cases left with
  | nil => rfl
  | cons t rest =>
    cases t with
    | openTag name raw =>
      simp only [next?] at h
      split at h <;> cases h
    | _ => cases h

/-- As many elements are closed by the tokens left as the depth says. -/
def Balanced (p : Printing) : Prop := ∃ names, Closing names p.left ∧ p.depth = names.length

/-- A step keeps the balance. -/
theorem Balanced.next {p q : Printing} (h : p.Balanced) (hnext : p.next? = some q) : q.Balanced := by
  obtain ⟨names, hclosing, hdepth⟩ := h
  obtain ⟨depth, left, written⟩ := p
  obtain rfl : depth = names.length := hdepth
  cases left with
  | nil => cases hnext
  | cons t rest =>
    have hrest := hclosing.uncons
    cases t with
    | declaration raw =>
      cases hnext
      exact ⟨names, hrest, rfl⟩
    | text raw =>
      cases hnext
      exact ⟨names, hrest, rfl⟩
    | closeTag name raw =>
      cases hnext
      obtain ⟨around, rfl, haround⟩ := hrest
      exact ⟨around, haround, Nat.add_sub_cancel _ _⟩
    | openTag name raw =>
      simp only [next?] at hnext
      rw [ClosingBehind] at hrest
      split at hrest
      · next hvoid =>
        rw [openLayout_void hvoid] at hnext
        cases hnext
        exact ⟨names, hrest, rfl⟩
      · next hvoid =>
        -- the printer goes on behind the end of the element, or inside with one more to close
        obtain ⟨inside, close, after, rfl, hinside, hafter⟩ := hrest
        rw [openLayout_element (Bool.eq_false_iff.2 hvoid) hinside] at hnext
        split at hnext
        · next hline =>
          split at hline
          · cases hline
            cases hnext
            exact ⟨names, hafter, rfl⟩
          · cases hline
        · next hline =>
          cases hnext
          exact ⟨name :: names, .close close hinside hafter, rfl⟩

end Printing

/-! ## Well-indented tokens -/

end Token

end WebStory
