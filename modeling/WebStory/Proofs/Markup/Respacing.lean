import Mathlib.Data.List.Chain
import WebStory.Proofs.Markup.Layout
import WebStory.Proofs.Markup.Legible
import WebStory.Proofs.Text.Trim
/-
  What the printer leaves as it is.

  Printed markup looks quite different from the markup it was made of: texts are trimmed, lines end
  where none ended before, and in front of most tags stands an indentation.  What can be seen on a
  page must not change by this, for any markup whatever, well nested or not.

  1. **Rows** — lines are made of tokens: the line of a tag holds the tag, and behind an open tag
     possibly some of the tokens that follow, up to the end of its element (`row`).  No token is
     lost between one line and the next (`row_append`), and each line begins with a token of its
     own, so markup can be followed line by line (`row_induction`).

  2. **Printed tokens** — so what is printed can be followed token by token too (`printed`): each
     tag that begins a line has an indentation in front of it and a line feed behind its line, and
     each text has blanks put around it.  What stands in front of the first tag is carried along as
     a text, since the end of one line and the indentation of the next are one text to a reader.

  3. **Skeleton** — the tokens without the white space between tags.  The crux is that printed
     tokens have the skeleton of the tokens they are printed for (`skeleton_printed`).  It needs
     that no text follows another (`TextsApart`): two texts side by side would each be trimmed, and
     blanks between them lost.  What was read from markup is of this kind.

  4. **Elements on one line** — some elements must stay as they are, as white space inside them can
     be seen.  Such an element is found with all that is in it, as a part of one line.  This holds
     of the outermost of such elements only: inside one the others are not looked for.  The line of
     a tag in front of an outermost element ends before it, so the element begins a line
     (`exists_printed_eq`).

  5. **Markup** — put together for the tokens that markup is read as: what can be seen is the same,
     all tags and declarations are there in their order, and the outermost elements that must stay
     on one line are there unbroken (`indentMarkup_keeps_tokens`).
-/

namespace WebStory.Token

open Text (AllBlank)

/-! ## The end of an element, once it is found -/

section Split

variable {name : List Char} {depth : Nat}

theorem behind_eq_none_iff {before : List Token} {split : Option (List Token × List Token)} :
    behind before split = none ↔ split = none := Option.map_eq_none_iff

/-- The search passes over a token whatever follows, or it ends with it. -/
theorem splitClose?_cons (name : List Char) (depth : Nat) (t : Token) :
    (∃ inner, ∀ rest,
      splitClose? name depth (t :: rest) = behind [t] (splitClose? name inner rest)) ∨
    ∃ raw, t = .closeTag name raw ∧
      ∀ rest, splitClose? name depth (t :: rest) = some ([t], rest) := by
  cases t with
  | declaration raw => exact .inl ⟨depth, fun _ => rfl⟩
  | text raw => exact .inl ⟨depth, fun _ => rfl⟩
  | openTag n raw => exact .inl ⟨_, splitClose?_openTag n raw⟩
  | closeTag n raw =>
    by_cases hend : n = name ∧ depth ≤ 1
    · obtain ⟨rfl, hdepth⟩ := hend
      refine .inr ⟨raw, rfl, fun rest => ?_⟩
      rw [splitClose?, if_pos rfl, if_pos hdepth]
    · have hdeep : n = name → 1 < depth := fun hn => Nat.not_le.1 fun hdepth => hend ⟨hn, hdepth⟩
      exact .inl ⟨_, splitClose?_closeTag hdeep raw⟩

/-- An element ends with its closing tag, and the same search finds it whatever follows. -/
theorem splitClose?_eq_some {tokens inside after : List Token}
    (h : splitClose? name depth tokens = some (inside, after)) :
    (∃ before raw, inside = before ++ [.closeTag name raw]) ∧
      ∀ more, splitClose? name depth (inside ++ more) = some (inside, more) := by
  induction tokens generalizing depth inside with
  | nil => cases h
  | cons t rest ih =>
    rcases splitClose?_cons name depth t with ⟨inner, hstep⟩ | ⟨raw, rfl, hstep⟩
    · rw [hstep] at h
      obtain ⟨⟨inside', after'⟩, hsplit, heq⟩ := Option.map_eq_some_iff.1 h
      cases heq
      obtain ⟨⟨before, raw, rfl⟩, hmore⟩ := ih hsplit
      refine ⟨⟨t :: before, raw, rfl⟩, fun more => ?_⟩
      rw [List.singleton_append, List.cons_append, hstep, hmore]
      rfl
    · rw [hstep] at h
      cases h
      exact ⟨⟨[], raw, rfl⟩, hstep⟩

/-- Texts do not matter to the search. -/
theorem splitClose?_filter_eq_none_iff {tokens : List Token} :
    splitClose? name depth (tokens.filter isTag) = none ↔ splitClose? name depth tokens = none := by
  induction tokens generalizing depth with
  | nil => exact Iff.rfl
  | cons t rest ih =>
    by_cases ht : t.isTag = true
    · rw [List.filter_cons_of_pos ht]
      rcases splitClose?_cons name depth t with ⟨inner, hstep⟩ | ⟨raw, -, hstep⟩
      · rw [hstep, hstep, behind_eq_none_iff, behind_eq_none_iff, ih]
      · rw [hstep, hstep]
        exact iff_of_false nofun nofun
    · have htext : splitClose? name depth (t :: rest) = behind [t] (splitClose? name depth rest) := by
        rw [eq_text_of_not_isTag ht]
        rfl
      rw [List.filter_cons_of_neg ht, htext, behind_eq_none_iff, ih]

end Split

/-! ## Rows -/

/-- The line of a tag: its depth, the tokens on it beside the tag, and the tokens that follow with the
    depth at which they begin. -/
structure Row where
  depth : Nat
  onLine : List Token
  next : Nat
  after : List Token

/-- The line of an open tag that is laid out in a certain way. -/
def OpenLayout.row (depth : Nat) (rest : List Token) : OpenLayout → Row
  | .unbroken onLine after => ⟨depth, onLine, depth, after⟩
  | .block => ⟨depth, [], depth + 1, rest⟩

/-- The line of a tag that is met at a depth. -/
def row (depth : Nat) (t : Token) (rest : List Token) : Row :=
  match t with
  | .closeTag _ _ => ⟨depth - 1, [], depth - 1, rest⟩
  | .openTag name _ => (openLayout name rest).row depth rest
  | .declaration _ | .text _ => ⟨depth, [], depth, rest⟩

/-- The line of a text, if there is anything to see in it. -/
def textRows (depth : Nat) (raw : List Char) : List (List Char) :=
  if (Text.trim raw).isEmpty then [] else [lineAt depth (Text.trim raw)]

theorem lines_text (depth : Nat) (raw : List Char) (rest : List Token) :
    lines depth (.text raw :: rest) = textRows depth raw ++ lines depth rest := by
  simp only [lines, textRows]
  split <;> rfl

theorem lines_tag {t : Token} (ht : t.isTag = true) (depth : Nat) (rest : List Token) :
    lines depth (t :: rest) =
      lineAt (row depth t rest).depth (t.raw ++ rawAll (row depth t rest).onLine) ::
        lines (row depth t rest).next (row depth t rest).after := by
  have halone (cs : List Char) : cs ++ rawAll [] = cs := List.append_nil cs
  cases t with
  | text raw => cases ht
  | declaration raw => rw [lines, row, halone]; rfl
  | closeTag name raw => rw [lines, row, halone]; rfl
  | openTag name raw =>
    rw [lines_openTag, row]
    cases openLayout name rest with
    | unbroken onLine after => rfl
    | block => rw [OpenLayout.row, halone]; rfl

section Row

variable {depth : Nat} {t : Token} {rest : List Token}

/-- No token is lost. -/
theorem row_append (depth : Nat) (t : Token) (rest : List Token) :
    (row depth t rest).onLine ++ (row depth t rest).after = rest := by
  cases t with
  | openTag name raw =>
    rw [row]
    cases h : openLayout name rest with
    | unbroken onLine after => exact openLayout_append h
    | block => rfl
  | _ => rfl

theorem length_row_after_le (depth : Nat) (t : Token) (rest : List Token) :
    (row depth t rest).after.length ≤ rest.length := by
  have hlength := congrArg List.length (row_append depth t rest)
  rw [List.length_append] at hlength
  omega

section OpenLayout

variable {name : List Char} {rest onLine after : List Token}

/-- An element that must stay on one line has a closing tag. -/
theorem not_void_of_unbroken (hname : unbrokenNames.contains name = true) :
    ¬voidNames.contains name = true :=
  (by decide : ∀ n ∈ unbrokenNames, ¬voidNames.contains n = true) _ (List.contains_iff_mem.1 hname)

theorem openLayout_of_splitClose? (hname : unbrokenNames.contains name = true)
    (h : splitClose? name 1 rest = some (onLine, after)) :
    openLayout name rest = .unbroken onLine after := by
  unfold openLayout
  rw [if_neg (not_void_of_unbroken hname), if_pos hname, h]

theorem openLayout_empty (hvoid : ¬voidNames.contains name = true)
    (hname : ¬unbrokenNames.contains name = true) (raw : List Char) (after : List Token) :
    openLayout name (.closeTag name raw :: after) = .unbroken [.closeTag name raw] after := by
  unfold openLayout
  rw [if_neg hvoid, if_neg hname]
  exact if_pos rfl

/-- Why an element stays on one line: it has no closing tag, its name says so, or it is empty. -/
theorem openLayout_cases (h : openLayout name rest = .unbroken onLine after) :
    (voidNames.contains name = true ∧ onLine = []) ∨
      (unbrokenNames.contains name = true ∧ splitClose? name 1 rest = some (onLine, after)) ∨
      (¬voidNames.contains name = true ∧ ¬unbrokenNames.contains name = true ∧
        ∃ raw, onLine = [.closeTag name raw]) := by
  unfold openLayout at h
  split at h
  · next hvoid =>
    cases h
    exact .inl ⟨hvoid, rfl⟩
  · next hvoid =>
    split at h
    · next hsplit =>
      cases h
      split at hsplit
      · next hname => exact .inr (.inl ⟨hname, hsplit⟩)
      · cases hsplit
    · next hsplit =>
      split at h
      · next n raw after' =>
        split at h
        · next hn =>
          cases h
          subst hn
          -- an element that must stay on one line would have been found to end here
          have hname : ¬unbrokenNames.contains n = true := by
            intro hname
            rw [if_pos hname, splitClose?, if_pos rfl, if_pos (Nat.le_refl 1)] at hsplit
            cases hsplit
          exact .inr (.inr ⟨hvoid, hname, raw, rfl⟩)
        · cases h
      · cases h

/-- An element that stays on one line does so whatever follows. -/
theorem openLayout_unbroken (h : openLayout name rest = .unbroken onLine after)
    (more : List Token) : openLayout name (onLine ++ more) = .unbroken onLine more := by
  rcases openLayout_cases h with ⟨hvoid, rfl⟩ | ⟨hname, hsplit⟩ | ⟨hvoid, hname, raw, rfl⟩
  · exact openLayout_void hvoid _
  · exact openLayout_of_splitClose? hname ((splitClose?_eq_some hsplit).2 more)
  · exact openLayout_empty hvoid hname raw more

end OpenLayout

/-- What stands on a line beside its tag ends with a closing tag. -/
theorem row_onLine (depth : Nat) (t : Token) (rest : List Token) :
    (row depth t rest).onLine = [] ∨
      ∃ before name raw, (row depth t rest).onLine = before ++ [.closeTag name raw] := by
  cases t with
  | openTag name raw =>
    rw [row]
    cases h : openLayout name rest with
    | unbroken onLine after =>
      rcases openLayout_cases h with ⟨-, rfl⟩ | ⟨-, hsplit⟩ | ⟨-, -, close, rfl⟩
      · exact .inl rfl
      · obtain ⟨⟨before, close, hinside⟩, -⟩ := splitClose?_eq_some hsplit
        exact .inr ⟨before, name, close, hinside⟩
      · exact .inr ⟨[], name, close, rfl⟩
    | block => exact .inl rfl
  | _ => exact .inl rfl

end Row

/-- A list of tokens is followed line by line: a text, or the line of a tag. -/
theorem row_induction {p : Nat → List Token → Prop} (nil : ∀ depth, p depth [])
    (text : ∀ depth raw rest, p depth rest → p depth (.text raw :: rest))
    (tag : ∀ depth t rest, t.isTag = true →
      p (row depth t rest).next (row depth t rest).after → p depth (t :: rest))
    (depth : Nat) : ∀ tokens, p depth tokens
  | [] => nil depth
  | t :: rest => by
    by_cases ht : t.isTag = true
    · exact tag depth t rest ht (row_induction nil text tag _ _)
    · rw [eq_text_of_not_isTag ht]
      exact text depth t.raw rest (row_induction nil text tag depth rest)
termination_by tokens => tokens.length
decreasing_by
  · exact Nat.lt_succ_of_le (length_row_after_le depth t rest)
  · exact Nat.lt_succ_self _

/-! ## What is printed -/

/-- The line of a text with its end. -/
def textLine (depth : Nat) (raw : List Char) : List Char :=
  (textRows depth raw).flatMap (· ++ ['\n'])

/-- Tokens behind the end of a line, with the text that stands in front of them. -/
def newLine (p : List Char × List Token) : List Token := .text ('\n' :: p.1) :: p.2

/-- The tokens that are printed for tokens from a depth on: the text in front of the first tag, with its
    indentation, and what follows from that tag on. -/
def printed (depth : Nat) : List Token → List Char × List Token
  | [] => ([], [])
  | t :: rest =>
    if t.isTag then
      let r := row depth t rest
      (indentation r.depth, t :: (r.onLine ++ newLine (printed r.next r.after)))
    else (textLine depth t.raw ++ (printed depth rest).1, (printed depth rest).2)
termination_by tokens => tokens.length
decreasing_by
  · exact Nat.lt_succ_of_le (length_row_after_le depth t rest)
  · exact Nat.lt_succ_self _

theorem printed_nil (depth : Nat) : printed depth [] = ([], []) := by rw [printed]

theorem printed_text (depth : Nat) (raw : List Char) (rest : List Token) :
    printed depth (.text raw :: rest) =
      (textLine depth raw ++ (printed depth rest).1, (printed depth rest).2) := by
  rw [printed]
  rfl

theorem printed_tag {t : Token} (ht : t.isTag = true) (depth : Nat) (rest : List Token) :
    printed depth (t :: rest) =
      (indentation (row depth t rest).depth, t :: ((row depth t rest).onLine ++
        newLine (printed (row depth t rest).next (row depth t rest).after))) := by
  rw [printed, if_pos ht]

theorem rawAll_newLine (p : List Char × List Token) :
    rawAll (newLine p) = '\n' :: (p.1 ++ rawAll p.2) := rfl

/-- What is printed are the lines, each with its end. -/
theorem rawAll_printed (depth : Nat) (tokens : List Token) :
    (printed depth tokens).1 ++ rawAll (printed depth tokens).2 =
      (lines depth tokens).flatMap (· ++ ['\n']) := by
  induction depth, tokens using row_induction with
  | nil depth => rw [printed_nil, lines]; rfl
  | text depth raw rest ih =>
    rw [printed_text, lines_text, List.flatMap_append, ← ih, List.append_assoc]
    rfl
  | tag depth t rest ht ih =>
    rw [printed_tag ht, lines_tag ht, List.flatMap_cons, ← ih, rawAll_cons, rawAll_append,
      rawAll_newLine, lineAt]
    simp only [List.append_assoc, List.singleton_append]

theorem allBlank_indentation (depth : Nat) : AllBlank (indentation depth) := by
  intro c hc
  rw [List.eq_of_mem_replicate hc]
  rfl

theorem allBlank_newline : AllBlank ['\n'] := List.forall_mem_singleton.2 rfl

/-- In front of a tag there are only blanks. -/
theorem allBlank_printed {tokens : List Token} (h : ∀ t ∈ tokens.head?, t.isTag = true) (depth : Nat) :
    AllBlank (printed depth tokens).1 := by
  cases tokens with
  | nil => rw [printed_nil]; exact Text.allBlank_nil
  | cons t rest =>
    rw [printed_tag (h t rfl)]
    exact allBlank_indentation _

/-- Blanks around the line of a text, and what is left of it. -/
theorem trim_textLine {before after : List Char} (hbefore : AllBlank before) (hafter : AllBlank after)
    (depth : Nat) (raw : List Char) :
    Text.trim (before ++ (textLine depth raw ++ after)) = Text.trim raw := by
  rw [Text.trim_append_left hbefore, Text.trim_append_right hafter, textLine, textRows]
  split
  · next h => rw [List.isEmpty_iff.1 h]; rfl
  · rw [List.flatMap_singleton, Text.trim_append_right allBlank_newline, lineAt,
      Text.trim_append_left (allBlank_indentation depth), Text.trim_trim]

/-! ## The skeleton -/

/-- A token without the blanks around a text, if there is anything else in it. -/
def settled? : Token → Option Token
  | .text raw => if (Text.trim raw).isEmpty then none else some (.text (Text.trim raw))
  | t => some t

/-- Tokens without the white space between tags. -/
def skeleton (tokens : List Token) : List Token := tokens.filterMap settled?

/-- No text follows another. -/
def TextsApart (tokens : List Token) : Prop :=
  tokens.IsChain fun t u => t.isTag = true ∨ u.isTag = true

theorem Legible.textsApart {mark : List Char} {tokens : List Token} (h : Legible mark tokens) :
    TextsApart tokens := by
  induction h with
  | nil => exact .nil
  | text _ _ htag _ ih => exact List.isChain_cons.2 ⟨fun t ht => .inr (htag t ht), ih⟩
  | tag htag _ _ _ ih => exact List.isChain_cons.2 ⟨fun _ _ => .inl (htag ▸ isTag_ofTag _), ih⟩

/-- Behind a text stands a tag, if anything does. -/
theorem TextsApart.isTag_head? {raw : List Char} {rest : List Token}
    (h : TextsApart (.text raw :: rest)) : ∀ t ∈ rest.head?, t.isTag = true := fun t ht =>
  ((List.isChain_cons.1 h).1 t ht).resolve_left Bool.false_ne_true

theorem TextsApart.tail {t : Token} {rest : List Token} (h : TextsApart (t :: rest)) :
    TextsApart rest := List.IsChain.tail h

theorem TextsApart.row_after {t : Token} {rest : List Token} (h : TextsApart (t :: rest))
    (depth : Nat) : TextsApart (row depth t rest).after := by
  have hrest := h.tail
  rw [← row_append depth t rest] at hrest
  exact List.IsChain.right_of_append hrest

theorem skeleton_append (tokens more : List Token) :
    skeleton (tokens ++ more) = skeleton tokens ++ skeleton more := List.filterMap_append

theorem skeleton_text (raw : List Char) (rest : List Token) :
    skeleton (.text raw :: rest) =
      if (Text.trim raw).isEmpty then skeleton rest else .text (Text.trim raw) :: skeleton rest := by
  rw [skeleton, List.filterMap_cons, settled?]
  split
  · next h =>
    split at h
    · next hempty => rw [if_pos hempty, skeleton]
    · cases h
  · next h =>
    split at h
    · cases h
    · next hne =>
      cases h
      rw [if_neg hne, skeleton]

theorem skeleton_blank {raw : List Char} (h : AllBlank raw) (rest : List Token) :
    skeleton (.text raw :: rest) = skeleton rest := by
  rw [skeleton_text, Text.trim_of_allBlank h]
  rfl

theorem skeleton_tag {t : Token} (ht : t.isTag = true) (rest : List Token) :
    skeleton (t :: rest) = t :: skeleton rest := by
  cases t with
  | text raw => cases ht
  | _ => rfl

/-- The tags of a skeleton are all tags, in order. -/
theorem filter_isTag_skeleton (tokens : List Token) :
    (skeleton tokens).filter isTag = tokens.filter isTag := by
  induction tokens with
  | nil => rfl
  | cons t rest ih =>
    by_cases ht : t.isTag = true
    · rw [skeleton_tag ht, List.filter_cons_of_pos ht, List.filter_cons_of_pos ht, ih]
    · rw [List.filter_cons_of_neg ht, ← ih, eq_text_of_not_isTag ht, skeleton_text]
      split <;> rfl

/-- White space can not be seen. -/
theorem visible_rawAll_skeleton (tokens : List Token) :
    Text.visible (rawAll (skeleton tokens)) = Text.visible (rawAll tokens) := by
  induction tokens with
  | nil => rfl
  | cons t rest ih =>
    rw [rawAll_cons, Text.visible_append, ← ih]
    by_cases ht : t.isTag = true
    · rw [skeleton_tag ht, rawAll_cons, Text.visible_append]
    · have hraw : Text.visible t.raw = Text.visible (Text.trim t.raw) := (Text.visible_trim _).symm
      rw [eq_text_of_not_isTag ht, skeleton_text, Token.raw, hraw]
      split
      · next hempty =>
        rw [List.isEmpty_iff.1 hempty]
        rfl
      · rw [rawAll_cons, Text.visible_append]
        rfl

/-- What is printed has the skeleton of the tokens it is printed for. -/
theorem skeleton_printed {tokens : List Token} (h : TextsApart tokens) (depth : Nat)
    {blanks : List Char} (hblanks : AllBlank blanks) :
    skeleton (.text (blanks ++ (printed depth tokens).1) :: (printed depth tokens).2) =
      skeleton tokens := by
  induction depth, tokens using row_induction generalizing blanks with
  | nil depth =>
    rw [printed_nil, List.append_nil, skeleton_blank hblanks]
  | text depth raw rest ih =>
    have htag := h.isTag_head?
    have hrest := ih h.tail Text.allBlank_nil
    rw [List.nil_append, skeleton_blank (allBlank_printed htag depth)] at hrest
    rw [printed_text, skeleton_text, skeleton_text,
      trim_textLine hblanks (allBlank_printed htag depth), hrest]
  | tag depth t rest ht ih =>
    have hafter := ih (h.row_after depth) allBlank_newline
    rw [printed_tag ht, skeleton_blank (hblanks.append (allBlank_indentation _)), skeleton_tag ht,
      skeleton_append, newLine, ← List.singleton_append (l := (printed _ _).1), hafter,
      ← skeleton_append, row_append, skeleton_tag ht]

/-! ## Elements on one line -/

/-- An element that must stay on one line, up to the closing tag that matches its open tag. -/
def IsUnbroken (element after : List Token) : Prop :=
  ∃ name raw inside, element = .openTag name raw :: inside ∧
    unbrokenNames.contains name = true ∧
    splitClose? name 1 (inside ++ after) = some (inside, after)

/-- Such an element that does not begin inside another. -/
structure Outermost (before element after : List Token) : Prop where
  unbroken : IsUnbroken element after
  outside : ∀ first lead around behind, before = first ++ lead → lead ≠ [] →
    IsUnbroken around behind → around ++ behind = lead ++ (element ++ after) →
    around.length ≤ lead.length

theorem Outermost.of_append (first : List Token) {before element after : List Token}
    (h : Outermost (first ++ before) element after) : Outermost before element after :=
  ⟨h.unbroken, fun first' lead around behind hbefore hlead haround heq =>
    h.outside (first ++ first') lead around behind (by rw [hbefore, List.append_assoc]) hlead haround
      heq⟩

/-- An outermost element begins behind the line of every tag before it. -/
theorem Outermost.length_onLine_le {t : Token} {before element after rest : List Token}
    (h : Outermost (t :: before) element after) (hrest : rest = before ++ (element ++ after))
    (depth : Nat) : (row depth t rest).onLine.length ≤ before.length := by
  have happend := row_append depth t rest
  cases t with
  | openTag name raw =>
    rw [row] at happend ⊢
    cases hlayout : openLayout name rest with
    | unbroken onLine behind =>
      rw [hlayout] at happend
      have happend : onLine ++ behind = rest := happend
      rcases openLayout_cases hlayout with ⟨-, rfl⟩ | ⟨hname, hsplit⟩ | ⟨-, -, close, rfl⟩
      · exact Nat.zero_le _
      · -- the line is an element that began earlier
        have hunbroken : IsUnbroken (.openTag name raw :: onLine) behind := by
          refine ⟨name, raw, onLine, rfl, hname, ?_⟩
          rw [happend, hsplit]
        have hlength := h.outside [] (.openTag name raw :: before) _ behind rfl (List.cons_ne_nil _ _)
          hunbroken (congrArg (Token.openTag name raw :: ·) (happend.trans hrest))
        exact Nat.le_of_succ_le_succ hlength
      · -- the element does not begin with a closing tag
        cases before with
        | nil =>
          obtain ⟨name', raw', inside, rfl, -⟩ := h.unbroken
          cases happend.trans hrest
        | cons t' before => exact Nat.succ_le_succ (Nat.zero_le _)
    | block => exact Nat.zero_le _
  | _ => exact Nat.zero_le _

/-- An outermost element is printed in one piece, behind all that stands before it. -/
theorem exists_printed_eq {tokens before element after : List Token} (hapart : TextsApart tokens)
    (htokens : tokens = before ++ (element ++ after)) (h : Outermost before element after)
    (depth : Nat) :
    ∃ front behind, (printed depth tokens).2 = front ++ (element ++ behind) ∧
      (∀ blanks, AllBlank blanks →
        skeleton (.text (blanks ++ (printed depth tokens).1) :: front) = skeleton before) ∧
      skeleton behind = skeleton after := by
  have hbegin : ∃ name raw inside, element = .openTag name raw :: inside := by
    obtain ⟨name, raw, inside, heq, -⟩ := h.unbroken
    exact ⟨name, raw, inside, heq⟩
  induction depth, tokens using row_induction generalizing before with
  | nil depth =>
    obtain ⟨name, raw, inside, rfl⟩ := hbegin
    cases before <;> cases htokens
  | text depth raw rest ih =>
    cases before with
    | nil =>
      obtain ⟨name, raw, inside, rfl⟩ := hbegin
      cases htokens
    | cons t before =>
      obtain ⟨rfl, hrest⟩ := List.cons.inj htokens
      obtain ⟨front, behind, hprinted, hfront, hbehind⟩ :=
        ih hapart.tail hrest (Outermost.of_append [_] h)
      have hblank := allBlank_printed hapart.isTag_head? depth
      have hbefore := hfront [] Text.allBlank_nil
      rw [List.nil_append, skeleton_blank hblank] at hbefore
      refine ⟨front, behind, ?_, fun blanks hblanks => ?_, hbehind⟩
      · rw [printed_text, hprinted]
      · rw [printed_text, skeleton_text, skeleton_text, trim_textLine hblanks hblank, hbefore]
  | tag depth t rest ht ih =>
    cases before with
    | nil =>
      obtain ⟨name, raw, inside, rfl, hname, hsplit⟩ := h.unbroken
      obtain ⟨rfl, hrest⟩ := List.cons.inj htokens
      have hrow : row depth (.openTag name raw) rest = ⟨depth, inside, depth, after⟩ := by
        have hlayout : openLayout name rest = .unbroken inside after := by
          rw [hrest]
          exact openLayout_of_splitClose? hname hsplit
        rw [row, hlayout]
        rfl
      have hafter : TextsApart after := by
        have hrest := hapart.row_after depth
        rwa [hrow] at hrest
      refine ⟨[], newLine (printed depth after), ?_, fun blanks hblanks => ?_, ?_⟩
      · rw [printed_tag rfl, hrow]
        rfl
      · rw [printed_tag rfl, skeleton_blank (hblanks.append (allBlank_indentation _))]
      · exact skeleton_printed hafter depth allBlank_newline
    | cons t' before =>
      obtain ⟨rfl, hrest⟩ := List.cons.inj htokens
      -- the line of the tag ends before the element begins
      have hlength := h.length_onLine_le hrest depth
      have hafter' := hapart.row_after depth
      have happend := row_append depth t rest
      rw [printed_tag ht]
      generalize row depth t rest = r at *
      obtain ⟨before', rfl⟩ : r.onLine <+: before :=
        List.prefix_of_prefix_length_le ⟨r.after, happend⟩ (hrest ▸ List.prefix_append _ _) hlength
      have hafter : r.after = before' ++ (element ++ after) := by
        have hassoc : rest = r.onLine ++ (before' ++ (element ++ after)) :=
          hrest.trans (List.append_assoc _ _ _)
        exact List.append_cancel_left (happend.trans hassoc)
      obtain ⟨front, behind, hprinted, hfront, hbehind⟩ :=
        ih hafter' hafter (Outermost.of_append (t :: r.onLine) h)
      refine ⟨t :: (r.onLine ++ .text ('\n' :: (printed r.next r.after).1) :: front), behind, ?_,
        fun blanks hblanks => ?_, hbehind⟩
      · rw [newLine, hprinted]
        simp only [List.cons_append, List.append_assoc]
      · rw [skeleton_blank (hblanks.append (allBlank_indentation _)), skeleton_tag ht,
          skeleton_append, ← List.singleton_append (l := (printed _ _).1), hfront _ allBlank_newline,
          ← skeleton_append, skeleton_tag ht]

/-! ## Markup -/

/-- Lines with their ends. -/
theorem intercalate_newline {rows : List (List Char)} (h : rows ≠ []) :
    ['\n'].intercalate rows ++ ['\n'] = rows.flatMap (· ++ ['\n']) := by
  induction rows with
  | nil => exact absurd rfl h
  | cons first rest ih =>
    cases rest with
    | nil => simp
    | cons second rest =>
      rw [List.flatMap_cons, ← ih (List.cons_ne_nil _ _), List.intercalate_cons_cons]
      simp only [List.append_assoc]

/-- Tokens without lines are blank. -/
theorem skeleton_of_lines_eq_nil {depth : Nat} {tokens : List Token} (h : lines depth tokens = []) :
    skeleton tokens = [] := by
  induction depth, tokens using row_induction with
  | nil depth => rfl
  | text depth raw rest ih =>
    rw [lines_text, List.append_eq_nil_iff, textRows] at h
    rw [skeleton_text, ih h.2]
    by_cases hempty : (Text.trim raw).isEmpty = true
    · rw [if_pos hempty]
    · rw [if_neg hempty] at h
      cases h.1
  | tag depth t rest ht _ =>
    rw [lines_tag ht] at h
    cases h

/-- The tokens of printed markup.  Where there is nothing to print a line is ended all the same. -/
def printedTokens (tokens : List Token) : List Token :=
  if (lines 0 tokens).isEmpty then [.text ['\n']]
  else textOf (printed 0 tokens).1 ++ (printed 0 tokens).2

theorem rawAll_printedTokens (html : String) :
    rawAll (printedTokens (scan html.toList)) = (indentMarkup html).toList := by
  have hprinted := rawAll_printed 0 (scan html.toList)
  rw [printedTokens, indentMarkup, String.toList_ofList]
  split
  · next h =>
    rw [List.isEmpty_iff.1 h]
    rfl
  · next h =>
    rw [intercalate_newline (List.isEmpty_iff.not.1 h), rawAll_append, rawAll_textOf, hprinted]

/-- A text is there or it is empty. -/
theorem skeleton_textOf (raw : List Char) (rest : List Token) :
    skeleton (textOf raw ++ rest) = skeleton (.text raw :: rest) := by
  unfold textOf
  split
  · next h =>
    rw [List.isEmpty_iff.1 h, skeleton_blank Text.allBlank_nil]
    rfl
  · rfl

theorem skeleton_printedTokens {tokens : List Token} (h : TextsApart tokens) :
    skeleton (printedTokens tokens) = skeleton tokens := by
  rw [printedTokens]
  split
  · next hlines =>
    rw [skeleton_of_lines_eq_nil (List.isEmpty_iff.1 hlines), skeleton_blank allBlank_newline]
    rfl
  · rw [skeleton_textOf]
    exact skeleton_printed h 0 Text.allBlank_nil

theorem exists_printedTokens_eq {tokens before element after : List Token}
    (hapart : TextsApart tokens) (htokens : tokens = before ++ (element ++ after))
    (h : Outermost before element after) :
    ∃ front behind, printedTokens tokens = front ++ (element ++ behind) ∧
      skeleton front = skeleton before ∧ skeleton behind = skeleton after := by
  have hlines : ¬(lines 0 tokens).isEmpty = true := by
    intro hempty
    obtain ⟨name, raw, inside, rfl, -⟩ := h.unbroken
    have hskeleton := skeleton_of_lines_eq_nil (List.isEmpty_iff.1 hempty)
    rw [htokens, skeleton_append, List.cons_append, skeleton_tag rfl, List.append_eq_nil_iff]
      at hskeleton
    cases hskeleton.2
  obtain ⟨front, behind, hprinted, hfront, hbehind⟩ := exists_printed_eq hapart htokens h 0
  refine ⟨textOf (printed 0 tokens).1 ++ front, behind, ?_, ?_, hbehind⟩
  · rw [printedTokens, if_neg hlines, hprinted, List.append_assoc]
  · rw [skeleton_textOf]
    exact hfront [] Text.allBlank_nil

end WebStory.Token

namespace WebStory

open Token

/-- Printing changes only white space between tags, whatever the markup is.  All that can be seen is
    the same.  What is printed is made up of tokens with the skeleton of the tokens of the markup: each
    tag and each declaration unbroken, in the same order, and each text up to the blanks around it.  An
    outermost element that must stay on one line stands there with all that is in it, between the tokens
    that stood before and behind it. -/
theorem indentMarkup_keeps_tokens (html : String) :
    Text.visible (indentMarkup html).toList = Text.visible html.toList ∧
    ∃ shown : List Token, rawAll shown = (indentMarkup html).toList ∧
      skeleton shown = skeleton (scan html.toList) ∧
      shown.filter isTag = (scan html.toList).filter isTag ∧
      ∀ before element after, scan html.toList = before ++ (element ++ after) →
        Outermost before element after →
        ∃ front behind, shown = front ++ (element ++ behind) ∧ skeleton front = skeleton before ∧
          skeleton behind = skeleton after := by
  have hapart : TextsApart (scan html.toList) := (legible_scan html.toList).textsApart
  have hskeleton := skeleton_printedTokens hapart
  constructor
  · rw [← rawAll_printedTokens, ← visible_rawAll_skeleton, hskeleton, visible_rawAll_skeleton,
      rawAll_scan]
  · refine ⟨printedTokens (scan html.toList), rawAll_printedTokens html, hskeleton, ?_, ?_⟩
    · rw [← filter_isTag_skeleton, hskeleton, filter_isTag_skeleton]
    · intro before element after htokens h
      exact exists_printedTokens_eq hapart htokens h

/-- A paragraph, with an element inside that alone would have to stay on one line too. -/
theorem indentMarkup_keeps_paragraph :
    let html := "<div><p>a\n<span> b</span></p> </div>"
    "<p>a\n<span> b</span></p>".toList <:+: (indentMarkup html).toList := by
  intro html
  obtain ⟨-, shown, hshown, -, -, helements⟩ := indentMarkup_keeps_tokens html
  have hscan : scan html.toList = [.openTag "div".toList "<div>".toList] ++
      ([.openTag "p".toList "<p>".toList, .text "a\n".toList, .openTag "span".toList "<span>".toList,
        .text " b".toList, .closeTag "span".toList "</span>".toList,
        .closeTag "p".toList "</p>".toList] ++
      [.text " ".toList, .closeTag "div".toList "</div>".toList]) := by decide +kernel
  have houtermost := helements _ _ _ hscan ?_
  · obtain ⟨front, behind, heq, -, -⟩ := houtermost
    rw [← hshown, heq, rawAll_append, rawAll_append, ← List.append_assoc]
    exact ⟨rawAll front, rawAll behind, rfl⟩
  · refine ⟨⟨_, _, _, rfl, by decide, by decide⟩, ?_⟩
    -- what begins with the element around it need not stay on one line
    intro first lead around behind hbefore hlead haround heq
    obtain ⟨name, raw, inside, rfl, hname, -⟩ := haround
    cases first with
    | nil =>
      obtain rfl : lead = [.openTag "div".toList "<div>".toList] := hbefore.symm
      have hhead := congrArg List.head? heq
      cases hhead
      exact absurd hname (by decide)
    | cons t first =>
      have hnil : first ++ lead = [] := (List.cons.inj hbefore).2.symm
      exact absurd (List.append_eq_nil_iff.1 hnil).2 hlead

end WebStory
