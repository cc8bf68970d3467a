import WebStory.Proofs.Markup.Pieces
/-
  Tokens that are read back.

  Of markup a token list keeps everything, so the sources of the tokens are the markup again
  (`rawAll_scan`).  The other way round is not true of every list of tokens: two texts side by side
  are read as one, and a text with a tag in it as several tokens.

  1. **Marks** — what ends a text is a mark.  In front of markup that is `<`; behind the open tag of
     a script or a style sheet it is the beginning of the closing tag, since all else there is text.
     Which mark it is depends on the token before (`textEnd`), so reading is followed from the
     middle of a text on, with its mark given (`scanFrom`).

  2. **Legible tokens** — the lists that come from markup are those where every tag ends where its
     source ends, and every text is followed by a tag, and does not hold what would have ended it
     (`Legible`).  Both directions are inductions along the tokens, and together they say that just
     the legible tokens are read back from their sources (`scan_rawAll_iff`).

  3. **The last token** — a tag that is left without its end swallows all that follows.  So of
     legible tokens only the last may be one (`Legible.whole`), and every other tag ends in the same
     place whatever stands behind it.  What is printed behind other tokens may therefore be put in
     the place of what stood there.
-/

namespace WebStory.Token

/-- The token is a tag or a declaration. -/
def isTag : Token → Bool
  | .text _ => false
  | _ => true

theorem eq_text_of_not_isTag {t : Token} (h : ¬t.isTag = true) : t = .text t.raw := by
  cases t with
  | text raw => rfl
  | _ => exact absurd rfl h

theorem isTag_head?_nil : ∀ t ∈ ([] : List Token).head?, t.isTag = true := nofun

theorem isTag_ofTag (raw : List Char) : (ofTag raw).isTag = true := by
  unfold ofTag
  split
  · rfl
  · split <;> rfl

theorem raw_ofTag (raw : List Char) : (ofTag raw).raw = raw := by
  unfold ofTag
  split
  · rfl
  · split <;> rfl

/-! ## Marks -/

/-- A mark begins with `<`, and nothing else in it ends a text, a tag or a name. -/
def IsMark (mark : List Char) : Prop :=
  ∃ m, mark = '<' :: m ∧
    ∀ c ∈ m, c ≠ '<' ∧ c ≠ '>' ∧ c ≠ '"' ∧ c ≠ '\'' ∧ Text.isBlank c = false

theorem isMark_lt : IsMark ['<'] := ⟨[], rfl, nofun⟩

/-- What ends the text behind a token. -/
def textEnd (t : Token) : List Char := (rawTextEnd? t).getD ['<']

theorem isMark_textEnd (t : Token) : IsMark (textEnd t) := by
  have hnames : ∀ name ∈ rawTextNames, ('/' :: name).all fun c =>
      c ≠ '<' ∧ c ≠ '>' ∧ c ≠ '"' ∧ c ≠ '\'' ∧ Text.isBlank c = false := by decide
  cases t with
  | openTag name raw =>
    rw [textEnd, rawTextEnd?]
    split
    · next h =>
      have hall := List.all_eq_true.1 (hnames name (List.contains_iff_mem.1 h))
      exact ⟨'/' :: name, rfl, fun c hc => of_decide_eq_true (hall c hc)⟩
    · exact isMark_lt
  | _ => exact isMark_lt

section Mark

variable {mark : List Char} (hmark : IsMark mark)
include hmark

theorem IsMark.ne_nil : mark ≠ [] := by
  obtain ⟨m, rfl, -⟩ := hmark
  exact List.cons_ne_nil _ _

/-- A mark may be the beginning of a tag. -/
theorem IsMark.closed : Closed mark := by
  obtain ⟨m, rfl, hm⟩ := hmark
  refine closed_of_forall_ne fun c hc => ?_
  rcases List.mem_cons.1 hc with rfl | hc
  · decide
  · obtain ⟨-, h1, h2, h3, -⟩ := hm c hc
    exact ⟨h1, h2, h3⟩

theorem IsMark.isBlank_eq_false {c : Char} (hc : c ∈ mark) : Text.isBlank c = false := by
  obtain ⟨m, rfl, hm⟩ := hmark
  rcases List.mem_cons.1 hc with rfl | hc
  · rfl
  · exact (hm c hc).2.2.2.2

/-- What stands in front of the first mark does not hold it. -/
theorem not_infix_splitBefore (cs : List Char) : ¬mark <:+: (splitBefore mark cs).1 := by
  obtain ⟨m, rfl, -⟩ := hmark
  intro h
  have hlength := length_splitBefore_lt h (splitBefore ('<' :: m) cs).2
  rw [splitBefore_append] at hlength
  exact Nat.lt_irrefl _ hlength

/-- A text without the mark is passed over, up to the mark or to the end. -/
theorem splitBefore_text {cs rest : List Char} (hcs : ¬mark <:+: cs)
    (hrest : rest = [] ∨ mark <+: rest) : splitBefore mark (cs ++ rest) = (cs, rest) := by
  rcases hrest with rfl | ⟨more, rfl⟩
  · -- if the text were split, the mark would stand at the place
    have hwhole := splitBefore_append mark cs
    rw [List.append_nil]
    rcases mark_prefix_splitBefore mark cs with hnil | hbehind
    · rw [hnil, List.append_nil] at hwhole
      exact Prod.ext hwhole hnil
    · exact absurd (hbehind.isInfix.trans ⟨(splitBefore mark cs).1, [], by simp [hwhole]⟩) hcs
  · obtain ⟨m, rfl, hm⟩ := hmark
    exact splitBefore_of_not_infix (fun h => (hm _ h).1 rfl) hcs more

end Mark

/-! ## Reading from the middle of a text -/

/-- The tokens of markup that begins in a text, which goes on to a mark. -/
def scanFrom (mark cs : List Char) : List Token :=
  textOf (splitBefore mark cs).1 ++ scan (splitBefore mark cs).2

theorem splitBefore_lt (cs : List Char) :
    splitBefore ['<'] cs = (cs.takeWhile (· != '<'), cs.dropWhile (· != '<')) := by
  induction cs with
  | nil => rfl
  | cons c cs ih =>
    rw [splitBefore]
    by_cases hc : c = '<'
    · subst hc
      rfl
    · rw [if_neg (by simp [List.isPrefixOf, Ne.symm hc]), ih,
        List.takeWhile_cons_of_pos (by simpa using hc),
        List.dropWhile_cons_of_pos (by simpa using hc)]

/-- Markup is read as from the end of a text. -/
theorem scanFrom_lt (cs : List Char) : scanFrom ['<'] cs = scan cs := by
  rw [scanFrom, splitBefore_lt]
  cases cs with
  | nil => rfl
  | cons c cs =>
    by_cases hc : c = '<'
    · subst hc
      rfl
    · rw [List.takeWhile_cons_of_pos (by simpa using hc),
        List.dropWhile_cons_of_pos (by simpa using hc), textOf_of_ne_nil (List.cons_ne_nil _ _),
        scan, if_neg hc]
      rfl

/-- There is no text in front of a mark. -/
theorem scanFrom_of_mark {mark cs : List Char} (hmark : IsMark mark) (h : cs = [] ∨ mark <+: cs) :
    scanFrom mark cs = scan cs := by
  have hsplit := splitBefore_text hmark (List.infix_nil.not.2 hmark.ne_nil) h
  rw [List.nil_append] at hsplit
  rw [scanFrom, hsplit]
  rfl

/-- Behind a tag begins a text. -/
theorem scan_cons_lt (cs : List Char) :
    scan ('<' :: cs) = ofTag (splitTag none ('<' :: cs)).1 ::
      scanFrom (textEnd (ofTag (splitTag none ('<' :: cs)).1)) (splitTag none ('<' :: cs)).2 := by
  rw [scan, if_pos rfl]
  simp only [textEnd]
  cases h : rawTextEnd? (ofTag (splitTag none ('<' :: cs)).1) with
  | none => simp only [Option.getD_none, scanFrom_lt]
  | some mark => simp only [Option.getD_some, scanFrom]

/-! ## Legible tokens -/

theorem rawAll_cons (t : Token) (rest : List Token) : rawAll (t :: rest) = t.raw ++ rawAll rest :=
  List.flatMap_cons

theorem rawAll_append (tokens more : List Token) :
    rawAll (tokens ++ more) = rawAll tokens ++ rawAll more := List.flatMap_append

theorem rawAll_textOf (raw : List Char) : rawAll (textOf raw) = raw := by
  unfold textOf
  split
  · next h => exact (List.isEmpty_iff.1 h).symm
  · exact List.flatMap_singleton _ _

/-- Tokens that can be read behind a text that goes on to a mark. -/
inductive Legible : List Char → List Token → Prop
  | nil (mark : List Char) : Legible mark []
  | text {mark raw : List Char} {rest : List Token} (hne : raw ≠ []) (hmark : ¬mark <:+: raw)
      (htag : ∀ t ∈ rest.head?, t.isTag = true) (h : Legible mark rest) :
      Legible mark (.text raw :: rest)
  | tag {mark : List Char} {t : Token} {rest : List Token} (htag : ofTag t.raw = t)
      (hmark : mark <+: t.raw) (hend : splitTag none (t.raw ++ rawAll rest) = (t.raw, rawAll rest))
      (h : Legible (textEnd t) rest) : Legible mark (t :: rest)

/-- A text is legible in front of a tag if it does not hold the mark. -/
theorem legible_text_iff {mark raw : List Char} {rest : List Token} :
    Legible mark (.text raw :: rest) ↔
      raw ≠ [] ∧ ¬mark <:+: raw ∧ (∀ t ∈ rest.head?, t.isTag = true) ∧ Legible mark rest := by
  constructor
  · intro h
    cases h with
    | text hne hmark htag h => exact ⟨hne, hmark, htag, h⟩
    | tag htag =>
      have htext : (ofTag raw).isTag = false := congrArg isTag htag
      rw [isTag_ofTag] at htext
      cases htext
  · rintro ⟨hne, hmark, htag, h⟩
    exact .text hne hmark htag h

/-- Legible tokens that begin with a tag begin with the mark. -/
theorem Legible.mark_prefix {mark : List Char} {tokens : List Token} (h : Legible mark tokens)
    (htag : ∀ t ∈ tokens.head?, t.isTag = true) : rawAll tokens = [] ∨ mark <+: rawAll tokens := by
  cases h with
  | nil => exact .inl rfl
  | text => cases htag _ rfl
  | tag _ hmark =>
    rw [rawAll_cons]
    exact .inr (hmark.trans (List.prefix_append _ _))

/-- Legible tokens are read back. -/
theorem Legible.scanFrom_rawAll {mark : List Char} {tokens : List Token} (h : Legible mark tokens)
    (hmark : IsMark mark) : scanFrom mark (rawAll tokens) = tokens := by
  induction h with
  | nil => rw [rawAll, List.flatMap_nil, scanFrom_of_mark hmark (.inl rfl), scan]
  | @text mark raw rest hne htext htag hrest ih =>
    have hbehind := hrest.mark_prefix htag
    have hread := ih hmark
    rw [scanFrom_of_mark hmark hbehind] at hread
    have hsplit : splitBefore mark (rawAll (.text raw :: rest)) = (raw, rawAll rest) :=
      splitBefore_text hmark htext hbehind
    rw [scanFrom, hsplit, textOf_of_ne_nil hne, hread]
    rfl
  | @tag mark t rest htag hbegin hend _ ih =>
    have hrest := ih (isMark_textEnd t)
    rw [rawAll_cons, scanFrom_of_mark hmark (.inr (hbegin.trans (List.prefix_append _ _)))]
    obtain ⟨m, rfl, -⟩ := hmark
    obtain ⟨more, hraw⟩ := hbegin
    rw [← hraw, List.cons_append, List.cons_append] at hend ⊢
    rw [scan_cons_lt, hend, ← List.cons_append, hraw, htag, hrest]

/-- The tokens of markup are legible, and their sources are the markup. -/
theorem legible_scanFrom {mark : List Char} (hmark : IsMark mark) (cs : List Char) :
    Legible mark (scanFrom mark cs) ∧ rawAll (scanFrom mark cs) = cs := by
  have hbefore := not_infix_splitBefore hmark cs
  have hbehind := mark_prefix_splitBefore mark cs
  have hwhole := splitBefore_append mark cs
  have hle := length_splitBefore_le mark cs
  rw [scanFrom]
  generalize (splitBefore mark cs).1 = before at *
  generalize (splitBefore mark cs).2 = behind at *
  have htext {tokens : List Token} (h : Legible mark tokens ∧ rawAll tokens = behind)
      (htag : ∀ t ∈ tokens.head?, t.isTag = true) :
      Legible mark (textOf before ++ tokens) ∧ rawAll (textOf before ++ tokens) = cs := by
    rw [rawAll_append, rawAll_textOf, h.2]
    refine ⟨?_, hwhole⟩
    by_cases hne : before = []
    · rw [hne]
      exact h.1
    · rw [textOf_of_ne_nil hne]
      exact .text hne hbefore htag h.1
  cases behind with
  | nil =>
    rw [scan]
    exact htext ⟨.nil mark, rfl⟩ isTag_head?_nil
  | cons c rest =>
    have hprefix : mark <+: c :: rest := hbehind.resolve_left (List.cons_ne_nil c rest)
    obtain rfl : c = '<' := by
      obtain ⟨m, rfl, -⟩ := hmark
      exact (List.cons_prefix_cons.1 hprefix).1.symm
    -- the tag begins with the mark, as no character of the mark ends a tag
    have hbegin : mark <+: (splitTag none ('<' :: rest)).1 := by
      obtain ⟨more, hmore⟩ := hprefix
      rw [← hmore, hmark.closed]
      exact List.prefix_append _ _
    have htagged := splitTag_append none ('<' :: rest)
    have hlt := length_splitTag_lt none '<' rest
    obtain ⟨hlegible, hraw⟩ := legible_scanFrom
      (isMark_textEnd (ofTag (splitTag none ('<' :: rest)).1)) (splitTag none ('<' :: rest)).2
    rw [scan_cons_lt]
    refine htext ⟨.tag ?_ ?_ ?_ hlegible, ?_⟩ fun t ht => ?_
    · rw [raw_ofTag]
    · rwa [raw_ofTag]
    · rw [raw_ofTag, hraw, htagged]
    · rw [rawAll_cons, raw_ofTag, hraw, htagged]
    · cases ht
      exact isTag_ofTag _
termination_by cs.length
decreasing_by exact Nat.lt_of_lt_of_le hlt hle

theorem legible_scan (cs : List Char) : Legible ['<'] (scan cs) := by
  have h := (legible_scanFrom isMark_lt cs).1
  rwa [scanFrom_lt] at h

/-- Nothing of markup is lost. -/
theorem rawAll_scan (cs : List Char) : rawAll (scan cs) = cs := by
  have h := (legible_scanFrom isMark_lt cs).2
  rwa [scanFrom_lt] at h

/-- Just the legible tokens are read back from their sources. -/
theorem scan_rawAll_iff {tokens : List Token} :
    scan (rawAll tokens) = tokens ↔ Legible ['<'] tokens := by
  constructor
  · intro h
    rw [← h]
    exact legible_scan _
  · intro h
    rw [← scanFrom_lt]
    exact h.scanFrom_rawAll isMark_lt

/-! ## Tags without an end -/

/-- There is a `>` outside quotes; `quote` is the quote that is open at the beginning. -/
def hasEnd : Option Char → List Char → Bool
  | _, [] => false
  | some q, c :: rest => hasEnd (if c = q then none else some q) rest
  | none, c :: rest => c == '>' || hasEnd (if c = '"' ∨ c = '\'' then some c else none) rest

example : hasEnd none "<a b='>".toList = false ∧ hasEnd none "<a b='>'>".toList = true := by decide

/-- A tag that is not the last, or that has an end, ends in the same place whatever follows. -/
theorem splitTag_of_hasEnd {quote : Option Char} {raw rest : List Char}
    (h : splitTag quote (raw ++ rest) = (raw, rest)) (hend : rest ≠ [] ∨ hasEnd quote raw = true)
    (more : List Char) : splitTag quote (raw ++ more) = (raw, more) := by
  induction raw generalizing quote with
  | nil =>
    cases rest with
    | nil => cases quote <;> exact absurd (hend.resolve_left (fun h => h rfl)) Bool.false_ne_true
    | cons c rest => exact absurd (congrArg Prod.fst h) (splitTag_cons_ne_nil quote c rest)
  | cons c raw ih =>
    cases quote with
    | some q =>
      simp only [List.cons_append, splitTag, Prod.mk.injEq, List.cons.injEq, true_and] at h ⊢
      exact Prod.mk.inj (ih (Prod.ext h.1 h.2) hend)
    | none =>
      by_cases hc : c = '>'
      · simp only [List.cons_append, splitTag, if_pos hc, Prod.mk.injEq, List.cons.injEq, true_and]
          at h ⊢
        obtain rfl : raw = [] := h.1.symm
        exact ⟨rfl, rfl⟩
      · simp only [List.cons_append, splitTag, if_neg hc, Prod.mk.injEq, List.cons.injEq, true_and]
          at h ⊢
        rw [hasEnd, beq_false_of_ne hc, Bool.false_or] at hend
        exact Prod.mk.inj (ih (Prod.ext h.1 h.2) hend)

/-- A tag that ends where its source ends, whatever follows. -/
def Whole (t : Token) : Prop := ∀ rest, splitTag none (t.raw ++ rest) = (t.raw, rest)

theorem Legible.rawAll_ne_nil {mark : List Char} {tokens : List Token} (h : Legible mark tokens)
    (hmark : IsMark mark) (hne : tokens ≠ []) : rawAll tokens ≠ [] := by
  intro hnil
  cases h with
  | nil => exact hne rfl
  | text hraw =>
    rw [rawAll_cons, List.append_eq_nil_iff] at hnil
    exact hraw hnil.1
  | tag _ hbegin =>
    rw [rawAll_cons, List.append_eq_nil_iff] at hnil
    rw [hnil.1] at hbegin
    exact hmark.ne_nil (List.prefix_nil.1 hbegin)

/-- Of legible tokens only the last may be a tag without an end. -/
theorem Legible.whole {mark : List Char} {tokens : List Token} (h : Legible mark tokens)
    (hlast : ∀ t ∈ tokens.getLast?, t.isTag = true → hasEnd none t.raw = true) :
    ∀ t ∈ tokens, t.isTag = true → t.Whole := by
  induction h with
  | nil => exact nofun
  | text hne hmark htag hrest ih =>
    rw [List.forall_mem_cons]
    exact ⟨nofun, ih fun t ht => hlast t (List.mem_getLast?_cons ht)⟩
  | @tag mark t rest htag hbegin hend hrest ih =>
    rw [List.forall_mem_cons]
    refine ⟨fun hisTag => ?_, ih fun t ht => hlast t (List.mem_getLast?_cons ht)⟩
    apply splitTag_of_hasEnd hend
    by_cases hrest' : rest = []
    · subst hrest'
      exact .inr (hlast t rfl hisTag)
    · exact .inl (hrest.rawAll_ne_nil (isMark_textEnd t) hrest')

end WebStory.Token
