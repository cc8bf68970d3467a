import Mathlib.Order.Bounds.Basic
import WebStory.Proofs.Markup.Scanning
/-
  The end of an element, counted from its open tag.

  The printer looks for the end of an element by counting.  The search begins with the open tag
  itself, at depth zero; each open tag of the name adds one to the depth and each closing tag takes
  one away, and where that leaves zero the element ends (`matchingClose`).  A depth that is a
  natural number would hide a closing tag too many, so here the subtraction is checked: a search
  that meets a closing tag at depth zero fails instead (`EndSearch`).

  1. **Counting** — the specification knows no depth.  It counts the open and the closing tags of
     the name from one index to another, and asks for the least index up to which they balance
     (`balances`).

  2. **One step** — behind the open tag the depth is what was opened less what was closed, and it is
     at least one until the search ends (`searchEnd_cons`).  This is the invariant that keeps the
     checked subtraction from failing.

  3. **The search** — by induction it ends with the first token up to which as many tags of the name
     are closed as are opened, or there is none (`searchEnd_spec`), and it splits the tokens where
     the printer's own search does.

  4. **Where searches begin** — a search from anywhere else could meet a closing tag at depth zero.
     The printer begins one only with the open tag of an element that has a closing tag, wherever it
     has come to among the tokens.  What is left of the tokens at any of its steps is a part of them
     (`Printing.exists_drop`), so what holds of every open tag holds of each search it makes
     (`tokens_and_ends`).
-/

namespace WebStory.Token

/-! ## The search -/

/-- How a search ends. -/
inductive EndSearch where
  | found (index : Nat)
  | absent
  /-- One was to be taken away from depth zero. -/
  | underflow
deriving DecidableEq

/-- Searches tokens, of which the first has the given index, for the end of an element. -/
def searchEnd (name : List Char) : Nat → Nat → List Token → EndSearch
  | _, _, [] => .absent
  | index, depth, .openTag n _ :: rest =>
    if n = name ∧ !voidNames.contains name then searchEnd name (index + 1) (depth + 1) rest
    else searchEnd name (index + 1) depth rest
  | index, depth, .closeTag n _ :: rest =>
    if n = name then
      match depth with
      | 0 => .underflow
      | depth + 1 => if depth = 0 then .found index else searchEnd name (index + 1) depth rest
    else searchEnd name (index + 1) depth rest
  | index, depth, .declaration _ :: rest => searchEnd name (index + 1) depth rest
  | index, depth, .text _ :: rest => searchEnd name (index + 1) depth rest

/-- The end of the element whose open tag has an index. -/
def matchingClose (tokens : List Token) (index : Nat) (name : List Char) : EndSearch :=
  searchEnd name index 0 (tokens.drop index)

/-! ## Counting tags -/

def opensName (name : List Char) : Token → Bool
  | .openTag n _ => n == name
  | _ => false

def closesName (name : List Char) : Token → Bool
  | .closeTag n _ => n == name
  | _ => false

/-- Open tags of a name. -/
def opens (name : List Char) (tokens : List Token) : Nat := tokens.countP (opensName name)

/-- Closing tags of a name. -/
def closes (name : List Char) (tokens : List Token) : Nat := tokens.countP (closesName name)

/-- The tokens from one index to another, both included. -/
def between (tokens : List Token) (first last : Nat) : List Token :=
  (tokens.drop first).take (last + 1 - first)

/-- The indices up to which as many tags of a name are closed as are opened, from an index on. -/
def balances (tokens : List Token) (index : Nat) (name : List Char) : Set Nat :=
  {j | index ≤ j ∧ j < tokens.length ∧
    opens name (between tokens index j) = closes name (between tokens index j)}

/-- The same in the middle of a search: some tags are open, and the first of the tokens left has
    the given index. -/
def balancesFrom (name : List Char) (index depth : Nat) (tokens : List Token) : Set Nat :=
  {j | ∃ k < tokens.length, j = index + k ∧
    depth + opens name (tokens.take (k + 1)) = closes name (tokens.take (k + 1))}

theorem balances_eq (tokens : List Token) (index : Nat) (name : List Char) :
    balances tokens index name = balancesFrom name index 0 (tokens.drop index) := by
  ext j
  show (_ ∧ _ ∧ _) ↔ ∃ k < _, _ ∧ _
  simp only [List.length_drop, Nat.zero_add, between]
  constructor
  · rintro ⟨hfirst, hlast, hcount⟩
    obtain ⟨k, rfl⟩ := Nat.exists_eq_add_of_le hfirst
    rw [show index + k + 1 - index = k + 1 by omega] at hcount
    exact ⟨k, by omega, rfl, hcount⟩
  · rintro ⟨k, hk, rfl, hcount⟩
    rw [show index + k + 1 - index = k + 1 by omega]
    exact ⟨by omega, by omega, hcount⟩

section Search

variable {name : List Char} {depth : Nat}

theorem opens_cons (t : Token) (rest : List Token) :
    opens name (t :: rest) = opens name [t] + opens name rest := by
  rw [opens, opens, opens, ← List.countP_append, List.singleton_append]

theorem closes_cons (t : Token) (rest : List Token) :
    closes name (t :: rest) = closes name [t] + closes name rest := by
  rw [closes, closes, closes, ← List.countP_append, List.singleton_append]

theorem opens_openTag (n raw : List Char) :
    opens name [.openTag n raw] = if n = name then 1 else 0 := by
  by_cases hn : n = name <;> simp [opens, opensName, hn]

theorem closes_closeTag (n raw : List Char) :
    closes name [.closeTag n raw] = if n = name then 1 else 0 := by
  by_cases hn : n = name <;> simp [closes, closesName, hn]

/-- A token behind which some tags are still open is not the end. -/
theorem balancesFrom_cons {t : Token} {inner : Nat} (hinner : 0 < inner)
    (h : depth + opens name [t] = inner + closes name [t]) (index : Nat) (rest : List Token) :
    balancesFrom name index depth (t :: rest) = balancesFrom name (index + 1) inner rest := by
  ext j
  constructor
  · rintro ⟨k, hk, rfl, hcount⟩
    rw [List.take_succ_cons, opens_cons, closes_cons] at hcount
    cases k with
    | zero =>
      rw [List.take_zero] at hcount
      simp only [opens, closes, List.countP_nil] at hcount h
      omega
    | succ k =>
      exact ⟨k, Nat.lt_of_succ_lt_succ hk, by omega, by omega⟩
  · rintro ⟨k, hk, rfl, hcount⟩
    refine ⟨k + 1, Nat.succ_lt_succ hk, by omega, ?_⟩
    rw [List.take_succ_cons, opens_cons, closes_cons]
    omega

/-- A token behind which no tag is open is the first such token. -/
theorem isLeast_balancesFrom {t : Token} (h : depth + opens name [t] = closes name [t])
    (index : Nat) (rest : List Token) :
    IsLeast (balancesFrom name index depth (t :: rest)) index := by
  constructor
  · exact ⟨0, Nat.succ_pos _, rfl, h⟩
  · rintro j ⟨k, -, rfl, -⟩
    exact Nat.le_add_right index k

/-- One step of the search.  The depth is what was opened less what was closed; it is at least one
    behind the token, or the search ends with it. -/
theorem searchEnd_cons (hvoid : voidNames.contains name = false) {t : Token}
    (hdepth : 0 < depth + opens name [t]) :
    (∃ inner, 0 < inner ∧ depth + opens name [t] = inner + closes name [t] ∧ ∀ rest,
      (∀ index, searchEnd name index depth (t :: rest) = searchEnd name (index + 1) inner rest) ∧
      splitClose? name depth (t :: rest) = behind [t] (splitClose? name inner rest)) ∨
    depth + opens name [t] = closes name [t] ∧ ∀ rest,
      (∀ index, searchEnd name index depth (t :: rest) = .found index) ∧
      splitClose? name depth (t :: rest) = some ([t], rest) := by
  cases t with
  | declaration raw => exact .inl ⟨depth, hdepth, rfl, fun _ => ⟨fun _ => rfl, rfl⟩⟩
  | text raw => exact .inl ⟨depth, hdepth, rfl, fun _ => ⟨fun _ => rfl, rfl⟩⟩
  | openTag n raw =>
    have hcloses : closes name [.openTag n raw] = 0 := rfl
    rw [opens_openTag] at hdepth ⊢
    rw [hcloses]
    by_cases hn : n = name
    · have hcond : n = name ∧ (!voidNames.contains name) = true := ⟨hn, by rw [hvoid]; rfl⟩
      refine .inl ⟨depth + 1, Nat.succ_pos depth, by rw [if_pos hn], fun rest => ⟨?_, ?_⟩⟩
      · intro index
        rw [searchEnd, if_pos hcond]
      · rw [splitClose?_openTag, if_pos hcond]
    · rw [if_neg hn] at hdepth ⊢
      refine .inl ⟨depth, hdepth, rfl, fun rest => ⟨?_, ?_⟩⟩
      · intro index
        rw [searchEnd, if_neg fun h => hn h.1]
      · rw [splitClose?_openTag, if_neg fun h => hn h.1]
  | closeTag n raw =>
    have hopens : opens name [.closeTag n raw] = 0 := rfl
    rw [hopens] at hdepth ⊢
    rw [closes_closeTag]
    obtain ⟨depth, rfl⟩ := Nat.exists_eq_succ_of_ne_zero hdepth.ne'
    by_cases hn : n = name
    · rw [if_pos hn]
      rcases Nat.eq_zero_or_pos depth with rfl | hpos
      · -- the tag that closes the last of the open ones
        refine .inr ⟨rfl, fun rest => ⟨fun index => ?_, ?_⟩⟩
        · simp only [searchEnd, if_pos hn, if_true]
        · rw [splitClose?, if_pos hn, if_pos (Nat.le_refl 1)]
      · refine .inl ⟨depth, hpos, rfl, fun rest => ⟨fun index => ?_, ?_⟩⟩
        · simp only [searchEnd, if_pos hn, if_neg hpos.ne']
        · rw [splitClose?_closeTag (fun _ => Nat.succ_lt_succ hpos), if_pos hn]
          rfl
    · rw [if_neg hn]
      refine .inl ⟨depth + 1, hdepth, rfl, fun rest => ⟨fun index => ?_, ?_⟩⟩
      · rw [searchEnd, if_neg hn]
      · rw [splitClose?_closeTag (fun h => absurd h hn), if_neg hn]

/-- The search finds the first token up to which all tags of the name are closed, if there is one, and
    the printer splits the tokens behind it. -/
theorem searchEnd_spec (hvoid : voidNames.contains name = false) {tokens : List Token}
    (hdepth : ∀ t ∈ tokens.head?, 0 < depth + opens name [t]) (index : Nat) :
    (∃ k, IsLeast (balancesFrom name index depth tokens) (index + k) ∧
      searchEnd name index depth tokens = .found (index + k) ∧
      splitClose? name depth tokens = some (tokens.take (k + 1), tokens.drop (k + 1))) ∨
    balancesFrom name index depth tokens = ∅ ∧ searchEnd name index depth tokens = .absent ∧
      splitClose? name depth tokens = none := by
  induction tokens generalizing depth index with
  | nil =>
    refine .inr ⟨Set.eq_empty_of_forall_notMem ?_, rfl, rfl⟩
    rintro j ⟨k, hk, -⟩
    exact Nat.not_lt_zero k hk
  | cons t rest ih =>
    rcases searchEnd_cons hvoid (hdepth t rfl) with ⟨inner, hinner, hcount, hstep⟩ | ⟨hcount, hstep⟩
    · -- the token is passed over, and what it leaves open is the depth of the rest
      obtain ⟨hsearch, hsplit⟩ := hstep rest
      rw [balancesFrom_cons hinner hcount, hsearch, hsplit]
      rcases ih (fun t _ => Nat.add_pos_left hinner _) (index + 1) with
        ⟨k, hleast, hfound, hend⟩ | ⟨hnone, habsent, hend⟩
      · refine .inl ⟨k + 1, ?_⟩
        rw [show index + (k + 1) = index + 1 + k by omega, hend]
        exact ⟨hleast, hfound, rfl⟩
      · rw [hend]
        exact .inr ⟨hnone, habsent, rfl⟩
    · obtain ⟨hsearch, hsplit⟩ := hstep rest
      exact .inl ⟨0, isLeast_balancesFrom hcount index rest, hsearch index, hsplit⟩

end Search

/-! ## The searches of the printer -/

/-- What there is to say about the search from the open tag at an index. -/
structure Matched (tokens : List Token) (index : Nat) (name : List Char) : Prop where
  /-- Before one is taken away from the depth, it is at least one. -/
  no_underflow : matchingClose tokens index name ≠ .underflow
  /-- The index that is returned is the first at which the tags of the name balance. -/
  found_iff : ∀ j, matchingClose tokens index name = .found j ↔ IsLeast (balances tokens index name) j
  absent_iff : matchingClose tokens index name = .absent ↔ balances tokens index name = ∅

theorem matched_of_found {tokens : List Token} {index j : Nat} {name : List Char}
    (hfound : matchingClose tokens index name = .found j)
    (hleast : IsLeast (balances tokens index name) j) : Matched tokens index name where
  no_underflow := by
    rw [hfound]
    exact nofun
  found_iff k := by
    rw [hfound, EndSearch.found.injEq]
    constructor
    · rintro rfl
      exact hleast
    · exact hleast.unique
  absent_iff := by
    rw [hfound]
    refine iff_of_false nofun fun hempty => ?_
    rw [hempty] at hleast
    exact hleast.1

theorem matched_of_absent {tokens : List Token} {index : Nat} {name : List Char}
    (habsent : matchingClose tokens index name = .absent)
    (hnone : balances tokens index name = ∅) : Matched tokens index name where
  no_underflow := by
    rw [habsent]
    exact nofun
  found_iff j := by
    rw [habsent, hnone]
    exact iff_of_false nofun fun hleast => hleast.1
  absent_iff := iff_of_true habsent hnone

/-- The printer's own search begins behind the open tag, at depth one. -/
theorem splitClose?_open {name : List Char} (hvoid : voidNames.contains name = false)
    (raw : List Char) (rest : List Token) :
    splitClose? name 0 (.openTag name raw :: rest) =
      behind [.openTag name raw] (splitClose? name 1 rest) := by
  rw [splitClose?_openTag, if_pos ⟨rfl, by rw [hvoid]; rfl⟩]

/-- The tokens from an open tag on, split behind the end that was found. -/
def EndSearch.split (tokens : List Token) (index : Nat) : EndSearch → Option (List Token × List Token)
  | .found j => some (between tokens index j, tokens.drop (j + 1))
  | .absent => none
  | .underflow => none

/-- From an open tag on the search is sound, and the printer splits the tokens where it says. -/
theorem matched_of_openTag {tokens rest : List Token} {index : Nat} {name raw : List Char}
    (hvoid : voidNames.contains name = false) (h : tokens.drop index = .openTag name raw :: rest) :
    Matched tokens index name ∧ behind [.openTag name raw] (splitClose? name 1 rest) =
      (matchingClose tokens index name).split tokens index := by
  have hopen : ∀ t ∈ (tokens.drop index).head?, 0 < 0 + opens name [t] := by
    rw [h]
    rintro t ⟨⟩
    rw [opens_openTag, if_pos rfl]
    exact Nat.one_pos
  have hspec := searchEnd_spec hvoid hopen index
  rw [← balances_eq, ← matchingClose] at hspec
  rw [← splitClose?_open hvoid, ← h]
  rcases hspec with ⟨k, hleast, hfound, hsplit⟩ | ⟨hnone, habsent, hsplit⟩
  · refine ⟨matched_of_found hfound hleast, ?_⟩
    rw [hsplit, hfound, EndSearch.split, between, List.drop_drop]
    rw [show index + k + 1 - index = k + 1 by omega, Nat.add_assoc]
  · refine ⟨matched_of_absent habsent hnone, ?_⟩
    rw [hsplit, habsent, EndSearch.split]

/-- A step goes on with a part of the tokens that were left. -/
theorem Printing.left_next {p q : Printing} (h : p.next? = some q) : q.left <:+ p.left := by
  obtain ⟨depth, left, written⟩ := p
  cases left with
  | nil => cases h
  | cons t rest =>
    cases t with
    | openTag name raw =>
      simp only [next?] at h
      split at h
      · next onLine after hlayout =>
        cases h
        exact ⟨.openTag name raw :: onLine, congrArg (_ :: ·) (openLayout_append hlayout)⟩
      · cases h
        exact List.suffix_cons _ _
    | _ =>
      cases h
      exact List.suffix_cons _ _

/-- What is left begins at an index of the tokens. -/
theorem Printing.exists_drop {tokens : List Token} {p : Printing}
    (h : (Printing.start tokens).Reaches p) : ∃ index, p.left = tokens.drop index := by
  have hsuffix : p.left <:+ tokens := by
    induction h with
    | refl => exact List.suffix_refl _
    | tail _ hnext ih => exact (left_next hnext).trans ih
  exact ⟨_, List.suffix_iff_eq_drop.1 hsuffix⟩

/-- An element whose end is found is printed on one line, and the printer goes on behind its end. -/
theorem Printing.next_of_found {p : Printing} {name raw : List Char} {rest element after : List Token}
    (hleft : p.left = .openTag name raw :: rest) (hname : unbrokenNames.contains name = true)
    (h : behind [.openTag name raw] (splitClose? name 1 rest) = some (element, after)) :
    p.next? = some ⟨p.depth, after, p.written ++ [lineAt p.depth (rawAll element)]⟩ := by
  obtain ⟨depth, left, written⟩ := p
  obtain rfl : left = .openTag name raw :: rest := hleft
  obtain ⟨⟨inside, after'⟩, hinside, heq⟩ := Option.map_eq_some_iff.1 h
  cases heq
  simp only [next?, openLayout_of_splitClose? hname hinside]
  rfl

/-- Markup is cut into tokens.  And among any tokens, wherever the printer asks for the end of an element,
    it gets the first index at which the tags of its name balance. -/
theorem tokens_and_ends (html : String) (tokens : List Token) :
    Tokenized html.toList (scan html.toList) ∧
    ∀ p name raw rest, (Printing.start tokens).Reaches p → p.left = .openTag name raw :: rest →
      unbrokenNames.contains name = true →
      ∃ index, p.left = tokens.drop index ∧ Matched tokens index name ∧
        behind [.openTag name raw] (splitClose? name 1 rest) =
          (matchingClose tokens index name).split tokens index ∧
        ∀ j, matchingClose tokens index name = .found j → p.next? = some ⟨p.depth,
          tokens.drop (j + 1), p.written ++ [lineAt p.depth (rawAll (between tokens index j))]⟩ := by
  refine ⟨tokenized_scan _, fun p name raw rest hreach hleft hname => ?_⟩
  have hvoid := Bool.eq_false_iff.2 (not_void_of_unbroken hname)
  obtain ⟨index, hdrop⟩ := Printing.exists_drop hreach
  obtain ⟨hmatched, hsplit⟩ := matched_of_openTag hvoid (hdrop.symm.trans hleft)
  refine ⟨index, hdrop, hmatched, hsplit, fun j hfound => ?_⟩
  rw [hfound] at hsplit
  exact Printing.next_of_found hleft hname hsplit

/-- A paragraph with another inside, in an element on several lines. -/
theorem tokens_and_ends_of_paragraphs :
    let tokens := scan "<div><p>a<p></p>b</p>c</div>".toList
    IsLeast (balances tokens 1 "p".toList) 6 := by
  intro tokens
  have htokens : tokens = [.openTag "div".toList "<div>".toList, .openTag "p".toList "<p>".toList,
      .text "a".toList, .openTag "p".toList "<p>".toList, .closeTag "p".toList "</p>".toList,
      .text "b".toList, .closeTag "p".toList "</p>".toList, .text "c".toList,
      .closeTag "div".toList "</div>".toList] := by decide +kernel
  rw [htokens]
  obtain ⟨-, hends⟩ := tokens_and_ends "" tokens
  rw [htokens] at hends
  obtain ⟨index, hdrop, hmatched, -⟩ := hends _ _ _ _ (.single rfl) rfl (by decide)
  -- the tokens left begin at no other index
  obtain rfl : index = 1 := by
    have hlength := congrArg List.length hdrop
    simp only [List.length_drop, List.length_cons, List.length_nil] at hlength
    omega
  exact (hmatched.found_iff 6).1 (by decide)

end WebStory.Token
