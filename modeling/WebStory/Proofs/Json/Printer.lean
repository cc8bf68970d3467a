import WebStory.Proofs.Json.Tree
import WebStory.Proofs.Number.Spelling
/-
  The text of a value says which value it is.

  The printer writes no spaces and no lengths, so it is not obvious where a value ends: `1` is the
  beginning of `12`, and of `1.5`.

  1. **Determined texts** — what carries the proof is that a value's text determines the value and
     its own end wherever a delimiter or nothing follows (`Determined`).  This is the statement that
     passes through the induction; that different values have different texts does not.

  2. **Strings** — a string ends at the first quote that is not escaped.  Its characters are read
     back one by one, each with what follows it (`unescape_escapeChar`).

  3. **Numbers** — a number goes on up to the first delimiter, as no delimiter occurs in one, and
     its text says which number it is (`determined_number`).

  4. **Containers** — an array or object ends at its bracket, since the items before it end by
     themselves.  Items and members are things with commas between them, so one lemma serves both
     (`separated_injective`).

  5. **Kinds** — the first character tells the kind of a value (`kindOf_chars`), so only values of
     one kind have to be compared, case by case, and no value begins with the bracket that would end
     the list it stands in (`chars_ne_cons`).
-/

namespace WebStory.Json

/-! ## Strings -/

/-- The value of a small hexadecimal digit. -/
def hexValue (c : Char) : Nat := if c.isDigit then c.toNat - 48 else c.toNat - 87

/-- Reads what stands behind a backslash. -/
def unescapeMark : List Char → Option (Char × List Char)
  | '"' :: rest => some ('"', rest)
  | '\\' :: rest => some ('\\', rest)
  | 'b' :: rest => some ('\x08', rest)
  | 't' :: rest => some ('\t', rest)
  | 'n' :: rest => some ('\n', rest)
  | 'f' :: rest => some ('\x0c', rest)
  | 'r' :: rest => some ('\r', rest)
  | 'u' :: '0' :: '0' :: high :: low :: rest =>
    some (Char.ofNat (16 * hexValue high + hexValue low), rest)
  | _ => none

/-- Reads one character of a string, escaped or not, and gives what follows it.  There is none at
    the closing quote. -/
def unescape : List Char → Option (Char × List Char)
  | [] => none
  | c :: rest =>
    if c = '"' then none
    else if c = '\\' then unescapeMark rest
    else some (c, rest)

theorem hexValue_hexDigit : ∀ n < 16, hexValue (hexDigit n) = n := by decide

/-- An escaped character reads back. -/
theorem unescape_escapeChar (c : Char) (rest : List Char) :
    unescape (escapeChar c ++ rest) = some (c, rest) := by
  unfold escapeChar
  split
  · next h => rw [h]; rfl
  split
  · next h => rw [h]; rfl
  split
  · next h => rw [h]; rfl
  split
  · next h => rw [h]; rfl
  split
  · next h => rw [h]; rfl
  split
  · next h => rw [h]; rfl
  split
  · next h => rw [h]; rfl
  split
  · next h =>
    have hhigh := hexValue_hexDigit (c.toNat / 16) (by omega)
    have hlow := hexValue_hexDigit (c.toNat % 16) (by omega)
    have hsum : 16 * (c.toNat / 16) + c.toNat % 16 = c.toNat := by omega
    simp [unescape, unescapeMark, hhigh, hlow, hsum]
  · next hquote hslash _ _ _ _ _ _ =>
    rw [List.singleton_append, unescape, if_neg hquote, if_neg hslash]

/-- An escaped character does not begin with a quote. -/
theorem escapeChar_ne_quote (c : Char) (rest tail : List Char) :
    escapeChar c ++ rest ≠ '"' :: tail := by
  intro h
  have hread := unescape_escapeChar c rest
  rw [h] at hread
  exact absurd hread (by simp [unescape])

/-- The characters of a string, up to its closing quote, say which string it is. -/
theorem escaped_injective {a b r s : List Char}
    (h : a.flatMap escapeChar ++ '"' :: r = b.flatMap escapeChar ++ '"' :: s) : a = b ∧ r = s := by
  induction a generalizing b with
  | nil =>
    cases b with
    | nil => exact ⟨rfl, (List.cons.inj h).2⟩
    | cons d b =>
      rw [List.flatMap_cons, List.append_assoc] at h
      exact absurd h.symm (escapeChar_ne_quote _ _ _)
  | cons c a ih =>
    -- reading one character back shows that both strings begin with it
    rw [List.flatMap_cons, List.append_assoc] at h
    cases b with
    | nil => exact absurd h (escapeChar_ne_quote _ _ _)
    | cons d b =>
      rw [List.flatMap_cons, List.append_assoc] at h
      have hread := congrArg unescape h
      rw [unescape_escapeChar, unescape_escapeChar, Option.some.injEq, Prod.mk.injEq] at hread
      obtain ⟨rfl, hrest⟩ := hread
      obtain ⟨rfl, rfl⟩ := ih hrest
      exact ⟨rfl, rfl⟩

theorem quote_append_injective {a b : String} {r s : List Char} (h : quote a ++ r = quote b ++ s) :
    a = b ∧ r = s := by
  unfold quote at h
  rw [List.cons_append, List.cons_append, List.append_assoc, List.append_assoc] at h
  obtain ⟨hchars, hrest⟩ := escaped_injective (List.cons.inj h).2
  exact ⟨String.toList_inj.1 hchars, hrest⟩

/-! ## What follows a value -/

/-- What can stand behind a value: nothing, a comma or a closing bracket. -/
def Delimited (rest : List Char) : Prop :=
  rest = [] ∨ ∃ c tail, rest = c :: tail ∧ c ∈ [',', ']', '\x7d']

theorem delimited_cons {c : Char} (h : c ∈ [',', ']', '\x7d']) (tail : List Char) :
    Delimited (c :: tail) := Or.inr ⟨c, tail, rfl, h⟩

/-- The text of one thing and of no other, which also shows its own end. -/
def Determined {α : Type} (chars : α → List Char) (a : α) : Prop :=
  ∀ b r s, Delimited r → Delimited s → chars a ++ r = chars b ++ s → a = b ∧ r = s

/-- A number goes on up to the delimiter. -/
theorem takeWhile_number (n : Number) {rest : List Char} (h : Delimited rest) :
    (n.text.toList ++ rest).takeWhile (· ∉ [',', ']', '\x7d']) = n.text.toList := by
  have hnumber : ∀ c ∈ n.text.toList, decide (c ∉ [',', ']', '\x7d']) = true := by
    intro c hc
    refine decide_eq_true fun hmark => ?_
    simp only [List.mem_cons, List.not_mem_nil, or_false] at hmark
    rcases hmark with rfl | rfl | rfl <;>
      exact absurd (Number.decimalChar_of_mem_text hc) (by unfold Decimal.decimalChar; decide)
  rw [List.takeWhile_append_of_pos hnumber]
  rcases h with rfl | ⟨c, tail, rfl, hc⟩
  · simp
  · have hstop : ¬decide (c ∉ [',', ']', '\x7d']) = true := by
      rw [decide_eq_true_iff, not_not]
      exact hc
    have hnone : (c :: tail).takeWhile (· ∉ [',', ']', '\x7d']) = [] :=
      List.takeWhile_cons_of_neg hstop
    rw [hnone, List.append_nil]

theorem determined_number (n : Number) : Determined (fun n => (Number.text n).toList) n := by
  intro m r s hr hs h
  have htake := takeWhile_number n hr
  simp only at h
  rw [h, takeWhile_number m hs] at htake
  obtain rfl := Number.text_injective (String.toList_inj.1 htake).symm
  exact ⟨rfl, List.append_cancel_left h⟩

/-! ## Things with commas between them -/

section Separated

variable {α : Type} (chars : α → List Char)

/-- What stands behind the first of several things. -/
def followed : List α → List Char → List Char
  | [], rest => rest
  | a :: as, rest => ',' :: (chars a ++ followed as rest)

theorem separated_cons (a : α) (as : List α) (rest : List Char) :
    separated chars (a :: as) ++ rest = chars a ++ followed chars as rest := by
  induction as generalizing a with
  | nil => rfl
  | cons b bs ih =>
    have hsep : separated chars (a :: b :: bs) = chars a ++ ',' :: separated chars (b :: bs) := rfl
    rw [hsep, List.append_assoc, List.cons_append, ih, followed]

variable {chars} {close : Char} (hclose : close ∈ [']', '\x7d'])
include hclose

theorem delimited_followed (as : List α) (r : List Char) :
    Delimited (followed chars as (close :: r)) := by
  cases as with
  | nil => exact delimited_cons (List.mem_cons_of_mem _ hclose) _
  | cons a as => exact delimited_cons (by decide) _

theorem followed_injective {as bs : List α} {r s : List Char} (h : ∀ a ∈ as, Determined chars a)
    (heq : followed chars as (close :: r) = followed chars bs (close :: s)) : as = bs ∧ r = s := by
  have hcomma : close ≠ ',' := by
    rintro rfl
    exact absurd hclose (by decide)
  induction as generalizing bs with
  | nil =>
    cases bs with
    | nil => exact ⟨rfl, (List.cons.inj heq).2⟩
    | cons b bs => exact absurd (List.cons.inj heq).1 hcomma
  | cons a as ih =>
    cases bs with
    | nil => exact absurd (List.cons.inj heq).1.symm hcomma
    | cons b bs =>
      obtain ⟨rfl, htail⟩ := h a List.mem_cons_self b _ _ (delimited_followed hclose _ _)
        (delimited_followed hclose _ _) (List.cons.inj heq).2
      obtain ⟨rfl, rfl⟩ := ih (fun a ha => h a (List.mem_cons_of_mem _ ha)) htail
      exact ⟨rfl, rfl⟩

/-- Things between commas, up to the closing bracket, say which things they are. -/
theorem separated_injective {as bs : List α} {r s : List Char}
    (hopen : ∀ a r s, chars a ++ r ≠ close :: s) (h : ∀ a ∈ as, Determined chars a)
    (heq : separated chars as ++ close :: r = separated chars bs ++ close :: s) :
    as = bs ∧ r = s := by
  cases as with
  | nil =>
    cases bs with
    | nil => exact ⟨rfl, (List.cons.inj heq).2⟩
    | cons b bs =>
      rw [separated_cons] at heq
      exact absurd heq.symm (hopen _ _ _)
  | cons a as =>
    rw [separated_cons] at heq
    cases bs with
    | nil => exact absurd heq (hopen _ _ _)
    | cons b bs =>
      rw [separated_cons] at heq
      obtain ⟨rfl, htail⟩ := h a List.mem_cons_self b _ _ (delimited_followed hclose _ _)
        (delimited_followed hclose _ _) heq
      obtain ⟨rfl, rfl⟩ :=
        followed_injective hclose (fun a ha => h a (List.mem_cons_of_mem _ ha)) htail
      exact ⟨rfl, rfl⟩

end Separated

/-! ## Values -/

/-- The kinds of values, as their first characters tell them apart. -/
inductive Kind where
  | null
  | bool (b : Bool)
  | number
  | string
  | array
  | object
deriving DecidableEq

def Value.kind : Value → Kind
  | .null => .null
  | .bool b => .bool b
  | .number _ => .number
  | .string _ => .string
  | .array _ => .array
  | .object _ => .object

/-- The kind of value that begins with a character. -/
def kindOf (c : Char) : Option Kind :=
  if c = 'n' then some .null
  else if c = 't' then some (.bool true)
  else if c = 'f' then some (.bool false)
  else if c = '"' then some .string
  else if c = '[' then some .array
  else if c = '\x7b' then some .object
  else if c = '-' ∨ c.isDigit = true then some .number
  else none

/-- A value begins with a character of its kind. -/
theorem kindOf_chars (v : Value) : ∃ c r, v.chars = c :: r ∧ kindOf c = some v.kind := by
  cases v with
  | null => exact ⟨'n', _, rfl, rfl⟩
  | bool b => 
    cases b
    · exact ⟨'f', _, rfl, rfl⟩
    · exact ⟨'t', _, rfl, rfl⟩
  | number n =>
    -- neither a sign nor a digit is one of the other six characters
    obtain ⟨c, r, hn, hc⟩ := n.exists_text_cons
    have hne (d : Char) (hd : d ≠ '-' ∧ d.isDigit = false) : c ≠ d := by
      rintro rfl
      exact hc.elim hd.1 fun h => absurd (h.symm.trans hd.2) (by decide)
    refine ⟨c, r, hn, ?_⟩
    rw [kindOf, if_neg (hne _ (by decide)), if_neg (hne _ (by decide)), if_neg (hne _ (by decide)),
      if_neg (hne _ (by decide)), if_neg (hne _ (by decide)), if_neg (hne _ (by decide)), if_pos hc]
    rfl
  | string s => exact ⟨'"', _, rfl, rfl⟩
  | array items => exact ⟨'[', _, rfl, rfl⟩
  | object members => exact ⟨'\x7b', _, rfl, rfl⟩

/-- Values whose texts begin alike are of one kind. -/
theorem kind_eq {v w : Value} {r s : List Char} (h : v.chars ++ r = w.chars ++ s) :
    v.kind = w.kind := by
  obtain ⟨c, r', hv, hc⟩ := kindOf_chars v
  obtain ⟨d, s', hw, hd⟩ := kindOf_chars w
  rw [hv, hw] at h
  rw [(List.cons.inj h).1, hd] at hc
  exact (Option.some.inj hc).symm

/-- No value begins with a character that begins no kind of value. -/
theorem chars_ne_cons {close : Char} (h : kindOf close = none) (v : Value) (r s : List Char) :
    v.chars ++ r ≠ close :: s := by
  intro heq
  obtain ⟨c, r', hv, hc⟩ := kindOf_chars v
  rw [hv, List.cons_append] at heq
  rw [(List.cons.inj heq).1, h] at hc
  exact absurd hc (by simp)

/-- The text of a member is determined if that of its value is. -/
theorem determined_member {e : String × Value} (h : Determined Value.chars e.2) :
    Determined memberText e := by
  intro f r s hr hs heq
  unfold memberText at heq
  rw [List.append_assoc, List.append_assoc] at heq
  obtain ⟨hkey, hrest⟩ := quote_append_injective heq
  obtain ⟨hvalue, htail⟩ := h f.2 r s hr hs (List.cons.inj hrest).2
  exact ⟨Prod.ext hkey hvalue, htail⟩

/-- The text of a value says which value it is, and where it ends. -/
theorem determined_chars (v : Value) : Determined Value.chars v := by
  induction v using Value.induct with
  | null =>
    intro w r s _ _ h
    have hkind := kind_eq h
    cases w <;> simp only [Value.kind, reduceCtorEq] at hkind
    exact ⟨rfl, List.append_cancel_left h⟩
  | bool b =>
    intro w r s _ _ h
    have hkind := kind_eq h
    cases w <;> simp only [Value.kind, reduceCtorEq, Kind.bool.injEq] at hkind
    subst hkind
    exact ⟨rfl, List.append_cancel_left h⟩
  | number n =>
    intro w r s hr hs h
    have hkind := kind_eq h
    cases w <;> simp only [Value.kind, reduceCtorEq] at hkind
    obtain ⟨rfl, hrest⟩ := determined_number n _ r s hr hs h
    exact ⟨rfl, hrest⟩
  | string a =>
    intro w r s _ _ h
    have hkind := kind_eq h
    cases w <;> simp only [Value.kind, reduceCtorEq] at hkind
    obtain ⟨rfl, hrest⟩ := quote_append_injective h
    exact ⟨rfl, hrest⟩
  | array items ih =>
    intro w r s _ _ h
    have hkind := kind_eq h
    cases w <;> simp only [Value.kind, reduceCtorEq] at hkind
    rw [Value.chars_array, Value.chars_array, List.cons_append, List.cons_append, List.append_assoc,
      List.append_assoc] at h
    obtain ⟨rfl, hrest⟩ := separated_injective (by decide)
      (chars_ne_cons (by decide)) ih (List.cons.inj h).2
    exact ⟨rfl, hrest⟩
  | object members ih =>
    intro w r s _ _ h
    have hkind := kind_eq h
    cases w <;> simp only [Value.kind, reduceCtorEq] at hkind
    rw [Value.chars_object, Value.chars_object, List.cons_append, List.cons_append,
      List.append_assoc, List.append_assoc] at h
    -- a member begins with a quote, so an object with members does not begin with its bracket
    have hopen (e : String × Value) (r s : List Char) : memberText e ++ r ≠ '\x7d' :: s := by
      intro heq
      exact absurd (List.cons.inj heq).1 (by decide)
    obtain ⟨rfl, hrest⟩ := separated_injective (by decide) hopen
      (fun e he => determined_member (ih e he)) (List.cons.inj h).2
    exact ⟨rfl, hrest⟩

/-- Values with one text are one value. -/
theorem Value.text_injective {v w : Value} (h : v.text = w.text) : v = w := by
  have hchars : v.chars ++ [] = w.chars ++ [] := by
    rw [List.append_nil, List.append_nil]
    exact String.ofList_inj.1 h
  exact (determined_chars v w [] [] (Or.inl rfl) (Or.inl rfl) hchars).1

end WebStory.Json
