import Mathlib.Tactic
import Mathlib.Data.List.TakeWhile
import WebStory.Proofs.Number.Digits
/-
  The text of a decimal says what the decimal is.

  1. **Reading** — `decimalValue` reads a text of digits with at most one point and at most one
     exponent as a rational number.  It takes the point out, reads the digits as one natural number
     and counts how many stood behind the point; so it does not depend on any layout.

  2. **Positional notation** — the point may stand behind the digits, among them, or in front of all
     of them, with zeros in between.  In each of the three cases the digits count the same power of
     ten (`decimalValue_positionalText`).

  3. **Scientific notation** — here the point stands behind the first digit, or there is none, and
     the exponent makes up for it (`decimalValue_scientificText`).

  4. **Layouts** — whatever a layout decides, reading the text of a decimal gives the decimal's
     value (`decimalValue_text`).  So two decimals with one text are one number, though their digits
     may be split differently between digits and exponent.

  Which characters occur in such a text is known as well; this is what keeps numbers apart from what
  stands around them.
-/

namespace WebStory

/-! ## Reading -/

/-- The rational number a decimal stands for. -/
def Decimal.value (d : Decimal) : ℚ := d.digits * 10 ^ d.exponent

/-- The number of digits behind the point. -/
def placesOf (chars : List Char) : Nat := (chars.dropWhile (· != '.')).length - 1

/-- The value of digits with or without a point among them. -/
def mantissaValue (chars : List Char) : ℚ :=
  (Nat.ofDigitChars 10 (chars.filter (· != '.')) 0 : ℚ) / 10 ^ placesOf chars

/-- The value of an exponent: a mark, a sign and digits. -/
def exponentValue : List Char → ℤ
  | _ :: '-' :: digits => -(Nat.ofDigitChars 10 digits 0 : ℤ)
  | _ :: '+' :: digits => Nat.ofDigitChars 10 digits 0
  | _ => 0

/-- The value of a decimal text without a sign. -/
def decimalValue (chars : List Char) : ℚ :=
  mantissaValue (chars.takeWhile (· != 'e')) * 10 ^ exponentValue (chars.dropWhile (· != 'e'))

/-- All of these characters are decimal digits. -/
def AllDigits (chars : List Char) : Prop := ∀ c ∈ chars, c.isDigit = true

theorem AllDigits.append {a b : List Char} (ha : AllDigits a) (hb : AllDigits b) :
    AllDigits (a ++ b) := fun c hc => (List.mem_append.1 hc).elim (ha c) (hb c)

theorem allDigits_natDigits (n : Nat) : AllDigits (natDigits n) :=
  fun _ h => isDigit_of_mem_natDigits h

theorem allDigits_zeros (n : Nat) : AllDigits (List.replicate n '0') := by
  intro c hc
  rw [List.eq_of_mem_replicate hc]
  decide

/-- A digit is neither a point nor an exponent mark. -/
theorem AllDigits.ne {chars : List Char} (h : AllDigits chars) (mark : Char)
    (hmark : mark.isDigit = false) : ∀ c ∈ chars, (c != mark) = true := by
  intro c hc
  rw [bne_iff_ne]
  rintro rfl
  rw [h c hc] at hmark
  exact absurd hmark (by decide)

/-- Digits alone are a whole number. -/
theorem mantissaValue_digits {chars : List Char} (h : AllDigits chars) :
    mantissaValue chars = Nat.ofDigitChars 10 chars 0 := by
  have hne := h.ne '.' (by decide)
  have hdrop : chars.dropWhile (· != '.') = [] := List.dropWhile_eq_nil_iff.2 hne
  rw [mantissaValue, placesOf, hdrop, List.filter_eq_self.2 hne]
  simp

/-- The digits behind the point are counted off. -/
theorem mantissaValue_point {whole places : List Char} (hw : AllDigits whole)
    (hp : AllDigits places) :
    mantissaValue (whole ++ '.' :: places) =
      (Nat.ofDigitChars 10 (whole ++ places) 0 : ℚ) / 10 ^ places.length := by
  have hwne := hw.ne '.' (by decide)
  have hpne := hp.ne '.' (by decide)
  have hdrop : (whole ++ '.' :: places).dropWhile (· != '.') = '.' :: places := by
    rw [List.dropWhile_append_of_pos hwne, List.dropWhile_cons_of_neg (by decide)]
  have hfilter : (whole ++ '.' :: places).filter (· != '.') = whole ++ places := by
    rw [List.filter_append, List.filter_eq_self.2 hwne, List.filter_cons_of_neg (by decide),
      List.filter_eq_self.2 hpne]
  rw [mantissaValue, placesOf, hdrop, hfilter, List.length_cons, Nat.add_sub_cancel]

/-- A text without an exponent mark is all mantissa. -/
theorem decimalValue_of_not_mem {chars : List Char} (h : 'e' ∉ chars) :
    decimalValue chars = mantissaValue chars := by
  have hne : ∀ c ∈ chars, (c != 'e') = true := by
    intro c hc
    rw [bne_iff_ne]
    rintro rfl
    exact h hc
  have htake : chars.takeWhile (· != 'e') = chars := List.takeWhile_eq_self_iff.2 hne
  have hdrop : chars.dropWhile (· != 'e') = [] := List.dropWhile_eq_nil_iff.2 hne
  rw [decimalValue, htake, hdrop]
  simp [exponentValue]

/-- A text with an exponent is its mantissa times a power of ten. -/
theorem decimalValue_exponent {mantissa : List Char} (h : 'e' ∉ mantissa) (rest : List Char) :
    decimalValue (mantissa ++ 'e' :: rest) =
      mantissaValue mantissa * 10 ^ exponentValue ('e' :: rest) := by
  have hne : ∀ c ∈ mantissa, (c != 'e') = true := by
    intro c hc
    rw [bne_iff_ne]
    rintro rfl
    exact h hc
  rw [decimalValue, List.takeWhile_append_of_pos hne, List.dropWhile_append_of_pos hne,
    List.takeWhile_cons_of_neg (by decide), List.dropWhile_cons_of_neg (by decide),
    List.append_nil]

/-- A point among digits leaves no exponent mark. -/
theorem mark_not_mem {whole places : List Char} (hw : AllDigits whole) (hp : AllDigits places) :
    'e' ∉ whole ++ '.' :: places := by
  intro hmem
  rcases List.mem_append.1 hmem with h | h
  · exact absurd (hw _ h) (by decide)
  · rcases List.mem_cons.1 h with h | h
    · exact absurd h (by decide)
    · exact absurd (hp _ h) (by decide)

theorem decimalValue_digits {chars : List Char} (h : AllDigits chars) :
    decimalValue chars = Nat.ofDigitChars 10 chars 0 := by
  have hmark : 'e' ∉ chars := fun hmem => absurd (h _ hmem) (by decide)
  rw [decimalValue_of_not_mem hmark, mantissaValue_digits h]

/-- A text with a point is its digits, scaled down by the places behind the point. -/
theorem decimalValue_point {whole places : List Char} (hw : AllDigits whole)
    (hp : AllDigits places) {e : ℤ} (he : (places.length : ℤ) = -e) :
    decimalValue (whole ++ '.' :: places) =
      (Nat.ofDigitChars 10 (whole ++ places) 0 : ℚ) * 10 ^ e := by
  rw [decimalValue_of_not_mem (mark_not_mem hw hp), mantissaValue_point hw hp, ← zpow_natCast, he,
    zpow_neg, div_inv_eq_mul]

/-! ## Writing, then reading -/

/-- The digits followed by the zeros of a power of ten. -/
theorem ofDigitChars_zeros (n k : Nat) :
    Nat.ofDigitChars 10 (natDigits n ++ List.replicate k '0') 0 = n * 10 ^ k := by
  rw [Nat.ofDigitChars_append, ofDigitChars_natDigits, Nat.ofDigitChars_replicate_zero,
    Nat.mul_comm]

namespace Decimal

variable (d : Decimal)

theorem value_natCast {k : Nat} (h : d.exponent = k) : d.value = (d.digits * 10 ^ k : Nat) := by
  rw [value, h, zpow_natCast]
  push_cast
  rfl

/-- A whole number: its digits, its zeros, and perhaps a zero behind the point. -/
theorem decimalValue_whole (pointZero : Bool) {k : Nat} (h : d.exponent = k) :
    decimalValue (natDigits d.digits ++ List.replicate k '0' ++
      (if pointZero then ['.', '0'] else [])) = d.value := by
  have hdigits : AllDigits (natDigits d.digits ++ List.replicate k '0') :=
    (allDigits_natDigits _).append (allDigits_zeros _)
  rw [d.value_natCast h]
  cases pointZero
  · rw [if_neg (by decide), List.append_nil, decimalValue_digits hdigits, ofDigitChars_zeros]
  · have hplace : ['.', '0'] = '.' :: List.replicate 1 '0' := rfl
    have hlen : ((List.replicate 1 '0').length : ℤ) = -(-1) := rfl
    rw [if_pos rfl, hplace, decimalValue_point hdigits (allDigits_zeros 1) hlen,
      List.append_assoc, List.replicate_append_replicate, ofDigitChars_zeros]
    push_cast
    rw [zpow_neg_one, pow_succ]
    field_simp

/-- The point stands among the digits, before as many of them as the exponent says. -/
theorem decimalValue_among {k : Nat} (h : (k : ℤ) = (natDigits d.digits).length + d.exponent)
    (hexp : d.exponent < 0) :
    decimalValue ((natDigits d.digits).take k ++ '.' :: (natDigits d.digits).drop k) = d.value := by
  have hw : AllDigits ((natDigits d.digits).take k) :=
    fun c hc => allDigits_natDigits _ c (List.mem_of_mem_take hc)
  have hp : AllDigits ((natDigits d.digits).drop k) :=
    fun c hc => allDigits_natDigits _ c (List.mem_of_mem_drop hc)
  have hlen : (((natDigits d.digits).drop k).length : ℤ) = -d.exponent := by
    rw [List.length_drop]
    omega
  rw [decimalValue_point hw hp hlen, List.take_append_drop, ofDigitChars_natDigits, value]

/-- The number begins behind the point, after as many zeros as the exponent says. -/
theorem decimalValue_behind {k : Nat} (h : (k : ℤ) = -((natDigits d.digits).length + d.exponent)) :
    decimalValue (['0'] ++ '.' :: (List.replicate k '0' ++ natDigits d.digits)) = d.value := by
  have hp : AllDigits (List.replicate k '0' ++ natDigits d.digits) :=
    (allDigits_zeros _).append (allDigits_natDigits _)
  have hlen : ((List.replicate k '0' ++ natDigits d.digits).length : ℤ) = -d.exponent := by
    rw [List.length_append, List.length_replicate]
    omega
  have hzero : ['0'] = List.replicate 1 '0' := rfl
  rw [hzero, decimalValue_point (allDigits_zeros 1) hp hlen, ← List.append_assoc,
    List.replicate_append_replicate, Nat.ofDigitChars_append, Nat.ofDigitChars_replicate_zero,
    Nat.mul_zero, ofDigitChars_natDigits, value]

/-- The characters of positional notation, by where the point stands. -/
theorem toList_positionalText (pointZero : Bool) :
    (d.positionalText pointZero).toList =
      if 0 ≤ d.exponent then
        natDigits d.digits ++ List.replicate d.exponent.toNat '0' ++
          (if pointZero then ['.', '0'] else [])
      else if 0 < ((natDigits d.digits).length : ℤ) + d.exponent then
        (natDigits d.digits).take ((natDigits d.digits).length + d.exponent).toNat ++
          '.' :: (natDigits d.digits).drop ((natDigits d.digits).length + d.exponent).toNat
      else
        ['0'] ++ '.' :: (List.replicate (-((natDigits d.digits).length + d.exponent)).toNat '0' ++
          natDigits d.digits) := by
  unfold positionalText
  simp only
  split
  · have hpoint : (if pointZero = true then ".0" else "").toList =
        if pointZero then ['.', '0'] else [] := by cases pointZero <;> rfl
    rw [String.toList_append, hpoint, String.toList_ofList]
  · split
    · simp
    · simp

theorem decimalValue_positionalText (pointZero : Bool) :
    decimalValue (d.positionalText pointZero).toList = d.value := by
  rw [toList_positionalText]
  split
  · exact d.decimalValue_whole pointZero (by omega)
  · split
    · exact d.decimalValue_among (by omega) (by omega)
    · exact d.decimalValue_behind (by omega)

/-- Digits with a point behind the first of several. -/
def pointed : List Char → List Char
  | [] => ['0']
  | [c] => [c]
  | c :: rest => c :: '.' :: rest

theorem mantissaValue_pointed {chars : List Char} (h : AllDigits chars) (hne : chars ≠ []) :
    mantissaValue (pointed chars) = Nat.ofDigitChars 10 chars 0 / 10 ^ (chars.length - 1) := by
  match chars with
  | [] => exact absurd rfl hne
  | [c] => simpa [pointed] using mantissaValue_digits h
  | c :: b :: rest =>
    have hw : AllDigits [c] := fun x hx => h x (List.mem_cons.2 (Or.inl (List.mem_singleton.1 hx)))
    have hp : AllDigits (b :: rest) := fun x hx => h x (List.mem_cons_of_mem _ hx)
    exact mantissaValue_point hw hp

theorem mark_not_mem_pointed {chars : List Char} (h : AllDigits chars) : 'e' ∉ pointed chars := by
  match chars with
  | [] => decide
  | [c] => exact fun hmem => absurd (h _ hmem) (by decide)
  | c :: b :: rest =>
    have hw : AllDigits [c] := fun x hx => h x (List.mem_cons.2 (Or.inl (List.mem_singleton.1 hx)))
    have hp : AllDigits (b :: rest) := fun x hx => h x (List.mem_cons_of_mem _ hx)
    exact mark_not_mem hw hp

/-- The characters of scientific notation. -/
theorem toList_scientificText : d.scientificText.toList = pointed (natDigits d.digits) ++
    'e' :: (if d.leadingExponent < 0 then '-' else '+') :: natDigits d.leadingExponent.natAbs := by
  have hsign (n : ℤ) : (if n < 0 then "-" else "+").toList = [if n < 0 then '-' else '+'] := by
    split <;> rfl
  unfold scientificText leadingExponent
  simp only
  generalize d.exponent + (natDigits d.digits).length - 1 = n
  generalize natDigits d.digits = digits
  rcases digits with _ | ⟨c, _ | ⟨b, rest⟩⟩ <;> simp [pointed, hsign]

theorem exponentValue_signed (n : ℤ) :
    exponentValue ('e' :: (if n < 0 then '-' else '+') :: natDigits n.natAbs) = n := by
  split
  · rw [exponentValue, ofDigitChars_natDigits]
    omega
  · rw [exponentValue, ofDigitChars_natDigits]
    omega

theorem decimalValue_scientificText : decimalValue d.scientificText.toList = d.value := by
  have hdigits := allDigits_natDigits d.digits
  have hlen : 0 < (natDigits d.digits).length := List.length_pos_iff.2 (natDigits_ne_nil _)
  have hexp : d.leadingExponent = d.exponent + ((natDigits d.digits).length - 1 : Nat) := by
    unfold leadingExponent
    omega
  rw [toList_scientificText, decimalValue_exponent (mark_not_mem_pointed hdigits),
    mantissaValue_pointed hdigits (natDigits_ne_nil _), exponentValue_signed,
    ofDigitChars_natDigits, value, hexp, zpow_add₀ (by norm_num), zpow_natCast]
  field_simp

/-- Reading the text of a decimal gives its value, whatever the layout. -/
theorem decimalValue_text (layout : Layout) : decimalValue (d.text layout).toList = d.value := by
  unfold text
  split
  · exact d.decimalValue_positionalText _
  · split
    · exact d.decimalValue_positionalText _
    · exact d.decimalValue_scientificText

/-! ## The characters of a decimal -/

/-- The characters that a decimal is written with. -/
def decimalChar (c : Char) : Prop := c.isDigit = true ∨ c ∈ ['.', 'e', '+', '-']

theorem decimalChar_of_mem_pointed {chars : List Char} (h : AllDigits chars) {c : Char}
    (hc : c ∈ pointed chars) : decimalChar c := by
  match chars with
  | [] => exact Or.inl (List.mem_singleton.1 hc ▸ by decide)
  | [b] => exact Or.inl (h c hc)
  | b :: d :: rest =>
    rcases List.mem_cons.1 hc with rfl | hc
    · exact Or.inl (h _ List.mem_cons_self)
    · rcases List.mem_cons.1 hc with rfl | hc
      · exact Or.inr (by decide)
      · exact Or.inl (h c (List.mem_cons_of_mem _ hc))

/-- Only digits, a point, an exponent mark and signs occur in a decimal. -/
theorem decimalChar_of_mem_text {layout : Layout} {c : Char} (h : c ∈ (d.text layout).toList) :
    decimalChar c := by
  have hdigits {n : Nat} {c : Char} (hc : c ∈ natDigits n) : decimalChar c :=
    Or.inl (isDigit_of_mem_natDigits hc)
  have hzeros {k : Nat} {c : Char} (hc : c ∈ List.replicate k '0') : decimalChar c :=
    Or.inl (allDigits_zeros k c hc)
  have hpositional (pointZero : Bool) (hc : c ∈ (d.positionalText pointZero).toList) :
      decimalChar c := by
    rw [toList_positionalText] at hc
    split at hc
    · rcases List.mem_append.1 hc with hc | hc
      · exact (List.mem_append.1 hc).elim hdigits hzeros
      · split at hc
        · rcases List.mem_pair.1 hc with rfl | rfl
          · exact Or.inr (by decide)
          · exact Or.inl (by decide)
        · simp at hc
    · split at hc
      · rcases List.mem_append.1 hc with hc | hc
        · exact hdigits (List.mem_of_mem_take hc)
        · rcases List.mem_cons.1 hc with rfl | hc
          · exact Or.inr (by decide)
          · exact hdigits (List.mem_of_mem_drop hc)
      · rcases List.mem_append.1 hc with hc | hc
        · exact Or.inl (List.mem_singleton.1 hc ▸ by decide)
        · rcases List.mem_cons.1 hc with rfl | hc
          · exact Or.inr (by decide)
          · exact (List.mem_append.1 hc).elim hzeros hdigits
  unfold text at h
  split at h
  · exact hpositional _ h
  · split at h
    · exact hpositional _ h
    · rw [toList_scientificText] at h
      rcases List.mem_append.1 h with h | h
      · exact decimalChar_of_mem_pointed (allDigits_natDigits _) h
      · rcases List.mem_cons.1 h with rfl | h
        · exact Or.inr (by decide)
        · rcases List.mem_cons.1 h with rfl | h
          · split <;> exact Or.inr (by decide)
          · exact hdigits h

/-- A decimal begins with a digit. -/
theorem exists_digit_text (layout : Layout) :
    ∃ c r, (d.text layout).toList = c :: r ∧ c.isDigit = true := by
  obtain ⟨c, r, hdigits, hc⟩ := exists_digit_natDigits d.digits
  have hpositional (pointZero : Bool) :
      ∃ c r, (d.positionalText pointZero).toList = c :: r ∧ c.isDigit = true := by
    rw [toList_positionalText, hdigits]
    split
    · exact ⟨c, _, rfl, hc⟩
    · split
      · next hexp hbefore =>
        obtain ⟨k, hk⟩ : ∃ k, ((c :: r).length + d.exponent).toNat = k + 1 :=
          ⟨((c :: r).length + d.exponent).toNat - 1, by omega⟩
        rw [hk, List.take_succ_cons]
        exact ⟨c, _, rfl, hc⟩
      · exact ⟨'0', _, rfl, by decide⟩
  unfold text
  split
  · exact hpositional _
  · split
    · exact hpositional _
    · rw [toList_scientificText, hdigits]
      cases r with
      | nil => exact ⟨c, _, rfl, hc⟩
      | cons b rest => exact ⟨c, _, rfl, hc⟩

/-- In a layout that keeps the zero behind the point a decimal shows a point or an exponent, so it
    does not look like an integer. -/
theorem mem_text_of_pointZero {layout : Layout} (h : layout.pointZero = true) :
    '.' ∈ (d.text layout).toList ∨ 'e' ∈ (d.text layout).toList := by
  have hpositional : '.' ∈ (d.positionalText layout.pointZero).toList := by
    rw [toList_positionalText, h]
    split
    · simp
    · split <;> simp
  unfold text
  split
  · exact Or.inl hpositional
  · split
    · exact Or.inl hpositional
    · rw [toList_scientificText]
      simp

end Decimal

end WebStory
