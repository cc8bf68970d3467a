import WebStory.Json.Value
import WebStory.Proofs.Number.Interval
/-
  One number, one spelling.

  A number of a JSON text is an integer or a floating-point number, and what it denotes is a
  rational number (`value`).  Three facts tie the spellings together.

  1. **Texts** — the text of a number says which number it is (`text_injective`).  Two
     floating-point numbers with one text have shortest decimals of one value, and these lie in the
     intervals of both, so the numbers have one magnitude; the sign is written, that of zero too.
     An integer shows neither a point nor an exponent, and a floating-point number always shows one
     of them.

  2. **Values** — the canonical number says which value it has, and no more (`canonical_eq_iff`).  A
     whole floating-point number of the integer range becomes the integer, and all others stay.

  3. **Numbers** — canonical numbers are still the same floating-point numbers: a whole one is read
     back exactly from its integer (`toBinary64_canonical`).  Its significand is found again, as the
     quotient leaves nothing over and nothing is rounded.  Only negative zero is not found again,
     since its integer has no sign.
-/

namespace WebStory

namespace Binary64

/-! ## Magnitudes -/

theorem magnitude_eq_zero {x : Binary64} : x.magnitude = 0 ↔ x.significand = 0 := by
  have hpow : 2 ^ x.shift ≠ 0 := (Nat.pow_pos (by decide)).ne'
  rw [magnitude_eq, Nat.mul_eq_zero]
  exact ⟨fun h => h.resolve_right hpow, Or.inl⟩

/-- Numbers of one magnitude differ at most in sign. -/
theorem eq_of_magnitude_eq {x y : Binary64} (h : x.magnitude = y.magnitude) :
    x.significand = y.significand ∧ x.shift = y.shift := by
  by_cases hx : x.significand = 0
  · -- zero has the smallest shift, as no number has two spellings
    have hy : y.significand = 0 := by rw [← magnitude_eq_zero, ← h, magnitude_eq_zero, hx]
    have hxshift := x.normal
    have hyshift := y.normal
    omega
  · have hy : y.significand ≠ 0 := by rwa [Ne, ← magnitude_eq_zero, ← h, magnitude_eq_zero]
    have hself := inInterval_self hx
    rw [h] at hself
    exact eq_of_inInterval hself (inInterval_self hy)

theorem ext_of_magnitude {x y : Binary64} (hsign : x.negative = y.negative)
    (h : x.magnitude = y.magnitude) : x = y := by
  obtain ⟨hsig, hshift⟩ := eq_of_magnitude_eq h
  cases x
  cases y
  simp only [Binary64.mk.injEq]
  exact ⟨hsign, hsig, hshift⟩

theorem isZero_iff (x : Binary64) : x.isZero = true ↔ x.magnitude = 0 := by
  rw [isZero, beq_iff_eq, magnitude_eq_zero]

/-- Numbers of one value are one number, or both are zero. -/
theorem eq_of_scaled_eq {x y : Binary64} (h : x.scaled = y.scaled) :
    x = y ∨ x.isZero = true ∧ y.isZero = true := by
  by_cases hsign : x.negative = y.negative
  · refine Or.inl (ext_of_magnitude hsign ?_)
    unfold scaled at h
    rw [hsign] at h
    split at h <;> omega
  · refine Or.inr ?_
    rw [isZero_iff, isZero_iff]
    unfold scaled at h
    cases hx : x.negative <;> cases hy : y.negative
    · exact absurd (hx.trans hy.symm) hsign
    · simp only [hx, hy, Bool.false_eq_true, if_false, if_true] at h
      omega
    · simp only [hx, hy, Bool.false_eq_true, if_false, if_true] at h
      omega
    · exact absurd (hx.trans hy.symm) hsign

/-! ## The text of a floating-point number -/

theorem toList_text (x : Binary64) (layout : Layout) :
    (x.text layout).toList =
      signChars x.negative ++ ((x.shortest layout.tie).text layout).toList := by
  unfold text signChars
  cases x.negative <;> simp

/-- Whatever the layout, the text of a number says which number it is. -/
theorem text_injective {layout : Layout} {x y : Binary64} (h : x.text layout = y.text layout) :
    x = y := by
  have hchars := congrArg String.toList h
  rw [toList_text, toList_text] at hchars
  obtain ⟨hsign, hdecimal⟩ := signChars_append_injective (Decimal.exists_digit_text _ _)
    (Decimal.exists_digit_text _ _) hchars
  -- both decimals read as one rational number, which lies in both intervals
  have hvalue : (x.shortest layout.tie).value = (y.shortest layout.tie).value := by
    rw [← Decimal.decimalValue_text _ layout, hdecimal, Decimal.decimalValue_text]
  have hx := inInterval_shortest x layout.tie
  have hy := inInterval_shortest y layout.tie
  rw [quartersOf, hvalue, ← quartersOf] at hx
  obtain ⟨hsig, hshift⟩ := eq_of_inInterval hx hy
  refine ext_of_magnitude hsign ?_
  rw [magnitude, magnitude, hsig, hshift]

/-! ## Whole numbers -/

/-- The rational number that a floating-point number is. -/
def value (x : Binary64) : ℚ := x.scaled / unitsPerOne

theorem natAbs_scaled (x : Binary64) : x.scaled.natAbs = x.magnitude := by
  unfold scaled
  split <;> omega

/-- A natural number is an integral multiple exactly if the division leaves nothing over. -/
theorem natCast_eq_mul_iff {m u : ℕ} (hu : 0 < u) {n : ℤ} :
    (m : ℤ) = n * u ↔ m % u = 0 ∧ ((m / u : ℕ) : ℤ) = n := by
  constructor
  · intro h
    have hu' : (0 : ℤ) < u := by omega
    have hn : 0 ≤ n := (mul_nonneg_iff_of_pos_right hu').1 (h ▸ Int.natCast_nonneg m)
    obtain ⟨k, rfl⟩ := Int.eq_ofNat_of_zero_le hn
    obtain rfl : m = k * u := by exact_mod_cast h
    rw [Nat.mul_mod_left, Nat.mul_div_cancel _ hu]
    exact ⟨rfl, rfl⟩
  · rintro ⟨hmod, rfl⟩
    exact_mod_cast (Nat.div_mul_cancel (Nat.dvd_of_mod_eq_zero hmod)).symm

/-- A number is the integer `n` exactly if it is `n` times as large as one. -/
theorem toInt?_eq_some_iff_scaled {x : Binary64} {n : ℤ} :
    x.toInt? = some n ↔ x.scaled = n * unitsPerOne := by
  have hunits := unitsPerOne_pos
  unfold toInt? scaled
  generalize unitsPerOne = u at hunits
  generalize x.magnitude = m
  cases x.negative
  · show (if m % u = 0 then some ((m / u : ℕ) : ℤ) else none) = some n ↔ (m : ℤ) = n * u
    rw [natCast_eq_mul_iff hunits]
    by_cases hmod : m % u = 0 <;> simp [hmod]
  · show (if m % u = 0 then some (-((m / u : ℕ) : ℤ)) else none) = some n ↔ -(m : ℤ) = n * u
    have hneg : -(m : ℤ) = n * u ↔ (m : ℤ) = -n * u := by
      constructor <;> intro h <;> linarith
    rw [hneg, natCast_eq_mul_iff hunits]
    by_cases hmod : m % u = 0
    · rw [if_pos hmod, Option.some.injEq, neg_eq_iff_eq_neg]
      exact ⟨fun h => ⟨hmod, h⟩, fun h => h.2⟩
    · rw [if_neg hmod]
      exact ⟨nofun, fun h => absurd h.1 hmod⟩

/-- A number is whole exactly if its value is an integer, and then it is that integer. -/
theorem toInt?_eq_some_iff {x : Binary64} {n : ℤ} : x.toInt? = some n ↔ x.value = n := by
  have hne : (unitsPerOne : ℚ) ≠ 0 := Nat.cast_ne_zero.2 unitsPerOne_pos.ne'
  rw [toInt?_eq_some_iff_scaled, value, div_eq_iff hne]
  exact_mod_cast Iff.rfl

theorem magnitude_of_toInt? {x : Binary64} {n : ℤ} (h : x.toInt? = some n) :
    x.magnitude = unitsPerOne * n.natAbs := by
  rw [← natAbs_scaled, toInt?_eq_some_iff_scaled.1 h, Int.natAbs_mul, Int.natAbs_natCast,
    Nat.mul_comm]

/-- Numbers of one value are one number, or both are zero. -/
theorem eq_of_value_eq {x y : Binary64} (h : x.value = y.value) :
    x = y ∨ x.isZero = true ∧ y.isZero = true := by
  have hne : (unitsPerOne : ℚ) ≠ 0 := Nat.cast_ne_zero.2 unitsPerOne_pos.ne'
  rw [value, value, div_left_inj' hne, Int.cast_inj] at h
  exact eq_of_scaled_eq h

/-- Zero is whole. -/
theorem toInt?_of_isZero {x : Binary64} (h : x.isZero = true) : x.toInt? = some 0 := by
  rw [toInt?_eq_some_iff, value]
  have := (isZero_iff x).1 h
  have hscaled : x.scaled = 0 := by
    rw [← Int.natAbs_eq_zero, natAbs_scaled]
    exact this
  rw [hscaled]
  simp

/-! ## Integers as floating-point numbers -/

/-- The binade of a magnitude is the shift of the number that has it. -/
theorem shiftOf_magnitude (x : Binary64) : shiftOf x.magnitude = x.shift := by
  have hlt := x.significand_lt
  have hpos : 0 < 2 ^ x.shift := Nat.pow_pos (by decide)
  rw [magnitude_eq, shiftOf]
  rcases Nat.eq_zero_or_pos x.significand with hzero | hsig
  · have hshift : x.shift = 0 := x.normal.resolve_left (by omega)
    rw [hzero, hshift]
    decide
  · have hne : x.significand * 2 ^ x.shift ≠ 0 := (Nat.mul_pos hsig hpos).ne'
    have hupper : (x.significand * 2 ^ x.shift).log2 < 53 + x.shift := by
      rw [Nat.log2_lt hne, pow_add]
      exact Nat.mul_lt_mul_of_pos_right hlt hpos
    -- only a normal significand fills its 53 bits, and the others stand at the smallest shift
    rcases x.normal with hnormal | hshift
    · have hlower : 52 + x.shift ≤ (x.significand * 2 ^ x.shift).log2 := by
        rw [Nat.le_log2 hne, pow_add]
        exact Nat.mul_le_mul_right _ hnormal
      omega
    · omega

/-- Nothing is lost where the quotient is whole. -/
theorem roundHalfEven_mul (m : Nat) {d : Nat} (hd : 0 < d) : roundHalfEven (m * d) d = m := by
  unfold roundHalfEven
  simp only [Nat.mul_div_cancel _ hd, Nat.mul_mod_left, Nat.mul_zero, hd, if_true]

theorem ofParts?_self (x : Binary64) : ofParts? x.negative x.significand x.shift = some x := by
  have hne : x.significand ≠ 1 <<< 53 := x.significand_lt.ne
  unfold ofParts?
  rw [if_neg hne]
  simp only
  rw [dif_pos ⟨x.significand_lt, x.shift_le, x.normal⟩]

/-- Except for negative zero, the sign is that of the value. -/
theorem negative_eq {x : Binary64} (hzero : x.isZero = true → x.negative = false) :
    x.negative = decide (x.scaled < 0) := by
  unfold scaled
  cases hneg : x.negative
  · rw [if_neg (by decide), eq_comm, decide_eq_false_iff_not]
    omega
  · have hpos : x.magnitude ≠ 0 := by
      intro hm
      rw [hzero ((isZero_iff x).2 hm)] at hneg
      exact absurd hneg (by decide)
    rw [if_pos rfl, eq_comm, decide_eq_true_eq]
    omega

/-- A whole number has the sign of its integer, unless it is negative zero. -/
theorem negative_of_toInt? {x : Binary64} {n : ℤ} (h : x.toInt? = some n)
    (hzero : x.isZero = true → x.negative = false) : x.negative = decide (n < 0) := by
  have hunits : (0 : ℤ) < unitsPerOne := by exact_mod_cast unitsPerOne_pos
  have hsign : n * unitsPerOne < 0 * unitsPerOne ↔ n < 0 := mul_lt_mul_iff_left₀ hunits
  rw [zero_mul] at hsign
  rw [negative_eq hzero, toInt?_eq_some_iff_scaled.1 h]
  exact decide_eq_decide.2 hsign

/-- A whole number is read back from its integer; negative zero alone is not. -/
theorem ofInt?_toInt? {x : Binary64} {n : ℤ} (h : x.toInt? = some n)
    (hzero : x.isZero = true → x.negative = false) : ofInt? n = some x := by
  have hmag := magnitude_of_toInt? h
  -- rounding starts from the magnitude, which falls in the binade of the number
  have hden : 0 < 1 <<< x.shift := by
    rw [Nat.one_shiftLeft]
    exact Nat.pow_pos (by decide)
  have hunits : x.magnitude = x.significand * 1 <<< x.shift := by
    rw [Nat.one_shiftLeft, magnitude_eq]
  rw [ofInt?, ofRatio?]
  simp only [← hmag, Nat.div_one, shiftOf_magnitude]
  rw [hunits, roundHalfEven_mul _ hden, ← negative_of_toInt? h hzero, ofParts?_self]

/-- In any layout a number consists of digits, points, exponent marks and signs. -/
theorem decimalChar_of_mem_text {x : Binary64} {layout : Layout} {c : Char}
    (h : c ∈ (x.text layout).toList) : Decimal.decimalChar c := by
  rw [toList_text] at h
  rcases List.mem_append.1 h with h | h
  · unfold signChars at h
    split at h
    · rw [List.mem_singleton.1 h]
      exact Or.inr (by decide)
    · simp at h
  · exact Decimal.decimalChar_of_mem_text _ h

end Binary64

namespace Json.Number

/-! ## Numbers of a JSON text -/

/-- The rational number that a number denotes. -/
def value : Number → ℚ
  | .int n _ => n
  | .float x => x.value

/-- The text of a number says which number it is. -/
theorem text_injective {m n : Number} (h : m.text = n.text) : m = n := by
  -- an integer has neither point nor exponent mark, a floating-point number has one of them
  have hclash {k : ℤ} {x : Binary64} (h : intText k = x.text .jsonNumber) : False := by
    have hchars : ∀ c ∈ (x.text .jsonNumber).toList, c = '-' ∨ c.isDigit = true :=
      fun c hc => mem_intText (n := k) (h ▸ hc)
    rw [Binary64.toList_text] at hchars
    have hmark := (x.shortest Layout.jsonNumber.tie).mem_text_of_pointZero
      (rfl : Layout.jsonNumber.pointZero = true)
    rcases hmark with hmark | hmark
    · exact absurd (hchars _ (List.mem_append_right _ hmark)) (by decide)
    · exact absurd (hchars _ (List.mem_append_right _ hmark)) (by decide)
  cases m with
  | int a ha =>
    cases n with
    | int b hb =>
      obtain rfl := intText_injective h
      rfl
    | float y => exact (hclash h).elim
  | float x =>
    cases n with
    | int b hb => exact (hclash h.symm).elim
    | float y => rw [Binary64.text_injective h]

theorem decimalChar_of_mem_intText {n : Int} {c : Char} (h : c ∈ (intText n).toList) :
    Decimal.decimalChar c := by
  rcases mem_intText h with rfl | hdigit
  · exact Or.inr (by decide)
  · exact Or.inl hdigit

/-- The text of a number consists of digits, points, exponent marks and signs. -/
theorem decimalChar_of_mem_text {n : Number} {c : Char} (h : c ∈ n.text.toList) :
    Decimal.decimalChar c := by
  cases n with
  | int n _ => exact decimalChar_of_mem_intText h
  | float x => exact Binary64.decimalChar_of_mem_text h

theorem decimalChar_of_mem_cssText {n : Number} {c : Char} (h : c ∈ n.cssText.toList) :
    Decimal.decimalChar c := by
  cases n with
  | int n _ => exact decimalChar_of_mem_intText h
  | float x => exact Binary64.decimalChar_of_mem_text h

/-- The text of a number begins with a sign or a digit. -/
theorem exists_text_cons (n : Number) :
    ∃ c r, n.text.toList = c :: r ∧ (c = '-' ∨ c.isDigit = true) := by
  have hsigned (negative : Bool) {chars : List Char}
      (h : ∃ c r, chars = c :: r ∧ c.isDigit = true) :
      ∃ c r, signChars negative ++ chars = c :: r ∧ (c = '-' ∨ c.isDigit = true) := by
    obtain ⟨c, r, rfl, hc⟩ := h
    cases negative
    · exact ⟨c, r, rfl, Or.inr hc⟩
    · exact ⟨'-', c :: r, rfl, Or.inl rfl⟩
  cases n with
  | int n _ =>
    rw [text, toList_intText]
    exact hsigned _ (exists_digit_natDigits _)
  | float x =>
    rw [text, Binary64.toList_text]
    exact hsigned _ (Decimal.exists_digit_text _ _)

/-- A floating-point number becomes the integer of the range that it is, if it is one. -/
theorem canonical_float (x : Binary64) :
    (∃ n h, x.toInt? = some n ∧ canonical (.float x) = .int n h) ∨
    canonical (.float x) = .float x ∧ ∀ n, x.toInt? = some n → ¬InRange n := by
  cases hint : x.toInt? with
  | none => exact Or.inr ⟨by simp only [canonical, hint], fun n h => absurd h (by simp)⟩
  | some n =>
    by_cases hn : InRange n
    · exact Or.inl ⟨n, hn, rfl, by simp only [canonical, hint, dif_pos hn]⟩
    · refine Or.inr ⟨by simp only [canonical, hint, dif_neg hn], fun k hk => ?_⟩
      rw [← Option.some.inj hk]
      exact hn

/-- The canonical number has the same value. -/
theorem value_canonical (n : Number) : n.canonical.value = n.value := by
  cases n with
  | int n h => rfl
  | float x =>
    rcases canonical_float x with ⟨n, h, hint, heq⟩ | ⟨heq, -⟩
    · rw [heq]
      exact (Binary64.toInt?_eq_some_iff.1 hint).symm
    · rw [heq]

/-- Two numbers are canonically one exactly if they have one value. -/
theorem canonical_eq_iff {m n : Number} : m.canonical = n.canonical ↔ m.value = n.value := by
  refine ⟨fun h => by rw [← value_canonical m, h, value_canonical], fun h => ?_⟩
  -- a whole number of the integer range is its integer
  have hwhole {k : ℤ} (hk : InRange k) {x : Binary64} (hx : x.value = k) :
      canonical (.float x) = .int k hk := by
    have hint := Binary64.toInt?_eq_some_iff.2 hx
    rcases canonical_float x with ⟨n, hn, hint', heq⟩ | ⟨-, hout⟩
    · obtain rfl : k = n := Option.some.inj (hint.symm.trans hint')
      exact heq
    · exact absurd hk (hout k hint)
  cases m with
  | int a ha =>
    cases n with
    | int b hb =>
      obtain rfl : a = b := Int.cast_injective (α := ℚ) h
      rfl
    | float y => exact (hwhole ha h.symm).symm
  | float x =>
    cases n with
    | int b hb => exact hwhole hb h
    | float y =>
      rcases Binary64.eq_of_value_eq h with rfl | ⟨hx, hy⟩
      · rfl
      · have hzero : InRange 0 := by decide
        have hx0 := Binary64.toInt?_eq_some_iff.1 (Binary64.toInt?_of_isZero hx)
        have hy0 := Binary64.toInt?_eq_some_iff.1 (Binary64.toInt?_of_isZero hy)
        rw [hwhole hzero hx0, hwhole hzero hy0]

/-- Negative zero, the number that its integer does not give back. -/
def isNegativeZero : Number → Bool
  | .int _ _ => false
  | .float x => x.isZero && x.negative

theorem isNegativeZero_float {x : Binary64} (h : (Number.float x).isNegativeZero = false) :
    x.isZero = true → x.negative = false := by
  intro hzero
  rw [isNegativeZero, hzero, Bool.true_and] at h
  exact h

/-- The canonical number is the same floating-point number. -/
theorem toBinary64_canonical {n : Number} (h : n.isNegativeZero = false) :
    n.canonical.toBinary64 = n.toBinary64 := by
  cases n with
  | int n hn => rfl
  | float x =>
    rcases canonical_float x with ⟨n, hn, hint, heq⟩ | ⟨heq, -⟩
    · rw [heq, toBinary64, Binary64.ofInt?_toInt? hint (isNegativeZero_float h)]
      rfl
    · rw [heq]

end Json.Number

end WebStory
