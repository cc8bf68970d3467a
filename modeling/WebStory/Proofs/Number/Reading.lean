import WebStory.Proofs.Number.Spelling
/-
  A decimal in the interval of a number is read as this number.

  Reading the nearest number rounds twice in appearance only.  First the binade of the decimal is
  looked up, then the decimal is rounded to the numbers of this binade.

  1. **Within the binade** — a decimal in the interval of a number is less than half a step away
     from its significand, so it is rounded to it (`roundHalfEven_of_interval`).  At the ends of the
     interval it is just half a step away, and rounding to even decides as the interval does, which
     owns its ends exactly where the significand is even.

  2. **Below the binade** — the exception: just below a power of two a decimal falls in the binade
     below.  The steps are half as wide there, and the interval reaches down by half of such a step
     (`below_binade`), so the decimal is rounded up to the end of that binade and is carried over
     (`ofParts?_carry`).

  3. **Bounds** — a decimal with very many digits or zeros is not computed at all, but taken for
     zero or refused.  No decimal in the interval of a number is that large or that small
     (`order_within`).

  So the shortest decimal of a number is read as the number, and any decimal of the same value is
  (`ofDecimal?_of_value`).
-/

namespace WebStory.Binary64

/-! ## Rounding -/

/-- What lies within half a unit of an integer is rounded to it, at the ends if it is even. -/
theorem roundHalfEven_eq {num den m : Nat} (hden : 0 < den) (hlower : 2 * m * den ≤ 2 * num + den)
    (hupper : 2 * num ≤ 2 * m * den + den)
    (heven : 2 * m * den = 2 * num + den ∨ 2 * num = 2 * m * den + den → m % 2 = 0) :
    roundHalfEven num den = m := by
  have hdivide : num = den * (num / den) + num % den := (Nat.div_add_mod num den).symm
  have hrest : num % den < den := Nat.mod_lt num hden
  unfold roundHalfEven
  simp only
  generalize num / den = quotient at *
  generalize num % den = rest at *
  subst hdivide
  -- the quotient is the integer or the one before it
  have hcases : quotient = m ∨ quotient + 1 = m := by
    rcases Nat.lt_trichotomy quotient m with hlt | heq | hgt
    · refine Or.inr (Nat.le_antisymm hlt ?_)
      by_contra hfar
      have hmul : (quotient + 2) * den ≤ m * den := Nat.mul_le_mul_right den (by omega)
      rw [Nat.add_mul, Nat.mul_comm quotient den] at hmul
      rw [Nat.mul_assoc] at hlower
      omega
    · exact Or.inl heq
    · have hmul : (m + 1) * den ≤ quotient * den := Nat.mul_le_mul_right den hgt
      rw [Nat.add_mul, Nat.mul_comm quotient den] at hmul
      rw [Nat.mul_assoc] at hupper
      omega
  rcases hcases with rfl | rfl
  · rw [Nat.mul_assoc, Nat.mul_comm quotient den] at hlower hupper heven
    split
    · rfl
    · split
      · omega
      · have hmiddle := heven (Or.inr (by omega))
        omega
  · rw [Nat.mul_assoc, Nat.add_mul, Nat.mul_comm quotient den] at hlower hupper heven
    split
    · omega
    · split
      · rfl
      · have hmiddle := heven (Or.inl (by omega))
        omega

theorem shiftOf_of_lt {units : Nat} (h : units < 2 ^ 53) : shiftOf units = 0 := by
  unfold shiftOf
  rcases Nat.eq_zero_or_pos units with rfl | hpos
  · decide
  · have hlog : units.log2 < 53 := (Nat.log2_lt hpos.ne').2 h
    omega

theorem shiftOf_of_bounds {units shift : Nat} (hlower : 2 ^ (52 + shift) ≤ units)
    (hupper : units < 2 ^ (53 + shift)) : shiftOf units = shift := by
  have hne : units ≠ 0 := by
    have := Nat.pow_pos (n := 52 + shift) (by decide : 0 < 2)
    omega
  have hlog : units.log2 = 52 + shift := by
    rw [Nat.log2_eq_iff hne]
    exact ⟨hlower, by rwa [Nat.add_right_comm]⟩
  unfold shiftOf
  omega

/-- A significand of 2^53 is carried into the next binade. -/
theorem ofParts?_carry {x : Binary64} {shift : Nat} (hsig : x.significand = 1 <<< 52)
    (hshift : x.shift = shift + 1) : ofParts? x.negative (1 <<< 53) shift = some x := by
  have hself := ofParts?_self x
  unfold ofParts? at hself ⊢
  rw [if_neg x.significand_lt.ne] at hself
  rw [if_pos rfl]
  simp only [hsig, hshift] at hself
  exact hself

/-! ## The interval -/

section Ratio

variable {x : Binary64} {num den : Nat} (hden : 0 < den)

include hden in
/-- The quotient stays below the end of the binade. -/
theorem ratio_lt (hupper : 4 * (unitsPerOne * num) ≤ x.upperEnd * den) :
    unitsPerOne * num < 2 ^ (53 + x.shift) * den := by
  have hlt := x.significand_lt
  have hpos : 0 < 2 ^ x.shift * den := Nat.mul_pos (Nat.pow_pos (by decide)) hden
  have hmul : (x.significand + 1) * (2 ^ x.shift * den) ≤ 2 ^ 53 * (2 ^ x.shift * den) :=
    Nat.mul_le_mul_right _ hlt
  rw [upperEnd_eq, Nat.mul_assoc, Nat.add_mul, Nat.mul_assoc] at hupper
  rw [Nat.add_mul] at hmul
  rw [pow_add, Nat.mul_assoc]
  omega

variable (hlower : x.lowerEnd * den ≤ 4 * (unitsPerOne * num))
include hden hlower

/-- In the binade of the number the quotient is rounded to its significand. -/
theorem roundHalfEven_of_interval (hsig : x.significand ≠ 0)
    (hupper : 4 * (unitsPerOne * num) ≤ x.upperEnd * den)
    (heven : x.lowerEnd * den = 4 * (unitsPerOne * num) ∨
      4 * (unitsPerOne * num) = x.upperEnd * den → x.significand % 2 = 0) :
    roundHalfEven (unitsPerOne * num) (den <<< x.shift) = x.significand := by
  have hwide : 0 < den * 2 ^ x.shift := Nat.mul_pos hden (Nat.pow_pos (by decide))
  have hgap := x.lowerGap_le
  have hlowerEnd : x.lowerEnd * den + x.lowerGap * (den * 2 ^ x.shift) =
      4 * (x.significand * (den * 2 ^ x.shift)) := by
    have hsub : 4 * x.significand - x.lowerGap + x.lowerGap = 4 * x.significand := by omega
    rw [lowerEnd_eq, Nat.mul_assoc, Nat.mul_comm _ den, ← Nat.add_mul, hsub, Nat.mul_assoc]
  have hupperEnd : x.upperEnd * den =
      4 * (x.significand * (den * 2 ^ x.shift)) + 2 * (den * 2 ^ x.shift) := by
    rw [upperEnd_eq, Nat.mul_assoc, Nat.mul_comm _ den, Nat.add_mul, Nat.mul_assoc]
  rw [Nat.shiftLeft_eq]
  generalize den * 2 ^ x.shift = step at *
  have hstep : x.lowerGap * step ≤ 2 * step := Nat.mul_le_mul_right step hgap
  refine roundHalfEven_eq hwide ?_ ?_ ?_
  · rw [Nat.mul_assoc]
    omega
  · rw [Nat.mul_assoc]
    omega
  · rw [Nat.mul_assoc]
    rintro (hend | hend)
    · exact heven (Or.inl (by omega))
    · exact heven (Or.inr (by omega))

/-- Below its binade the interval of a number reaches only if the number is the first of it, and no
    further than half a step of the binade below. -/
theorem below_binade {shift : Nat} (hshift : x.shift = shift + 1)
    (hbelow : unitsPerOne * num < 2 ^ (53 + shift) * den) :
    x.significand = 1 <<< 52 ∧
      (2 ^ 54 - 1) * (den * 2 ^ shift) ≤ 2 * (unitsPerOne * num) := by
  have hwide : 0 < den * 2 ^ shift := Nat.mul_pos hden (Nat.pow_pos (by decide))
  have hnormal : 1 <<< 52 ≤ x.significand := x.normal.resolve_right (by omega)
  have hgap := x.lowerGap_le
  have hlowerEnd : x.lowerEnd * den = (4 * x.significand - x.lowerGap) * 2 * (den * 2 ^ shift) := by
    rw [lowerEnd_eq, hshift, pow_succ]
    ring
  rw [hlowerEnd] at hlower
  rw [pow_add, Nat.mul_assoc, Nat.mul_comm _ den] at hbelow
  generalize den * 2 ^ shift = step at *
  have hfirst : x.significand = 1 <<< 52 := by
    by_contra hne
    have hmul : 2 ^ 55 * step ≤ (4 * x.significand - x.lowerGap) * 2 * step :=
      Nat.mul_le_mul_right step (by omega)
    omega
  have hnarrow : x.lowerGap = 1 := by
    have hshift0 : x.shift ≠ 0 := by omega
    simp [lowerGap, narrowBelow, hfirst, hshift0]
  have hdouble : (4 * 1 <<< 52 - 1) * 2 = 2 * (2 ^ 54 - 1) := by decide
  refine ⟨hfirst, ?_⟩
  rw [hnarrow, hfirst, hdouble, Nat.mul_assoc] at hlower
  omega

/-- A quotient in the interval of a number is read as the number. -/
theorem ofRatio?_of_interval (hsig : x.significand ≠ 0)
    (hupper : 4 * (unitsPerOne * num) ≤ x.upperEnd * den)
    (heven : x.lowerEnd * den = 4 * (unitsPerOne * num) ∨
      4 * (unitsPerOne * num) = x.upperEnd * den → x.significand % 2 = 0) :
    ofRatio? x.negative num den = some x := by
  have hlt : unitsPerOne * num / den < 2 ^ (53 + x.shift) :=
    (Nat.div_lt_iff_lt_mul hden).2 (ratio_lt hden hupper)
  have hwithin (hshift : shiftOf (unitsPerOne * num / den) = x.shift) :
      ofRatio? x.negative num den = some x := by
    unfold ofRatio?
    simp only [hshift]
    rw [roundHalfEven_of_interval hden hlower hsig hupper heven, ofParts?_self]
  cases hshift : x.shift with
  | zero =>
    refine hwithin ?_
    rw [hshift, shiftOf_of_lt]
    rwa [hshift] at hlt
  | succ shift =>
    by_cases hbelow : unitsPerOne * num < 2 ^ (53 + shift) * den
    · -- the quotient falls in the binade below, and is rounded up to the end of it
      obtain ⟨hfirst, hnear⟩ := below_binade hden hlower hshift hbelow
      have hwide : 0 < den * 2 ^ shift := Nat.mul_pos hden (Nat.pow_pos (by decide))
      have hbinade : shiftOf (unitsPerOne * num / den) = shift := by
        refine shiftOf_of_bounds ?_ ((Nat.div_lt_iff_lt_mul hden).2 hbelow)
        rw [Nat.le_div_iff_mul_le hden, pow_add, Nat.mul_assoc, Nat.mul_comm _ den]
        omega
      have hround : roundHalfEven (unitsPerOne * num) (den <<< shift) = 1 <<< 53 := by
        rw [pow_add, Nat.mul_assoc, Nat.mul_comm _ den] at hbelow
        rw [Nat.shiftLeft_eq]
        refine roundHalfEven_eq hwide ?_ ?_ fun _ => by decide
        · omega
        · omega
      unfold ofRatio?
      simp only [hbinade]
      rw [hround, ofParts?_carry hfirst hshift]
    · have hexponent : 52 + x.shift = 53 + shift := by omega
      refine hwithin (shiftOf_of_bounds ?_ hlt)
      rw [Nat.le_div_iff_mul_le hden, hexponent]
      exact Nat.not_lt.1 hbelow

end Ratio

/-! ## Decimals -/

theorem shortest_of_zero {x : Binary64} (h : x.significand = 0) (tie : Tie) :
    x.shortest tie = ⟨0, 0⟩ := if_pos (by rw [isZero, h]; rfl)

theorem lowerEnd_pos {x : Binary64} (hsig : x.significand ≠ 0) : 0 < x.lowerEnd := by
  have hgap := x.lowerGap_le
  rw [lowerEnd_eq]
  exact Nat.mul_pos (by omega) (Nat.pow_pos (by decide))

/-- The interval of a number other than zero does not reach down to zero. -/
theorem digits_ne_zero {x : Binary64} (hsig : x.significand ≠ 0) {d : Decimal}
    (h : x.InInterval (quartersOf d)) : d.digits ≠ 0 := by
  intro hzero
  have hend : (0 : ℚ) < x.lowerEnd := by exact_mod_cast lowerEnd_pos hsig
  have hquarters : quartersOf d = 0 := by simp [quartersOf, Decimal.value, hzero]
  have hlower := h.1
  rw [hquarters] at hlower
  exact absurd hlower (not_le.2 hend)

/-- A natural number has as many digits as it needs. -/
theorem natDigits_bounds {n : Nat} (h : n ≠ 0) :
    10 ^ ((natDigits n).length - 1) ≤ n ∧ n < 10 ^ (natDigits n).length := by
  have hlength : 0 < (natDigits n).length := List.length_pos_iff.2 (natDigits_ne_nil n)
  refine ⟨?_, (Nat.length_toDigits_le_iff (by decide) hlength).1 le_rfl⟩
  rcases Nat.eq_zero_or_pos ((natDigits n).length - 1) with hone | hmore
  · rw [hone]
    omega
  · by_contra hsmall
    have hle := (Nat.length_toDigits_le_iff (by decide) hmore).2 (Nat.not_le.1 hsmall)
    have hlength' : (Nat.toDigits 10 n).length = (natDigits n).length := rfl
    omega

/-- The number of digits before the point bounds the value. -/
theorem value_bounds {digits : Nat} (h : digits ≠ 0) (exponent : ℤ) :
    (10 : ℚ) ^ ((natDigits digits).length + exponent - 1) ≤ Decimal.value ⟨digits, exponent⟩ ∧
      Decimal.value ⟨digits, exponent⟩ < (10 : ℚ) ^ ((natDigits digits).length + exponent) := by
  have hten : (10 : ℚ) ≠ 0 := by norm_num
  have hpos : (0 : ℚ) < 10 ^ exponent := zpow_pos (by norm_num) _
  have hlength : 0 < (natDigits digits).length := List.length_pos_iff.2 (natDigits_ne_nil digits)
  obtain ⟨hlower, hupper⟩ := natDigits_bounds h
  have hlower' : (10 : ℚ) ^ ((natDigits digits).length - 1) ≤ digits := by exact_mod_cast hlower
  have hupper' : (digits : ℚ) < 10 ^ (natDigits digits).length := by exact_mod_cast hupper
  have hexp : ((natDigits digits).length : ℤ) + exponent - 1 =
      ((natDigits digits).length - 1 : Nat) + exponent := by omega
  rw [hexp, zpow_add₀ hten, zpow_add₀ hten, zpow_natCast, zpow_natCast, Decimal.value]
  exact ⟨mul_le_mul_of_nonneg_right hlower' hpos.le, mul_lt_mul_of_pos_right hupper' hpos⟩

/-- Decimals in the interval of a number are neither too large nor too small to be looked at. -/
theorem order_within {x : Binary64} (hsig : x.significand ≠ 0) {digits : Nat} {exponent : ℤ}
    (h : x.InInterval (quartersOf ⟨digits, exponent⟩)) :
    -329 ≤ ((natDigits digits).length : ℤ) + exponent ∧
      ((natDigits digits).length : ℤ) + exponent ≤ 309 := by
  obtain ⟨hleast, hgreatest⟩ := value_bounds (digits_ne_zero hsig h) exponent
  obtain ⟨hlower, hupper, -⟩ := h
  have hunits : (0 : ℚ) < 4 * unitsPerOne :=
    mul_pos (by norm_num) (Nat.cast_pos.2 unitsPerOne_pos)
  have hone : (1 : ℚ) < 10 := by norm_num
  rw [quartersOf] at hlower hupper
  generalize Decimal.value ⟨digits, exponent⟩ = value at *
  generalize ((natDigits digits).length : ℤ) + exponent = order at *
  constructor
  · -- a smaller decimal lies below the interval of any number
    have hend : 1 ≤ x.lowerEnd := lowerEnd_pos hsig
    have hsmall : 4 * unitsPerOne < 10 ^ 329 := by decide +kernel
    have hend' : (1 : ℚ) ≤ x.lowerEnd := by exact_mod_cast hend
    have hsmall' : (4 * unitsPerOne : ℚ) < 10 ^ (329 : ℤ) := by exact_mod_cast hsmall
    have hproduct : (1 : ℚ) < 10 ^ order * 10 ^ (329 : ℤ) :=
      calc (1 : ℚ) ≤ value * (4 * unitsPerOne) := hend'.trans hlower
        _ < 10 ^ order * (4 * unitsPerOne) := mul_lt_mul_of_pos_right hgreatest hunits
        _ < 10 ^ order * 10 ^ (329 : ℤ) := mul_lt_mul_of_pos_left hsmall' (zpow_pos (by norm_num) _)
    rw [← zpow_add₀ (by norm_num)] at hproduct
    have := (one_lt_zpow_iff_right₀ hone).1 hproduct
    omega
  · -- the shift is a variable, so that its power is not computed
    obtain ⟨k, hk⟩ : ∃ k : Nat, 2045 = k := ⟨_, rfl⟩
    have hend : x.upperEnd ≤ 2 ^ 55 * 2 ^ k := by
      have hlt := x.significand_lt
      rw [upperEnd_eq]
      exact Nat.mul_le_mul (by omega) (Nat.pow_le_pow_right (by decide) (hk ▸ x.shift_le))
    have hlarge : 2 ^ 55 * 2 ^ k < 10 ^ 309 * (4 * unitsPerOne) := by
      rw [← hk]
      decide +kernel
    have hend' : (x.upperEnd : ℚ) < 10 ^ (309 : ℤ) * (4 * unitsPerOne) := by
      exact_mod_cast hend.trans_lt hlarge
    have hvalue : value < 10 ^ (309 : ℤ) :=
      lt_of_mul_lt_mul_right (hupper.trans_lt hend') hunits.le
    have := (zpow_lt_zpow_iff_right₀ hone).1 (hleast.trans_lt hvalue)
    omega

/-- A quotient in the interval of a number, counted in quarters, is read as the number. -/
theorem ofRatio?_of_inInterval {x : Binary64} (hsig : x.significand ≠ 0) {num den : Nat}
    (hden : 0 < den) {v : ℚ} (hv : v * den = (4 * (unitsPerOne * num) : Nat))
    (h : x.InInterval v) : ofRatio? x.negative num den = some x := by
  obtain ⟨hlower, hupper, heven⟩ := h
  have hden' : (0 : ℚ) < den := by exact_mod_cast hden
  refine ofRatio?_of_interval hden ?_ hsig ?_ ?_
  · have hmul := mul_le_mul_of_nonneg_right hlower hden'.le
    rw [hv] at hmul
    exact_mod_cast hmul
  · have hmul := mul_le_mul_of_nonneg_right hupper hden'.le
    rw [hv] at hmul
    exact_mod_cast hmul
  · rintro (hend | hend)
    · refine heven (Or.inl (mul_right_cancel₀ hden'.ne' ?_))
      rw [hv, ← hend]
      push_cast
      rfl
    · refine heven (Or.inr (mul_right_cancel₀ hden'.ne' ?_))
      rw [hv, hend]
      push_cast
      rfl

/-- A decimal in the interval of a number, zero apart, is read as the number. -/
theorem ofDecimal?_of_inInterval {x : Binary64} (hsig : x.significand ≠ 0) {digits : Nat}
    {exponent : ℤ} (h : x.InInterval (quartersOf ⟨digits, exponent⟩)) :
    ofDecimal? x.negative digits exponent = some x := by
  have hdigits : digits ≠ 0 := digits_ne_zero hsig h
  obtain ⟨hsmall, hlarge⟩ := order_within hsig h
  have htoDigits : (Nat.toDigits 10 digits).length = (natDigits digits).length := rfl
  unfold ofDecimal?
  rw [if_neg hdigits]
  simp only [htoDigits]
  rw [if_neg (by omega), if_neg (by omega)]
  have hten : (10 : ℚ) ≠ 0 := by norm_num
  split
  · next hneg =>
    -- a quotient by a power of ten
    have hpow : (10 : ℚ) ^ exponent * 10 ^ exponent.natAbs = 1 := by
      rw [← zpow_natCast, ← zpow_add₀ hten]
      have hsum : exponent + exponent.natAbs = 0 := by omega
      rw [hsum, zpow_zero]
    refine ofRatio?_of_inInterval hsig (Nat.pow_pos (by decide)) ?_ h
    calc quartersOf ⟨digits, exponent⟩ * (Nat.pow 10 exponent.natAbs : Nat)
        = digits * (4 * unitsPerOne) * (10 ^ exponent * 10 ^ exponent.natAbs) := by
          rw [quartersOf, Decimal.value, Nat.pow_eq]
          push_cast
          ring
      _ = (4 * (unitsPerOne * digits) : Nat) := by
          rw [hpow]
          push_cast
          ring
  · next hpos =>
    -- a whole number
    have hpow : (10 : ℚ) ^ exponent = 10 ^ exponent.natAbs := by
      rw [← zpow_natCast]
      congr 1
      omega
    refine ofRatio?_of_inInterval hsig Nat.one_pos ?_ h
    rw [quartersOf, Decimal.value, Nat.pow_eq, hpow]
    push_cast
    ring

/-- A decimal with the value of the shortest one is read as the number, zero with its sign. -/
theorem ofDecimal?_of_value {x : Binary64} {tie : Tie} {d : Decimal}
    (h : d.value = (x.shortest tie).value) : ofDecimal? x.negative d.digits d.exponent = some x := by
  by_cases hsig : x.significand = 0
  · -- zero is written as zero, and has the smallest shift
    have hdigits : d.digits = 0 := by
      rw [shortest_of_zero hsig tie, Decimal.value, Decimal.value, Nat.cast_zero, zero_mul,
        mul_eq_zero] at h
      exact_mod_cast h.resolve_right (zpow_ne_zero _ (by norm_num))
    have hmagnitude : (zero x.negative).magnitude = x.magnitude :=
      (magnitude_eq_zero.2 rfl).trans (magnitude_eq_zero.2 hsig).symm
    rw [ofDecimal?, if_pos hdigits]
    exact congrArg some (ext_of_magnitude rfl hmagnitude)
  · have hinterval := inInterval_shortest x tie
    rw [quartersOf, ← h] at hinterval
    exact ofDecimal?_of_inInterval hsig hinterval

end WebStory.Binary64
