import WebStory.Number.Scale
import WebStory.Proofs.Number.Reading
/-
  Where the two roundings of a decimal are one.

  A decimal that is read by way of a product or a quotient is rounded up to three times: its digits,
  the power of ten, and the outcome.

  1. **Exact factors** — the first two roundings change nothing where the digits are below 2^53 and
     the power is at most 10^22, which is 5^22 and so many twos (`exists_ofRatio?_whole`).

  2. **The outcome** — what is left to round is then the decimal itself, counted in other units, and
     a rounding does not see the units (`ofRatio?_mul_right`).  So such a decimal is read as the
     number nearest to it (`ofScaled?_eq_ofDecimal?`).

  Beyond these bounds it need not be: two roundings can lead to a neighbour of the nearest number.
-/

namespace WebStory.Binary64

/-! ## Ratios -/

theorem roundHalfEven_mul_right (num den : Nat) {c : Nat} (hc : 0 < c) :
    roundHalfEven (num * c) (den * c) = roundHalfEven num den := by
  unfold roundHalfEven
  simp only [Nat.mul_div_mul_right _ _ hc, Nat.mul_mod_mul_right, ← Nat.mul_assoc,
    Nat.mul_lt_mul_right hc]

/-- A ratio is the same in other units. -/
theorem ofRatio?_mul_right (negative : Bool) (num den : Nat) {c : Nat} (hc : 0 < c) :
    ofRatio? negative (num * c) (den * c) = ofRatio? negative num den := by
  have hunits : unitsPerOne * (num * c) = unitsPerOne * num * c := (Nat.mul_assoc _ _ _).symm
  have hshift (shift : Nat) : (den * c) <<< shift = (den <<< shift) * c := by
    rw [Nat.shiftLeft_eq, Nat.shiftLeft_eq, Nat.mul_right_comm]
  unfold ofRatio?
  simp only [hunits, Nat.mul_div_mul_right _ _ hc, hshift, roundHalfEven_mul_right _ _ hc]

theorem ofRatio?_zero (negative : Bool) (den : Nat) :
    ofRatio? negative 0 den = some (zero negative) := by
  have hround (den : Nat) : roundHalfEven 0 den = 0 := by
    unfold roundHalfEven
    simp only [Nat.zero_div, Nat.zero_mod]
    split
    · rfl
    · split <;> omega
  unfold ofRatio?
  simp only [Nat.mul_zero, Nat.zero_div, hround]
  rfl

/-! ## Numbers that are not rounded -/

/-- A natural number of 53 bits, with any zeros behind them, is a floating-point number. -/
theorem exists_ofRatio?_whole (negative : Bool) {m k : Nat} (hlt : m < 2 ^ 53) (hk : k ≤ 900) :
    ∃ x, ofRatio? negative (m * 2 ^ k) 1 = some x ∧ x.negative = negative ∧
      x.magnitude = m * 2 ^ k * unitsPerOne := by
  by_cases hm : m = 0
  · subst hm
    rw [Nat.zero_mul]
    exact ⟨zero negative, ofRatio?_zero negative 1, rfl, by rw [Nat.zero_mul]; rfl⟩
  -- its bits are moved to the front
  have hlog : m.log2 ≤ 52 := Nat.le_of_lt_succ ((Nat.log2_lt hm).2 hlt)
  have hpow (i : Nat) (hi : m.log2 ≤ i) : 2 ^ m.log2 * 2 ^ (i - m.log2) = 2 ^ i := by
    rw [← Nat.pow_add, Nat.add_sub_cancel' hi]
  have hlower : 1 <<< 52 ≤ m * 2 ^ (52 - m.log2) := by
    rw [Nat.one_shiftLeft, ← hpow 52 hlog]
    exact Nat.mul_le_mul_right _ (Nat.log2_self_le hm)
  have hupper : m * 2 ^ (52 - m.log2) < 1 <<< 53 := by
    have htwice : 2 ^ (m.log2 + 1) * 2 ^ (52 - m.log2) = 2 ^ 53 := by
      rw [← Nat.pow_add]
      congr 1
      omega
    rw [Nat.one_shiftLeft, ← htwice]
    exact Nat.mul_lt_mul_of_pos_right Nat.lt_log2_self (Nat.pow_pos (by decide))
  let x : Binary64 :=
    ⟨negative, m * 2 ^ (52 - m.log2), 1022 + k + m.log2, hupper, by omega, Or.inl hlower⟩
  have hmagnitude : x.magnitude = m * 2 ^ k * unitsPerOne := by
    have hexp : 52 - m.log2 + (1022 + k + m.log2) = k + 1074 := by omega
    rw [magnitude_eq, unitsPerOne, Nat.one_shiftLeft, Nat.mul_assoc, ← Nat.pow_add, hexp,
      Nat.pow_add, Nat.mul_assoc]
  have hsig : x.significand ≠ 0 := by
    have hpos : 0 < 1 <<< 52 := by decide
    exact (hpos.trans_le hlower).ne'
  have hself := inInterval_self hsig
  refine ⟨x, ofRatio?_of_inInterval hsig Nat.one_pos ?_ hself, rfl, hmagnitude⟩
  rw [hmagnitude, Nat.mul_comm unitsPerOne]
  push_cast
  ring

/-- Powers of ten up to 10^22 are floating-point numbers. -/
theorem exists_powerOfTen? {n : Nat} (h : n ≤ 22) :
    ∃ x, powerOfTen? n = some x ∧ x.negative = false ∧ x.magnitude = 10 ^ n * unitsPerOne := by
  have hfive : 5 ^ n < 2 ^ 53 := (Nat.pow_le_pow_right (by decide) h).trans_lt (by decide)
  obtain ⟨x, hx, hsign, hmagnitude⟩ := exists_ofRatio?_whole false hfive (h.trans (by decide) : n ≤ 900)
  have hten : 5 ^ n * 2 ^ n = 10 ^ n := by rw [← Nat.mul_pow]
  rw [hten] at hx hmagnitude
  exact ⟨x, hx, hsign, hmagnitude⟩

/-! ## Decimals -/

theorem length_toDigits_of_lt {n : Nat} (h : n < 2 ^ 53) : (Nat.toDigits 10 n).length ≤ 16 :=
  (Nat.length_toDigits_le_iff (by decide) (by decide)).2 (h.trans (by decide))

/-- Digits below 2^53 and a power of ten up to 10^22 make the nearest number. -/
theorem ofScaled?_eq_ofDecimal? (negative : Bool) {significand : Nat} {exponent : ℤ}
    (hlt : significand < 2 ^ 53) (hexp : exponent.natAbs ≤ 22) :
    ofScaled? negative significand exponent = ofDecimal? negative significand exponent := by
  have hunits := unitsPerOne_pos
  obtain ⟨x, hx, hsign, hmagnitude⟩ := exists_ofRatio?_whole negative hlt (Nat.zero_le 900)
  obtain ⟨power, hpower, hpositive, hten⟩ := exists_powerOfTen? hexp
  rw [Nat.pow_zero, Nat.mul_one] at hx hmagnitude
  -- both factors are exact, so their product or quotient is rounded once
  have hscaled : ofScaled? negative significand exponent =
      if 0 ≤ exponent then ofRatio? negative (significand * 10 ^ exponent.natAbs) 1
      else ofRatio? negative significand (10 ^ exponent.natAbs) := by
    have hstep : ofScaled? negative significand exponent =
        if 0 ≤ exponent then x.mul? power else x.div? power := by
      unfold ofScaled? scale?
      rw [hx, Option.bind_eq_bind, Option.bind_some, if_pos (hexp.trans (by decide)), hpower]
      rfl
    have hmul : x.mul? power = ofRatio? negative (significand * 10 ^ exponent.natAbs) 1 := by
      rw [← ofRatio?_mul_right negative _ 1 (Nat.mul_pos hunits hunits), mul?, hsign, hpositive,
        hmagnitude, hten, Bool.bne_false, Nat.mul_mul_mul_comm, Nat.one_mul]
    have hdiv : x.div? power = ofRatio? negative significand (10 ^ exponent.natAbs) := by
      rw [← ofRatio?_mul_right negative _ _ hunits, div?, hsign, hpositive, hmagnitude, hten,
        Bool.bne_false]
    rw [hstep, hmul, hdiv]
  -- a decimal of this size is not dismissed by its order alone
  have hlength := length_toDigits_of_lt hlt
  have hlarge : ¬((Nat.toDigits 10 significand).length : ℤ) + exponent > 309 := by omega
  have hsmall : ¬((Nat.toDigits 10 significand).length : ℤ) + exponent < -329 := by omega
  rw [hscaled]
  unfold ofDecimal?
  by_cases hzero : significand = 0
  · rw [if_pos hzero, hzero, Nat.zero_mul, ofRatio?_zero, ofRatio?_zero, ite_self]
  · simp only [if_neg hzero, if_neg hlarge, if_neg hsmall, Nat.pow_eq]
    split
    · next hpos => rw [if_neg (not_lt.2 hpos)]
    · next hneg => rw [if_pos (not_le.1 hneg)]

end WebStory.Binary64
