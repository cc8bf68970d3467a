import WebStory.Proofs.Number.DecimalText
/-
  The reals that round to a number.

  1. **The interval** — it reaches halfway to the numbers above and below, and has its ends where
     the significand is even.  It is counted in quarters of the smallest positive number, so that
     halves of gaps are whole.  At a power of two the gap below is only half as wide (`lowerGap`).
     A decimal reads back as a number exactly if it lies in the number's interval (`readsBack_iff`).

  2. **Intervals do not meet** — where the upper end of one is the lower end of the next, one of the
     two significands is odd, and an odd one does not own its ends (`upperEnd_le_lowerEnd`).  The
     case where the next number begins a binade is the one to look at, as there the steps change.
     So a rational number is in the interval of one magnitude at most (`eq_of_inInterval`).

  3. **The search** — it only ever answers with a decimal that reads back, and if it finds none it
     answers with the exact decimal, of which the number itself is the value
     (`inInterval_shortest`).  So the shortest decimal tells which number it is of.  That it is as
     short as can be is not needed for this.
-/

namespace WebStory.Binary64

/-! ## Quarters of the smallest number -/

theorem unitsPerOne_pos : 0 < unitsPerOne := by decide +kernel

/-- A decimal counted in quarters of the smallest positive number. -/
def quartersOf (d : Decimal) : ℚ := d.value * (4 * unitsPerOne)

/-- The comparison of the search is that of rational numbers. -/
theorem compareQuarters_eq (digits : Nat) (exponent : ℤ) (quarters : Nat) :
    compareQuarters digits exponent quarters =
      compare (quartersOf ⟨digits, exponent⟩) quarters := by
  -- the search compares both sides times the power of ten that makes them whole
  have hten : (0 : ℚ) < 10 := by norm_num
  have hneg : (0 : ℚ) < 10 ^ (-exponent).toNat := pow_pos hten _
  have hsplit : (10 : ℚ) ^ exponent * 10 ^ (-exponent).toNat = 10 ^ exponent.toNat := by
    rw [← zpow_natCast, ← zpow_natCast, ← zpow_add₀ hten.ne']
    congr 1
    omega
  have hscaled : quartersOf ⟨digits, exponent⟩ * 10 ^ (-exponent).toNat =
      (4 * unitsPerOne * (Nat.pow 10 exponent.toNat * digits) : Nat) := by
    rw [Nat.pow_eq, quartersOf, Decimal.value]
    push_cast
    rw [← hsplit]
    ring
  have hquarters : (quarters : ℚ) * 10 ^ (-exponent).toNat =
      (Nat.pow 10 (-exponent).toNat * quarters : Nat) := by
    rw [Nat.pow_eq]
    push_cast
    ring
  have hlt : quartersOf ⟨digits, exponent⟩ < quarters ↔
      4 * unitsPerOne * (Nat.pow 10 exponent.toNat * digits) <
        Nat.pow 10 (-exponent).toNat * quarters := by
    rw [← mul_lt_mul_iff_left₀ hneg, hscaled, hquarters, Nat.cast_lt]
  have heq : quartersOf ⟨digits, exponent⟩ = quarters ↔
      4 * unitsPerOne * (Nat.pow 10 exponent.toNat * digits) =
        Nat.pow 10 (-exponent).toNat * quarters := by
    rw [← mul_left_inj' hneg.ne', hscaled, hquarters, Nat.cast_inj]
  rw [compareQuarters, LinearOrder.compare_eq_compareOfLessAndEq,
    LinearOrder.compare_eq_compareOfLessAndEq]
  simp only [compareOfLessAndEq, hlt, heq]

/-! ## The interval -/

/-- The reals, in quarters of the smallest positive number, that round to a number's magnitude.
    The ends belong to it where the significand is even. -/
def InInterval (x : Binary64) (v : ℚ) : Prop :=
  x.lowerEnd ≤ v ∧ v ≤ x.upperEnd ∧
    (v = x.lowerEnd ∨ v = x.upperEnd → x.significand % 2 = 0)

/-- A decimal reads back exactly if it lies in the interval. -/
theorem readsBack_iff (x : Binary64) (d : Decimal) :
    x.readsBack d = true ↔ x.InInterval (quartersOf d) := by
  unfold readsBack InInterval
  simp only [compareQuarters_eq, Bool.and_eq_true, Bool.or_eq_true, beq_iff_eq, compare_gt_iff_gt,
    compare_lt_iff_lt, compare_eq_iff_eq]
  constructor
  · -- an end counts only where the significand is even
    rintro ⟨hlower, hupper⟩
    refine ⟨?_, ?_, ?_⟩
    · rcases hlower with h | ⟨-, h⟩
      · exact le_of_lt h
      · exact h.ge
    · rcases hupper with h | ⟨-, h⟩
      · exact le_of_lt h
      · exact h.le
    · rintro (h | h)
      · rcases hlower with h' | ⟨heven, -⟩
        · exact absurd h h'.ne'
        · exact heven
      · rcases hupper with h' | ⟨heven, -⟩
        · exact absurd h h'.ne
        · exact heven
  · rintro ⟨hlower, hupper, heven⟩
    constructor
    · rcases hlower.lt_or_eq with h | h
      · exact Or.inl h
      · exact Or.inr ⟨heven (Or.inl h.symm), h.symm⟩
    · rcases hupper.lt_or_eq with h | h
      · exact Or.inl h
      · exact Or.inr ⟨heven (Or.inr h), h⟩

/-! ## Intervals do not meet -/

/-- How far below four times the significand the interval begins. -/
def lowerGap (x : Binary64) : Nat := if x.narrowBelow then 1 else 2

theorem lowerEnd_eq (x : Binary64) :
    x.lowerEnd = (4 * x.significand - x.lowerGap) * 2 ^ x.shift := by
  rw [lowerEnd, Nat.shiftLeft_eq]
  rfl

theorem upperEnd_eq (x : Binary64) : x.upperEnd = (4 * x.significand + 2) * 2 ^ x.shift := by
  rw [upperEnd, Nat.shiftLeft_eq]

theorem lowerGap_le (x : Binary64) : x.lowerGap ≤ 2 := by
  unfold lowerGap
  split <;> omega

/-- Where the gap is narrow the significand is the least of its binade, which is not the first. -/
theorem lowerGap_lt {x : Binary64} (h : x.lowerGap < 2) :
    x.significand = 1 <<< 52 ∧ x.shift ≠ 0 := by
  unfold lowerGap at h
  split at h
  · next hnarrow => simpa [narrowBelow] using hnarrow
  · omega

/-- Beyond the first binade an interval begins at the end of the binade below, or later. -/
theorem le_four_mul_sub_lowerGap {x : Binary64} (h : x.shift ≠ 0) :
    2 ^ 54 - 1 ≤ 4 * x.significand - x.lowerGap := by
  have hnormal : 1 <<< 52 ≤ x.significand := x.normal.resolve_right h
  have hle := x.lowerGap_le
  by_cases hmin : x.significand = 1 <<< 52
  · have hnarrow : x.lowerGap = 1 := by simp [lowerGap, narrowBelow, hmin, h]
    omega
  · omega

/-- The interval of a number ends at or before that of any greater one.  Where it ends at the
    other's beginning, not both of the significands are even. -/
theorem upperEnd_le_lowerEnd {x y : Binary64}
    (h : x.shift < y.shift ∨ x.shift = y.shift ∧ x.significand < y.significand) :
    x.upperEnd ≤ y.lowerEnd ∧
      (x.upperEnd = y.lowerEnd → ¬(x.significand % 2 = 0 ∧ y.significand % 2 = 0)) := by
  have hpos : 0 < 2 ^ x.shift := Nat.pow_pos (by decide)
  have hx := x.significand_lt
  have hgap := y.lowerGap_le
  rw [upperEnd_eq, lowerEnd_eq]
  rcases h with hshift | ⟨hshift, hsig⟩
  · -- a later binade: only the last number of the binade below reaches its beginning
    have hbound := le_four_mul_sub_lowerGap (x := y) (by omega)
    obtain ⟨k, hk⟩ : ∃ k, y.shift = x.shift + 1 + k := ⟨y.shift - (x.shift + 1), by omega⟩
    have hk1 : 1 ≤ 2 ^ k := Nat.one_le_two_pow
    have hscale : (4 * y.significand - y.lowerGap) * 2 ^ y.shift =
        2 * ((4 * y.significand - y.lowerGap) * 2 ^ k) * 2 ^ x.shift := by
      rw [hk, pow_add, pow_add]
      ring
    have hmul := Nat.mul_le_mul hbound hk1
    rw [hscale]
    refine ⟨Nat.mul_le_mul_right _ (by omega), fun heq => ?_⟩
    have := Nat.eq_of_mul_eq_mul_right hpos heq
    omega
  · -- the same binade: the next significand has the other parity
    have hgap2 : y.lowerGap = 2 := by
      by_contra hne
      obtain ⟨hmin, hzero⟩ := lowerGap_lt (x := y) (by omega)
      have := x.normal
      omega
    rw [← hshift, hgap2]
    refine ⟨Nat.mul_le_mul_right _ (by omega), fun heq => ?_⟩
    have := Nat.eq_of_mul_eq_mul_right hpos heq
    omega

/-- Numbers whose intervals share a point have one magnitude. -/
theorem eq_of_inInterval {x y : Binary64} {v : ℚ} (hx : x.InInterval v) (hy : y.InInterval v) :
    x.significand = y.significand ∧ x.shift = y.shift := by
  -- the lesser number's interval would end where the other's begins, and own that point
  have key {a b : Binary64} (ha : a.InInterval v) (hb : b.InInterval v)
      (h : a.shift < b.shift ∨ a.shift = b.shift ∧ a.significand < b.significand) : False := by
    obtain ⟨hle, hodd⟩ := upperEnd_le_lowerEnd h
    obtain ⟨-, haupper, haeven⟩ := ha
    obtain ⟨hblower, -, hbeven⟩ := hb
    have hleq : (a.upperEnd : ℚ) ≤ b.lowerEnd := Nat.cast_le.2 hle
    have hva : v = a.upperEnd := le_antisymm haupper (hleq.trans hblower)
    have hvb : v = b.lowerEnd := le_antisymm (haupper.trans hleq) hblower
    have hends : a.upperEnd = b.lowerEnd := Nat.cast_injective (hva.symm.trans hvb)
    exact hodd hends ⟨haeven (Or.inr hva), hbeven (Or.inl hvb)⟩
  have hxy : ¬(x.shift < y.shift ∨ x.shift = y.shift ∧ x.significand < y.significand) := key hx hy
  have hyx : ¬(y.shift < x.shift ∨ y.shift = x.shift ∧ y.significand < x.significand) := key hy hx
  omega

/-! ## The shortest decimal lies in the interval -/

theorem nearerOnGrid_eq_or (x : Binary64) (tie : Tie) (below : Nat) (exponent : ℤ) :
    x.nearerOnGrid tie below exponent = below ∨ x.nearerOnGrid tie below exponent = below + 1 := by
  unfold nearerOnGrid
  split
  · exact Or.inl rfl
  · exact Or.inr rfl
  · cases tie
    · simp only
      omega
    · exact Or.inr rfl

theorem nearerOnGrid_of_gt {x : Binary64} {below : Nat} {exponent : ℤ} (tie : Tie)
    (h : compareQuarters (2 * below + 1) exponent (2 * x.quarters) = .gt) :
    x.nearerOnGrid tie below exponent = below := by
  unfold nearerOnGrid
  rw [h]

/-- What is found on a grid stands on it and reads back. -/
theorem of_onGrid? {x : Binary64} {tie : Tie} {exponent : ℤ} {d : Decimal}
    (h : x.onGrid? tie exponent = some d) : d.exponent = exponent ∧ x.readsBack d = true := by
  unfold onGrid? at h
  simp only at h
  split at h
  · next hbelow habove =>
    rw [← Option.some.inj h]
    rcases x.nearerOnGrid_eq_or tie (x.floorOnGrid exponent) exponent with heq | heq
    · rw [heq]
      exact ⟨rfl, hbelow⟩
    · rw [heq]
      exact ⟨rfl, habove⟩
  · next hbelow _ =>
    rw [← Option.some.inj h]
    exact ⟨rfl, hbelow⟩
  · next _ habove =>
    rw [← Option.some.inj h]
    exact ⟨rfl, habove⟩
  · exact absurd h (by simp)

/-- Moving zeros into the exponent keeps the value. -/
theorem value_stripZeros (fuel : Nat) (d : Decimal) : (stripZeros fuel d).value = d.value := by
  induction fuel generalizing d with
  | zero => rfl
  | succ fuel ih =>
    unfold stripZeros
    split
    · next h =>
      have hten : (10 : ℚ) ≠ 0 := by norm_num
      have hdigits : (d.digits : ℚ) = (d.digits / 10 : Nat) * 10 := by
        have : d.digits = d.digits / 10 * 10 := by omega
        exact_mod_cast this
      rw [ih, Decimal.value, Decimal.value, zpow_add_one₀ hten, hdigits]
      ring
    · rfl

theorem magnitude_eq (x : Binary64) : x.magnitude = x.significand * 2 ^ x.shift := by
  rw [magnitude, Nat.shiftLeft_eq]

/-- A number lies in its own interval. -/
theorem inInterval_self {x : Binary64} (h : x.significand ≠ 0) :
    x.InInterval (4 * x.magnitude) := by
  have hpos : 0 < 2 ^ x.shift := Nat.pow_pos (by decide)
  have hgap := x.lowerGap_le
  have hgap0 : 0 < x.lowerGap := by unfold lowerGap; split <;> omega
  have hlower : x.lowerEnd < 4 * x.magnitude := by
    rw [lowerEnd_eq, magnitude_eq, ← Nat.mul_assoc]
    exact Nat.mul_lt_mul_of_pos_right (by omega) hpos
  have hupper : 4 * x.magnitude < x.upperEnd := by
    rw [upperEnd_eq, magnitude_eq, ← Nat.mul_assoc]
    exact Nat.mul_lt_mul_of_pos_right (by omega) hpos
  have hlower' : (x.lowerEnd : ℚ) < 4 * x.magnitude := by exact_mod_cast hlower
  have hupper' : (4 * x.magnitude : ℚ) < x.upperEnd := by exact_mod_cast hupper
  refine ⟨hlower'.le, hupper'.le, ?_⟩
  rintro (heq | heq)
  · exact absurd heq hlower'.ne'
  · exact absurd heq hupper'.ne

/-- A fraction of a power of two is a decimal with as many places. -/
theorem value_pow_five (m k : Nat) :
    Decimal.value ⟨Nat.pow 5 k * m, -(k : ℤ)⟩ * (4 * (2 ^ k : Nat)) = 4 * m := by
  have hten : (10 : ℚ) ^ k = 5 ^ k * 2 ^ k := by rw [← mul_pow]; norm_num
  rw [Decimal.value, zpow_neg, zpow_natCast, hten, Nat.pow_eq]
  push_cast
  field_simp

theorem quartersOf_exactDecimal (x : Binary64) : quartersOf x.exactDecimal = 4 * x.magnitude := by
  -- the number of places is a variable, as its powers are not to be computed
  obtain ⟨k, hk⟩ : ∃ k : Nat, 1074 = k := ⟨_, rfl⟩
  have hplaces : (1074 : ℤ) = k := by omega
  rw [quartersOf, exactDecimal, unitsPerOne, hk, hplaces, Nat.one_shiftLeft, value_pow_five]

/-- The shortest decimal reads back. -/
theorem inInterval_shortest (x : Binary64) (tie : Tie) :
    x.InInterval (quartersOf (x.shortest tie)) := by
  unfold shortest
  split
  · next hzero =>
    have hsig : x.significand = 0 := by simpa [isZero] using hzero
    -- zero lies on the lower end of its interval, and its significand is even
    have hvalue : quartersOf ⟨0, 0⟩ = 0 := by simp [quartersOf, Decimal.value]
    have hlower : x.lowerEnd = 0 := by rw [lowerEnd_eq, hsig]; simp
    rw [hvalue, InInterval, hlower]
    refine ⟨le_of_eq Nat.cast_zero, Nat.cast_nonneg _, fun _ => ?_⟩
    rw [hsig]
  · next hzero =>
    have hsig : x.significand ≠ 0 := by simpa [isZero] using hzero
    simp only
    rw [quartersOf, value_stripZeros, ← quartersOf]
    cases hfound : (List.range 17).findSome? fun (n : Nat) => x.onGrid? tie (x.order - (n + 1)) with
    | none =>
      -- no grid had a point in the interval, so the number itself is written out
      rw [Option.getD_none, quartersOf_exactDecimal]
      exact inInterval_self hsig
    | some d =>
      obtain ⟨n, -, hn⟩ := List.exists_of_findSome?_eq_some hfound
      rw [Option.getD_some, ← readsBack_iff]
      exact (of_onGrid? hn).2

end WebStory.Binary64
