import WebStory.Proofs.Number.Spelling
/-
  Whole numbers in style sheets.

  A floating-point number that is an integer of at most 2^53 is written as that integer
  (`text_of_toInt?`), so that `12` and `12.0` become one text.  The search for a shortest decimal
  knows nothing of integers, so this is a property of the grids it goes through.

  1. **The interval** — the gaps between the numbers of this size are at most one, up to 2^53 where
     the gap above is two (`shift_cases`).  So no other whole number but perhaps the next one reads
     back as the number, and that one only at 2^53 (`eq_of_inInterval_whole`).

  2. **Coarse grids** — what a grid of tens or hundreds has to offer is a whole number as well.  If
     it reads back, it is the number itself (`value_of_onGrid?`); it cannot be the next one, which
     is no multiple of ten.

  3. **The last grid** — the search goes from coarse grids to fine ones and reaches the grid of the
     integers at the latest (`order_bounds`), where it finds the number itself (`onGrid?_zero`).

  4. **Text** — so what the search finds has the number's value and no places behind the point,
     however it is split into digits and exponent (`shortest_whole`), and its zeros are written out.
-/

namespace WebStory

/-! ## Digits -/

/-- Ten times a positive number has one more digit, a zero. -/
theorem natDigits_mul_ten {n : Nat} (h : 0 < n) : natDigits (n * 10) = natDigits n ++ ['0'] := by
  have hstep := Nat.toDigits_append_toDigits (b := 10) (d := 0) (by decide) h (by decide)
  rw [Nat.toDigits_zero, Nat.add_zero, Nat.mul_comm] at hstep
  exact hstep.symm

/-- Powers of ten are zeros at the end. -/
theorem natDigits_mul_pow {n : Nat} (h : 0 < n) (k : Nat) :
    natDigits (n * 10 ^ k) = natDigits n ++ List.replicate k '0' := by
  induction k with
  | zero => simp
  | succ k ih =>
    have hpos : 0 < n * 10 ^ k := Nat.mul_pos h (Nat.pow_pos (by decide))
    rw [Nat.pow_succ, ← Nat.mul_assoc, natDigits_mul_ten hpos, ih, List.append_assoc,
      List.replicate_succ']

namespace Binary64

/-! ## The search -/

/-- A search upwards stops no later than at the first place known to answer. -/
theorem exists_le_of_findSome?_range {α : Type} {f : Nat → Option α} {m i : Nat} (hi : i < m)
    {a : α} (ha : f i = some a) : ∃ j ≤ i, ∃ b, (List.range m).findSome? f = some b ∧ f j = some b := by
  have hsome : ((List.range (i + 1)).findSome? f).isSome = true :=
    List.findSome?_isSome_iff.2 ⟨i, List.mem_range.2 (by omega), by rw [ha]; rfl⟩
  obtain ⟨b, hb⟩ := Option.isSome_iff_exists.1 hsome
  obtain ⟨j, hj, hfj⟩ := List.exists_of_findSome?_eq_some hb
  have hprefix : List.range (i + 1) <+: List.range m := by
    obtain ⟨k, rfl⟩ : ∃ k, m = i + 1 + k := ⟨m - (i + 1), by omega⟩
    exact ⟨_, List.range_add.symm⟩
  exact ⟨j, Nat.lt_succ_iff.1 (List.mem_range.1 hj), b, hprefix.findSome?_eq_some hb, hfj⟩

/-- Moving zeros into the exponent raises it. -/
theorem exponent_le_stripZeros (fuel : Nat) (d : Decimal) :
    d.exponent ≤ (stripZeros fuel d).exponent := by
  induction fuel generalizing d with
  | zero => exact le_rfl
  | succ fuel ih =>
    unfold stripZeros
    split
    · have := ih ⟨d.digits / 10, d.exponent + 1⟩
      simp only at this
      omega
    · exact le_rfl

/-! ## The interval of a whole number -/

/-- A decimal without places behind the point counts whole units. -/
theorem quartersOf_natCast (digits k : Nat) :
    quartersOf ⟨digits, k⟩ = (unitsPerOne * (digits * 10 ^ k) : Nat) * 4 := by
  rw [quartersOf, Decimal.value, zpow_natCast]
  push_cast
  ring

section Whole

variable {x : Binary64} {n : Nat} (hmag : x.magnitude = unitsPerOne * n)
include hmag

/-- Whole numbers of at most 2^53 have no gap of more than two above them, and the gap of two only
    at 2^53. -/
theorem shift_cases (hle : n ≤ 2 ^ 53) :
    x.shift ≤ 1074 ∨ x.shift = 1075 ∧ n = 2 ^ 53 ∧ x.significand = 1 <<< 52 := by
  -- the shift is a variable, so that its power is not computed
  obtain ⟨k, hk⟩ : ∃ k : Nat, 1074 = k := ⟨_, rfl⟩
  have hk' : 1075 = k + 1 := by omega
  rw [hk, hk']
  rw [magnitude_eq, unitsPerOne, hk, Nat.one_shiftLeft] at hmag
  by_cases hsmall : x.shift ≤ k
  · exact Or.inl hsmall
  · -- the significand is at least 2^52, which leaves a shift of one above and nothing more
    refine Or.inr ?_
    have hnormal : 2 ^ 52 ≤ x.significand := x.normal.resolve_right (by omega)
    have hupper : 2 ^ k * n ≤ 2 ^ k * 2 ^ 53 := Nat.mul_le_mul_left _ hle
    have hpow : 2 ^ (52 + x.shift) ≤ 2 ^ (k + 53) := by
      rw [pow_add, pow_add]
      exact (Nat.mul_le_mul_right _ hnormal).trans (hmag ▸ hupper)
    have hshift : x.shift = k + 1 := by
      have := (Nat.pow_le_pow_iff_right (by decide)).1 hpow
      omega
    have hpos : 0 < 2 ^ k := Nat.pow_pos (by decide)
    have hn : n = 2 * x.significand := by
      rw [hshift, pow_succ, mul_comm, mul_assoc] at hmag
      exact (Nat.eq_of_mul_eq_mul_left hpos hmag).symm
    have hsig : x.significand = 2 ^ 52 := by omega
    exact ⟨hshift, by omega, hsig⟩

/-- The interval reaches at most half below a whole number, and half above it or, at 2^53, one. -/
theorem pow_shift_bounds (hle : n ≤ 2 ^ 53) :
    x.lowerGap * 2 ^ x.shift ≤ 2 * unitsPerOne ∧
    (2 ^ x.shift ≤ unitsPerOne ∨ 2 ^ x.shift = 2 * unitsPerOne ∧ n = 2 ^ 53) := by
  obtain ⟨k, hk⟩ : ∃ k : Nat, 1074 = k := ⟨_, rfl⟩
  have hcases := shift_cases hmag hle
  have hk' : 1075 = k + 1 := by omega
  have hunits : unitsPerOne = 2 ^ k := by rw [unitsPerOne, hk, Nat.one_shiftLeft]
  rw [hk, hk'] at hcases
  rw [hunits]
  rcases hcases with hsmall | ⟨hshift, hn, hsig⟩
  · have hpow : 2 ^ x.shift ≤ 2 ^ k := Nat.pow_le_pow_right (by decide) hsmall
    exact ⟨Nat.mul_le_mul x.lowerGap_le hpow, Or.inl hpow⟩
  · have hgap : x.lowerGap = 1 := by
      have hshift0 : x.shift ≠ 0 := by omega
      simp [lowerGap, narrowBelow, hsig, hshift0]
    rw [hgap, hshift, pow_succ, mul_comm (2 ^ k) 2, one_mul]
    exact ⟨le_rfl, Or.inr ⟨rfl, hn⟩⟩

/-- A whole number that reads back is the number itself, or the next one after 2^53. -/
theorem eq_of_inInterval_whole (hle : n ≤ 2 ^ 53) {m : Nat}
    (hm : x.InInterval ((unitsPerOne * m : Nat) * 4)) : m = n ∨ m = n + 1 ∧ n = 2 ^ 53 := by
  obtain ⟨hlower, hupper, -⟩ := hm
  have hlower' : x.lowerEnd ≤ unitsPerOne * m * 4 := by exact_mod_cast hlower
  have hupper' : unitsPerOne * m * 4 ≤ x.upperEnd := by exact_mod_cast hupper
  obtain ⟨hgap, hpow⟩ := pow_shift_bounds hmag hle
  have hunits := unitsPerOne_pos
  rw [lowerEnd_eq, Nat.sub_mul, mul_assoc 4, ← magnitude_eq, hmag] at hlower'
  rw [upperEnd_eq, Nat.add_mul, mul_assoc 4, ← magnitude_eq, hmag] at hupper'
  generalize unitsPerOne = u at *
  -- two different whole numbers are at least one apart
  rcases Nat.lt_trichotomy m n with hlt | heq | hgt
  · have hstep : u * m + u ≤ u * n := by
      rw [← Nat.mul_succ]
      exact Nat.mul_le_mul_left u hlt
    omega
  · exact Or.inl heq
  · have hstep : u * n + u ≤ u * m := by
      rw [← Nat.mul_succ]
      exact Nat.mul_le_mul_left u hgt
    rcases hpow with hpow | ⟨hpow, hn⟩
    · omega
    · refine Or.inr ⟨?_, hn⟩
      by_contra hne
      have hstep' : u * (n + 2) ≤ u * m := Nat.mul_le_mul_left u (by omega)
      rw [Nat.mul_add] at hstep'
      omega

/-! ## The grids of the search -/

theorem floorOnGrid_natCast (k : Nat) : x.floorOnGrid k = n / 10 ^ k := by
  have hunits : 0 < 4 * unitsPerOne := by
    have := unitsPerOne_pos
    omega
  have hneg : (-(k : ℤ)).toNat = 0 := by omega
  rw [floorOnGrid, quarters, hmag, hneg, Int.toNat_natCast, Nat.pow_eq, Nat.pow_eq, pow_zero,
    one_mul, ← mul_assoc, Nat.mul_div_mul_left _ _ hunits]

/-- A whole number is in the lower half of the step to the next. -/
theorem nearerOnGrid_zero (tie : Tie) : x.nearerOnGrid tie n 0 = n := by
  have hgt : compareQuarters (2 * n + 1) 0 (2 * x.quarters) = .gt := by
    have hunits : (0 : ℚ) < unitsPerOne := Nat.cast_pos.2 unitsPerOne_pos
    rw [compareQuarters_eq, compare_gt_iff_gt, quarters, hmag, ← Nat.cast_zero,
      quartersOf_natCast, pow_zero]
    push_cast
    linarith
  exact nearerOnGrid_of_gt tie hgt

/-- On the grid of the integers the number itself is found. -/
theorem onGrid?_zero (hpos : 0 < n) (tie : Tie) : x.onGrid? tie 0 = some ⟨n, 0⟩ := by
  have hbelow : x.floorOnGrid 0 = n := by
    rw [← Nat.cast_zero, floorOnGrid_natCast hmag, pow_zero, Nat.div_one]
  have hsig : x.significand ≠ 0 := by
    rw [Ne, ← magnitude_eq_zero, hmag, Nat.mul_eq_zero]
    have := unitsPerOne_pos
    omega
  have hreads : x.readsBack ⟨n, 0⟩ = true := by
    have hvalue : quartersOf ⟨n, 0⟩ = 4 * x.magnitude := by
      rw [← Nat.cast_zero, quartersOf_natCast, pow_zero, mul_one, hmag, mul_comm]
    rw [readsBack_iff, hvalue]
    exact inInterval_self hsig
  unfold onGrid?
  simp only [hbelow, hreads]
  cases x.readsBack ⟨n + 1, 0⟩
  · rfl
  · simp only [nearerOnGrid_zero hmag]

/-- What a grid of whole numbers has to offer is the number itself. -/
theorem value_of_onGrid? (hpos : 0 < n) (hle : n ≤ 2 ^ 53) {tie : Tie} {k : Nat} {d : Decimal}
    (h : x.onGrid? tie k = some d) : d.exponent = k ∧ d.digits * 10 ^ k = n := by
  obtain ⟨hexp, hreads⟩ := of_onGrid? h
  refine ⟨hexp, ?_⟩
  -- the grid of the integers has both neighbours of 2^53, coarser ones have none of them
  cases k with
  | zero =>
    rw [Nat.cast_zero, onGrid?_zero hmag hpos, Option.some.injEq] at h
    rw [← h, pow_zero, mul_one]
  | succ k =>
    have hinterval := (readsBack_iff x d).1 hreads
    have hd : d = ⟨d.digits, (k + 1 : Nat)⟩ := by rw [← hexp]
    rw [hd, quartersOf_natCast] at hinterval
    rcases eq_of_inInterval_whole hmag hle hinterval with heq | ⟨heq, hn⟩
    · exact heq
    · -- 2^53 + 1 is no multiple of ten
      rw [pow_succ, ← mul_assoc] at heq
      omega

/-! ## The order of magnitude -/

omit hmag in
/-- The order that is found is no greater than any that is large enough. -/
theorem orderFrom_le {fuel : Nat} {k j : ℤ} (hk : k ≤ j)
    (hj : compareQuarters 1 j x.quarters = .gt) : x.orderFrom fuel k ≤ j := by
  induction fuel generalizing k with
  | zero => exact hk
  | succ fuel ih =>
    unfold orderFrom
    split
    · exact hk
    · next hsmall =>
      have hne : k ≠ j := by
        rintro rfl
        exact hsmall (by rw [hj]; rfl)
      exact ih (by omega)

omit hmag in
/-- The order that is found is positive if no other is large enough and the search gets there. -/
theorem orderFrom_pos {fuel : Nat} {k : ℤ} (hk : 0 < k + fuel)
    (hlow : ∀ j ≤ 0, compareQuarters 1 j x.quarters ≠ .gt) : 0 < x.orderFrom fuel k := by
  induction fuel generalizing k with
  | zero =>
    rw [orderFrom]
    omega
  | succ fuel ih =>
    unfold orderFrom
    split
    · next hlarge =>
      by_contra hle
      exact hlow k (by omega) (beq_iff_eq.1 hlarge)
    · refine ih ?_
      push_cast at hk
      omega

/-- A power of ten is above the number or not, wherever it is whole. -/
theorem compareQuarters_pow (k : Nat) :
    compareQuarters 1 k x.quarters = .gt ↔ n < 10 ^ k := by
  have hunits : 0 < unitsPerOne := unitsPerOne_pos
  rw [compareQuarters_eq, compare_gt_iff_gt, quarters, hmag, quartersOf_natCast, one_mul]
  have hcast : ((4 * (unitsPerOne * n) : Nat) : ℚ) < (unitsPerOne * 10 ^ k : Nat) * 4 ↔
      unitsPerOne * n < unitsPerOne * 10 ^ k := by
    rw [← Nat.cast_lt (α := ℚ)]
    push_cast
    constructor <;> intro h <;> linarith
  rw [hcast, Nat.mul_lt_mul_left hunits]

/-- No power of ten up to one is above a positive whole number. -/
theorem compareQuarters_ne_gt (hpos : 0 < n) {j : ℤ} (hj : j ≤ 0) :
    compareQuarters 1 j x.quarters ≠ .gt := by
  have hone : (1 : ℚ) ≤ n := by exact_mod_cast hpos
  have hpow : (10 : ℚ) ^ j ≤ 1 := zpow_le_one_of_nonpos₀ (by norm_num) hj
  have hunits : (0 : ℚ) < unitsPerOne := Nat.cast_pos.2 unitsPerOne_pos
  rw [Ne, compareQuarters_eq, compare_gt_iff_gt, not_lt, quarters, hmag, quartersOf,
    Decimal.value, Nat.cast_one, one_mul]
  push_cast
  calc (10 : ℚ) ^ j * (4 * unitsPerOne) ≤ 1 * (4 * unitsPerOne) :=
        mul_le_mul_of_nonneg_right hpow (by linarith)
    _ ≤ n * (4 * unitsPerOne) := mul_le_mul_of_nonneg_right hone (by linarith)
    _ = 4 * (unitsPerOne * n) := by ring

omit hmag in
/-- Doubling raises the binary order. -/
theorem log2_pow_mul (k : Nat) (hpos : 0 < n) : (2 ^ k * n).log2 = k + n.log2 := by
  have hk : 0 < 2 ^ k := Nat.pow_pos (by decide)
  rw [Nat.log2_eq_iff (Nat.mul_pos hk hpos).ne', add_assoc, pow_add, pow_add 2 k]
  exact ⟨Nat.mul_le_mul_left _ (Nat.log2_self_le hpos.ne'),
    Nat.mul_lt_mul_of_pos_left Nat.lt_log2_self hk⟩

/-- The integers are among the grids that are searched. -/
theorem order_bounds (hpos : 0 < n) (hle : n ≤ 2 ^ 53) : 0 < x.order ∧ x.order ≤ 16 := by
  have hlog : (x.magnitude.log2 : ℤ) - 1074 = n.log2 := by
    obtain ⟨k, hk⟩ : ∃ k : Nat, 1074 = k := ⟨_, rfl⟩
    have hk' : (1074 : ℤ) = k := by omega
    rw [hmag, unitsPerOne, hk, hk', Nat.one_shiftLeft, log2_pow_mul k hpos]
    push_cast
    ring
  have hbinary : n.log2 < 54 := (Nat.log2_lt hpos.ne').2 (by omega)
  unfold order
  simp only [hlog]
  have hstart : -1 ≤ Int.fdiv ((n.log2 : ℤ) * 30103) 100000 - 1 ∧
      Int.fdiv ((n.log2 : ℤ) * 30103) 100000 - 1 ≤ 14 := by
    rw [Int.fdiv_eq_ediv_of_nonneg _ (by decide)]
    omega
  -- the binary order gives a start from which four steps are enough
  constructor
  · exact orderFrom_pos (by omega) fun j hj => compareQuarters_ne_gt hmag hpos hj
  · obtain ⟨k, hk⟩ : ∃ k : Nat, k = 16 := ⟨_, rfl⟩
    have hk' : (16 : ℤ) = k := by omega
    rw [hk']
    refine orderFrom_le (by omega) ((compareQuarters_pow hmag k).2 ?_)
    rw [hk]
    omega

/-- The shortest decimal of a whole number has its value and no places behind the point. -/
theorem shortest_whole (hpos : 0 < n) (hle : n ≤ 2 ^ 53) (tie : Tie) :
    ∃ k : Nat, (x.shortest tie).exponent = k ∧ (x.shortest tie).digits * 10 ^ k = n := by
  have hnonzero : ¬x.isZero = true := by
    have := unitsPerOne_pos
    rw [isZero_iff, hmag, Nat.mul_eq_zero]
    omega
  obtain ⟨horder, horder16⟩ := order_bounds hmag hpos hle
  -- the grid of the integers is the last that can be needed
  obtain ⟨i, hi⟩ : ∃ i : Nat, x.order = i + 1 := ⟨(x.order - 1).toNat, by omega⟩
  have hlast : x.onGrid? tie (x.order - (i + 1)) = some ⟨n, 0⟩ := by
    rw [hi, Int.sub_self, onGrid?_zero hmag hpos]
  obtain ⟨j, hj, d, hfound, hd⟩ := exists_le_of_findSome?_range (m := 17) (i := i)
    (f := fun (k : Nat) => x.onGrid? tie (x.order - (k + 1))) (by omega) hlast
  obtain ⟨k, hk⟩ : ∃ k : Nat, x.order - (j + 1) = k := ⟨i - j, by omega⟩
  rw [hk] at hd
  obtain ⟨hexp, hvalue⟩ := value_of_onGrid? hmag hpos hle hd
  have hshortest : x.shortest tie = stripZeros 800 d := by
    unfold shortest
    rw [if_neg hnonzero]
    simp only [hfound, Option.getD_some]
  rw [hshortest]
  -- what is found keeps its value, and the exponent only grows
  have hstrip := exponent_le_stripZeros 800 d
  refine ⟨(stripZeros 800 d).exponent.toNat, by omega, ?_⟩
  have hkeep : (stripZeros 800 d).value = d.value := value_stripZeros 800 d
  rw [Decimal.value_natCast _ (k := (stripZeros 800 d).exponent.toNat) (by omega),
    Decimal.value_natCast _ hexp, hvalue, Nat.cast_inj] at hkeep
  exact hkeep

end Whole

/-- A number that is an integer of at most 2^53 is written as the integer. -/
theorem text_of_toInt? {x : Binary64} {n : ℤ} (h : x.toInt? = some n) (hle : n.natAbs ≤ 2 ^ 53)
    (hzero : x.isZero = true → x.negative = false) : x.text .cssNumber = intText n := by
  have hdecimal : ((x.shortest .upward).text .cssNumber).toList = natDigits n.natAbs := by
    have hmag := magnitude_of_toInt? h
    rcases Nat.eq_zero_or_pos n.natAbs with hn | hpos
    · rw [hn, Nat.mul_zero] at hmag
      rw [hn, shortest, if_pos ((isZero_iff x).2 hmag)]
      rfl
    · obtain ⟨k, hexp, hvalue⟩ := shortest_whole hmag hpos hle .upward
      have hdigits : 0 < (x.shortest .upward).digits := by
        by_contra hnot
        rw [Nat.eq_zero_of_not_pos hnot, Nat.zero_mul] at hvalue
        omega
      have htext : (x.shortest .upward).text .cssNumber =
          (x.shortest .upward).positionalText false := rfl
      rw [htext, Decimal.toList_positionalText, if_pos (by omega), hexp, Int.toNat_natCast,
        if_neg (by decide), List.append_nil, ← hvalue, natDigits_mul_pow hdigits]
  rw [← String.toList_inj, toList_text, toList_intText, ← negative_of_toInt? h hzero]
  exact congrArg _ hdecimal

end Binary64

namespace Json.Number

/-! ## Numbers of a JSON text -/

/-- A number that a style sheet shows as it was written: not negative zero, and of at most 2^53 if
    it is whole. -/
def Exact (n : Number) : Prop :=
  n.isNegativeZero = false ∧ ∀ k : ℤ, n.value = k → k.natAbs ≤ 2 ^ 53

/-- The integer that a number is, if it is whole. -/
def whole? : Number → Option ℤ
  | .int n _ => some n
  | .float x => x.toInt?

theorem whole?_eq_some_iff {n : Number} {k : ℤ} : n.whole? = some k ↔ n.value = k := by
  cases n with
  | int n h => rw [whole?, value, Option.some.injEq, Int.cast_inj]
  | float x => exact Binary64.toInt?_eq_some_iff

instance (n : Number) : Decidable n.Exact :=
  decidable_of_iff (n.isNegativeZero = false ∧ ∀ k ∈ n.whole?, k.natAbs ≤ 2 ^ 53) <| by
    simp only [Exact, Option.mem_def, whole?_eq_some_iff]

/-- Style sheets show the canonical number as they show the number. -/
theorem cssText_canonical {n : Number} (h : n.Exact) : n.canonical.cssText = n.cssText := by
  cases n with
  | int n hn => rfl
  | float x =>
    rcases canonical_float x with ⟨k, hk, hint, heq⟩ | ⟨heq, -⟩
    · have hle : k.natAbs ≤ 2 ^ 53 := h.2 k (Binary64.toInt?_eq_some_iff.1 hint)
      rw [heq]
      exact (Binary64.text_of_toInt? hint hle (isNegativeZero_float h.1)).symm
    · rw [heq]

end Json.Number

end WebStory
