import WebStory.Proofs.Number.Spelling
/-
  Whole numbers by way of the integer types of the machine.

  The canonical form of a number is defined by its value: a whole floating-point number is the
  integer that it is.  A machine gets there in two steps.  It tests that the number has no fraction
  and lies between the limits of an integer type, and then it casts, cutting off the fraction and
  taking the nearest limit for what lies outside the type.

  The test compares floating-point numbers, so the limits are rounded before.  The least integer
  of a type stays what it is.  The greatest, one less than a power of two with more than 53 bits,
  becomes that power; as the comparison is strict there, the test is still exact
  (`holds_iff`).  So a number is cast only where the cast changes nothing (`value_cast`), and the
  number that comes out is the canonical one (`canonicalByCast_eq`).
-/

namespace WebStory.Json

/-! ## Integer types -/

/-- The floating-point number nearest to an integer. -/
def nearest (n : Int) : Binary64 := (Binary64.ofInt? n).getD default

/-- An integer type of the machine: the integers from the least one to the greatest. -/
structure IntegerType where
  least : Int
  greatest : Int
  least_le_greatest : least ≤ greatest
  /-- Its integers are numbers of a JSON text. -/
  inRange : ∀ {k : Int}, least ≤ k → k ≤ greatest → InRange k
  /-- The least integer is a floating-point number. -/
  nearest_least : (nearest least).toInt? = some least
  /-- The greatest one rounds up to the first integer beyond the type. -/
  nearest_greatest : (nearest greatest).toInt? = some (greatest + 1)

namespace IntegerType

/-- Signed integers of 64 bits. -/
def signed64 : IntegerType where
  least := -0x8000000000000000
  greatest := 0x7fffffffffffffff
  least_le_greatest := by decide
  inRange hleast hgreatest := ⟨hleast, hgreatest.trans (by decide)⟩
  nearest_least := by decide +kernel
  nearest_greatest := by decide +kernel

/-- Unsigned integers of 64 bits. -/
def unsigned64 : IntegerType where
  least := 0
  greatest := 0xffffffffffffffff
  least_le_greatest := by decide
  inRange hleast hgreatest := ⟨le_trans (by decide) hleast, hgreatest⟩
  nearest_least := by decide +kernel
  nearest_greatest := by decide +kernel

/-- The test before the cast: no fraction, not below the least integer as a floating-point number
    and below the greatest. -/
def Holds (t : IntegerType) (x : Binary64) : Prop :=
  x.scaled.tmod Binary64.unitsPerOne = 0 ∧ (nearest t.least).scaled ≤ x.scaled ∧
    x.scaled < (nearest t.greatest).scaled

instance (t : IntegerType) (x : Binary64) : Decidable (t.Holds x) :=
  inferInstanceAs (Decidable (_ ∧ _))

/-- The cast cuts off the fraction and takes the nearest limit for what lies outside the type. -/
def cast (t : IntegerType) (x : Binary64) : Number :=
  .int (max t.least (min t.greatest (x.scaled.tdiv Binary64.unitsPerOne)))
    (t.inRange (le_max_left _ _) (max_le t.least_le_greatest (min_le_left _ _)))

/-- Although it compares with rounded limits, the test picks out the integers of the type. -/
theorem holds_iff (t : IntegerType) (x : Binary64) :
    t.Holds x ↔ ∃ k, x.toInt? = some k ∧ t.least ≤ k ∧ k ≤ t.greatest := by
  have hunits : (0 : ℤ) < Binary64.unitsPerOne := by exact_mod_cast Binary64.unitsPerOne_pos
  have hleast := Binary64.toInt?_eq_some_iff_scaled.1 t.nearest_least
  have hgreatest := Binary64.toInt?_eq_some_iff_scaled.1 t.nearest_greatest
  unfold Holds
  rw [hleast, hgreatest]
  constructor
  · rintro ⟨hfract, hlower, hupper⟩
    obtain ⟨k, hk⟩ := Int.dvd_of_tmod_eq_zero hfract
    rw [Int.mul_comm] at hk
    rw [hk] at hlower hupper
    refine ⟨k, Binary64.toInt?_eq_some_iff_scaled.2 hk, ?_, ?_⟩
    · exact le_of_mul_le_mul_right hlower hunits
    · exact Int.lt_add_one_iff.1 (lt_of_mul_lt_mul_right hupper hunits.le)
  · rintro ⟨k, hint, hlower, hupper⟩
    rw [Binary64.toInt?_eq_some_iff_scaled.1 hint]
    refine ⟨Int.mul_tmod_left _ _, ?_, ?_⟩
    · exact mul_le_mul_of_nonneg_right hlower hunits.le
    · exact mul_lt_mul_of_pos_right (Int.lt_add_one_iff.2 hupper) hunits

/-- An integer of the type is neither cut off nor moved to a limit. -/
theorem cast_eq (t : IntegerType) {x : Binary64} {k : ℤ} (hint : x.toInt? = some k)
    (hleast : t.least ≤ k) (hgreatest : k ≤ t.greatest) :
    t.cast x = .int k (t.inRange hleast hgreatest) := by
  have hunits : (Binary64.unitsPerOne : ℤ) ≠ 0 := by exact_mod_cast Binary64.unitsPerOne_pos.ne'
  have htrunc : x.scaled.tdiv Binary64.unitsPerOne = k := by
    rw [Binary64.toInt?_eq_some_iff_scaled.1 hint, Int.mul_tdiv_cancel _ hunits]
  unfold cast
  simp only [htrunc, min_eq_right hgreatest, max_eq_right hleast]

/-- A number that passes the test is cast to the integer that it is. -/
theorem value_cast (t : IntegerType) {x : Binary64} (h : t.Holds x) :
    (t.cast x).value = x.value := by
  obtain ⟨k, hint, hleast, hgreatest⟩ := (t.holds_iff x).1 h
  rw [t.cast_eq hint hleast hgreatest, Binary64.toInt?_eq_some_iff.1 hint]
  rfl

end IntegerType

/-! ## Canonical numbers -/

namespace Number

open IntegerType

/-- The canonical number as a machine finds it: the signed type is tried first. -/
def canonicalByCast : Number → Number
  | .int n h => .int n h
  | .float x =>
    if signed64.Holds x then signed64.cast x
    else if unsigned64.Holds x then unsigned64.cast x
    else .float x

/-- The two types together are the range. -/
theorem inRange_iff (k : ℤ) :
    InRange k ↔ (signed64.least ≤ k ∧ k ≤ signed64.greatest) ∨
      (unsigned64.least ≤ k ∧ k ≤ unsigned64.greatest) := by
  show _ ∧ _ ↔ (-0x8000000000000000 ≤ k ∧ k ≤ 0x7fffffffffffffff) ∨
    (0 ≤ k ∧ k ≤ 0xffffffffffffffff)
  omega

theorem canonicalByCast_eq (n : Number) : n.canonicalByCast = n.canonical := by
  cases n with
  | int n h => rfl
  | float x =>
    show (if signed64.Holds x then signed64.cast x
      else if unsigned64.Holds x then unsigned64.cast x else .float x) = _
    have hcanonical {k : ℤ} (hint : x.toInt? = some k) (hk : InRange k) :
        canonical (.float x) = .int k hk := by
      simp only [canonical, hint, dif_pos hk]
    by_cases hsigned : signed64.Holds x
    · obtain ⟨k, hint, hleast, hgreatest⟩ := (signed64.holds_iff x).1 hsigned
      rw [if_pos hsigned, signed64.cast_eq hint hleast hgreatest, hcanonical hint]
    rw [if_neg hsigned]
    by_cases hunsigned : unsigned64.Holds x
    · obtain ⟨k, hint, hleast, hgreatest⟩ := (unsigned64.holds_iff x).1 hunsigned
      rw [if_pos hunsigned, unsigned64.cast_eq hint hleast hgreatest, hcanonical hint]
    rw [if_neg hunsigned]
    -- no integer of the range is left to be
    rcases canonical_float x with ⟨k, hk, hint, -⟩ | ⟨heq, -⟩
    · rcases (inRange_iff k).1 hk with ⟨hleast, hgreatest⟩ | ⟨hleast, hgreatest⟩
      · exact absurd ((signed64.holds_iff x).2 ⟨k, hint, hleast, hgreatest⟩) hsigned
      · exact absurd ((unsigned64.holds_iff x).2 ⟨k, hint, hleast, hgreatest⟩) hunsigned
    · exact heq.symm

/-- The canonical number is a spelling of the number, the same one for all numbers of its value,
    and no cast on the way to it changes a value. -/
theorem canonical_is_exact (m n : Number) :
    n.canonical = n.canonicalByCast ∧
    (∀ (t : IntegerType) (x : Binary64), t.Holds x → (t.cast x).value = x.value) ∧
    n.canonical.value = n.value ∧
    n.canonical.canonical = n.canonical ∧
    (n.canonical = m.canonical ↔ n.value = m.value) := by
  refine ⟨n.canonicalByCast_eq.symm, fun t x h => t.value_cast h, n.value_canonical, ?_,
    canonical_eq_iff⟩
  exact canonical_eq_iff.2 n.value_canonical

/-- The first integer beyond the signed type, which is where its rounded limit is. -/
theorem canonical_is_exact_beyond_signed :
    let x := nearest 0x8000000000000000
    ¬signed64.Holds x ∧ unsigned64.Holds x ∧ (unsigned64.cast x).value = x.value := by
  intro x
  have hholds : unsigned64.Holds x := by decide +kernel
  obtain ⟨-, hcast, -⟩ := canonical_is_exact (.float x) (.float x)
  exact ⟨by decide +kernel, hholds, hcast unsigned64 x hholds⟩

end Number

end WebStory.Json
