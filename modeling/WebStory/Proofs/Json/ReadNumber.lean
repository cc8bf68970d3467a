import WebStory.Json.Reader
import WebStory.Proofs.Json.Printer
import WebStory.Proofs.Number.Scaling
/-
  The reader reads the text of a number as the number.

  1. **Parts** — a number is read character by character, and each part of its text adds to one part
     of what was read: digits before and behind the point to the significand, the latter to the scale
     too, those behind the exponent mark to the exponent (`OpenNumber.extend`).  So what is read of a
     text is known from its parts, as long as the digits fit into a significand.

  2. **Integers** — the digits of an integer are its absolute value, which always fits
     (`readsNumber_int`).

  3. **Floating-point numbers** — these are made of the significand and a power of ten with several
     roundings.  Where the shortest decimal of a number is short (`Decimal.Short`), both are exact and
     the one rounding left leads back to the number (`readsNumber_float`).  A long decimal, of
     seventeen digits say, may well be read as a neighbour of the number it was written for.
-/

namespace WebStory

/-! ## Digits -/

/-- A number other than zero has no zero in front. -/
theorem head_natDigits {n : Nat} (h : n ≠ 0) {c : Char} {r : List Char}
    (hdigits : natDigits n = c :: r) : c ≠ '0' := by
  induction n using Nat.strongRecOn generalizing c r with
  | _ n ih =>
    by_cases hsmall : n < 10
    · have hone : natDigits n = [Nat.digitChar n] := Nat.toDigits_of_lt_base hsmall
      rw [hone] at hdigits
      obtain ⟨rfl, -⟩ := List.cons.inj hdigits
      have hall : ∀ n < 10, n ≠ 0 → Nat.digitChar n ≠ '0' := by decide
      exact hall n hsmall h
    · -- the digits of a tenth stand in front
      have hsplit : natDigits n = natDigits (n / 10) ++ natDigits (n % 10) := by
        have happend := Nat.toDigits_append_toDigits (b := 10) (n := n / 10) (d := n % 10)
          (by decide) (by omega) (by omega)
        rw [Nat.div_add_mod] at happend
        exact happend.symm
      cases htenth : natDigits (n / 10) with
      | nil => exact absurd htenth (natDigits_ne_nil _)
      | cons d ds =>
        rw [hsplit, htenth, List.cons_append] at hdigits
        obtain ⟨rfl, -⟩ := List.cons.inj hdigits
        exact ih (n / 10) (by omega) (by omega) htenth

theorem le_ofDigitChars (ds : List Char) (init : Nat) : init ≤ Nat.ofDigitChars 10 ds init := by
  induction ds generalizing init with
  | nil => exact Nat.le_refl _
  | cons c ds ih =>
    rw [Nat.ofDigitChars_cons]
    have := ih (10 * init + (c.toNat - '0'.toNat))
    omega

namespace Json

theorem digitValue?_of_isDigit {c : Char} (h : c.isDigit = true) :
    digitValue? c = some (c.toNat - '0'.toNat) := by
  rw [Char.isDigit, Bool.and_eq_true, decide_eq_true_iff, decide_eq_true_iff] at h
  exact if_pos h

/-! ## Parts of a number -/

namespace OpenNumber

/-- Reads characters that all belong to the number. -/
def extend : OpenNumber → List Char → Option OpenNumber
  | n, [] => some n
  | n, c :: rest =>
    match n.step c with
    | .extended n => n.extend rest
    | _ => none

theorem extend_append (n : OpenNumber) (cs ds : List Char) :
    n.extend (cs ++ ds) = (n.extend cs).bind (·.extend ds) := by
  induction cs generalizing n with
  | nil => rfl
  | cons c cs ih =>
    rw [List.cons_append, extend, extend]
    cases n.step c with
    | extended n => exact ih n
    | _ => rfl

theorem takeWhole_of_le {n : OpenNumber} {d : Nat} (hfull : n.full = false)
    (h : n.significand * 10 + d ≤ significandLimit) :
    n.takeWhole d = { n with significand := n.significand * 10 + d } :=
  if_neg (not_or.2 ⟨Bool.eq_false_iff.1 hfull, Nat.not_lt.2 h⟩)

theorem takePlace_of_le {n : OpenNumber} {d : Nat} (hfull : n.full = false)
    (h : n.significand * 10 + d ≤ significandLimit) :
    n.takePlace d = { n with significand := n.significand * 10 + d, scale := n.scale - 1 } :=
  if_neg (not_or.2 ⟨Bool.eq_false_iff.1 hfull, Nat.not_lt.2 h⟩)

section Parts

variable (negative exponentNegative : Bool) (significand exponent : Nat) (scale : ℤ)

/-- Digits before the point, as long as they fit. -/
theorem extend_whole {ds : List Char} (h : AllDigits ds)
    (hlimit : Nat.ofDigitChars 10 ds significand ≤ significandLimit) :
    extend ⟨.whole, negative, significand, 0, false, false, false, 0, false⟩ ds =
      some ⟨.whole, negative, Nat.ofDigitChars 10 ds significand, 0, false, false, false, 0,
        false⟩ := by
  induction ds generalizing significand with
  | nil => rfl
  | cons c ds ih =>
    obtain ⟨hc, hrest⟩ := List.forall_mem_cons.1 h
    rw [Nat.ofDigitChars_cons, Nat.mul_comm 10] at hlimit
    have hle := (le_ofDigitChars ds (significand * 10 + (c.toNat - '0'.toNat))).trans hlimit
    have hstep : step ⟨.whole, negative, significand, 0, false, false, false, 0, false⟩ c = .extended
        ⟨.whole, negative, significand * 10 + (c.toNat - '0'.toNat), 0, false, false, false, 0,
          false⟩ := by
      simp only [step, digitValue?_of_isDigit hc]
      exact congrArg NumberStep.extended (takeWhole_of_le rfl hle)
    rw [extend, hstep, Nat.ofDigitChars_cons, Nat.mul_comm 10]
    exact ih _ hrest hlimit

/-- Digits behind the point, as long as they fit. -/
theorem extend_places {ds : List Char} (h : AllDigits ds)
    (hlimit : Nat.ofDigitChars 10 ds significand ≤ significandLimit) :
    extend ⟨.fraction, negative, significand, scale, false, true, false, 0, false⟩ ds =
      some ⟨.fraction, negative, Nat.ofDigitChars 10 ds significand, scale - ds.length, false, true,
        false, 0, false⟩ := by
  induction ds generalizing significand scale with
  | nil => exact congrArg some (by simp [Nat.ofDigitChars])
  | cons c ds ih =>
    obtain ⟨hc, hrest⟩ := List.forall_mem_cons.1 h
    rw [Nat.ofDigitChars_cons, Nat.mul_comm 10] at hlimit
    have hle := (le_ofDigitChars ds (significand * 10 + (c.toNat - '0'.toNat))).trans hlimit
    have hstep : step ⟨.fraction, negative, significand, scale, false, true, false, 0, false⟩ c =
        .extended ⟨.fraction, negative, significand * 10 + (c.toNat - '0'.toNat), scale - 1, false,
          true, false, 0, false⟩ := by
      have htake : takePlace ⟨.fraction, negative, significand, scale, false, true, false, 0, false⟩
          (c.toNat - '0'.toNat) = ⟨.fraction, negative, significand * 10 + (c.toNat - '0'.toNat),
            scale - 1, false, true, false, 0, false⟩ := takePlace_of_le rfl hle
      simp only [step, digitValue?_of_isDigit hc, htake]
    have hscale : scale - ((c :: ds).length : ℤ) = scale - 1 - ds.length := by
      rw [List.length_cons]
      omega
    rw [extend, hstep, Nat.ofDigitChars_cons, Nat.mul_comm 10, hscale]
    exact ih _ _ hrest hlimit

/-- Digits of the exponent, as long as it stays in range. -/
theorem extend_exponent {ds : List Char} (h : AllDigits ds)
    (hlimit : Nat.ofDigitChars 10 ds exponent ≤ exponentLimit) :
    extend ⟨.exponent, negative, significand, scale, false, true, exponentNegative, exponent, false⟩
        ds =
      some ⟨.exponent, negative, significand, scale, false, true, exponentNegative,
        Nat.ofDigitChars 10 ds exponent, false⟩ := by
  induction ds generalizing exponent with
  | nil => rfl
  | cons c ds ih =>
    obtain ⟨hc, hrest⟩ := List.forall_mem_cons.1 h
    rw [Nat.ofDigitChars_cons, Nat.mul_comm 10] at hlimit
    have hle := (le_ofDigitChars ds (exponent * 10 + (c.toNat - '0'.toNat))).trans hlimit
    have hstep : step ⟨.exponent, negative, significand, scale, false, true, exponentNegative,
        exponent, false⟩ c = .extended ⟨.exponent, negative, significand, scale, false, true,
          exponentNegative, exponent * 10 + (c.toNat - '0'.toNat), false⟩ := by
      simp only [step, digitValue?_of_isDigit hc, Bool.false_eq_true, if_false,
        if_neg (Nat.not_lt.2 hle)]
    rw [extend, hstep, Nat.ofDigitChars_cons, Nat.mul_comm 10]
    exact ih _ hrest hlimit

end Parts

/-! ## Whole texts -/

/-- Digits before a point: one zero alone, or no zero in front. -/
structure WholePart (c : Char) (ds : List Char) : Prop where
  digits : AllDigits (c :: ds)
  zero : c = '0' → ds = []

/-- What is read of digits, of which the first tells whether more may follow. -/
def ofWhole (negative : Bool) (c : Char) (ds : List Char) : OpenNumber :=
  .start (if c.toNat - '0'.toNat = 0 then .zero else .whole) negative
    (Nat.ofDigitChars 10 (c :: ds) 0)

/-- What is read of a number with an exponent. -/
def ofExponent (negative : Bool) (significand : Nat) (scale : ℤ) (sign : Char)
    (exponent : List Char) : OpenNumber :=
  ⟨.exponent, negative, significand, scale, false, true, sign == '-',
    Nat.ofDigitChars 10 exponent 0, false⟩

theorem eq_zero_of_digit {c : Char} (h : c.isDigit = true) (hzero : c.toNat - '0'.toNat = 0) :
    c = '0' := by
  rw [Char.isDigit, Bool.and_eq_true, decide_eq_true_iff, decide_eq_true_iff] at h
  have hle : '0'.toNat ≤ c.toNat := h.1
  exact Char.toNat_inj.1 (by omega)

section Whole

variable (negative : Bool) {c : Char} {ds : List Char}

/-- Digits before a point. -/
theorem extend_digits (h : WholePart c ds)
    (hlimit : Nat.ofDigitChars 10 (c :: ds) 0 ≤ significandLimit) :
    (ofWhole negative c []).extend ds = some (ofWhole negative c ds) := by
  obtain ⟨hc, hds⟩ := List.forall_mem_cons.1 h.digits
  unfold ofWhole
  split
  · next hzero =>
    rw [h.zero (eq_zero_of_digit hc hzero)]
    rfl
  · rw [Nat.ofDigitChars_cons] at hlimit
    rw [Nat.ofDigitChars_cons, Nat.ofDigitChars_cons]
    exact extend_whole negative _ hds hlimit

/-- A point and digits behind it. -/
theorem extend_point {places : List Char} (hne : places ≠ []) (hplaces : AllDigits places)
    (hlimit : Nat.ofDigitChars 10 (c :: ds ++ places) 0 ≤ significandLimit) :
    (ofWhole negative c ds).extend ('.' :: places) =
      some ⟨.fraction, negative, Nat.ofDigitChars 10 (c :: ds ++ places) 0, -places.length, false,
        true, false, 0, false⟩ := by
  obtain ⟨p, ps, rfl⟩ := List.exists_cons_of_ne_nil hne
  obtain ⟨hp, hps⟩ := List.forall_mem_cons.1 hplaces
  rw [Nat.ofDigitChars_append, Nat.ofDigitChars_cons (c := p), Nat.mul_comm 10] at hlimit
  have hle := (le_ofDigitChars ps (Nat.ofDigitChars 10 (c :: ds) 0 * 10 +
    (p.toNat - '0'.toNat))).trans hlimit
  have hpoint : (ofWhole negative c ds).step '.' = .extended
      ⟨.point, negative, Nat.ofDigitChars 10 (c :: ds) 0, 0, false, true, false, 0, false⟩ := by
    unfold ofWhole
    split <;> rfl
  -- the first place is told apart from those behind it, as a point must have one
  have hfirst (front : Nat) (hle : front * 10 + (p.toNat - '0'.toNat) ≤ significandLimit) :
      step ⟨.point, negative, front, 0, false, true, false, 0, false⟩ p = .extended
        ⟨.fraction, negative, front * 10 + (p.toNat - '0'.toNat), 0 - 1, false, true, false, 0,
          false⟩ := by
    have htake : takePlace ⟨.point, negative, front, 0, false, true, false, 0, false⟩
        (p.toNat - '0'.toNat) = ⟨.point, negative, front * 10 + (p.toNat - '0'.toNat), 0 - 1, false,
          true, false, 0, false⟩ := takePlace_of_le rfl hle
    simp only [step, digitValue?_of_isDigit hp, htake]
  have hscale : -((p :: ps).length : ℤ) = 0 - 1 - ps.length := by
    rw [List.length_cons]
    omega
  rw [extend, hpoint]
  show extend _ (p :: ps) = _
  rw [extend, hfirst _ hle, Nat.ofDigitChars_append, Nat.ofDigitChars_cons (c := p),
    Nat.mul_comm 10, hscale]
  exact extend_places negative _ _ hps hlimit

end Whole

/-- An exponent mark, a sign and digits, behind what may end. -/
theorem extend_mark {n : OpenNumber}
    (hmark : n.step 'e' = .extended { n with part := .mark, fractional := true })
    (hstart : n.full = false ∧ n.exponentNegative = false ∧ n.exponent = 0 ∧ n.vanished = false)
    {sign : Char}
    (hsign : sign = '-' ∨ sign = '+') {exponent : List Char} (hne : exponent ≠ [])
    (hdigits : AllDigits exponent) (hlimit : Nat.ofDigitChars 10 exponent 0 ≤ exponentLimit) :
    n.extend ('e' :: sign :: exponent) =
      some (ofExponent n.negative n.significand n.scale sign exponent) := by
  obtain ⟨part, negative, significand, scale, full, fractional, exponentNegative, value, vanished⟩ := n
  obtain ⟨rfl, rfl, rfl, rfl⟩ := hstart
  obtain ⟨e, es, rfl⟩ := List.exists_cons_of_ne_nil hne
  obtain ⟨he, hes⟩ := List.forall_mem_cons.1 hdigits
  have hsigned : step ⟨.mark, negative, significand, scale, false, true, false, 0, false⟩ sign =
      .extended ⟨.markSign, negative, significand, scale, false, true, sign == '-', 0, false⟩ := by
    rcases hsign with rfl | rfl
    · rfl
    · rfl
  have hfirst : step ⟨.markSign, negative, significand, scale, false, true, sign == '-', 0, false⟩ e =
      .extended ⟨.exponent, negative, significand, scale, false, true, sign == '-',
        e.toNat - '0'.toNat, false⟩ := by
    simp only [step, digitValue?_of_isDigit he]
  rw [extend, hmark]
  show extend _ (sign :: e :: es) = _
  rw [extend, hsigned]
  show extend _ (e :: es) = _
  rw [Nat.ofDigitChars_cons, Nat.mul_zero, Nat.zero_add] at hlimit
  rw [extend, hfirst, ofExponent, Nat.ofDigitChars_cons, Nat.mul_zero, Nat.zero_add]
  exact extend_exponent negative _ _ _ _ hes hlimit

/-! ## Values -/

/-- The decimal that was read. -/
def decimal (n : OpenNumber) : Decimal := ⟨n.significand, n.power⟩

/-- Significand and power are both floating-point numbers, without a rounding. -/
def Exact (n : OpenNumber) : Prop := n.significand < 2 ^ 53 ∧ n.power.natAbs ≤ 22

/-- A decimal with the value of the shortest one is read as the number. -/
theorem value?_of_shortest {x : Binary64} {n : OpenNumber} (tie : Tie)
    (hfractional : n.fractional = true) (hvanished : n.vanished = false)
    (hsign : n.negative = x.negative) (hexact : n.Exact)
    (hvalue : n.decimal.value = (x.shortest tie).value) : n.value? = some (.float x) := by
  have hread : Binary64.ofScaled? n.negative n.significand n.power = some x := by
    rw [Binary64.ofScaled?_eq_ofDecimal? _ hexact.1 hexact.2, hsign]
    exact Binary64.ofDecimal?_of_value hvalue
  unfold value?
  simp only [hvanished, hfractional, Bool.false_eq_true, if_false, true_or, if_true]
  exact congrArg (Option.map Number.float) hread

end OpenNumber

/-! ## Numbers -/

open OpenNumber

/-- The reader takes the characters for a number. -/
def ReadsNumber (chars : List Char) (n : Number) : Prop :=
  ∃ c r m m', chars = c :: r ∧
    (∀ around offset, beginValue around offset c = .ok ⟨.number m, around⟩) ∧
    m.extend r = some m' ∧ m'.mayEnd = true ∧ m'.value? = some n

theorem ofDigitChars_singleton (c : Char) : Nat.ofDigitChars 10 [c] 0 = c.toNat - '0'.toNat := by
  rw [Nat.ofDigitChars_cons, Nat.mul_zero, Nat.zero_add]
  rfl

/-- A digit begins a number. -/
theorem beginValue_digit {c : Char} (hc : c.isDigit = true) (around : List Context) (offset : Nat) :
    beginValue around offset c = .ok ⟨.number (ofWhole false c []), around⟩ := by
  have hne (mark : Char) (hmark : mark.isDigit = false) : c ≠ mark := by
    rintro rfl
    rw [hc] at hmark
    cases hmark
  unfold beginValue
  rw [if_neg (hne _ (by decide)), if_neg (hne _ (by decide)), if_neg (hne _ (by decide)),
    if_neg (hne _ (by decide)), if_neg (hne _ (by decide)), if_neg (hne _ (by decide)),
    if_neg (hne _ (by decide)), digitValue?_of_isDigit hc, ofWhole, ofDigitChars_singleton]

/-- The sign stands in front of what is read of the digits. -/
theorem readsNumber_of_extend {negative : Bool} {c : Char} {r : List Char} (hc : c.isDigit = true)
    {m : OpenNumber} {n : Number} (hextend : (ofWhole negative c []).extend r = some m)
    (hend : m.mayEnd = true) (hvalue : m.value? = some n) :
    ReadsNumber (signChars negative ++ c :: r) n := by
  cases negative with
  | true =>
    have hstep : (OpenNumber.start .sign true 0).step c = .extended (ofWhole true c []) := by
      simp only [OpenNumber.step, OpenNumber.start, digitValue?_of_isDigit hc, ofWhole,
        ofDigitChars_singleton]
    refine ⟨'-', c :: r, .start .sign true 0, m, rfl, fun _ _ => rfl, ?_, hend, hvalue⟩
    rw [extend, hstep]
    exact hextend
  | false => exact ⟨c, r, ofWhole false c [], m, rfl, beginValue_digit hc, hextend, hend, hvalue⟩

theorem mayEnd_ofWhole (negative : Bool) (c : Char) (ds : List Char) :
    (ofWhole negative c ds).mayEnd = true := by
  unfold ofWhole
  split <;> rfl

/-! ## Integers -/

theorem wholePart_natDigits {n : Nat} {c : Char} {ds : List Char} (h : natDigits n = c :: ds) :
    WholePart c ds := by
  refine ⟨fun d hd => isDigit_of_mem_natDigits (n := n) (h ▸ hd), ?_⟩
  rintro rfl
  by_contra hds
  have hn : n = 0 := by
    by_contra hne
    exact head_natDigits hne h rfl
  subst hn
  exact hds (List.cons.inj h).2.symm

theorem readsNumber_int (n : Int) (h : InRange n) : ReadsNumber (intText n).toList (.int n h) := by
  rw [toList_intText]
  obtain ⟨c, ds, hdigits, hc⟩ := exists_digit_natDigits n.natAbs
  rw [hdigits]
  have hsignificand : Nat.ofDigitChars 10 (c :: ds) 0 = n.natAbs := by
    rw [← hdigits, ofDigitChars_natDigits]
  have hlimit : Nat.ofDigitChars 10 (c :: ds) 0 ≤ significandLimit := by
    have hmax : significandLimit = 18446744073709551615 := rfl
    rw [hsignificand]
    obtain ⟨hlower, hupper⟩ := h
    omega
  refine readsNumber_of_extend hc (extend_digits _ (wholePart_natDigits hdigits) hlimit)
    (mayEnd_ofWhole _ _ _) ?_
  have hvalue : (if decide (n < 0) = true then -(n.natAbs : Int) else n.natAbs) = n := by
    by_cases hneg : n < 0
    · rw [if_pos (decide_eq_true hneg)]
      omega
    · rw [if_neg (by simpa using hneg)]
      omega
  have hzero : ¬(decide (n < 0) = true ∧ n.natAbs = 0) := by
    rw [decide_eq_true_iff]
    omega
  unfold ofWhole OpenNumber.start value?
  simp only [hsignificand, hvalue, Bool.false_eq_true, or_self, if_false, dif_pos h, if_neg hzero]

/-! ## Floating-point numbers -/

section Float

variable {x : Binary64} {tie : Tie} {c : Char} {ds : List Char}

/-- A text with a point. -/
theorem readsNumber_point (hwhole : WholePart c ds) {places : List Char} (hne : places ≠ [])
    (hplaces : AllDigits places) (hlt : Nat.ofDigitChars 10 (c :: ds ++ places) 0 < 2 ^ 53)
    (hlength : places.length ≤ 22)
    (hvalue : decimalValue (c :: ds ++ '.' :: places) = (x.shortest tie).value) :
    ReadsNumber (signChars x.negative ++ (c :: ds ++ '.' :: places)) (.float x) := by
  have hlimit : Nat.ofDigitChars 10 (c :: ds ++ places) 0 ≤ significandLimit :=
    hlt.le.trans (by decide)
  have hfront : Nat.ofDigitChars 10 (c :: ds) 0 ≤ significandLimit := by
    rw [Nat.ofDigitChars_append] at hlimit
    exact (le_ofDigitChars places _).trans hlimit
  have hextend : (ofWhole x.negative c []).extend (ds ++ '.' :: places) = some
      ⟨.fraction, x.negative, Nat.ofDigitChars 10 (c :: ds ++ places) 0, -places.length, false, true,
        false, 0, false⟩ := by
    rw [extend_append, extend_digits _ hwhole hfront]
    exact extend_point _ hne hplaces hlimit
  refine readsNumber_of_extend (hwhole.digits c List.mem_cons_self) hextend rfl ?_
  have hpower : power ⟨.fraction, x.negative, Nat.ofDigitChars 10 (c :: ds ++ places) 0,
      -places.length, false, true, false, 0, false⟩ = -places.length := Int.zero_add _
  refine value?_of_shortest tie rfl rfl rfl ⟨hlt, by rw [hpower]; omega⟩ ?_
  have hscale : (places.length : ℤ) = -(-(places.length : ℤ)) := by omega
  rw [decimal, hpower]
  exact (decimalValue_point hwhole.digits hplaces hscale).symm.trans hvalue

/-- A text with an exponent. -/
theorem readsNumber_exponent {digits : List Char} (hdigits : AllDigits digits)
    (hne : digits ≠ []) (hlt : Nat.ofDigitChars 10 digits 0 < 2 ^ 53) {e : ℤ}
    (hlimit : e.natAbs ≤ exponentLimit) (hpower : (e - (digits.length - 1 : Nat)).natAbs ≤ 22)
    (hvalue : decimalValue (Decimal.pointed digits ++
      'e' :: (if e < 0 then '-' else '+') :: natDigits e.natAbs) = (x.shortest tie).value) :
    ReadsNumber (signChars x.negative ++ (Decimal.pointed digits ++
      'e' :: (if e < 0 then '-' else '+') :: natDigits e.natAbs)) (.float x) := by
  have hsign : (if e < 0 then '-' else '+') = '-' ∨ (if e < 0 then '-' else '+') = '+' := by
    split
    · exact Or.inl rfl
    · exact Or.inr rfl
  have hexponent : Nat.ofDigitChars 10 (natDigits e.natAbs) 0 ≤ exponentLimit := by
    rw [ofDigitChars_natDigits]
    exact hlimit
  -- whatever stands before the mark, its value and that of the exponent make up the decimal
  have hread : (ofExponent x.negative (Nat.ofDigitChars 10 digits 0) (-(digits.length - 1 : Nat))
      (if e < 0 then '-' else '+') (natDigits e.natAbs)).value? = some (.float x) := by
    have hsum : power (ofExponent x.negative (Nat.ofDigitChars 10 digits 0)
        (-(digits.length - 1 : Nat)) (if e < 0 then '-' else '+') (natDigits e.natAbs)) =
        e - (digits.length - 1 : Nat) := by
      rw [power, ofExponent]
      simp only [ofDigitChars_natDigits]
      by_cases hneg : e < 0
      · rw [if_pos hneg, if_pos (by decide)]
        omega
      · rw [if_neg hneg, if_neg (by decide)]
        omega
    refine value?_of_shortest tie rfl rfl rfl ⟨hlt, by rw [hsum]; exact hpower⟩ ?_
    rw [decimal, hsum, ← hvalue, decimalValue_exponent (Decimal.mark_not_mem_pointed hdigits),
      Decimal.mantissaValue_pointed hdigits hne, Decimal.exponentValue_signed, Decimal.value,
      zpow_sub₀ (by norm_num), zpow_natCast, ofExponent]
    ring
  have hfits : Nat.ofDigitChars 10 digits 0 ≤ significandLimit := hlt.le.trans (by decide)
  cases digits with
  | nil => exact absurd rfl hne
  | cons c places =>
    have hc : c.isDigit = true := hdigits c List.mem_cons_self
    cases places with
    | nil =>
      have hmark : (ofWhole x.negative c []).step 'e' =
          .extended { ofWhole x.negative c [] with part := .mark, fractional := true } := by
        unfold ofWhole
        split <;> rfl
      refine readsNumber_of_extend hc ?_ rfl hread
      exact extend_mark hmark ⟨rfl, rfl, rfl, rfl⟩ hsign (natDigits_ne_nil _)
        (allDigits_natDigits _) hexponent
    | cons p ps =>
      have hplaces : AllDigits (p :: ps) := fun d hd => hdigits d (List.mem_cons_of_mem _ hd)
      have hextend : (ofWhole x.negative c []).extend ('.' :: p :: ps ++
          'e' :: (if e < 0 then '-' else '+') :: natDigits e.natAbs) =
          some (ofExponent x.negative (Nat.ofDigitChars 10 (c :: [] ++ (p :: ps)) 0)
            (-(p :: ps).length) (if e < 0 then '-' else '+') (natDigits e.natAbs)) := by
        have hboth : Nat.ofDigitChars 10 (c :: [] ++ (p :: ps)) 0 ≤ significandLimit := hfits
        rw [extend_append, extend_point _ (List.cons_ne_nil _ _) hplaces hboth, Option.bind_some]
        refine extend_mark ?_ ⟨rfl, rfl, rfl, rfl⟩ hsign (natDigits_ne_nil _)
          (allDigits_natDigits _) hexponent
        rfl
      exact readsNumber_of_extend hc hextend rfl hread

end Float

/-- Only zero is written without a digit other than zero. -/
theorem exponent_shortest_of_zero {x : Binary64} {tie : Tie} (h : (x.shortest tie).digits = 0) :
    (x.shortest tie).exponent = 0 := by
  by_cases hsig : x.significand = 0
  · rw [Binary64.shortest_of_zero hsig]
  · exact absurd h (Binary64.digits_ne_zero hsig (Binary64.inInterval_shortest x tie))

end Json

/-! ## Short decimals -/

namespace Decimal

/-- The number that the digits of positional notation make up; a whole number has a zero behind its
    point. -/
def written (d : Decimal) : Nat :=
  if 0 ≤ d.exponent then d.digits * 10 ^ (d.exponent.toNat + 1) else d.digits

/-- The places behind the point of positional notation. -/
def places (d : Decimal) : Nat := if 0 ≤ d.exponent then 1 else d.exponent.natAbs

/-- What is written of a decimal, and the power of ten it counts, are floating-point numbers. -/
structure Short (d : Decimal) : Prop where
  written_lt : d.written < 2 ^ 53
  exponent_ge : -22 ≤ d.exponent

theorem digits_le_written (d : Decimal) : d.digits ≤ d.written := by
  unfold written
  split
  · exact Nat.le_mul_of_pos_right _ (Nat.pow_pos (by decide))
  · exact Nat.le_refl _

variable {d : Decimal}

theorem Short.digits_lt (h : d.Short) : d.digits < 2 ^ 53 := d.digits_le_written.trans_lt h.written_lt

theorem Short.places_le (h : d.Short) : d.places ≤ 22 := by
  have := h.exponent_ge
  unfold places
  split <;> omega

theorem Short.natAbs_exponent_le (h : d.Short) (hzero : d.digits = 0 → d.exponent = 0) :
    d.exponent.natAbs ≤ 22 := by
  have hge := h.exponent_ge
  by_contra hlarge
  have hpos : 22 < d.exponent := by omega
  have hdigits : 1 ≤ d.digits := by
    by_contra hnone
    have := hzero (by omega)
    omega
  have hten : 10 ^ 22 ≤ 10 ^ (d.exponent.toNat + 1) := Nat.pow_le_pow_right (by decide) (by omega)
  have hwritten := h.written_lt
  rw [written, if_pos (by omega)] at hwritten
  have hmul : 1 * 10 ^ 22 ≤ d.digits * 10 ^ (d.exponent.toNat + 1) := Nat.mul_le_mul hdigits hten
  omega

end Decimal

namespace Json

open OpenNumber

/-- The characters of positional notation, with a zero behind the point of a whole number. -/
theorem exists_positional {d : Decimal} (hzero : d.digits = 0 → d.exponent = 0) :
    ∃ c ds places, (d.positionalText true).toList = c :: ds ++ '.' :: places ∧ WholePart c ds ∧
      places ≠ [] ∧ AllDigits places ∧ Nat.ofDigitChars 10 (c :: ds ++ places) 0 = d.written ∧
      places.length = d.places := by
  obtain ⟨c, ds, hdigits, -⟩ := exists_digit_natDigits d.digits
  have hwhole := wholePart_natDigits hdigits
  unfold Decimal.written Decimal.places
  rw [Decimal.toList_positionalText]
  split
  · next hexp =>
    -- zeros in front of the point, and one behind it
    refine ⟨c, ds ++ List.replicate d.exponent.toNat '0', ['0'], ?_, ⟨?_, ?_⟩, by simp,
      allDigits_zeros 1, ?_, rfl⟩
    · rw [hdigits, if_pos rfl]
      simp
    · exact hwhole.digits.append (allDigits_zeros _)
    · rintro rfl
      have hnone : d.digits = 0 := by
        by_contra hne
        exact head_natDigits hne hdigits rfl
      rw [hwhole.zero rfl, hzero hnone]
      rfl
    · have hlast : ['0'] = List.replicate 1 '0' := rfl
      rw [hlast, ← List.cons_append, ← hdigits, List.append_assoc, List.replicate_append_replicate,
        ofDigitChars_zeros]
  · split
    · next hexp hbefore =>
      -- the point is among the digits
      have hlength : (natDigits d.digits).length = ds.length + 1 := by rw [hdigits]; rfl
      obtain ⟨k, hk⟩ : ∃ k, ((natDigits d.digits).length + d.exponent).toNat = k + 1 :=
        ⟨((natDigits d.digits).length + d.exponent).toNat - 1, by omega⟩
      rw [hk, hdigits, List.take_succ_cons, List.drop_succ_cons]
      refine ⟨c, ds.take k, ds.drop k, rfl, ⟨?_, ?_⟩, ?_, ?_, ?_, ?_⟩
      · exact List.forall_mem_cons.2 ⟨hwhole.digits c List.mem_cons_self,
          fun b hb => hwhole.digits b (List.mem_cons_of_mem _ (List.mem_of_mem_take hb))⟩
      · intro hc
        rw [hwhole.zero hc, List.take_nil]
      · rw [Ne, List.drop_eq_nil_iff]
        omega
      · exact fun b hb => hwhole.digits b (List.mem_cons_of_mem _ (List.mem_of_mem_drop hb))
      · rw [List.cons_append, List.take_append_drop, ← hdigits, ofDigitChars_natDigits]
      · rw [List.length_drop]
        omega
    · next hexp hbefore =>
      -- all digits stand behind the point, with zeros between it and them
      refine ⟨'0', [], List.replicate (-((natDigits d.digits).length + d.exponent)).toNat '0' ++
        natDigits d.digits, rfl, ⟨allDigits_zeros 1, fun _ => rfl⟩, ?_, ?_, ?_, ?_⟩
      · exact List.append_ne_nil_of_right_ne_nil _ (natDigits_ne_nil _)
      · exact (allDigits_zeros _).append (allDigits_natDigits _)
      · have hfirst : ['0'] = List.replicate 1 '0' := rfl
        rw [hfirst, ← List.append_assoc, List.replicate_append_replicate, Nat.ofDigitChars_append,
          Nat.ofDigitChars_replicate_zero, Nat.mul_zero, ofDigitChars_natDigits]
      · rw [List.length_append, List.length_replicate]
        omega

/-- The text of a number with a short decimal is read as the number. -/
theorem readsNumber_float {x : Binary64} (h : (x.shortest .toEven).Short) :
    ReadsNumber (x.text .jsonNumber).toList (.float x) := by
  have hpositional : ReadsNumber (signChars x.negative ++
      ((x.shortest .toEven).positionalText true).toList) (.float x) := by
    have hvalue := (x.shortest .toEven).decimalValue_positionalText true
    obtain ⟨c, ds, places, htext, hwhole, hne, hplaces, hwritten, hlength⟩ :=
      exists_positional (d := x.shortest .toEven) exponent_shortest_of_zero
    rw [htext] at hvalue ⊢
    exact readsNumber_point hwhole hne hplaces (hwritten ▸ h.written_lt) (hlength ▸ h.places_le)
      hvalue
  rw [Binary64.toList_text]
  unfold Decimal.text
  split
  · exact hpositional
  · split
    · exact hpositional
    · have htie : Layout.jsonNumber.tie = .toEven := rfl
      have hvalue := (x.shortest .toEven).decimalValue_scientificText
      have hexponent := h.natAbs_exponent_le exponent_shortest_of_zero
      have hlength : (natDigits (x.shortest .toEven).digits).length ≤ 16 :=
        Binary64.length_toDigits_of_lt h.digits_lt
      have hpos := List.length_pos_iff.2 (natDigits_ne_nil (x.shortest .toEven).digits)
      have hlimit : exponentLimit = 2147483647 := rfl
      rw [Decimal.toList_scientificText] at hvalue
      rw [htie, Decimal.toList_scientificText]
      refine readsNumber_exponent (allDigits_natDigits _) (natDigits_ne_nil _) ?_ ?_ ?_ hvalue
      · rw [ofDigitChars_natDigits]
        exact h.digits_lt
      · unfold Decimal.leadingExponent
        omega
      · unfold Decimal.leadingExponent
        omega

/-- Numbers that are read back: integers, and those with a short decimal. -/
def Number.Short : Number → Prop
  | .int _ _ => True
  | .float x => (x.shortest .toEven).Short

/-- The text of a short number is read as the number. -/
theorem readsNumber {n : Number} (h : n.Short) : ReadsNumber n.text.toList n := by
  cases n with
  | int n hrange => exact readsNumber_int n hrange
  | float x => exact readsNumber_float h

end Json

end WebStory
