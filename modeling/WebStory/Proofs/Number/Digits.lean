import WebStory.Number.Layout
/-
  Decimal digits of whole numbers.

  Reading the digits back gives the number, so the digits determine it; with the sign in front
  this holds of integers too (`intText_injective`).
-/

namespace WebStory

/-! ## Natural numbers -/

theorem isDigit_of_mem_natDigits {n : Nat} {c : Char} (h : c ∈ natDigits n) : c.isDigit = true :=
  Nat.isDigit_of_mem_toDigits (by decide) (by decide) h

theorem natDigits_ne_nil (n : Nat) : natDigits n ≠ [] := Nat.toDigits_ne_nil

@[simp] theorem ofDigitChars_natDigits (n : Nat) : Nat.ofDigitChars 10 (natDigits n) 0 = n :=
  Nat.ofDigitChars_ten_toDigits

theorem natDigits_injective {m n : Nat} (h : natDigits m = natDigits n) : m = n := by
  rw [← ofDigitChars_natDigits m, h, ofDigitChars_natDigits]

theorem isDigit_of_mem_toString {n : Nat} {c : Char} (h : c ∈ (toString n).toList) :
    c.isDigit = true := by
  rw [Nat.toString_eq_ofList_toDigits, String.toList_ofList] at h
  exact isDigit_of_mem_natDigits h

theorem toString_injective {m n : Nat} (h : toString m = toString n) : m = n := by
  rw [Nat.toString_eq_ofList_toDigits, Nat.toString_eq_ofList_toDigits, String.ofList_inj] at h
  exact natDigits_injective h

/-! ## Integers -/

/-- The sign in front of a number's digits. -/
def signChars (negative : Bool) : List Char := if negative then ['-'] else []

/-- What starts with a digit shows its sign. -/
theorem signChars_append_injective {a b : Bool} {s t : List Char}
    (hs : ∃ c r, s = c :: r ∧ c.isDigit = true) (ht : ∃ c r, t = c :: r ∧ c.isDigit = true)
    (h : signChars a ++ s = signChars b ++ t) : a = b ∧ s = t := by
  obtain ⟨c, r, rfl, hc⟩ := hs
  obtain ⟨d, u, rfl, hd⟩ := ht
  have hdash : ('-' : Char).isDigit = false := by decide
  cases a <;> cases b <;>
    simp only [signChars, if_true, Bool.false_eq_true, if_false, List.nil_append,
      List.cons_append, List.cons.injEq] at h ⊢
  · exact ⟨trivial, h⟩
  · rw [h.1, hdash] at hc
    exact absurd hc (by decide)
  · rw [← h.1, hdash] at hd
    exact absurd hd (by decide)
  · exact ⟨trivial, h.2⟩

theorem exists_digit_natDigits (n : Nat) : ∃ c r, natDigits n = c :: r ∧ c.isDigit = true := by
  cases h : natDigits n with
  | nil => exact absurd h (natDigits_ne_nil n)
  | cons c r => exact ⟨c, r, rfl, isDigit_of_mem_natDigits (n := n) (h ▸ List.mem_cons_self)⟩

theorem toList_intText (n : Int) :
    (intText n).toList = signChars (decide (n < 0)) ++ natDigits n.natAbs := by
  unfold intText signChars
  by_cases h : n < 0 <;> simp [h]

/-- Every character of an integer is its sign or a digit. -/
theorem mem_intText {n : Int} {c : Char} (h : c ∈ (intText n).toList) :
    c = '-' ∨ c.isDigit = true := by
  rw [toList_intText, List.mem_append] at h
  rcases h with h | h
  · unfold signChars at h
    split at h
    · exact Or.inl (List.mem_singleton.1 h)
    · simp at h
  · exact Or.inr (isDigit_of_mem_natDigits h)

theorem intText_injective {m n : Int} (h : intText m = intText n) : m = n := by
  have hchars := congrArg String.toList h
  rw [toList_intText, toList_intText] at hchars
  obtain ⟨hsign, hdigits⟩ := signChars_append_injective (exists_digit_natDigits _)
    (exists_digit_natDigits _) hchars
  have habs : m.natAbs = n.natAbs := natDigits_injective hdigits
  have hneg : m < 0 ↔ n < 0 := decide_eq_decide.1 hsign
  omega

end WebStory
