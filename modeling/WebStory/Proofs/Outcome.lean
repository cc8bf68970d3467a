/-
  Computations that may fail.

  Two questions are asked of them apart.  Which error do they end in?  `failure?` gives it, and for
  one computation after another the first error counts (`failure?_bind`).  And what holds of the
  result, if there is one?  This is `Ensures`, which passes through a computation step by step
  (`Ensures.bind`).  What holds of the error, whichever it is, is `FailsWith`; it asks the same of
  every step, and a step may count on what those before it gave.  Two computations that may differ
  in their errors only are compared step by step as well (`SameUpTo.bind`).
-/

namespace WebStory

variable {ε ε' α β : Type}

/-! ## Failures -/

/-- The error of a computation that fails. -/
def failure? : Except ε α → Option ε
  | .ok _ => none
  | .error e => some e

@[simp] theorem failure?_ok (a : α) : failure? (.ok a : Except ε α) = none := rfl

@[simp] theorem failure?_error (e : ε) : failure? (.error e : Except ε α) = some e := rfl

theorem failure?_eq_some_iff {x : Except ε α} {e : ε} : failure? x = some e ↔ x = .error e := by
  cases x <;> simp

theorem failure?_eq_none_iff {x : Except ε α} : failure? x = none ↔ ∃ a, x = .ok a := by
  cases x <;> simp

theorem failure?_mapError (x : Except ε α) (f : ε → ε') :
    failure? (x.mapError f) = (failure? x).map f := by
  cases x <;> rfl

/-- The second computation is asked only if the first succeeds. -/
theorem failure?_bind (x : Except ε α) {f : α → Except ε β} {second : Option ε}
    (h : ∀ a, failure? (f a) = second) : failure? (x >>= f) = (failure? x).or second := by
  cases x with
  | error e => rfl
  | ok a => exact h a

/-! ## Results -/

theorem eq_ok_of_toOption {x : Except ε α} {a : α} (h : x.toOption = some a) : x = .ok a := by
  cases x with
  | error e => cases h
  | ok b => exact congrArg _ (Option.some.inj h)

theorem toOption_map (f : α → β) (x : Except ε α) : (x.map f).toOption = x.toOption.map f := by
  cases x <;> rfl

theorem exists_eq_ok {x : Except ε α} (h : x.isOk = true) : ∃ a, x = .ok a := by
  cases x with
  | error e => exact absurd h Bool.false_ne_true
  | ok a => exact ⟨a, rfl⟩

/-- One computation after another gives a result if both do. -/
theorem exists_of_bind_eq_ok {x : Except ε α} {f : α → Except ε β} {b : β}
    (h : x >>= f = .ok b) : ∃ a, x = .ok a ∧ f a = .ok b := by
  cases x with
  | error e => cases h
  | ok a => exact ⟨a, rfl, h⟩

/-- One computation after another gives a result exactly if both do. -/
theorem bind_eq_ok_iff {x : Except ε α} {f : α → Except ε β} {b : β} :
    x >>= f = .ok b ↔ ∃ a, x = .ok a ∧ f a = .ok b := by
  constructor
  · exact exists_of_bind_eq_ok
  · rintro ⟨a, rfl, hb⟩
    exact hb

theorem map_eq_ok_iff {x : Except ε α} {f : α → β} {b : β} :
    x.map f = .ok b ↔ ∃ a, x = .ok a ∧ f a = b := by
  cases x with
  | error e => exact ⟨nofun, nofun⟩
  | ok a =>
    constructor
    · intro h
      exact ⟨a, rfl, Except.ok.inj h⟩
    · rintro ⟨_, ⟨⟩, rfl⟩
      rfl

/-- The result, if there is one, is of a certain kind. -/
def Ensures (P : α → Prop) (x : Except ε α) : Prop := ∀ a, x = .ok a → P a

theorem ensures_ok {P : α → Prop} {a : α} (h : P a) : Ensures P (.ok a : Except ε α) := by
  rintro b ⟨⟩
  exact h

theorem ensures_error {P : α → Prop} (e : ε) : Ensures P (.error e : Except ε α) := nofun

theorem ensures_true (x : Except ε α) : Ensures (fun _ => True) x := fun _ _ => trivial

theorem Ensures.bind {P : α → Prop} {Q : β → Prop} {x : Except ε α} {f : α → Except ε β}
    (hx : Ensures P x) (hf : ∀ a, P a → Ensures Q (f a)) : Ensures Q (x >>= f) := by
  intro b hb
  cases x with
  | error e => cases hb
  | ok a => exact hf a (hx a rfl) b hb

theorem Ensures.map {P : α → Prop} {Q : β → Prop} {x : Except ε α} {f : α → β}
    (hx : Ensures P x) (hf : ∀ a, P a → Q (f a)) : Ensures Q (x.map f) := by
  intro b hb
  cases x with
  | error e => cases hb
  | ok a =>
    obtain rfl : f a = b := Except.ok.inj hb
    exact hf a (hx a rfl)

/-- Another wording of the error says nothing about results. -/
theorem Ensures.mapError {P : α → Prop} {x : Except ε α} (hx : Ensures P x) (f : ε → ε') :
    Ensures P (x.mapError f) := by
  cases x with
  | error e => exact ensures_error (f e)
  | ok a => exact ensures_ok (hx a rfl)

/-! ## Errors -/

/-- The error, if there is one, is of a certain kind. -/
def FailsWith (P : ε → Prop) (x : Except ε α) : Prop := ∀ e, x = .error e → P e

section FailsWith

variable {P Q : ε → Prop}

theorem failsWith_ok (a : α) : FailsWith P (.ok a : Except ε α) := nofun

theorem failsWith_error {e : ε} (h : P e) : FailsWith P (.error e : Except ε α) := by
  rintro e' ⟨⟩
  exact h

theorem FailsWith.bind {x : Except ε α} {f : α → Except ε β} (hx : FailsWith P x)
    (hf : ∀ a, x = .ok a → FailsWith P (f a)) : FailsWith P (x >>= f) := by
  intro e he
  cases x with
  | error e' => exact hx e (congrArg _ (Except.error.inj he))
  | ok a => exact hf a rfl e he

theorem FailsWith.map {x : Except ε α} (hx : FailsWith P x) (f : α → β) :
    FailsWith P (x.map f) := by
  intro e he
  cases x with
  | error e' => exact hx e (congrArg _ (Except.error.inj he))
  | ok a => cases he

theorem FailsWith.imp {x : Except ε α} (hx : FailsWith P x) (h : ∀ e, P e → Q e) : FailsWith Q x :=
  fun e he => h e (hx e he)

end FailsWith

/-! ## The same up to errors -/

/-- Two computations with the same result, or with errors that are related. -/
inductive SameUpTo (E : ε → ε' → Prop) : Except ε α → Except ε' α → Prop where
  | ok (a : α) : SameUpTo E (.ok a) (.ok a)
  | error {e : ε} {e' : ε'} (h : E e e') : SameUpTo E (.error e) (.error e')

section SameUpTo

variable {E : ε → ε' → Prop} {x : Except ε α} {y : Except ε' α}

theorem SameUpTo.bind {f : α → Except ε β} {g : α → Except ε' β} (h : SameUpTo E x y)
    (hf : ∀ a, SameUpTo E (f a) (g a)) : SameUpTo E (x >>= f) (y >>= g) := by
  cases h with
  | ok a => exact hf a
  | error h => exact .error h

theorem SameUpTo.map (h : SameUpTo E x y) (f : α → β) : SameUpTo E (x.map f) (y.map f) := by
  cases h with
  | ok a => exact .ok (f a)
  | error h => exact .error h

/-- A computation is the same as itself as far as its own errors are. -/
theorem sameUpTo_self {E : ε → ε → Prop} {x : Except ε α} (h : FailsWith (fun e => E e e) x) :
    SameUpTo E x x := by
  cases x with
  | ok a => exact .ok a
  | error e => exact .error (h e rfl)

/-- The second computation rewords the errors of the first. -/
theorem sameUpTo_reword_iff {f : ε → ε'} :
    SameUpTo (fun e e' => e' = f e) x y ↔ y = x.mapError f := by
  constructor
  · rintro (_ | ⟨rfl⟩) <;> rfl
  · rintro rfl
    cases x with
    | ok a => exact .ok a
    | error e => exact .error rfl

/-- Errors are not compared. -/
theorem sameUpTo_any_iff : SameUpTo (fun _ _ => True) x y ↔ y.toOption = x.toOption := by
  constructor
  · rintro (_ | _) <;> rfl
  · intro h
    cases x with
    | ok a =>
      rw [eq_ok_of_toOption h]
      exact .ok a
    | error e =>
      cases y with
      | ok a => cases h
      | error e' => exact .error trivial

end SameUpTo

end WebStory
