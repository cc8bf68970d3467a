import WebStory.Proofs.Json.Guarding
import WebStory.Proofs.Json.RoundTrip
/-
  Where in a text the reader stands.

  Whether a character stands in a string literal is said of a text by its quotes and backslashes alone
  (`Place`).  The reader knows it by its state.  The two agree as long as something is read.

  1. **The invariant** — to each state belongs a place (`ReaderState.At`): inside for an open string,
     escaped behind its backslash, outside for everything else.  What is left of a word such as `null`
     has to be free of quotes, as its characters are taken one by one (`Phase.At`).

  2. **One step** — a character leads from a state at a place to one at the place behind the character,
     if it leads anywhere (`leads_step`).  There are three kinds of steps, and one lemma for each: inside
     a string (`at_stringStep`), at the beginning of a value (`leads_beginValue`) and between the
     parts of a container (`leads_stepBetween`).  In the last two only a quote opens a string.

  3. **The exception** — an escape with a number has four digits, and the reader takes four bytes
     before it complains about one of them.  A quote among them ends the literal for the text but not
     for the reader, so behind a wrong digit any place will do.  Nothing comes of such an escape.
-/

namespace WebStory.Json

/-! ## Where the reader stands -/

/-- The place of a string that is being read.  Behind a wrong digit of an escape any place will do. -/
def Escape.At : Escape → Place → Prop
  | .none, p | .backslashDue _, p => p = .inside
  | .begun, p | .letterDue _, p => p = .escaped
  | .digits _ _ sound _, p => sound = true → p = .inside

/-- The place of what is being read. -/
def Phase.At : Phase → Place → Prop
  | .keyText _ text, p | .string text, p => text.escape.At p
  | .literal rest _, p => p = .outside ∧ '"' ∉ rest
  | _, p => p = .outside

def ReaderState.At (s : ReaderState) (p : Place) : Prop := s.phase.At p

/-- What became of a string is at the place. -/
def StringStep.At : StringStep → Place → Prop
  | .more text, p => text.escape.At p
  | .closed _, p => p = .outside

section At

variable {p : Place}

theorem at_complete (v : Value) (around : List Context) : (complete v around).At .outside := by
  cases around with
  | nil => rfl
  | cons c around => cases c <;> rfl

theorem hexValue?_ne {c : Char} {d : Nat} (h : hexValue? c = some d) : c ≠ '"' ∧ c ≠ '\\' := by
  constructor
  · rintro rfl
    cases h
  · rintro rfl
    cases h

/-- Behind the last digit of an escape a string goes on, or its other half is due. -/
theorem at_closeEscape (text : OpenString) (high : Option Nat) (value offset : Nat) :
    Ensures (·.escape.At .inside) (text.closeEscape high value offset) := by
  cases high with
  | none =>
    simp only [OpenString.closeEscape]
    split_ifs
    · exact ensures_ok rfl
    · exact ensures_error _
    · exact ensures_ok rfl
  | some leading =>
    simp only [OpenString.closeEscape]
    split_ifs
    · exact ensures_ok rfl
    · exact ensures_error _

/-- One character of a string. -/
theorem at_stringStep {text : OpenString} (h : text.escape.At p) (offset : Nat) (c : Char) :
    Ensures (·.At (p.next c)) (text.step offset c) := by
  obtain ⟨chars, escape⟩ := text
  cases escape with
  | none =>
    obtain rfl : p = .inside := h
    simp only [OpenString.step]
    split_ifs with hquote hslash hsmall
    · exact ensures_ok (if_pos hquote)
    · exact ensures_ok ((if_neg hquote).trans (if_pos hslash))
    · exact ensures_error _
    · exact ensures_ok (Place.next_inside hquote hslash)
  | begun =>
    obtain rfl : p = .escaped := h
    simp only [OpenString.step]
    split_ifs
    · exact ensures_ok fun _ => rfl
    · cases unescape? c with
      | none => exact ensures_error _
      | some d => exact ensures_ok rfl
  | digits high value sound stop =>
    cases hdigit : hexValue? c with
    | none =>
      -- a wrong digit, whatever the place
      simp only [OpenString.step, hdigit, Bool.false_eq_true, if_false]
      split_ifs
      · exact ensures_ok fun hsound => absurd hsound (by decide)
      · exact ensures_error _
    | some d =>
      -- a digit leads nowhere, so the place is still that of a sound escape
      obtain ⟨hquote, hslash⟩ := hexValue?_ne hdigit
      have hnext (hp : p = .inside) : p.next c = .inside := by
        rw [hp, Place.next_inside hquote hslash]
      simp only [OpenString.step, hdigit]
      split_ifs with hmore hsound
      · exact ensures_ok fun hsound => hnext (h hsound)
      · rw [hnext (h hsound)]
        exact (at_closeEscape _ high _ offset).map fun _ hat => hat
      · exact ensures_error _
  | backslashDue high =>
    obtain rfl : p = .inside := h
    simp only [OpenString.step]
    split_ifs with hslash
    · subst hslash
      exact ensures_ok rfl
    · exact ensures_error _
  | letterDue high =>
    obtain rfl : p = .escaped := h
    simp only [OpenString.step]
    split_ifs
    · exact ensures_ok fun _ => rfl
    · exact ensures_error _

/-- A value begins outside of strings; only a quote opens one. -/
theorem leads_beginValue (around : List Context) (offset : Nat) (c : Char) :
    Ensures (·.At (Place.outside.next c)) (beginValue around offset c) := by
  unfold beginValue
  by_cases hquote : c = '"'
  · subst hquote
    exact ensures_ok rfl
  have hnext : Place.outside.next c = .outside := Place.next_outside hquote
  rw [hnext]
  split_ifs
  · exact ensures_ok rfl
  · exact ensures_error _
  · exact ensures_ok rfl
  · exact ensures_error _
  · exact ensures_ok rfl
  · exact ensures_ok ⟨rfl, by decide⟩
  · exact ensures_ok ⟨rfl, by decide⟩
  · exact ensures_ok ⟨rfl, by decide⟩
  · cases digitValue? c with
    | some n => exact ensures_ok rfl
    | none => exact ensures_error _

/-- Between the parts of a container, too, only a quote opens a string. -/
theorem leads_stepBetween {s : ReaderState} (h : s.At .outside) (offset : Nat) (c : Char) :
    Ensures (·.At (Place.outside.next c)) (stepBetween s offset c) := by
  obtain ⟨phase, around⟩ := s
  unfold stepBetween
  by_cases hquote : c = '"'
  · subst hquote
    rw [if_neg (by decide)]
    cases phase with
    | item done first => exact leads_beginValue (.list done :: around) offset '"'
    | value => exact leads_beginValue around offset '"'
    | key done first => exact ensures_ok rfl
    | _ => exact ensures_error _
  have hnext : Place.outside.next c = .outside := Place.next_outside hquote
  by_cases hspace : isSpace c = true
  · rw [if_pos hspace, hnext]
    exact ensures_ok h
  rw [if_neg hspace]
  cases phase with
  | item done first =>
    simp only
    split_ifs
    · rw [hnext]
      exact ensures_ok (at_complete _ _)
    · exact ensures_error _
    · exact leads_beginValue _ _ _
  | afterItem done =>
    simp only [hnext]
    split_ifs
    · exact ensures_ok rfl
    · exact ensures_ok (at_complete _ _)
    · exact ensures_error _
  | key done first =>
    simp only [hnext, if_neg hquote]
    split_ifs
    · exact ensures_ok (at_complete _ _)
    · exact ensures_error _
    · exact ensures_error _
  | colon done key =>
    simp only [hnext]
    split_ifs
    · exact ensures_ok rfl
    · exact ensures_error _
  | afterMember done =>
    simp only [hnext]
    split_ifs
    · exact ensures_ok rfl
    · exact ensures_ok (at_complete _ _)
    · exact ensures_error _
  | value => exact leads_beginValue _ _ _
  | _ => exact ensures_error _

theorem leads_holding (role : TextRole) (around : List Context) {text : OpenString}
    (h : text.escape.At p) (offset : Nat) (c : Char) :
    Ensures (·.At (p.next c)) (step (role.holding around text) offset c) := by
  rw [step_holding]
  refine (at_stringStep h offset c).map fun outcome hat => ?_
  cases outcome with
  | more text => cases role <;> exact hat
  | closed key =>
    have hplace : p.next c = .outside := hat
    rw [hplace]
    cases role with
    | value => exact at_complete _ _
    | key done => rfl

/-- No part of a number begins with a quote. -/
theorem step_quote (n m : OpenNumber) : n.step '"' ≠ .extended m := by
  obtain ⟨part, negative, significand, scale, full, fractional, exponentNegative, exponent, vanished⟩ :=
    n
  cases part <;> nofun

/-- One character leads on from a state and its place. -/
theorem leads_step {s : ReaderState} (h : s.At p) (offset : Nat) (c : Char) :
    Ensures (·.At (p.next c)) (step s offset c) := by
  obtain ⟨phase, around⟩ := s
  cases phase with
  | keyText done text => exact leads_holding (.key done) around h offset c
  | string text => exact leads_holding .value around h offset c
  | number n =>
    obtain rfl : p = .outside := h
    simp only [step]
    cases hstep : n.step c with
    | extended m =>
      have hquote : c ≠ '"' := by
        rintro rfl
        exact step_quote n m hstep
      have hnext : Place.outside.next c = .outside := Place.next_outside hquote
      rw [hnext]
      exact ensures_ok rfl
    | wrong fault => exact ensures_error _
    | ended =>
      cases n.value? with
      | none => exact ensures_error _
      | some value => exact leads_stepBetween (at_complete (.number value) around) offset c
  | literal rest v =>
    obtain ⟨rfl, hrest⟩ := h
    simp only [step]
    cases rest with
    | nil => exact ensures_error _
    | cons a rest =>
      have ha : a ≠ '"' := by
        rintro rfl
        exact hrest List.mem_cons_self
      have hnext : Place.outside.next a = .outside := Place.next_outside ha
      cases rest with
      | nil =>
        simp only
        split_ifs with hc
        · rw [hc, hnext]
          exact ensures_ok (at_complete _ _)
        · exact ensures_error _
      | cons b rest =>
        have htail : '"' ∉ b :: rest := fun hmem => hrest (List.mem_cons_of_mem _ hmem)
        simp only
        split_ifs with hc
        · rw [hc, hnext]
          exact ensures_ok ⟨rfl, htail⟩
        · exact ensures_error _
  | _ =>
    have hplace : p = .outside := h
    rw [hplace] at h ⊢
    exact leads_stepBetween h offset c

end At

end WebStory.Json
