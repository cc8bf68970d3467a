import Mathlib.Tactic.SplitIfs
import WebStory.Json.Reader
import WebStory.Proofs.Entries
import WebStory.Proofs.Json.Tree
import WebStory.Proofs.Outcome
/-
  What is read has every key once.

  That no key occurs twice is a condition of most that is known about canonical forms, so it is good
  to have it from where values come from.

  1. **One write** — an object that is being read takes its members by `Entries.set`, so a repeated
     key replaces the value and adds no member (`keysOnce_set`).

  2. **The invariant** — for the value as a whole this is one of the reader: whatever it has put
     together so far, in the open containers and around them, has every key once
     (`ReaderState.KeysOnce`).  A value that is complete goes into the container around it, and
     there the invariant of the value becomes that of the container (`keysOnce_complete`).

  3. **A run** — one character keeps all of it (`keysOnce_step`), so a whole text does, and what is
     left at its end is the value (`keysOnce_parse`).
-/

namespace WebStory.Json

/-! ## Objects under construction -/

/-- Setting a member keeps every key once. -/
theorem keysOnce_set {members : Members} (h : (Value.object members).KeysOnce) (key : String)
    {v : Value} (hv : v.KeysOnce) : (Value.object (Entries.set members key v)).KeysOnce := by
  rw [Value.keysOnce_object] at h ⊢
  refine ⟨Entries.nodup_names_set _ _ h.1, fun e he => ?_⟩
  rcases Entries.mem_of_mem_set he with rfl | he
  · exact hv
  · exact h.2 e he

theorem keysOnce_nil : (Value.object []).KeysOnce := by
  rw [Value.keysOnce_object]
  exact ⟨List.nodup_nil, nofun⟩

/-! ## The invariant -/

/-- What a phase has read has every key once. -/
def Phase.KeysOnce : Phase → Prop
  | .item done _ => ∀ v ∈ done, v.KeysOnce
  | .afterItem done => ∀ v ∈ done, v.KeysOnce
  | .key done _ => (Value.object done).KeysOnce
  | .keyText done _ => (Value.object done).KeysOnce
  | .colon done _ => (Value.object done).KeysOnce
  | .afterMember done => (Value.object done).KeysOnce
  | .literal _ v => v.KeysOnce
  | .finished v => v.KeysOnce
  | .value => True
  | .string _ => True
  | .number _ => True

def Context.KeysOnce : Context → Prop
  | .list done => ∀ v ∈ done, v.KeysOnce
  | .member done _ => (Value.object done).KeysOnce

/-- Everything read so far has every key once. -/
structure ReaderState.KeysOnce (s : ReaderState) : Prop where
  phase : s.phase.KeysOnce
  around : ∀ c ∈ s.around, c.KeysOnce

/-- A complete value keeps the invariant of the container it goes into. -/
theorem keysOnce_complete {v : Value} (hv : v.KeysOnce) {around : List Context}
    (h : ∀ c ∈ around, c.KeysOnce) : (complete v around).KeysOnce := by
  cases around with
  | nil => exact ⟨hv, nofun⟩
  | cons c around =>
    have hc := h c List.mem_cons_self
    have hrest : ∀ c ∈ around, c.KeysOnce := fun c hc => h c (List.mem_cons_of_mem _ hc)
    cases c with
    | list done => exact ⟨List.forall_mem_cons.2 ⟨hv, hc⟩, hrest⟩
    | member done key => exact ⟨keysOnce_set hc key hv, hrest⟩

theorem keysOnce_beginValue {around : List Context} (h : ∀ c ∈ around, c.KeysOnce) (offset : Nat)
    (c : Char) : Ensures ReaderState.KeysOnce (beginValue around offset c) := by
  unfold beginValue
  split_ifs
  · exact ensures_ok ⟨nofun, h⟩
  · exact ensures_error _
  · exact ensures_ok ⟨keysOnce_nil, h⟩
  · exact ensures_error _
  · exact ensures_ok ⟨trivial, h⟩
  · exact ensures_ok ⟨trivial, h⟩
  · exact ensures_ok ⟨trivial, h⟩
  · exact ensures_ok ⟨trivial, h⟩
  · exact ensures_ok ⟨trivial, h⟩
  · cases digitValue? c with
    | some n => exact ensures_ok ⟨trivial, h⟩
    | none => exact ensures_error _

theorem keysOnce_stepBetween {s : ReaderState} (h : s.KeysOnce) (offset : Nat) (c : Char) :
    Ensures ReaderState.KeysOnce (stepBetween s offset c) := by
  have harray {done : List Value} (hdone : ∀ v ∈ done, v.KeysOnce) :
      (Value.array done.reverse).KeysOnce := by
    rw [Value.keysOnce_array]
    exact fun v hv => hdone v (List.mem_reverse.1 hv)
  unfold stepBetween
  by_cases hspace : isSpace c = true
  · rw [if_pos hspace]
    exact ensures_ok h
  rw [if_neg hspace]
  obtain ⟨phase, around⟩ := s
  obtain ⟨hphase, haround⟩ := h
  cases phase with
  | item done first =>
    simp only
    split_ifs
    · exact ensures_ok (keysOnce_complete (harray hphase) haround)
    · exact ensures_error _
    · have hlist : (Context.list done).KeysOnce := hphase
      exact keysOnce_beginValue (List.forall_mem_cons.2 ⟨hlist, haround⟩) offset c
  | afterItem done =>
    simp only
    split_ifs
    · exact ensures_ok ⟨hphase, haround⟩
    · exact ensures_ok (keysOnce_complete (harray hphase) haround)
    · exact ensures_error _
  | key done first =>
    simp only
    split_ifs
    · exact ensures_ok ⟨hphase, haround⟩
    · exact ensures_ok (keysOnce_complete hphase haround)
    · exact ensures_error _
    · exact ensures_error _
  | colon done key =>
    simp only
    split_ifs
    · exact ensures_ok ⟨trivial, List.forall_mem_cons.2 ⟨hphase, haround⟩⟩
    · exact ensures_error _
  | afterMember done =>
    simp only
    split_ifs
    · exact ensures_ok ⟨hphase, haround⟩
    · exact ensures_ok (keysOnce_complete hphase haround)
    · exact ensures_error _
  | value => exact keysOnce_beginValue haround offset c
  | _ => exact ensures_error _

/-- One character keeps every key once. -/
theorem keysOnce_step {s : ReaderState} (h : s.KeysOnce) (offset : Nat) (c : Char) :
    Ensures ReaderState.KeysOnce (step s offset c) := by
  -- a case for each phase, as the reader has one
  obtain ⟨phase, around⟩ := s
  cases phase with
  | keyText done text =>
    refine (ensures_true (text.step offset c)).bind fun outcome _ => ?_
    cases outcome with
    | more text => exact ensures_ok ⟨h.phase, h.around⟩
    | closed key => exact ensures_ok ⟨h.phase, h.around⟩
  | string text =>
    refine (ensures_true (text.step offset c)).bind fun outcome _ => ?_
    cases outcome with
    | more text => exact ensures_ok ⟨trivial, h.around⟩
    | closed text => exact ensures_ok (keysOnce_complete (v := .string text) trivial h.around)
  | number n =>
    simp only [step]
    cases n.step c with
    | extended m => exact ensures_ok ⟨trivial, h.around⟩
    | wrong fault => exact ensures_error _
    | ended =>
      -- the character that ends a number belongs to what follows it
      cases n.value? with
      | none => exact ensures_error _
      | some value =>
        exact keysOnce_stepBetween (keysOnce_complete (v := .number value) trivial h.around) offset c
  | literal rest value =>
    simp only [step]
    split
    · exact ensures_error _
    · split_ifs
      · exact ensures_ok (keysOnce_complete h.phase h.around)
      · exact ensures_error _
    · split_ifs
      · exact ensures_ok ⟨h.phase, h.around⟩
      · exact ensures_error _
  | _ => exact keysOnce_stepBetween h offset c

theorem keysOnce_run {s : ReaderState} (h : s.KeysOnce) (chars : List Char) (offset : Nat) :
    Ensures (fun r => r.1.KeysOnce) (run chars offset s) := by
  induction chars generalizing offset s with
  | nil => exact ensures_ok h
  | cons c rest ih =>
    have hstep := keysOnce_step h offset c
    rw [run]
    cases hs : step s offset c with
    | error e => exact ensures_error e
    | ok s' => exact ih (hstep s' hs) _

theorem keysOnce_atEnd {s : ReaderState} (h : s.KeysOnce) : Ensures Value.KeysOnce s.atEnd := by
  obtain ⟨phase, around⟩ := s
  cases phase with
  | finished v => exact ensures_ok h.phase
  | number n =>
    simp only [ReaderState.atEnd]
    split_ifs
    · split
      · exact ensures_error _
      · exact ensures_ok trivial
      · exact ensures_error _
      · exact ensures_error _
    · exact ensures_error _
  | _ => exact ensures_error _

/-- A value read from a text has every key once. -/
theorem keysOnce_parse {text : String} {v : Value} (h : parse text = .ok v) : v.KeysOnce := by
  have hstart : (⟨.value, []⟩ : ReaderState).KeysOnce := ⟨trivial, nofun⟩
  have hrun := keysOnce_run hstart text.toList 0
  have hparse : Ensures Value.KeysOnce (parse text) := by
    unfold parse
    simp only
    split
    · exact ensures_error _
    · next s offset hs => exact (keysOnce_atEnd (hrun _ hs)).mapError _
  exact hparse v h

end WebStory.Json
