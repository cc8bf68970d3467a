import WebStory.Proofs.Json.ReadNumber
import WebStory.Proofs.Outcome
/-
  The reader reads the text of a value as the value.

  What is left of a text and the state the reader is in say what is read (`readFrom`).  So reading the
  text of a value is a way from one such pair to another (`Reaches`): in front of the text the reader
  waits for a value, behind it the value stands complete in the container around it
  (`readsBack`).

  1. **Strings** — the printer writes a character with a letter, with its number or as itself, and
     each of the three is read as the character (`reaches_escapeChar`).

  2. **Numbers** — a number ends where what stands behind it does not go on with it, and what can
     stand behind a value never does (`Delimited`, `reaches_ended`).

  3. **Containers** — items and members are both parts with commas between them, so one induction
     leads through either (`reaches_separated`).  A part is read for the container around it as a
     value alone is read for none.

  Three bounds belong to this.  An object that is read has each key once, the reader goes no deeper
  than `depthLimit`, and of a floating-point number only a short decimal is sure to be found again
  (`Number.Short`).  A value within them is the one that is read (`parse_text`).
-/

namespace WebStory.Json

/-! ## The rest of a text -/

/-- What is read of the rest of a text, from the state reached `offset` bytes into it. -/
def readFrom (s : ReaderState) (offset : Nat) (cs : List Char) : Option Value :=
  (run cs offset s).toOption.bind fun r => r.1.atEnd.toOption

theorem toOption_parse (text : String) :
    (parse text).toOption = readFrom ⟨.value, []⟩ 0 text.toList := by
  unfold parse readFrom
  simp only
  cases run text.toList 0 ⟨.value, []⟩ with
  | error e => rfl
  | ok r =>
    show (r.1.atEnd.mapError _).toOption = r.1.atEnd.toOption
    cases r.1.atEnd <;> rfl

theorem readFrom_nil (s : ReaderState) (offset : Nat) : readFrom s offset [] = s.atEnd.toOption := rfl

theorem readFrom_cons (s : ReaderState) (offset : Nat) (c : Char) (cs : List Char) :
    readFrom s offset (c :: cs) =
      (step s offset c).toOption.bind fun t => readFrom t (offset + c.utf8Size) cs := by
  unfold readFrom
  rw [run]
  cases step s offset c <;> rfl

theorem readFrom_of_step {s t : ReaderState} {offset : Nat} {c : Char} (h : step s offset c = .ok t)
    (cs : List Char) : readFrom s offset (c :: cs) = readFrom t (offset + c.utf8Size) cs := by
  rw [readFrom_cons, h]
  rfl

/-- From one state the same is read of what is left as from another. -/
def Reaches (s : ReaderState) (cs : List Char) (t : ReaderState) (ds : List Char) : Prop :=
  ∀ offset, ∃ offset', readFrom s offset cs = readFrom t offset' ds

section Reaches

variable {s t u : ReaderState} {cs ds es : List Char}

theorem Reaches.trans (h : Reaches s cs t ds) (h' : Reaches t ds u es) : Reaches s cs u es := by
  intro offset
  obtain ⟨middle, hfirst⟩ := h offset
  obtain ⟨last, hsecond⟩ := h' middle
  exact ⟨last, hfirst.trans hsecond⟩

theorem reaches_step {c : Char} (h : ∀ offset, step s offset c = .ok t) :
    Reaches s (c :: cs) t cs := by
  intro offset
  exact ⟨offset + c.utf8Size, readFrom_of_step (h offset) cs⟩

/-- Where two states take the next character alike, they read alike. -/
theorem reaches_of_step_eq {c : Char} (h : ∀ offset, step s offset c = step t offset c) :
    Reaches s (c :: cs) t (c :: cs) := by
  intro offset
  refine ⟨offset, ?_⟩
  rw [readFrom_cons, readFrom_cons, h offset]

end Reaches

/-! ## Strings -/

theorem hexValue?_hexDigit : ∀ n < 16, hexValue? (hexDigit n) = some n := by decide

theorem utf8Size_hexDigit : ∀ n < 16, (hexDigit n).utf8Size = 1 := by decide

/-- A character is written with a letter, with its number or as itself. -/
theorem escapeChar_cases (c : Char) :
    (∃ d, escapeChar c = ['\\', d] ∧ d ≠ 'u' ∧ unescape? d = some c) ∨
    (escapeChar c = ['\\', 'u', '0', '0', hexDigit (c.toNat / 16), hexDigit (c.toNat % 16)] ∧
      c.toNat < 32) ∨
    (escapeChar c = [c] ∧ c ≠ '"' ∧ c ≠ '\\' ∧ ¬c.toNat < 32) := by
  by_cases hletter : c ∈ ['"', '\\', '\x08', '\t', '\n', '\x0c', '\r']
  · simp only [List.mem_cons, List.not_mem_nil, or_false] at hletter
    rcases hletter with rfl | rfl | rfl | rfl | rfl | rfl | rfl <;>
      exact Or.inl ⟨_, rfl, by decide, by decide⟩
  · simp only [List.mem_cons, List.not_mem_nil, or_false, not_or] at hletter
    obtain ⟨hquote, hslash, hback, htab, hline, hform, hreturn⟩ := hletter
    unfold escapeChar
    rw [if_neg hquote, if_neg hslash, if_neg hback, if_neg htab, if_neg hline, if_neg hform,
      if_neg hreturn]
    by_cases hsmall : c.toNat < 32
    · exact Or.inr (Or.inl ⟨if_pos hsmall, hsmall⟩)
    · exact Or.inr (Or.inr ⟨if_neg hsmall, hquote, hslash, hsmall⟩)

/-- What a string is read for: a value, or the key of a further member. -/
inductive TextRole where
  | value
  | key (done : Members)

/-- The state in which the string is open. -/
def TextRole.holding (around : List Context) : TextRole → OpenString → ReaderState
  | .value, text => ⟨.string text, around⟩
  | .key done, text => ⟨.keyText done text, around⟩

/-- The state behind its closing quote. -/
def TextRole.closed (around : List Context) : TextRole → String → ReaderState
  | .value, text => complete (.string text) around
  | .key done, text => ⟨.colon done text, around⟩

/-- The state behind the next character of the string. -/
def TextRole.after (around : List Context) (role : TextRole) : StringStep → ReaderState
  | .more text => role.holding around text
  | .closed s => role.closed around s

section Text

variable (role : TextRole) (around : List Context)

theorem step_holding (text : OpenString) (offset : Nat) (c : Char) :
    step (role.holding around text) offset c = (text.step offset c).map (role.after around) := by
  cases role with
  | value =>
    simp only [step, TextRole.holding]
    cases text.step offset c with
    | error e => rfl
    | ok outcome => cases outcome <;> rfl
  | key done =>
    simp only [step, TextRole.holding]
    cases text.step offset c with
    | error e => rfl
    | ok outcome => cases outcome <;> rfl

theorem step_of_more {text text' : OpenString} {offset : Nat} {c : Char}
    (h : text.step offset c = .ok (.more text')) :
    step (role.holding around text) offset c = .ok (role.holding around text') := by
  rw [step_holding, h]
  rfl

theorem step_of_closed {text : OpenString} {s : String} {offset : Nat} {c : Char}
    (h : text.step offset c = .ok (.closed s)) :
    step (role.holding around text) offset c = .ok (role.closed around s) := by
  rw [step_holding, h]
  rfl

/-- An escape of one letter. -/
theorem reaches_letter {c d : Char} (hd : d ≠ 'u' ∧ unescape? d = some c) (done rest : List Char) :
    Reaches (role.holding around ⟨done, .none⟩) ('\\' :: d :: rest)
      (role.holding around ⟨c :: done, .none⟩) rest := by
  have hbegun : Reaches (role.holding around ⟨done, .none⟩) ('\\' :: d :: rest)
      (role.holding around ⟨done, .begun⟩) (d :: rest) :=
    reaches_step fun _ => step_of_more role around rfl
  refine hbegun.trans (reaches_step fun _ => step_of_more role around ?_)
  simp only [OpenString.step, if_neg hd.1, hd.2]

/-- One of the first three digits of an escape. -/
theorem step_digit {n : Nat} (hn : n < 16) (done : List Char) (value : Nat) {offset stop : Nat}
    (hstop : offset + 1 < stop) :
    OpenString.step ⟨done, .digits none value true stop⟩ offset (hexDigit n) =
      .ok (.more ⟨done, .digits none (value * 16 + n) true stop⟩) := by
  simp only [OpenString.step, hexValue?_hexDigit n hn, utf8Size_hexDigit n hn, if_pos hstop]

/-- The last digit of an escape. -/
theorem step_last {n : Nat} (hn : n < 16) (done : List Char) {value : Nat}
    (hvalue : value * 16 + n < 256) (offset : Nat) :
    OpenString.step ⟨done, .digits none value true (offset + 1)⟩ offset (hexDigit n) =
      .ok (.more ⟨Char.ofNat (value * 16 + n) :: done, .none⟩) := by
  have hleading : isLeadingSurrogate (value * 16 + n) = false := by
    unfold isLeadingSurrogate
    rw [Bool.and_eq_false_iff, decide_eq_false_iff_not]
    exact Or.inl (by omega)
  have htrailing : isTrailingSurrogate (value * 16 + n) = false := by
    unfold isTrailingSurrogate
    rw [Bool.and_eq_false_iff, decide_eq_false_iff_not]
    exact Or.inl (by omega)
  simp only [OpenString.step, hexValue?_hexDigit n hn, utf8Size_hexDigit n hn, Nat.lt_irrefl, if_false,
    if_true, OpenString.closeEscape, hleading, htrailing, Bool.false_eq_true]
  rfl

/-- An escape of four digits, of which the first two are zeros. -/
theorem reaches_digits {high low : Nat} (hhigh : high < 16) (hlow : low < 16)
    (done rest : List Char) :
    Reaches (role.holding around ⟨done, .none⟩)
      ('\\' :: 'u' :: '0' :: '0' :: hexDigit high :: hexDigit low :: rest)
      (role.holding around ⟨Char.ofNat (high * 16 + low) :: done, .none⟩) rest := by
  intro offset
  have hnext {s t : ReaderState} {start : Nat} {c : Char} (hc : c.utf8Size = 1)
      (hs : step s start c = .ok t) (cs : List Char) :
      readFrom s start (c :: cs) = readFrom t (start + 1) cs := by
    rw [readFrom_of_step hs, hc]
  -- the escape says where it ends, so its digits are read with their offsets
  have hzero : hexDigit 0 = '0' := rfl
  refine ⟨offset + 6, ?_⟩
  have hbegun : OpenString.step ⟨done, .none⟩ offset '\\' = .ok (.more ⟨done, .begun⟩) := rfl
  have hmark : OpenString.step ⟨done, .begun⟩ (offset + 1) 'u' =
      .ok (.more ⟨done, .digits none 0 true (offset + 6)⟩) := rfl
  rw [hnext (by decide) (step_of_more role around hbegun),
    hnext (by decide) (step_of_more role around hmark), ← hzero,
    hnext (by decide) (step_of_more role around (step_digit (by decide) _ _ (by omega))),
    hnext (by decide) (step_of_more role around (step_digit (by decide) _ _ (by omega))),
    hnext (utf8Size_hexDigit _ hhigh) (step_of_more role around (step_digit hhigh _ _ (by omega))),
    hnext (utf8Size_hexDigit _ hlow) (step_of_more role around (step_last hlow _ (by omega) _))]
  simp only [Nat.zero_mul, Nat.zero_add]

/-- A character as it stands inside a string. -/
theorem reaches_escapeChar (c : Char) (done rest : List Char) :
    Reaches (role.holding around ⟨done, .none⟩) (escapeChar c ++ rest)
      (role.holding around ⟨c :: done, .none⟩) rest := by
  obtain ⟨d, hchars, hd⟩ | ⟨hchars, hsmall⟩ | ⟨hchars, hquote, hslash, hlarge⟩ := escapeChar_cases c
  · rw [hchars]
    exact reaches_letter role around hd done rest
  · have hsum : c.toNat / 16 * 16 + c.toNat % 16 = c.toNat := by omega
    have hhigh : c.toNat / 16 < 16 := by omega
    have hlow : c.toNat % 16 < 16 := Nat.mod_lt _ (by decide)
    have hread := reaches_digits role around hhigh hlow done rest
    rw [hsum, Char.ofNat_toNat] at hread
    rw [hchars]
    exact hread
  · rw [hchars]
    refine reaches_step fun offset => step_of_more role around ?_
    simp only [OpenString.step, if_neg hquote, if_neg hslash, if_neg hlarge]

/-- The characters of a string, up to its closing quote. -/
theorem reaches_text (chars done rest : List Char) :
    Reaches (role.holding around ⟨done, .none⟩) (chars.flatMap escapeChar ++ '"' :: rest)
      (role.closed around (String.ofList (done.reverse ++ chars))) rest := by
  induction chars generalizing done with
  | nil =>
    rw [List.append_nil]
    exact reaches_step fun _ => step_of_closed role around rfl
  | cons c chars ih =>
    rw [List.flatMap_cons, List.append_assoc]
    have hrest := ih (c :: done)
    rw [List.reverse_cons, List.append_assoc] at hrest
    exact (reaches_escapeChar role around c done _).trans hrest

end Text

/-! ## The first character of a value -/

/-- No value begins with a space or with the bracket that ends a list. -/
theorem isSpace_of_kindOf {c : Char} {k : Kind} (h : kindOf c = some k) :
    isSpace c = false ∧ c ≠ ']' := by
  constructor
  · rw [Bool.eq_false_iff]
    intro hspace
    simp only [isSpace, Bool.or_eq_true, beq_iff_eq] at hspace
    rcases hspace with ((rfl | rfl) | rfl) | rfl <;> exact absurd h (by simp [kindOf])
  · rintro rfl
    exact absurd h (by simp [kindOf])

/-- Where a value is due, it begins. -/
theorem step_value {c : Char} (h : isSpace c = false) (around : List Context) (offset : Nat) :
    step ⟨.value, around⟩ offset c = beginValue around offset c := by
  simp only [step, stepBetween, h, Bool.false_eq_true, if_false]

/-! ## Numbers -/

/-- What can stand behind a number does not go on with it. -/
theorem step_ended {m : OpenNumber} (h : m.mayEnd = true) {c : Char} (hc : c ∈ [',', ']', '\x7d']) :
    m.step c = .ended := by
  obtain ⟨part, negative, significand, scale, full, fractional, exponentNegative, exponent, vanished⟩ :=
    m
  simp only [List.mem_cons, List.not_mem_nil, or_false] at hc
  rcases hc with rfl | rfl | rfl <;> cases part <;> first | rfl | cases h

/-- The next character finds a complete value between the parts of a container, or behind all. -/
theorem step_complete (v : Value) (around : List Context) (offset : Nat) (c : Char) :
    step (complete v around) offset c = stepBetween (complete v around) offset c := by
  cases around with
  | nil => rfl
  | cons context around => cases context <;> rfl

theorem reaches_extend {m m' : OpenNumber} {r : List Char} (h : m.extend r = some m')
    (around : List Context) (rest : List Char) :
    Reaches ⟨.number m, around⟩ (r ++ rest) ⟨.number m', around⟩ rest := by
  induction r generalizing m with
  | nil =>
    cases h
    exact fun offset => ⟨offset, rfl⟩
  | cons c r ih =>
    rw [OpenNumber.extend] at h
    cases hstep : m.step c with
    | extended n =>
      rw [hstep] at h
      refine Reaches.trans (reaches_step fun offset => ?_) (ih h)
      simp only [step, hstep]
    | ended =>
      rw [hstep] at h
      cases h
    | wrong fault =>
      rw [hstep] at h
      cases h

/-- A number ends at a delimiter and with the text. -/
theorem reaches_ended {m : OpenNumber} {n : Number} (hend : m.mayEnd = true)
    (hvalue : m.value? = some n) (around : List Context) {rest : List Char} (h : Delimited rest) :
    Reaches ⟨.number m, around⟩ rest (complete (.number n) around) rest := by
  rcases h with rfl | ⟨c, tail, rfl, hc⟩
  · intro offset
    refine ⟨offset, ?_⟩
    rw [readFrom_nil, readFrom_nil]
    cases around with
    | nil => simp only [ReaderState.atEnd, hend, hvalue, if_true, complete]
    | cons context around =>
      cases context <;>
        simp only [ReaderState.atEnd, hend, hvalue, if_true, complete, Except.toOption]
  · refine reaches_of_step_eq fun offset => ?_
    rw [step_complete]
    simp only [step, step_ended hend hc, hvalue]

theorem reaches_number {n : Number} (hshort : n.Short) (around : List Context) {rest : List Char}
    (h : Delimited rest) :
    Reaches ⟨.value, around⟩ ((Value.number n).chars ++ rest) (complete (.number n) around) rest := by
  obtain ⟨c, r, hfirst, hkind⟩ := kindOf_chars (.number n)
  obtain ⟨hspace, -⟩ := isSpace_of_kindOf hkind
  obtain ⟨d, r', m, m', hchars, hbegin, hextend, hend, hvalue⟩ := readsNumber hshort
  obtain ⟨rfl, rfl⟩ := List.cons.inj (hfirst.symm.trans hchars)
  rw [hfirst, List.cons_append]
  have hbegun : Reaches ⟨.value, around⟩ (c :: (r ++ rest)) ⟨.number m, around⟩ (r ++ rest) :=
    reaches_step fun offset => (step_value hspace around offset).trans (hbegin around offset)
  exact hbegun.trans ((reaches_extend hextend around rest).trans (reaches_ended hend hvalue around h))

/-! ## Containers -/

mutual

/-- How many containers stand around the innermost value. -/
def Value.nesting : Value → Nat
  | .array items => itemsNesting items + 1
  | .object members => membersNesting members + 1
  | _ => 0

def itemsNesting : List Value → Nat
  | [] => 0
  | v :: rest => max v.nesting (itemsNesting rest)

def membersNesting : List (String × Value) → Nat
  | [] => 0
  | (_, v) :: rest => max v.nesting (membersNesting rest)

end

theorem Value.nesting_lt_array {items : List Value} {v : Value} (h : v ∈ items) :
    v.nesting < (Value.array items).nesting := by
  rw [Value.nesting.eq_def (.array items)]
  refine Nat.lt_succ_of_le ?_
  induction items with
  | nil => cases h
  | cons w rest ih =>
    rw [itemsNesting]
    rcases List.mem_cons.1 h with rfl | h
    · exact Nat.le_max_left _ _
    · exact (ih h).trans (Nat.le_max_right _ _)

theorem Value.nesting_lt_object {members : Members} {e : String × Value} (h : e ∈ members) :
    e.2.nesting < (Value.object members).nesting := by
  rw [Value.nesting.eq_def (.object members)]
  refine Nat.lt_succ_of_le ?_
  induction members with
  | nil => cases h
  | cons f rest ih =>
    obtain ⟨k, w⟩ := f
    rw [membersNesting]
    rcases List.mem_cons.1 h with rfl | h
    · exact Nat.le_max_left _ _
    · exact (ih h).trans (Nat.le_max_right _ _)

/-- The reader gets from the front of a value's text to the complete value. -/
def ReadsBack (v : Value) : Prop :=
  ∀ around rest, Delimited rest → around.length + v.nesting ≤ depthLimit →
    Reaches ⟨.value, around⟩ (v.chars ++ rest) (complete v around) rest

/-! ## Parts of a container -/

section Parts

variable {α : Type} {chars : α → List Char} {close : Char} (hclose : close ∈ [']', '\x7d'])
  {as : List α} (due : Bool → List α → ReaderState) (after : List α → ReaderState)
  (hcomma : ∀ done rest, Reaches (after done) (',' :: rest) (due false done) rest)
  (hpart : ∀ first done a more, as = done ++ a :: more → ∀ rest, Delimited rest →
    Reaches (due first done) (chars a ++ rest) (after (done ++ [a])) rest)
include hclose hcomma hpart

/-- The parts behind the first ones. -/
theorem reaches_followed {done more : List α} (h : as = done ++ more) (rest : List Char) :
    Reaches (after done) (followed chars more (close :: rest)) (after as) (close :: rest) := by
  induction more generalizing done with
  | nil =>
    rw [List.append_nil] at h
    rw [h]
    exact fun offset => ⟨offset, rfl⟩
  | cons a more ih =>
    have hafter : as = done ++ [a] ++ more := by
      rw [h, List.append_assoc, List.singleton_append]
    have hdelimited : Delimited (followed chars more (close :: rest)) :=
      delimited_followed hclose more rest
    have hone := hpart false done a more h _ hdelimited
    exact (hcomma done _).trans (hone.trans (ih hafter))

/-- From the opening bracket on all parts are read, up to the closing one. -/
theorem reaches_separated (hne : as ≠ []) (rest : List Char) :
    Reaches (due true []) (separated chars as ++ close :: rest) (after as) (close :: rest) := by
  obtain ⟨a, more, rfl⟩ := List.exists_cons_of_ne_nil hne
  rw [separated_cons]
  have hdelimited : Delimited (followed chars more (close :: rest)) :=
    delimited_followed hclose more rest
  have hone := hpart true [] a more rfl _ hdelimited
  have hmore : a :: more = [a] ++ more := rfl
  exact hone.trans (reaches_followed hclose due after hcomma hpart hmore rest)

end Parts

/-! ## Containers -/

/-- The bracket that opens a list or an object. -/
theorem reaches_open {around : List Context} (h : around.length < depthLimit) (rest : List Char) :
    Reaches ⟨.value, around⟩ ('[' :: rest) ⟨.item [] true, around⟩ rest ∧
      Reaches ⟨.value, around⟩ ('\x7b' :: rest) ⟨.key [] true, around⟩ rest := by
  constructor
  · refine reaches_step fun offset => ?_
    rw [step_value (by decide), beginValue, if_pos rfl, if_pos h]
  · refine reaches_step fun offset => ?_
    rw [step_value (by decide), beginValue, if_neg (by decide), if_pos rfl, if_pos h]

/-- An item, wherever in its list it stands. -/
theorem reaches_item {v : Value} (hv : ReadsBack v) (done : List Value) (first : Bool)
    (around : List Context) (hdepth : around.length + v.nesting < depthLimit) {rest : List Char}
    (hrest : Delimited rest) :
    Reaches ⟨.item done.reverse first, around⟩ (v.chars ++ rest)
      ⟨.afterItem (done ++ [v]).reverse, around⟩ rest := by
  -- it begins as a value inside the list does
  have hbegin : Reaches ⟨.item done.reverse first, around⟩ (v.chars ++ rest)
      ⟨.value, .list done.reverse :: around⟩ (v.chars ++ rest) := by
    obtain ⟨c, r, hchars, hkind⟩ := kindOf_chars v
    obtain ⟨hspace, hclose⟩ := isSpace_of_kindOf hkind
    rw [hchars, List.cons_append]
    refine reaches_of_step_eq fun offset => ?_
    rw [step_value hspace]
    simp only [step, stepBetween, hspace, Bool.false_eq_true, if_false, if_neg hclose]
  have hvalue := hv (.list done.reverse :: around) rest hrest (by rw [List.length_cons]; omega)
  rw [List.reverse_append, List.reverse_singleton, List.singleton_append]
  exact hbegin.trans hvalue

theorem readsBack_array {items : List Value} (hitems : ∀ v ∈ items, ReadsBack v) :
    ReadsBack (.array items) := by
  intro around rest _ hdepth
  have hinside : ∀ v ∈ items, around.length + v.nesting < depthLimit := by
    intro v hv
    have := Value.nesting_lt_array hv
    omega
  have hlength : around.length < depthLimit := by
    rw [Value.nesting] at hdepth
    omega
  rw [Value.chars_array, List.cons_append, List.append_assoc]
  refine (reaches_open hlength _).1.trans ?_
  by_cases hne : items = []
  · subst hne
    exact reaches_step fun _ => rfl
  have hitem (first : Bool) (done : List Value) (v : Value) (more : List Value)
      (h : items = done ++ v :: more) (rest : List Char) (hrest : Delimited rest) :
      Reaches ⟨.item done.reverse first, around⟩ (v.chars ++ rest)
        ⟨.afterItem (done ++ [v]).reverse, around⟩ rest := by
    have hv : v ∈ items := h ▸ List.mem_append_right _ List.mem_cons_self
    exact reaches_item (hitems v hv) done first around (hinside v hv) hrest
  have hparts : Reaches ⟨.item [] true, around⟩ (separated Value.chars items ++ ']' :: rest)
      ⟨.afterItem items.reverse, around⟩ (']' :: rest) :=
    reaches_separated (by decide) (fun first done => ⟨.item done.reverse first, around⟩)
      (fun done => ⟨.afterItem done.reverse, around⟩) (fun _ _ => reaches_step fun _ => rfl) hitem
      hne rest
  have hend : Reaches ⟨.afterItem items.reverse, around⟩ (']' :: rest)
      (complete (.array items.reverse.reverse) around) rest := reaches_step fun _ => rfl
  rw [List.reverse_reverse] at hend
  exact hparts.trans hend

/-- A member, from its key on. -/
theorem reaches_member {e : String × Value} (he : ReadsBack e.2) {done : Members}
    (hnew : e.1 ∉ Entries.names done) (first : Bool) (around : List Context)
    (hdepth : around.length + e.2.nesting < depthLimit) {rest : List Char} (hrest : Delimited rest) :
    Reaches ⟨.key done first, around⟩ (memberText e ++ rest) ⟨.afterMember (done ++ [e]), around⟩
      rest := by
  obtain ⟨key, v⟩ := e
  have hquote : Reaches ⟨.key done first, around⟩ (memberText (key, v) ++ rest)
      ⟨.keyText done ⟨[], .none⟩, around⟩
      (key.toList.flatMap escapeChar ++ '"' :: ':' :: (v.chars ++ rest)) := by
    rw [memberText, quote, List.cons_append, List.cons_append, List.append_assoc, List.append_assoc]
    exact reaches_step fun _ => rfl
  have hkey := reaches_text (.key done) around key.toList [] (':' :: (v.chars ++ rest))
  rw [List.reverse_nil, List.nil_append, String.ofList_toList] at hkey
  have hcolon : Reaches ⟨.colon done key, around⟩ (':' :: (v.chars ++ rest))
      ⟨.value, .member done key :: around⟩ (v.chars ++ rest) := reaches_step fun _ => rfl
  have hvalue := he (.member done key :: around) rest hrest (by rw [List.length_cons]; omega)
  rw [complete, Entries.set_of_not_mem v hnew] at hvalue
  exact hquote.trans (hkey.trans (hcolon.trans hvalue))

theorem readsBack_object {members : Members} (hnodup : (Entries.names members).Nodup)
    (hmembers : ∀ e ∈ members, ReadsBack e.2) : ReadsBack (.object members) := by
  intro around rest _ hdepth
  have hinside : ∀ e ∈ members, around.length + e.2.nesting < depthLimit := by
    intro e he
    have := Value.nesting_lt_object he
    omega
  have hlength : around.length < depthLimit := by
    rw [Value.nesting] at hdepth
    omega
  rw [Value.chars_object, List.cons_append, List.append_assoc]
  refine (reaches_open hlength _).2.trans ?_
  by_cases hne : members = []
  · subst hne
    exact reaches_step fun _ => rfl
  have hmember (first : Bool) (done : Members) (e : String × Value) (more : Members)
      (h : members = done ++ e :: more) (rest : List Char) (hrest : Delimited rest) :
      Reaches ⟨.key done first, around⟩ (memberText e ++ rest)
        ⟨.afterMember (done ++ [e]), around⟩ rest := by
    have he : e ∈ members := h ▸ List.mem_append_right _ List.mem_cons_self
    -- no member in front of it has its key
    have hnew : e.1 ∉ Entries.names done := by
      rw [h, Entries.names, List.map_append, List.map_cons, List.nodup_append] at hnodup
      exact fun hmem => hnodup.2.2 e.1 hmem e.1 List.mem_cons_self rfl
    exact reaches_member (hmembers e he) hnew first around (hinside e he) hrest
  have hparts : Reaches ⟨.key [] true, around⟩ (separated memberText members ++ '\x7d' :: rest)
      ⟨.afterMember members, around⟩ ('\x7d' :: rest) :=
    reaches_separated (by decide) (fun first done => ⟨.key done first, around⟩)
      (fun done => ⟨.afterMember done, around⟩) (fun _ _ => reaches_step fun _ => rfl) hmember hne
      rest
  exact hparts.trans (reaches_step fun _ => rfl)

/-! ## Values -/

theorem readsBack (v : Value) (h : v.KeysOnce) (hshort : ∀ n ∈ v.numbers, n.Short) :
    ReadsBack v := by
  induction v using Value.induct with
  | null => exact fun around rest _ _ offset => ⟨_, rfl⟩
  | bool b =>
    cases b with
    | false => exact fun around rest _ _ offset => ⟨_, rfl⟩
    | true => exact fun around rest _ _ offset => ⟨_, rfl⟩
  | number n =>
    have hn : n.Short := hshort n List.mem_cons_self
    exact fun around rest hrest _ => reaches_number hn around hrest
  | string s =>
    intro around rest _ _
    have hopen : Reaches ⟨.value, around⟩ ((Value.string s).chars ++ rest)
        ⟨.string ⟨[], .none⟩, around⟩ (s.toList.flatMap escapeChar ++ '"' :: rest) := by
      rw [Value.chars, quote, List.cons_append, List.append_assoc]
      exact reaches_step fun _ => rfl
    have htext := reaches_text .value around s.toList [] rest
    rw [List.reverse_nil, List.nil_append, String.ofList_toList] at htext
    exact hopen.trans htext
  | array items ih =>
    rw [Value.keysOnce_array] at h
    exact readsBack_array fun v hv => ih v hv (h v hv) fun n hn =>
      hshort n (Value.mem_numbers_array.2 ⟨v, hv, hn⟩)
  | object members ih =>
    rw [Value.keysOnce_object] at h
    exact readsBack_object h.1 fun e he => ih e he (h.2 e he) fun n hn =>
      hshort n (Value.mem_numbers_object.2 ⟨e, he, hn⟩)

/-- The text of a value is read as the value, if it is not nested too deeply and its numbers are
    short. -/
theorem parse_text {v : Value} (h : v.KeysOnce) (hdepth : v.nesting ≤ depthLimit)
    (hshort : ∀ n ∈ v.numbers, n.Short) : parse v.text = .ok v := by
  have hdelimited : Delimited [] := Or.inl rfl
  have hlength : ([] : List Context).length + v.nesting ≤ depthLimit := by
    rw [List.length_nil, Nat.zero_add]
    exact hdepth
  obtain ⟨offset, hread⟩ := readsBack v h hshort [] [] hdelimited hlength 0
  rw [List.append_nil] at hread
  have hparse := toOption_parse v.text
  rw [Value.text, String.toList_ofList, hread] at hparse
  exact eq_ok_of_toOption hparse

end WebStory.Json
