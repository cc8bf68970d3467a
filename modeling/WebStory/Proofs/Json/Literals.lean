import WebStory.Proofs.Json.ReaderPlaces
/-
  The printer and the reader keep the laws of scripts.

  1. **Printer** — the text of a value leads from outside the literals to outside, with each `<` inside
     one (`Enclosed`).  Texts of this kind can be put one behind the other, so only the parts have to be
     looked at: a number and the punctuation have neither quote nor `<`, and what stands between the
     quotes of a string leads from inside to inside, character by character (`inside_escapeChar`).
     The values are followed by induction, with one case for each kind (`enclosed_chars`).

  2. **Reader** — whether the reader is in a string, and whether in an escape of it, is told by the
     place (`leads_step`).  So behind characters that lead inside a literal the reader holds a string,
     open or with an escape that is not complete (`ReaderState.At.exists_holding`).

  3. **The escaped slash** — such a reader takes a slash either way, or neither way.  In an open
     string both leave the same characters; what follows then stands one byte further back.  The reader
     tells the end of an escape by its offset in the text, so this is not the same reading, and it is
     followed from a state and from the same state further back (`ReaderState.shift`,
     `readFrom_shift`).

  4. **Wrong digits** — in the middle of an escape neither a backslash nor a slash is a digit, so
     either way the escape is wrong from there on.  The next character does not make up for it
     (`step_unsound`), so nothing is read at all (`readFrom_unsound`).
-/

namespace WebStory.Json

/-! ## Printed texts -/

/-- The characters lead from outside the literals to outside, with each `<` inside one. -/
structure Enclosed (cs : List Char) : Prop where
  ends : Place.outside.after cs = .outside
  keeps : Place.outside.Keeps cs

theorem Enclosed.append {cs ds : List Char} (h : Enclosed cs) (h' : Enclosed ds) :
    Enclosed (cs ++ ds) where
  ends := by rw [Place.after_append, h.ends, h'.ends]
  keeps := Place.keeps_append.2 ⟨h.keeps, by rw [h.ends]; exact h'.keeps⟩

/-- Characters other than quotes and `<` lead nowhere. -/
theorem enclosed_of_plain {cs : List Char} (h : ∀ c ∈ cs, c ≠ '"' ∧ c ≠ '<') : Enclosed cs := by
  induction cs with
  | nil => exact ⟨rfl, trivial⟩
  | cons c cs ih =>
    obtain ⟨⟨hquote, hangle⟩, hrest⟩ := List.forall_mem_cons.1 h
    have hnext : Place.outside.next c = .outside := Place.next_outside hquote
    obtain ⟨hends, hkeeps⟩ := ih hrest
    refine ⟨?_, fun heq => absurd heq hangle, ?_⟩
    · show (Place.outside.next c).after cs = .outside
      rw [hnext, hends]
    · rw [hnext]
      exact hkeeps

theorem enclosed_singleton {c : Char} (h : c ≠ '"' ∧ c ≠ '<') : Enclosed [c] :=
  enclosed_of_plain (List.forall_mem_singleton.2 h)

/-! ## Strings -/

theorem hexDigit_ne : ∀ n < 16, hexDigit n ≠ '"' ∧ hexDigit n ≠ '\\' ∧ hexDigit n ≠ '<' := by decide

/-- What stands for one character of a string leads from inside to inside. -/
theorem inside_escapeChar (c : Char) :
    Place.inside.after (escapeChar c) = .inside ∧ Place.inside.Keeps (escapeChar c) := by
  obtain ⟨d, hchars, -, hletter⟩ | ⟨hchars, hsmall⟩ | ⟨hchars, hquote, hslash, -⟩ :=
    escapeChar_cases c
  · -- a letter behind a backslash; there is none for `<`
    have hangle : d ≠ '<' := by
      rintro rfl
      cases hletter
    rw [hchars]
    exact ⟨rfl, by decide, fun heq => absurd heq hangle, trivial⟩
  · -- the number of the character, in four digits
    obtain ⟨hquote, hslash, hangle⟩ := hexDigit_ne (c.toNat / 16) (by omega)
    obtain ⟨hquote', hslash', hangle'⟩ := hexDigit_ne (c.toNat % 16) (by omega)
    have hbegun : Place.inside.after ['\\', 'u', '0', '0'] = .inside := by decide
    have hkeeps : Place.inside.Keeps ['\\', 'u', '0', '0'] :=
      ⟨by decide, by decide, by decide, by decide, trivial⟩
    rw [hchars]
    constructor
    · show (((Place.inside.after ['\\', 'u', '0', '0']).next (hexDigit (c.toNat / 16))).next
        (hexDigit (c.toNat % 16))) = .inside
      rw [hbegun, Place.next_inside hquote hslash, Place.next_inside hquote' hslash']
    · have hdigits : (Place.inside.after ['\\', 'u', '0', '0']).Keeps
          [hexDigit (c.toNat / 16), hexDigit (c.toNat % 16)] := by
        rw [hbegun]
        exact ⟨fun heq => absurd heq hangle, fun heq => absurd heq hangle', trivial⟩
      exact Place.keeps_append.2 ⟨hkeeps, hdigits⟩
  · rw [hchars]
    exact ⟨Place.next_inside hquote hslash, fun _ => rfl, trivial⟩

theorem inside_escaped (cs : List Char) : Place.inside.after (cs.flatMap escapeChar) = .inside ∧
    Place.inside.Keeps (cs.flatMap escapeChar) := by
  induction cs with
  | nil => exact ⟨rfl, trivial⟩
  | cons c cs ih =>
    obtain ⟨hends, hkeeps⟩ := inside_escapeChar c
    rw [List.flatMap_cons, Place.after_append, Place.keeps_append, hends]
    exact ⟨ih.1, hkeeps, ih.2⟩

theorem enclosed_quote (s : String) : Enclosed (quote s) := by
  obtain ⟨hends, hkeeps⟩ := inside_escaped s.toList
  constructor
  · show Place.inside.after (s.toList.flatMap escapeChar ++ ['"']) = .outside
    rw [Place.after_append, hends]
    rfl
  · exact ⟨by decide, Place.keeps_append.2 ⟨hkeeps, fun h => absurd h (by decide), trivial⟩⟩

/-! ## Values -/

theorem enclosed_separated {α : Type} {chars : α → List Char} {as : List α}
    (h : ∀ a ∈ as, Enclosed (chars a)) : Enclosed (separated chars as) := by
  induction as with
  | nil => exact ⟨rfl, trivial⟩
  | cons a as ih =>
    obtain ⟨ha, hrest⟩ := List.forall_mem_cons.1 h
    cases as with
    | nil => exact ha
    | cons b bs => exact ha.append ((enclosed_singleton (by decide)).append (ih hrest))

theorem enclosed_chars (v : Value) : Enclosed v.chars := by
  induction v using Value.induct with
  | null => exact enclosed_of_plain (by simp [Value.chars])
  | bool b =>
    cases b with
    | false => exact enclosed_of_plain (by simp [Value.chars])
    | true => exact enclosed_of_plain (by simp [Value.chars])
  | number n =>
    refine enclosed_of_plain fun c hc => ?_
    have hchar := Number.decimalChar_of_mem_text hc
    constructor
    · rintro rfl
      exact absurd hchar (by unfold Decimal.decimalChar; decide)
    · rintro rfl
      exact absurd hchar (by unfold Decimal.decimalChar; decide)
  | string s => exact enclosed_quote s
  | array items ih =>
    rw [Value.chars_array]
    exact (enclosed_singleton (by decide)).append
      ((enclosed_separated ih).append (enclosed_singleton (by decide)))
  | object members ih =>
    have hmember : ∀ e ∈ members, Enclosed (memberText e) := fun e he =>
      (enclosed_quote e.1).append ((enclosed_singleton (by decide)).append (ih e he))
    rw [Value.chars_object]
    exact (enclosed_singleton (by decide)).append
      ((enclosed_separated hmember).append (enclosed_singleton (by decide)))

theorem place_of_angle {v : Value} {before rest : List Char}
    (h : v.text.toList = before ++ '<' :: rest) : Place.outside.after before = .inside := by
  rw [Value.text, String.toList_ofList] at h
  exact Place.keeps_iff.1 (enclosed_chars v).keeps before rest h

/-! ## The same state further back -/

def Escape.shift (d : Nat) : Escape → Escape
  | .digits high value sound stop => .digits high value sound (stop + d)
  | e => e

def OpenString.shift (d : Nat) (s : OpenString) : OpenString := { s with escape := s.escape.shift d }

def StringStep.shift (d : Nat) : StringStep → StringStep
  | .more s => .more (s.shift d)
  | .closed text => .closed text

def Phase.shift (d : Nat) : Phase → Phase
  | .keyText done text => .keyText done (text.shift d)
  | .string text => .string (text.shift d)
  | p => p

def ReaderState.shift (d : Nat) (s : ReaderState) : ReaderState := { s with phase := s.phase.shift d }

/-- Two outcomes, the one further back in the text than the other. -/
def Behind (d : Nat) (back here : Except FaultAt ReaderState) : Prop :=
  back.toOption = here.toOption.map (ReaderState.shift d)

section Behind

variable {d : Nat}

theorem behind_error (e e' : FaultAt) : Behind d (.error e) (.error e') := rfl

theorem behind_ok {s : ReaderState} (h : s.shift d = s) : Behind d (.ok s) (.ok s) :=
  congrArg some h.symm

theorem shift_complete (v : Value) (around : List Context) :
    (complete v around).shift d = complete v around := by
  cases around with
  | nil => rfl
  | cons c around => cases c <;> rfl

theorem behind_complete (v : Value) (around : List Context) :
    Behind d (.ok (complete v around)) (.ok (complete v around)) := behind_ok (shift_complete v around)

theorem behind_beginValue (around : List Context) (offset : Nat) (c : Char) :
    Behind d (beginValue around (offset + d) c) (beginValue around offset c) := by
  unfold beginValue
  split_ifs
  · exact behind_ok rfl
  · exact behind_error _ _
  · exact behind_ok rfl
  · exact behind_error _ _
  · exact behind_ok rfl
  · exact behind_ok rfl
  · exact behind_ok rfl
  · exact behind_ok rfl
  · exact behind_ok rfl
  · cases digitValue? c with
    | some n => exact behind_ok rfl
    | none => exact behind_error _ _

theorem behind_stepBetween (s : ReaderState) (offset : Nat) (c : Char) :
    Behind d (stepBetween (s.shift d) (offset + d) c) (stepBetween s offset c) := by
  obtain ⟨phase, around⟩ := s
  unfold stepBetween
  by_cases hspace : isSpace c = true
  · rw [if_pos hspace, if_pos hspace]
    rfl
  rw [if_neg hspace, if_neg hspace]
  cases phase with
  | item done first =>
    simp only [ReaderState.shift, Phase.shift]
    split_ifs
    · exact behind_complete _ _
    · exact behind_error _ _
    · exact behind_beginValue _ _ _
  | afterItem done =>
    simp only [ReaderState.shift, Phase.shift]
    split_ifs
    · exact behind_ok rfl
    · exact behind_complete _ _
    · exact behind_error _ _
  | key done first =>
    simp only [ReaderState.shift, Phase.shift]
    split_ifs
    · exact behind_ok rfl
    · exact behind_complete _ _
    · exact behind_error _ _
    · exact behind_error _ _
  | colon done key =>
    simp only [ReaderState.shift, Phase.shift]
    split_ifs
    · exact behind_ok rfl
    · exact behind_error _ _
  | afterMember done =>
    simp only [ReaderState.shift, Phase.shift]
    split_ifs
    · exact behind_ok rfl
    · exact behind_complete _ _
    · exact behind_error _ _
  | value => exact behind_beginValue _ _ _
  | _ => exact behind_error _ _

theorem toOption_closeEscape_shift (s : OpenString) (high : Option Nat) (value offset : Nat) :
    ((s.shift d).closeEscape high value (offset + d)).toOption =
      (s.closeEscape high value offset).toOption.map (OpenString.shift d) := by
  cases high <;>
    · simp only [OpenString.closeEscape]
      split_ifs <;> rfl

theorem toOption_step_shift (s : OpenString) (offset : Nat) (c : Char) :
    ((s.shift d).step (offset + d) c).toOption =
      (s.step offset c).toOption.map (StringStep.shift d) := by
  obtain ⟨chars, escape⟩ := s
  cases escape with
  | none =>
    simp only [OpenString.step, OpenString.shift, Escape.shift]
    split_ifs <;> rfl
  | begun =>
    simp only [OpenString.step, OpenString.shift, Escape.shift, Nat.add_right_comm offset d 5]
    split_ifs
    · rfl
    · cases unescape? c <;> rfl
  | digits high value sound stop =>
    have hstop : offset + d + c.utf8Size < stop + d ↔ offset + c.utf8Size < stop := by omega
    simp only [OpenString.step, OpenString.shift, Escape.shift, hstop]
    split_ifs
    · rfl
    · have hclose (n : Nat) := toOption_closeEscape_shift (d := d)
        ⟨chars, .digits high value sound stop⟩ high n offset
      rw [toOption_map, toOption_map, Option.map_map]
      exact (congrArg _ (hclose _)).trans (Option.map_map _ _ _)
    · rfl
  | backslashDue high =>
    simp only [OpenString.step, OpenString.shift, Escape.shift]
    split_ifs <;> rfl
  | letterDue high =>
    simp only [OpenString.step, OpenString.shift, Escape.shift, Nat.add_right_comm offset d 5]
    split_ifs <;> rfl

theorem shift_holding (role : TextRole) (around : List Context) (text : OpenString) :
    (role.holding around text).shift d = role.holding around (text.shift d) := by
  cases role <;> rfl

theorem behind_holding (role : TextRole) (around : List Context) (text : OpenString) (offset : Nat)
    (c : Char) : Behind d (step ((role.holding around text).shift d) (offset + d) c)
      (step (role.holding around text) offset c) := by
  rw [shift_holding, step_holding, step_holding, Behind, toOption_map, toOption_map,
    toOption_step_shift]
  cases (text.step offset c).toOption with
  | none => rfl
  | some outcome =>
    cases outcome with
    | more text' => exact congrArg some (shift_holding role around text').symm
    | closed key =>
      cases role with
      | value => exact congrArg some (shift_complete _ _).symm
      | key done => rfl

/-- One character leads from a state further back to one further back. -/
theorem behind_step (s : ReaderState) (offset : Nat) (c : Char) :
    Behind d (step (s.shift d) (offset + d) c) (step s offset c) := by
  obtain ⟨phase, around⟩ := s
  cases phase with
  | keyText done text => exact behind_holding (.key done) around text offset c
  | string text => exact behind_holding .value around text offset c
  | number n =>
    simp only [ReaderState.shift, Phase.shift, step]
    cases n.step c with
    | extended m => exact behind_ok rfl
    | wrong fault => exact behind_error _ _
    | ended =>
      cases n.value? with
      | none => exact behind_error _ _
      | some value =>
        have hbetween := behind_stepBetween (d := d) (complete (.number value) around) offset c
        rw [shift_complete] at hbetween
        exact hbetween
  | literal rest v =>
    simp only [ReaderState.shift, Phase.shift, step]
    cases rest with
    | nil => exact behind_error _ _
    | cons a rest =>
      cases rest with
      | nil =>
        simp only
        split_ifs
        · exact behind_complete v around
        · exact behind_error _ _
      | cons b rest =>
        simp only
        split_ifs
        · exact behind_ok rfl
        · exact behind_error _ _
  | _ => exact behind_stepBetween _ offset c

theorem atEnd_shift (s : ReaderState) : (s.shift d).atEnd = s.atEnd := by
  obtain ⟨phase, around⟩ := s
  cases phase <;> rfl

/-- The same is read from a state further back. -/
theorem readFrom_shift (s : ReaderState) (offset : Nat) (cs : List Char) :
    readFrom (s.shift d) (offset + d) cs = readFrom s offset cs := by
  induction cs generalizing s offset with
  | nil => rw [readFrom_nil, readFrom_nil, atEnd_shift]
  | cons c cs ih =>
    have hstep : (step (s.shift d) (offset + d) c).toOption =
        (step s offset c).toOption.map (ReaderState.shift d) := behind_step s offset c
    rw [readFrom_cons, readFrom_cons, hstep, Nat.add_right_comm]
    cases (step s offset c).toOption with
    | none => rfl
    | some t => exact ih t _

end Behind

/-! ## Escapes with a wrong digit -/

section Unsound

variable (role : TextRole) (around : List Context)

theorem readFrom_error {s : ReaderState} {offset : Nat} {c : Char}
    (h : ∃ e, step s offset c = .error e) (cs : List Char) : readFrom s offset (c :: cs) = none := by
  obtain ⟨e, he⟩ := h
  rw [readFrom_cons, he]
  rfl

theorem step_of_error {text : OpenString} {offset : Nat} {c : Char} {e : FaultAt}
    (h : text.step offset c = .error e) :
    step (role.holding around text) offset c = .error e := by
  rw [step_holding, h]
  rfl

theorem atEnd_holding (text : OpenString) : (role.holding around text).atEnd = .error .endInString := by
  cases role <;> rfl

/-- A wrong digit is not made up for by the next character. -/
theorem step_unsound (chars : List Char) (high : Option Nat) (value stop offset : Nat) (sound : Bool)
    {c : Char} (h : sound = false ∨ hexValue? c = none) :
    (∃ e, OpenString.step ⟨chars, .digits high value sound stop⟩ offset c = .error e) ∨
    ∃ value', OpenString.step ⟨chars, .digits high value sound stop⟩ offset c =
      .ok (.more ⟨chars, .digits high value' false stop⟩) := by
  have hdigit : (∃ d, hexValue? c = some d ∧ sound = false) ∨ hexValue? c = none := by
    cases hc : hexValue? c with
    | none => exact Or.inr rfl
    | some d => exact Or.inl ⟨d, rfl, h.resolve_right (by rw [hc]; nofun)⟩
  obtain ⟨d, hd, rfl⟩ | hnone := hdigit
  · simp only [OpenString.step, hd, Bool.false_eq_true, if_false]
    split_ifs
    · exact Or.inr ⟨_, rfl⟩
    · exact Or.inl ⟨_, rfl⟩
  · simp only [OpenString.step, hnone, Bool.false_eq_true, if_false]
    split_ifs
    · exact Or.inr ⟨_, rfl⟩
    · exact Or.inl ⟨_, rfl⟩

/-- After a wrong digit nothing is read. -/
theorem readFrom_unsound (chars : List Char) (high : Option Nat) (value stop offset : Nat)
    (cs : List Char) :
    readFrom (role.holding around ⟨chars, .digits high value false stop⟩) offset cs = none := by
  induction cs generalizing value offset with
  | nil =>
    rw [readFrom_nil, atEnd_holding]
    rfl
  | cons c cs ih =>
    rcases step_unsound chars high value stop offset false (c := c) (Or.inl rfl)
      with ⟨e, he⟩ | ⟨_, hmore⟩
    · exact readFrom_error ⟨e, step_of_error role around he⟩ cs
    · rw [readFrom_of_step (step_of_more role around hmore)]
      exact ih _ _

/-- A character that is no digit leaves nothing to be read among the digits of an escape. -/
theorem readFrom_not_digit {c : Char} (hc : hexValue? c = none) (chars : List Char)
    (high : Option Nat) (value : Nat) (sound : Bool) (stop offset : Nat) (cs : List Char) :
    readFrom (role.holding around ⟨chars, .digits high value sound stop⟩) offset (c :: cs) =
      none := by
  rcases step_unsound chars high value stop offset sound (Or.inr hc) with ⟨e, he⟩ | ⟨_, hmore⟩
  · exact readFrom_error ⟨e, step_of_error role around he⟩ cs
  · rw [readFrom_of_step (step_of_more role around hmore)]
    exact readFrom_unsound _ _ _ _ _ _ _ _

end Unsound

/-! ## The escaped slash -/

/-- Inside a literal a string is read. -/
theorem ReaderState.At.exists_holding {s : ReaderState} (h : s.At .inside) :
    ∃ role around text, s = TextRole.holding around role text ∧ text.escape.At .inside := by
  obtain ⟨phase, around⟩ := s
  cases phase with
  | keyText done text => exact ⟨.key done, around, text, rfl, h⟩
  | string text => exact ⟨.value, around, text, rfl, h⟩
  | literal rest v => cases h.1
  | _ => cases h

theorem readFrom_slash {s : ReaderState} (h : s.At .inside) (offset : Nat) (rest : List Char) :
    readFrom s offset ('\\' :: '/' :: rest) = readFrom s offset ('/' :: rest) := by
  obtain ⟨role, around, ⟨chars, escape⟩, rfl, hplace⟩ := h.exists_holding
  cases escape with
  | none =>
    have hbegun : OpenString.step ⟨chars, .none⟩ offset '\\' = .ok (.more ⟨chars, .begun⟩) := rfl
    have hescaped (offset : Nat) : OpenString.step ⟨chars, .begun⟩ offset '/' =
        .ok (.more ⟨'/' :: chars, .none⟩) := rfl
    have hslash : OpenString.step ⟨chars, .none⟩ offset '/' = .ok (.more ⟨'/' :: chars, .none⟩) := rfl
    rw [readFrom_of_step (step_of_more role around hbegun),
      readFrom_of_step (step_of_more role around (hescaped _)),
      readFrom_of_step (step_of_more role around hslash)]
    -- the same state, one byte further back
    have hshift := readFrom_shift (d := 1) (role.holding around ⟨'/' :: chars, .none⟩)
      (offset + '/'.utf8Size) rest
    rw [shift_holding] at hshift
    exact hshift
  | digits high value sound stop =>
    rw [readFrom_not_digit role around (by decide), readFrom_not_digit role around (by decide)]
  | backslashDue high =>
    -- the other half of a character is due, and neither of the two leads to it
    have hdue : OpenString.step ⟨chars, .backslashDue high⟩ offset '\\' =
        .ok (.more ⟨chars, .letterDue high⟩) := rfl
    rw [readFrom_of_step (step_of_more role around hdue),
      readFrom_error ⟨_, step_of_error role around rfl⟩,
      readFrom_error ⟨_, step_of_error role around rfl⟩]
  | begun => cases hplace
  | letterDue high => cases hplace

/-- The same behind any characters that lead inside a literal. -/
theorem readFrom_slash_behind {before : List Char} {p : Place} (hplace : p.after before = .inside)
    {s : ReaderState} (h : s.At p) (offset : Nat) (rest : List Char) :
    readFrom s offset (before ++ '\\' :: '/' :: rest) =
      readFrom s offset (before ++ '/' :: rest) := by
  induction before generalizing p s offset with
  | nil =>
    obtain rfl : p = .inside := hplace
    exact readFrom_slash h offset rest
  | cons c before ih =>
    rw [List.cons_append, List.cons_append, readFrom_cons, readFrom_cons]
    have hleads := leads_step h offset c
    cases hstep : step s offset c with
    | error e => rfl
    | ok t => exact ih hplace (hleads t hstep) _

/-- Values are printed and read as scripts need it. -/
theorem scriptLaws : ScriptLaws Value.text fun text => (parse text).toOption where
  angleInLiteral v := by
    rintro ⟨before, rest, htext, hplace⟩
    rw [place_of_angle htext] at hplace
    cases hplace
  angleNotEscaped v := by
    rintro ⟨before, rest, htext, hplace⟩
    rw [place_of_angle htext] at hplace
    cases hplace
  escapedSlash before rest hplace := by
    have hstart : (⟨.value, []⟩ : ReaderState).At .outside := rfl
    rw [toOption_parse, toOption_parse, String.toList_ofList, String.toList_ofList]
    exact readFrom_slash_behind hplace hstart 0 rest

end WebStory.Json
