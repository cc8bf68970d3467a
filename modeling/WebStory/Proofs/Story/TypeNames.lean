import WebStory.Document.Compile
import WebStory.Proofs.Number.Digits
import WebStory.Proofs.Story.Places
import WebStory.Proofs.Story.Readers
/-
  The names of text elements.

  Eight names are documented: `paragraph`, `heading` and `heading1` to `heading6`.  The level behind
  `heading` is read as any whole number is.

  1. **Whole numbers** — that reader takes a plus sign and zeros in front of the digits.  Which
     texts it reads as a number is known exactly (`readNat?_eq_some_iff`): the digits of the number,
     with any zeros in front of them and at most one plus sign in front of these.  The crux is that
     digits read from the left are the digits of the result as soon as this is not zero
     (`natDigits_append_of_readDigits`).

  2. **Names** — so a heading has further names, such as `heading01` and `heading+1`, and these are
     all there are (`ofName?_eq_some_iff`).  Of the further ones none is documented, since something
     stands in front of the digit of its level.

  3. **Unknown names** — of any other name an element is refused, and a default style is for the tag
     that has this very name (`text_type_names`).
-/

namespace WebStory

open Json

/-! ## Whole numbers -/

/-- A digit reads as a number below ten, and is written for that number. -/
theorem digitChar_toNat_sub {c : Char} (h : '0' ≤ c ∧ c ≤ '9') :
    c.toNat - '0'.toNat < 10 ∧ Nat.digitChar (c.toNat - '0'.toNat) = c := by
  have hrange : 48 ≤ c.toNat ∧ c.toNat ≤ 57 := h
  have hzero : '0'.toNat = 48 := rfl
  have hsmall : c.toNat - '0'.toNat < 10 := by omega
  refine ⟨hsmall, Char.toNat_inj.1 ?_⟩
  rw [Nat.toNat_digitChar_of_lt_ten hsmall]
  omega

/-- Digits behind those of a number that is not zero are the further digits of the result. -/
theorem natDigits_append_of_readDigits {cs : List Char} {m n : Nat} (hm : 0 < m)
    (h : readDigits cs m = some n) : natDigits m ++ cs = natDigits n := by
  induction cs generalizing m with
  | nil =>
    obtain rfl := Option.some.inj h
    exact List.append_nil _
  | cons c rest ih =>
    rw [readDigits] at h
    split at h
    · next hc =>
      obtain ⟨hsmall, hchar⟩ := digitChar_toNat_sub hc
      have hnext : natDigits (m * 10 + (c.toNat - '0'.toNat)) = natDigits m ++ [c] := by
        have happend := Nat.toDigits_append_toDigits (b := 10) (by decide) hm hsmall
        rw [Nat.toDigits_of_lt_base hsmall, hchar] at happend
        rw [Nat.mul_comm m]
        exact happend.symm
      rw [← ih (by omega) h, hnext, List.append_assoc, List.singleton_append]
    · cases h

/-- Digits are read as the number they are the digits of. -/
theorem readDigits_of_forall_isDigit {cs : List Char} (h : ∀ c ∈ cs, c.isDigit = true) (m : Nat) :
    readDigits cs m = some (Nat.ofDigitChars 10 cs m) := by
  induction cs generalizing m with
  | nil => rfl
  | cons c rest ih =>
    obtain ⟨hc, hrest⟩ := List.forall_mem_cons.1 h
    rw [Char.isDigit, Bool.and_eq_true, decide_eq_true_iff, decide_eq_true_iff] at hc
    have hdigit : '0' ≤ c ∧ c ≤ '9' := hc
    rw [readDigits, if_pos hdigit, ih hrest, Nat.ofDigitChars_cons, Nat.mul_comm m]

theorem readDigits_replicate_zero (zeros : Nat) (cs : List Char) :
    readDigits (List.replicate zeros '0' ++ cs) 0 = readDigits cs 0 := by
  induction zeros with
  | zero => rfl
  | succ zeros ih =>
    rw [List.replicate_succ, List.cons_append, readDigits, if_pos (by decide)]
    exact ih

/-- A number is read from its digits with any zeros in front of them. -/
theorem readDigits_cons_eq_some_iff {c : Char} {rest : List Char} {n : Nat} :
    readDigits (c :: rest) 0 = some n ↔
      ∃ zeros, c :: rest = List.replicate zeros '0' ++ natDigits n := by
  constructor
  · intro h
    induction rest generalizing c with
    | nil =>
      rw [readDigits] at h
      split at h
      · next hc =>
        obtain ⟨hsmall, hchar⟩ := digitChar_toNat_sub hc
        rw [Nat.zero_mul, Nat.zero_add] at h
        obtain rfl := Option.some.inj h
        exact ⟨0, by rw [natDigits, Nat.toDigits_of_lt_base hsmall, hchar]; rfl⟩
      · cases h
    | cons d rest ih =>
      rw [readDigits] at h
      split at h
      · next hc =>
        obtain ⟨hsmall, hchar⟩ := digitChar_toNat_sub hc
        rw [Nat.zero_mul, Nat.zero_add] at h
        rcases Nat.eq_zero_or_pos (c.toNat - '0'.toNat) with hzero | hpos
        · -- a zero in front
          rw [hzero] at h hchar
          obtain ⟨zeros, hrest⟩ := ih h
          refine ⟨zeros + 1, ?_⟩
          rw [hrest, List.replicate_succ, List.cons_append, ← hchar]
          rfl
        · -- the first digit of the number itself
          have hdigits := natDigits_append_of_readDigits hpos h
          rw [natDigits, Nat.toDigits_of_lt_base hsmall, hchar] at hdigits
          exact ⟨0, hdigits⟩
      · cases h
  · rintro ⟨zeros, h⟩
    rw [h, readDigits_replicate_zero,
      readDigits_of_forall_isDigit fun c hc => isDigit_of_mem_natDigits hc, ofDigitChars_natDigits]

/-- A plus sign, or none. -/
def plusSign (plus : Bool) : List Char := if plus then ['+'] else []

/-- A whole number is read from its digits with any zeros and at most one plus sign in front. -/
theorem readNat?_eq_some_iff {cs : List Char} {n : Nat} :
    readNat? cs = some n ↔
      ∃ plus zeros, cs = plusSign plus ++ (List.replicate zeros '0' ++ natDigits n) := by
  have hplus (zeros : Nat) (rest : List Char) :
      List.replicate zeros '0' ++ natDigits n ≠ '+' :: rest := by
    intro h
    have hmem : '+' ∈ List.replicate zeros '0' ++ natDigits n := by rw [h]; exact List.mem_cons_self
    rcases List.mem_append.1 hmem with hmem | hmem
    · exact absurd (List.eq_of_mem_replicate hmem) (by decide)
    · exact absurd (isDigit_of_mem_natDigits hmem) (by decide)
  unfold readNat?
  split
  · refine ⟨nofun, ?_⟩
    rintro ⟨plus, zeros, h⟩
    have hnil := List.append_eq_nil_iff.1 h.symm
    exact absurd (List.append_eq_nil_iff.1 hnil.2).2 (natDigits_ne_nil n)
  · next c rest =>
    rw [readDigits_cons_eq_some_iff]
    constructor
    · rintro ⟨zeros, h⟩
      exact ⟨true, zeros, by rw [h]; rfl⟩
    · rintro ⟨plus, zeros, h⟩
      cases plus with
      | true => exact ⟨zeros, (List.cons.inj h).2⟩
      | false => exact absurd h.symm (hplus zeros _)
  · next c rest hother =>
    rw [readDigits_cons_eq_some_iff]
    constructor
    · rintro ⟨zeros, h⟩
      exact ⟨false, zeros, h⟩
    · rintro ⟨plus, zeros, h⟩
      cases plus with
      | false => exact ⟨zeros, h⟩
      | true =>
        -- a plus sign that stands alone has no digits behind it
        obtain ⟨rfl, hrest⟩ := List.cons.inj h
        cases rest with
        | nil =>
          have hnil := List.append_eq_nil_iff.1 hrest.symm
          exact absurd hnil.2 (by simpa using fun _ => natDigits_ne_nil n)
        | cons d rest => exact absurd rfl (hother d rest rfl)

/-! ## Names -/

/-- The number of a level. -/
def HeadingLevel.number : HeadingLevel → Nat
  | .h1 => 1
  | .h2 => 2
  | .h3 => 3
  | .h4 => 4
  | .h5 => 5
  | .h6 => 6

theorem HeadingLevel.ofNat?_eq_some_iff {n : Nat} {level : HeadingLevel} :
    ofNat? n = some level ↔ n = level.number := by
  constructor
  · intro h
    unfold ofNat? at h
    split at h
    case h_7 => cases h
    all_goals
      obtain rfl := Option.some.inj h
      rfl
  · rintro rfl
    cases level <;> rfl

/-- A level written out, perhaps with a plus sign and zeros in front. -/
def levelText (plus : Bool) (zeros : Nat) (level : HeadingLevel) : List Char :=
  plusSign plus ++ (List.replicate zeros '0' ++ natDigits level.number)

/-- The name is that of a heading with its level written out. -/
def NamesHeading (name : String) (plus : Bool) (zeros : Nat) (level : HeadingLevel) : Prop :=
  name.toList = "heading".toList ++ levelText plus zeros level

/-- The name is that of a heading with something in front of the digit of its level. -/
def NamesPadded (name : String) (level : HeadingLevel) : Prop :=
  ∃ plus zeros, (plus = true ∨ 0 < zeros) ∧ NamesHeading name plus zeros level

/-- The names that the text kinds are documented under. -/
def documentedKinds : List (String × TextKind) :=
  [("paragraph", .paragraph), ("heading", .heading .h1), ("heading1", .heading .h1),
    ("heading2", .heading .h2), ("heading3", .heading .h3), ("heading4", .heading .h4),
    ("heading5", .heading .h5), ("heading6", .heading .h6)]

theorem levelText_ne_nil (plus : Bool) (zeros : Nat) (level : HeadingLevel) :
    levelText plus zeros level ≠ [] := by
  intro h
  exact natDigits_ne_nil _ (List.append_eq_nil_iff.1 (List.append_eq_nil_iff.1 h).2).2

/-- A name that has a level behind the word is not that word, and it is no paragraph. -/
theorem NamesHeading.ne {name : String} {plus : Bool} {zeros : Nat} {level : HeadingLevel}
    (h : NamesHeading name plus zeros level) : name ≠ "paragraph" ∧ name ≠ "heading" := by
  constructor
  · rintro rfl
    exact absurd (List.cons.inj h).1 (by decide)
  · rintro rfl
    exact levelText_ne_nil plus zeros level (List.self_eq_append_right.1 h)

/-- Behind `heading` stands the number of the level. -/
theorem ofName?_eq_heading_iff {name : String} {kind : TextKind} (hparagraph : name ≠ "paragraph")
    (hheading : name ≠ "heading") :
    TextKind.ofName? name = some kind ↔
      ∃ plus zeros level, NamesHeading name plus zeros level ∧ kind = .heading level := by
  rw [TextKind.ofName?, if_neg hparagraph, if_neg hheading]
  split
  · next hprefix =>
    obtain ⟨rest, hrest⟩ := List.isPrefixOf_iff_prefix.1 hprefix
    have hdrop : name.toList.drop "heading".length = rest := by
      rw [← hrest]
      exact List.drop_left
    have hnames (plus : Bool) (zeros : Nat) (level : HeadingLevel) :
        NamesHeading name plus zeros level ↔ rest = levelText plus zeros level := by
      rw [NamesHeading, ← hrest]
      exact List.append_right_inj _
    rw [hdrop, Option.map_eq_some_iff]
    constructor
    · rintro ⟨level, hlevel, rfl⟩
      obtain ⟨n, hn, hlevel⟩ := Option.bind_eq_some_iff.1 hlevel
      obtain rfl := HeadingLevel.ofNat?_eq_some_iff.1 hlevel
      obtain ⟨plus, zeros, hlevel⟩ := readNat?_eq_some_iff.1 hn
      exact ⟨plus, zeros, level, (hnames plus zeros level).2 hlevel, rfl⟩
    · rintro ⟨plus, zeros, level, h, rfl⟩
      have hlevel := (hnames plus zeros level).1 h
      refine ⟨level, Option.bind_eq_some_iff.2 ⟨level.number, ?_, ?_⟩, rfl⟩
      · exact readNat?_eq_some_iff.2 ⟨plus, zeros, hlevel⟩
      · exact HeadingLevel.ofNat?_eq_some_iff.2 rfl
  · next hprefix =>
    refine ⟨nofun, ?_⟩
    rintro ⟨plus, zeros, level, h, -⟩
    refine absurd (List.isPrefixOf_iff_prefix.2 ?_) hprefix
    rw [h]
    exact List.prefix_append _ _

/-- A name with its level and nothing else behind the word is documented. -/
theorem NamesHeading.documented {name : String} {level : HeadingLevel}
    (h : NamesHeading name false 0 level) : (name, TextKind.heading level) ∈ documentedKinds := by
  have hname : name = String.ofList ("heading".toList ++ levelText false 0 level) := by
    rw [← h, String.ofList_toList]
  rw [hname]
  cases level <;> decide

/-- A text element has one of the names its kind is documented under, or that of a heading with a
    plus sign or zeros in front of its level. -/
theorem ofName?_eq_some_iff {name : String} {kind : TextKind} :
    TextKind.ofName? name = some kind ↔
      (name, kind) ∈ documentedKinds ∨ ∃ level, NamesPadded name level ∧ kind = .heading level := by
  constructor
  · intro h
    by_cases hparagraph : name = "paragraph"
    · subst hparagraph
      obtain rfl := Option.some.inj h
      exact Or.inl (by decide)
    by_cases hheading : name = "heading"
    · subst hheading
      obtain rfl := Option.some.inj h
      exact Or.inl (by decide)
    obtain ⟨plus, zeros, level, hname, rfl⟩ := (ofName?_eq_heading_iff hparagraph hheading).1 h
    by_cases hpadded : plus = true ∨ 0 < zeros
    · exact Or.inr ⟨level, ⟨plus, zeros, hpadded, hname⟩, rfl⟩
    · rw [not_or, Bool.not_eq_true, Nat.not_lt, Nat.le_zero] at hpadded
      obtain ⟨rfl, rfl⟩ := hpadded
      exact Or.inl hname.documented
  · rintro (hdocumented | ⟨level, ⟨plus, zeros, -, hname⟩, rfl⟩)
    · have hall : ∀ e ∈ documentedKinds, TextKind.ofName? e.1 = some e.2 := by decide
      exact hall _ hdocumented
    · obtain ⟨hparagraph, hheading⟩ := hname.ne
      exact (ofName?_eq_heading_iff hparagraph hheading).2 ⟨plus, zeros, level, hname, rfl⟩

/-! ## Unknown names -/

theorem ElementType.ofName?_eq_none {name : String} (htext : TextKind.ofName? name = none)
    (hcontainer : name ≠ "container") (himage : name ≠ "image") (hvideo : name ≠ "video") :
    ElementType.ofName? name = none := by
  rw [ofName?_of_ne hcontainer himage hvideo, htext]
  rfl

theorem defaultStyleSelector_eq_self {name : String} (htext : TextKind.ofName? name = none)
    (hcontainer : name ≠ "container") (himage : name ≠ "image") (hvideo : name ≠ "video") :
    defaultStyleSelector name = name := by
  rw [defaultStyleSelector, if_neg hcontainer, if_neg himage, if_neg hvideo, htext]
  rfl

/-- An element of a type that is not known is refused by the name of that type. -/
theorem parseElement_of_unknown {members : Members} {name : String} (path : Path)
    (hget : Entries.get? members "type" = some (.string name))
    (hname : ElementType.ofName? name = none) :
    parseElement path (.object members) = .error (.unknownElementType name path) := by
  rw [parseElement_object, requiredString_eq_ok_iff.2 hget]
  show (knownType path name >>= _) = _
  rw [knownType, hname]
  rfl

/-- The text kinds have just the documented names, and as further names of headings those with a
    plus sign or zeros in front of the level.  Under any other name, unless it is that of a
    container, an image or a video, an element is refused, and a default style is for the tag of
    that name. -/
theorem text_type_names (name : String) :
    (∀ kind, TextKind.ofName? name = some kind ↔
      (name, kind) ∈ documentedKinds ∨ ∃ level, NamesPadded name level ∧ kind = .heading level) ∧
    ((∀ kind, (name, kind) ∉ documentedKinds) → (∀ level, ¬NamesPadded name level) →
      name ≠ "container" → name ≠ "image" → name ≠ "video" →
        (∀ members path, Entries.get? members "type" = some (.string name) →
          parseElement path (.object members) = .error (.unknownElementType name path)) ∧
        defaultStyleSelector name = name) := by
  refine ⟨fun kind => ofName?_eq_some_iff, ?_⟩
  intro hdocumented hpadded hcontainer himage hvideo
  have htext : TextKind.ofName? name = none := by
    rw [Option.eq_none_iff_forall_ne_some]
    intro kind hkind
    rcases ofName?_eq_some_iff.1 hkind with h | ⟨level, h, -⟩
    · exact hdocumented kind h
    · exact hpadded level h
  have hunknown := ElementType.ofName?_eq_none htext hcontainer himage hvideo
  constructor
  · intro members path hget
    exact parseElement_of_unknown path hget hunknown
  · exact defaultStyleSelector_eq_self htext hcontainer himage hvideo

/-- No element is of type `marquee`, and its default style is for the tag of that name. -/
theorem marquee_is_no_type :
    parseElement .story (.object [("type", .string "marquee")]) =
        .error (.unknownElementType "marquee" .story) ∧
      defaultStyleSelector "marquee" = "marquee" := by
  have hdocumented (kind : TextKind) : ("marquee", kind) ∉ documentedKinds := by
    simp [documentedKinds]
  have hpadded (level : HeadingLevel) : ¬ NamesPadded "marquee" level := by
    rintro ⟨plus, zeros, -, h⟩
    exact absurd (List.cons.inj h).1 (by decide)
  obtain ⟨hrefused, hselector⟩ := (text_type_names "marquee").2 hdocumented hpadded (by decide)
    (by decide) (by decide)
  exact ⟨hrefused _ _ rfl, hselector⟩

/-- A name that is not documented, and still that of a heading: with a zero in front of the
    level. -/
theorem heading_with_zero_in_front :
    (∀ kind, ("heading01", kind) ∉ documentedKinds) ∧
      TextKind.ofName? "heading01" = some (.heading .h1) ∧
      (∃ e, parseElement .story
        (.object [("type", .string "heading01"), ("text", .string "x")]) = .ok e) ∧
      defaultStyleSelector "heading01" = "h1" := by
  refine ⟨fun kind => ?_, rfl, ⟨_, rfl⟩, rfl⟩
  simp [documentedKinds]

end WebStory
