import WebStory.Proofs.Json.Accepts
import WebStory.Proofs.Story.Places
/-
  Which values are properties, and what each of them gives.

  Each property is read from what stands under its key, and what may stand there is data of some
  kind: a text, a number, a list of ranges, the files of a video.

  1. **Kinds** — the kinds are grammars over JSON values (`IsRange`, `IsVideoSource`, `IsLayout`).
     The decoders of typed data accept them, by the lemmas that build one from the other.

  2. **Keys** — a key that may be left out may also be null (`Optionally`), and the part that would
     be read from it is left out then as well (`Given`).  Some parts have a value that stands for
     them then (`GivenOr`).

  3. **Readers** — each reader of a property gives exactly what is given (`eq_ok_iff_given`), and
     something is given exactly where what stands there is of the kind (`exists_given_iff`).  A
     reader looks first whether something is present, and only then what it is; that is the one
     argument all of them share.

  4. **Further conditions** — ranges must not be empty, and a video needs a file.  What is asked of
     a part is asked of what is given for it (`given_and_iff`), so such a condition can be moved
     from the part into the grammar of the value.
-/

namespace WebStory

open Json

/-! ## Typed data -/

def IsObject (v : Value) : Prop := ∃ members, v = .object members

def IsArray (v : Value) : Prop := ∃ items, v = .array items

def IsBool (v : Value) : Prop := ∃ b, v = .bool b

/-- A count: an integer that is not negative. -/
def IsSize (v : Value) : Prop := ∃ n h, v = .number (.int n h) ∧ 0 ≤ n

/-- A count of at least one. -/
def IsPositive (v : Value) : Prop := ∃ n h, v = .number (.int n h) ∧ 0 < n

/-- A range with at least one character. -/
def IsRange : Value → Prop :=
  IsRecord [⟨"start", false, IsSize⟩, ⟨"length", false, IsPositive⟩, ⟨"styles", true, IsObject⟩]

def IsVideoSource : Value → Prop :=
  IsRecord [⟨"source", false, IsString⟩, ⟨"type", false, IsString⟩]

/-- The name of a layout, by itself or as a key with null under it. -/
def IsLayout (v : Value) : Prop :=
  ∃ layout : MediaLayout, v = .string layout.name ∨ v = .object [(layout.name, .null)]

theorem accepts_bool : Accepts decodeBool Anything IsBool := by
  intro v
  cases v with
  | bool b => exact ⟨fun _ => ⟨b, rfl⟩, fun _ => ⟨b, rfl, trivial⟩⟩
  | _ => exact ⟨nofun, nofun⟩

theorem accepts_styles :
    Accepts (fun v => (decodeObject v).map StyleRecord.mk) Anything IsObject := by
  intro v
  cases v with
  | object members => exact ⟨fun _ => ⟨members, rfl⟩, fun _ => ⟨⟨members⟩, rfl, trivial⟩⟩
  | _ => exact ⟨nofun, nofun⟩

/-- A count is read as it is. -/
theorem decodeSize_eq_ok_iff {v : Value} {n : UInt64} :
    decodeSize v = .ok n ↔ ∃ k h, v = .number (.int k h) ∧ 0 ≤ k ∧ n.toNat = k.toNat := by
  cases v with
  | number number =>
    cases number with
    | int k h =>
      have hrange : k.toNat < 2 ^ 64 := by
        obtain ⟨-, hle⟩ := h
        omega
      have hread : (UInt64.ofNat k.toNat).toNat = k.toNat := UInt64.toNat_ofNat_of_lt' hrange
      have hdecode : decodeSize (.number (.int k h)) =
          if k < 0 then .error (.negativeSize k) else .ok (UInt64.ofNat k.toNat) := rfl
      rw [hdecode]
      by_cases hneg : k < 0
      · rw [if_pos hneg]
        refine ⟨nofun, ?_⟩
        rintro ⟨k', h', hk', hle, -⟩
        obtain rfl := Number.int.inj (Value.number.inj hk')
        omega
      · rw [if_neg hneg]
        constructor
        · intro hn
          obtain rfl := Except.ok.inj hn
          exact ⟨k, h, rfl, by omega, hread⟩
        · rintro ⟨k', h', hk', -, hn⟩
          obtain rfl := Number.int.inj (Value.number.inj hk')
          exact congrArg Except.ok (UInt64.toNat_inj.1 (hread.trans hn.symm))
    | float x =>
      refine ⟨nofun, ?_⟩
      rintro ⟨k, h, hk, -⟩
      cases hk
  | _ =>
    refine ⟨nofun, ?_⟩
    rintro ⟨k, h, hk, -⟩
    cases hk

theorem accepts_size : Accepts decodeSize Anything IsSize := by
  intro v
  constructor
  · rintro ⟨n, hn, -⟩
    obtain ⟨k, h, rfl, hk, -⟩ := decodeSize_eq_ok_iff.1 hn
    exact ⟨k, h, rfl, hk⟩
  · rintro ⟨k, h, rfl, hk⟩
    have hrange : k.toNat < 2 ^ 64 := by
      obtain ⟨-, hle⟩ := h
      omega
    exact ⟨UInt64.ofNat k.toNat,
      decodeSize_eq_ok_iff.2 ⟨k, h, rfl, hk, UInt64.toNat_ofNat_of_lt' hrange⟩, trivial⟩

theorem accepts_positive : Accepts decodeSize (· ≠ 0) IsPositive := by
  intro v
  have hzero (n : UInt64) : n ≠ 0 ↔ n.toNat ≠ 0 := by
    rw [Ne, ← UInt64.toNat_inj]
    rfl
  constructor
  · rintro ⟨n, hn, hne⟩
    obtain ⟨k, h, rfl, hk, hread⟩ := decodeSize_eq_ok_iff.1 hn
    rw [hzero, hread] at hne
    exact ⟨k, h, rfl, by omega⟩
  · rintro ⟨k, h, rfl, hk⟩
    obtain ⟨n, hn, -⟩ := (accepts_size (.number (.int k h))).2 ⟨k, h, rfl, hk.le⟩
    obtain ⟨k', h', hk', -, hread⟩ := decodeSize_eq_ok_iff.1 hn
    obtain rfl := Number.int.inj (Value.number.inj hk')
    refine ⟨n, hn, (hzero n).2 ?_⟩
    omega

theorem InlineStyle.accepts_decode : Accepts InlineStyle.decode (·.length ≠ 0) IsRange := by
  have hstart := (readsFields_start InlineStyle.mk).required shape accepts_size "start"
  -- whatever the start is, the length is the one that is read
  have hkept (s : RecordSource) :
      Ensures (fun g => ∀ length styles, (g length styles).length = length)
        ((Fields.read InlineStyle.mk).both
          (readField shape s 0 "start" none decodeSize)).toDecoded :=
    ensures_both (Q := fun _ => True) (ensures_ok fun _ _ _ _ => rfl) (ensures_true _)
  have hlength := hstart.further shape hkept (R := fun g => ∀ styles, (g styles).length ≠ 0)
    (fun g hg length => by simp only [hg, true_and]; exact ⟨fun h => h .empty, fun h _ => h⟩)
    accepts_positive "length" none (by simp : false = true ↔ _)
  have hsame (s : RecordSource) :
      Ensures (fun g : StyleRecord → InlineStyle =>
          ∀ styles other, (g styles).length = (g other).length)
        (((Fields.read InlineStyle.mk).both
          (readField shape s 0 "start" none decodeSize)).both
            (readField shape s 1 "length" none decodeSize)).toDecoded :=
    ensures_both (fun g hg length _ styles other =>
      (hkept s g hg length styles).trans (hkept s g hg length other).symm) (ensures_true _)
  have hstyles := hlength.further shape hsame (R := (·.length ≠ 0))
    (fun g hg styles => by
      rw [and_iff_left trivial]
      exact ⟨fun h other => hg styles other ▸ h, fun h => h styles⟩)
    accepts_styles "styles" (some .empty) (by simp : true = true ↔ _)
  exact hstyles.accepts rfl

theorem VideoSource.accepts_decode : Accepts VideoSource.decode Anything IsVideoSource := by
  have hsource := (readsFields_start VideoSource.mk).required shape accepts_string "source"
  have htype := hsource.required shape accepts_string "type"
  exact htype.accepts rfl

theorem MediaLayout.ofName_eq_ok_iff {name : String} {layout : MediaLayout} :
    ofName name = .ok layout ↔ name = layout.name := by
  constructor
  · intro h
    unfold ofName at h
    split at h
    · next found hfound =>
      obtain rfl := Except.ok.inj h
      have hname := List.find?_some hfound
      exact (of_decide_eq_true hname).symm
    · cases h
  · rintro rfl
    cases layout <;> rfl

theorem MediaLayout.accepts_decode : Accepts MediaLayout.decode Anything IsLayout := by
  intro v
  cases v with
  | string name =>
    constructor
    · rintro ⟨layout, h, -⟩
      exact ⟨layout, Or.inl (congrArg Value.string (ofName_eq_ok_iff.1 h))⟩
    · rintro ⟨layout, h | h⟩
      · exact ⟨layout, ofName_eq_ok_iff.2 (Value.string.inj h), trivial⟩
      · cases h
  | object members =>
    constructor
    · rintro ⟨layout, h, -⟩
      match members, h with
      | [(name, content)], h =>
        obtain ⟨found, hfound, hcontent⟩ := exists_of_bind_eq_ok h
        cases content with
        | null => exact ⟨found, Or.inr (by rw [ofName_eq_ok_iff.1 hfound])⟩
        | _ => cases hcontent
      | [], h => cases h
      | _ :: _ :: _, h => cases h
    · rintro ⟨layout, h | h⟩
      · cases h
      · obtain rfl := Value.object.inj h
        refine ⟨layout, ?_, trivial⟩
        cases layout <;> rfl
  | _ =>
    constructor
    · rintro ⟨layout, h, -⟩
      cases h
    · rintro ⟨layout, h | h⟩ <;> cases h

/-! ## Properties of an object -/

/-- The key is absent or null, or what stands under it is of a kind. -/
def Optionally (P : Value → Prop) (members : Members) (key : String) : Prop :=
  ∀ v, present? members key = some v → P v

/-- Under the key stands something of a kind that is not null. -/
def Necessarily (P : Value → Prop) (members : Members) (key : String) : Prop :=
  ∃ v, present? members key = some v ∧ P v

/-- A part is what stands under a key, and it is left out where the key is absent or null. -/
def Given {α : Type} (R : Value → α → Prop) (members : Members) (key : String) (a? : Option α) :
    Prop := Option.Rel R (present? members key) a?

/-- The same, with a value that stands for a part that is left out. -/
def GivenOr {α : Type} (R : Value → α → Prop) (members : Members) (key : String) (fallback a : α) :
    Prop := ∃ a?, Given R members key a? ∧ a = a?.getD fallback

/-- A width or a height. -/
def IsDimension (v : Value) : Prop := IsNumber v ∨ IsString v

def TextOf (v : Value) (s : String) : Prop := v = .string s

/-- A number stands for its text in a style sheet. -/
def DimensionOf (v : Value) (s : String) : Prop :=
  v = .string s ∨ ∃ n : Number, v = .number n ∧ s = n.cssText

def StylesOf (v : Value) (r : StyleRecord) : Prop := v = .object r.entries

def Decodes {α : Type} (decode : Value → Decoded α) (v : Value) (a : α) : Prop := decode v = .ok a

/-- Ranges that all have a character. -/
def RangesOf (v : Value) (ranges : List InlineStyle) : Prop :=
  Decodes (decodeList InlineStyle.decode) v ranges ∧ ∀ s ∈ ranges, s.length ≠ 0

/-- Files of a video, at least one. -/
def SourcesOf (v : Value) (sources : List VideoSource) : Prop :=
  Decodes (decodeList VideoSource.decode) v sources ∧ sources ≠ []

section Kinds

variable (v : Value)

theorem exists_text_iff : (∃ s, TextOf v s) ↔ IsString v := Iff.rfl

theorem exists_dimension_iff : (∃ s, DimensionOf v s) ↔ IsDimension v := by
  constructor
  · rintro ⟨s, h | ⟨n, h, -⟩⟩
    · exact Or.inr ⟨s, h⟩
    · exact Or.inl ⟨n, h⟩
  · rintro (⟨n, h⟩ | ⟨s, h⟩)
    · exact ⟨n.cssText, Or.inr ⟨n, h, rfl⟩⟩
    · exact ⟨s, Or.inl h⟩

theorem exists_styles_iff : (∃ r, StylesOf v r) ↔ IsObject v :=
  ⟨fun ⟨r, h⟩ => ⟨r.entries, h⟩, fun ⟨members, h⟩ => ⟨⟨members⟩, h⟩⟩

theorem exists_layout_iff : (∃ layout, Decodes MediaLayout.decode v layout) ↔ IsLayout v :=
  MediaLayout.accepts_decode.exists_ok_iff v

theorem exists_bool_iff : (∃ b, Decodes decodeBool v b) ↔ IsBool v := accepts_bool.exists_ok_iff v

theorem exists_ranges_iff : (∃ ranges, RangesOf v ranges) ↔ IsListOf IsRange v :=
  InlineStyle.accepts_decode.listOf v

theorem exists_sources_iff : (∃ sources, SourcesOf v sources) ↔ IsSomeOf IsVideoSource v :=
  VideoSource.accepts_decode.someOf v

end Kinds

section Properties

variable {α : Type} {members : Members} {key : String} {path : Path}

/-- What is given can be read if what is there is of the kind that is read. -/
theorem exists_given_iff {R : Value → α → Prop} {P : Value → Prop} (h : ∀ v, (∃ a, R v a) ↔ P v) :
    (∃ a?, Given R members key a?) ↔ Optionally P members key := by
  unfold Given Optionally
  cases present? members key with
  | none => exact ⟨fun _ => nofun, fun _ => ⟨none, .none⟩⟩
  | some v =>
    constructor
    · rintro ⟨_, ⟨hv⟩⟩ w hw
      obtain rfl := Option.some.inj hw
      exact (h v).1 ⟨_, hv⟩
    · intro hall
      obtain ⟨a, ha⟩ := (h v).2 (hall v rfl)
      exact ⟨some a, .some ha⟩

/-- The same where it must be there. -/
theorem exists_given_some_iff {R : Value → α → Prop} {P : Value → Prop}
    (h : ∀ v, (∃ a, R v a) ↔ P v) :
    (∃ a, Given R members key (some a)) ↔ Necessarily P members key := by
  unfold Given Necessarily
  cases present? members key with
  | none =>
    constructor
    · rintro ⟨a, ha⟩
      cases ha
    · rintro ⟨v, hv, -⟩
      cases hv
  | some v =>
    constructor
    · rintro ⟨a, ⟨ha⟩⟩
      exact ⟨v, rfl, (h v).1 ⟨a, ha⟩⟩
    · rintro ⟨_, ⟨⟩, hv⟩
      obtain ⟨a, ha⟩ := (h v).2 hv
      exact ⟨a, .some ha⟩

/-- The same with a value that stands for a part that is left out. -/
theorem exists_givenOr_iff {R : Value → α → Prop} {P : Value → Prop} (h : ∀ v, (∃ a, R v a) ↔ P v)
    (fallback : α) : (∃ a, GivenOr R members key fallback a) ↔ Optionally P members key := by
  rw [← exists_given_iff h]
  constructor
  · rintro ⟨_, a?, ha, -⟩
    exact ⟨a?, ha⟩
  · rintro ⟨a?, ha⟩
    exact ⟨a?.getD fallback, a?, ha, rfl⟩

/-- What is asked of a part is asked of what is given for it. -/
theorem given_and_iff {R : Value → α → Prop} {Q : α → Prop} {a? : Option α} :
    Given (fun v a => R v a ∧ Q a) members key a? ↔ Given R members key a? ∧ ∀ a ∈ a?, Q a := by
  unfold Given
  constructor
  · intro h
    generalize present? members key = v? at h ⊢
    cases h with
    | none => exact ⟨.none, nofun⟩
    | some h =>
      refine ⟨.some h.1, fun a ha => ?_⟩
      obtain rfl := Option.some.inj ha
      exact h.2
  · rintro ⟨h, hall⟩
    generalize present? members key = v? at h ⊢
    cases h with
    | none => exact .none
    | some h => exact .some ⟨h, hall _ rfl⟩

/-- A reader that looks at what is present reads what is given. -/
theorem eq_ok_iff_given {R : Value → α → Prop} (read : Value → Parsed α) {x : Parsed (Option α)}
    (hread : ∀ v a, read v = .ok a ↔ R v a)
    (hx : x = (present? members key).elim (.ok none) fun v => (read v).map some) {a? : Option α} :
    x = .ok a? ↔ Given R members key a? := by
  subst hx
  unfold Given
  cases present? members key with
  | none =>
    constructor
    · intro h
      obtain rfl := Except.ok.inj h
      exact .none
    · rintro ⟨⟩
      rfl
  | some v =>
    rw [Option.elim_some, map_eq_ok_iff]
    constructor
    · rintro ⟨a, ha, rfl⟩
      exact .some ((hread v a).1 ha)
    · rintro ⟨ha⟩
      exact ⟨_, (hread v _).2 ha, rfl⟩

theorem optionalString_eq_ok_iff_given {s? : Option String} :
    optionalString members key path = .ok s? ↔ Given TextOf members key s? := by
  rw [optionalString_eq_ok_iff, Given]
  cases present? members key with
  | none => cases s? <;> simp
  | some v => cases s? <;> simp [TextOf]

theorem requiredString_eq_ok_iff_given {s : String} :
    requiredString members key path = .ok s ↔ Given TextOf members key (some s) := by
  have hoptional : Given TextOf members key (some s) ↔
      optionalString members key path = .ok (some s) := optionalString_eq_ok_iff_given.symm
  rw [hoptional, requiredString]
  cases optionalString members key path with
  | error e => exact ⟨nofun, nofun⟩
  | ok s? =>
    cases s? with
    | none => exact ⟨nofun, nofun⟩
    | some t =>
      show (.ok t : Parsed String) = .ok s ↔ (.ok (some t) : Parsed (Option String)) = .ok (some s)
      rw [Except.ok.injEq, Except.ok.injEq, Option.some.injEq]

theorem optionalDimension_eq_ok_iff {s? : Option String} :
    optionalDimension members key path = .ok s? ↔ Given DimensionOf members key s? := by
  unfold optionalDimension Given
  cases present? members key with
  | none => cases s? <;> simp
  | some v => cases v <;> cases s? <;> simp [DimensionOf, eq_comm]

theorem optionalTyped_eq_ok_iff {decode : Value → Decoded α} {a? : Option α} :
    optionalTyped decode members key path = .ok a? ↔ Given (Decodes decode) members key a? := by
  refine eq_ok_iff_given
    (fun v => (decode v).mapError fun e => .invalidProperty key path (.undecodable e))
    (fun v a => ?_) ?_
  · unfold Decodes
    cases decode v <;> simp [Except.mapError]
  · unfold optionalTyped
    cases present? members key with
    | none => rfl
    | some v => dsimp only [Option.elim_some]; cases decode v <;> rfl

theorem optionalStyle_eq_ok_iff {styles : Option StyleRecord} :
    optionalStyle members path = .ok styles ↔ Given StylesOf members "styles" styles := by
  refine eq_ok_iff_given (parseStyle path) (fun v r => ?_) ?_
  · cases v with
    | object entries =>
      constructor
      · rintro ⟨⟩
        rfl
      · intro h
        obtain rfl := Value.object.inj h
        rfl
    | _ => exact ⟨nofun, nofun⟩
  · unfold optionalStyle
    cases present? members "styles" <;> rfl

end Properties

end WebStory
