import Mathlib
import WebStory.Proofs.Style.Faults
import WebStory.Proofs.Style.Properties
import WebStory.Proofs.Style.Sharing
/-
  Which keys of a record name one property.

  1. **Names** — a property has no capital letters, so it names itself.  A key without hyphens can
     be read off its property: a hyphen there stands for the capital letter behind it
     (`camelKey_dasherize`).  So two such keys never name one property (`dasherize_inj`).  A key
     with a hyphen of its own may well name the property of another key.

  2. **Other writes** — in the conversion of a record the property of a key can still be written
     more than once: by a key with a hyphen that names the same property, and after the entries,
     where three keys write the property of another key (`replacedKeys`) and `grid-gap` is reset.

  3. **Leaving out a key** — what is written under a property depends on these entries only, so one
     compares what two records write there and nothing else (`get?_congr`).  A record without one of
     its keys still can be converted (`fault?_without`).

  4. **Keys and declarations** — an entry keeps its own text unless one of the three keys is there,
     and leaving out any other key without hyphens changes nothing (`keysApart_of_convert`).  That
     is what it means for keys to be kept apart: each of the others could be taken away without a
     trace.
-/

namespace WebStory

open Json

/-! ## Names -/

theorem isUpper_of_mem_dasherizeChar {c d : Char} (h : d ∈ dasherizeChar c) : d.isUpper = false := by
  unfold dasherizeChar at h
  split at h
  · rcases List.mem_cons.1 h with rfl | h
    · decide
    · rw [List.mem_singleton.1 h]
      exact Char.isUpper_toLower_eq_false c
  · next hsmall =>
    rw [List.mem_singleton.1 h]
    exact Bool.eq_false_iff.2 hsmall

/-- A property has no capital letters. -/
theorem isUpper_of_mem_dasherize {key : String} {c : Char} (h : c ∈ (dasherize key).toList) :
    c.isUpper = false := by
  rw [dasherize, String.toList_ofList] at h
  obtain ⟨d, -, hc⟩ := List.mem_flatMap.1 h
  exact isUpper_of_mem_dasherizeChar hc

/-- A name without capital letters is its own property. -/
theorem dasherize_eq_self {name : String} (h : ∀ c ∈ name.toList, c.isUpper = false) :
    dasherize name = name := by
  have hchars : name.toList.flatMap dasherizeChar = name.toList.flatMap fun c => [c] :=
    List.flatMap_congr fun c hc => if_neg (by simp [h c hc])
  rw [dasherize, hchars, List.flatMap_singleton', String.ofList_toList]

theorem dasherize_dasherize (key : String) : dasherize (dasherize key) = dasherize key :=
  dasherize_eq_self fun _ => isUpper_of_mem_dasherize

/-- The characters of the key that a property is read as: a hyphen goes, and the letter behind it
    becomes a capital. -/
def camelChars : List Char → List Char
  | '-' :: c :: rest => c.toUpper :: camelChars rest
  | c :: rest => c :: camelChars rest
  | [] => []

/-- The key that a property is read as. -/
def camelKey (property : String) : String := String.ofList (camelChars property.toList)

theorem camelChars_dasherizeChar_append {c : Char} (h : c ≠ '-') (rest : List Char) :
    camelChars (dasherizeChar c ++ rest) = c :: camelChars rest := by
  unfold dasherizeChar
  split
  · next hupper =>
    have hback : c.toLower.toUpper = c := by
      rw [Char.toUpper_toLower_eq_toUpper,
        Char.toUpper_eq_of_not_isLower (Char.not_isLower_of_isUpper hupper)]
    show c.toLower.toUpper :: camelChars rest = c :: camelChars rest
    rw [hback]
  · rw [List.singleton_append, camelChars]
    exact fun _ _ hc _ => h hc

/-- A key without hyphens can be read off the property that it names. -/
theorem camelKey_dasherize {key : String} (h : '-' ∉ key.toList) : camelKey (dasherize key) = key := by
  have hchars (cs : List Char) (hcs : '-' ∉ cs) : camelChars (cs.flatMap dasherizeChar) = cs := by
    induction cs with
    | nil => rfl
    | cons c rest ih =>
      obtain ⟨hc, hrest⟩ := not_or.1 (mt List.mem_cons.2 hcs)
      rw [List.flatMap_cons, camelChars_dasherizeChar_append (Ne.symm hc), ih hrest]
  rw [camelKey, dasherize, String.toList_ofList, hchars _ h, String.ofList_toList]

example : camelKey "border-top-left-radius" = "borderTopLeftRadius" := by decide

/-- Keys without hyphens name one property only if they are one key. -/
theorem dasherize_inj {key other : String} (hkey : '-' ∉ key.toList) (hother : '-' ∉ other.toList) :
    dasherize key = dasherize other ↔ key = other := by
  constructor
  · intro h
    rw [← camelKey_dasherize hkey, h, camelKey_dasherize hother]
  · exact congrArg dasherize

theorem hyphen_mem_dasherize {key : String} (h : '-' ∈ key.toList) : '-' ∈ (dasherize key).toList := by
  rw [dasherize, String.toList_ofList]
  exact List.mem_flatMap.2 ⟨'-', h, by decide⟩

/-- A property without hyphens and capital letters is named by one key only. -/
theorem dasherize_eq_iff {key property : String}
    (h : property.toList.all (fun c => c != '-' && !c.isUpper) = true) :
    dasherize key = property ↔ key = property := by
  have h : ∀ c ∈ property.toList, c ≠ '-' ∧ c.isUpper = false := by simpa using h
  have hself : dasherize property = property := dasherize_eq_self fun c hc => (h c hc).2
  have hproperty : '-' ∉ property.toList := fun hmem => (h '-' hmem).1 rfl
  constructor
  · intro hname
    have hkey : '-' ∉ key.toList := fun hmem => hproperty (hname ▸ hyphen_mem_dasherize hmem)
    exact (dasherize_inj hkey hproperty).1 (hname.trans hself.symm)
  · rintro rfl
    exact hself

/-! ## What is written after the entries -/

/-- Keys that write the property of another key after the entries, each with that key. -/
def replacedKeys : List (String × String) :=
  [(gradientKey, "background"), ("justifyContent", "alignContent"), ("alignItems", "justifyItems")]

/-- The text that such a key writes. -/
def replacingText (key : String) (v : Value) : Except StyleFault String :=
  if key = gradientKey then gradientText v else .ok (plainText v)

/-- What such a key writes, if it is there and its value has a text. -/
def StyleRecord.replacingPair? (r : StyleRecord) (keys : String × String) : Option (String × String) :=
  (present? r.entries keys.1).bind fun v =>
    (replacingText keys.1 v).toOption.map (dasherize keys.2, ·)

theorem hyphen_not_mem_of_mem_replacedKeys {keys : String × String} (h : keys ∈ replacedKeys) :
    '-' ∉ keys.2.toList := by
  have hall : ∀ keys ∈ replacedKeys, '-' ∉ keys.2.toList := by decide
  exact hall keys h

theorem closingPairs_eq (r : StyleRecord) :
    r.closingPairs = replacedKeys.filterMap r.replacingPair? ++ [("grid-gap", "0")] := by
  have hgradient : r.gradientPairs = (r.replacingPair? (gradientKey, "background")).toList := by
    have hname : dasherize "background" = "background" := by decide
    rw [StyleRecord.gradientPairs, StyleRecord.replacingPair?, hname]
    rfl
  have halias (key other : String) {property : String} (hkey : key ≠ gradientKey)
      (hname : dasherize other = property) :
      r.aliasPairs key property = (r.replacingPair? (key, other)).toList := by
    unfold StyleRecord.aliasPairs StyleRecord.replacingPair?
    simp only [replacingText, if_neg hkey, hname]
    cases present? r.entries key <;> rfl
  rw [StyleRecord.closingPairs, hgradient,
    halias "justifyContent" "alignContent" (by decide) (by decide),
    halias "alignItems" "justifyItems" (by decide) (by decide), List.filterMap_eq_flatMap_toList]
  simp only [replacedKeys, List.flatMap_cons, List.flatMap_nil, List.append_nil, List.append_assoc]

/-- In a record that can be converted the keys that write after the entries have a text. -/
theorem exists_replacingText {r : StyleRecord} {d : Declarations} (hconvert : r.convert = .ok d)
    {key : String} {v : Value} (hv : present? r.entries key = some v) :
    ∃ text, replacingText key v = .ok text := by
  unfold replacingText
  split
  · next hkey =>
    rw [hkey] at hv
    obtain ⟨text, htext, -⟩ := (eq_write_of_convert hconvert).2.1 v hv
    exact ⟨text, htext⟩
  · exact ⟨plainText v, rfl⟩

/-- Where the property of a key without hyphens is written after the entries, a key that replaces it is
    there, or it is the one that is always reset. -/
theorem dasherize_mem_closingProperties {r : StyleRecord} {key : String} (hkey : '-' ∉ key.toList)
    (h : dasherize key ∈ r.closingProperties) : key = "gridGap" ∨
      ∃ other, (other, key) ∈ replacedKeys ∧ (present? r.entries other).isSome := by
  have hclosing : r.closingProperties =
      (replacedKeys.filter fun keys => (present? r.entries keys.1).isSome).map
        (fun keys => dasherize keys.2) ++ [dasherize "gridGap"] := by
    unfold StyleRecord.closingProperties replacedKeys
    simp only [List.filter_cons, List.filter_nil]
    split <;> split <;> split <;> decide
  rw [hclosing] at h
  rcases List.mem_append.1 h with h | h
  · obtain ⟨⟨other, replaced⟩, hkeys, hname⟩ := List.mem_map.1 h
    obtain ⟨hmem, hpresent⟩ := List.mem_filter.1 hkeys
    obtain rfl := (dasherize_inj (hyphen_not_mem_of_mem_replacedKeys hmem) hkey).1 hname
    exact Or.inr ⟨other, hmem, hpresent⟩
  · exact Or.inl ((dasherize_inj hkey (by decide)).1 (List.mem_singleton.1 h))

/-! ## Records without a key -/

/-- The record without the entries of a key. -/
def StyleRecord.without (r : StyleRecord) (key : String) : StyleRecord :=
  ⟨r.entries.filter fun e => e.1 != key⟩

theorem present?_without_self (r : StyleRecord) (key : String) :
    present? (r.without key).entries key = none := by
  rw [present?, StyleRecord.without, Entries.get?_filter_self]

theorem present?_without_ne (r : StyleRecord) {key other : String} (h : other ≠ key) :
    present? (r.without key).entries other = present? r.entries other := by
  rw [present?, present?, StyleRecord.without, Entries.get?_filter_ne _ h]

/-- A record that can be converted can be converted without any of its keys. -/
theorem fault?_without {r : StyleRecord} (h : r.fault? = none) (key : String) :
    (r.without key).fault? = none := by
  obtain ⟨hentries, hgradient⟩ := Option.or_eq_none_iff.1 h
  refine Option.or_eq_none_iff.2 ⟨?_, ?_⟩
  · rw [List.findSome?_eq_none_iff] at hentries ⊢
    exact fun e he => hentries e (List.mem_filter.1 he).1
  · unfold gradientFault?
    by_cases hkey : gradientKey = key
    · rw [← hkey, present?_without_self, Option.bind_none]
    · rw [present?_without_ne r hkey]
      exact hgradient

section Without

variable {r : StyleRecord} {key other : String} (hkey : '-' ∉ key.toList)
  (hother : '-' ∉ other.toList) (hne : other ≠ key)

include hkey hother hne in
/-- No entry of another key without hyphens is written under the property of a key. -/
theorem filter_declaredPairs_without :
    (declaredPairs (r.without other).entries).filter (·.1 == dasherize key) =
      (declaredPairs r.entries).filter (·.1 == dasherize key) := by
  rw [filter_declaredPairs, filter_declaredPairs, StyleRecord.without, List.filter_filter]
  congr 1
  refine List.filter_congr fun e _ => ?_
  by_cases he : e.1 = other
  · have hname : (dasherize e.1 == dasherize key) = false := by
      rw [beq_eq_false_iff_ne, he, ne_eq, dasherize_inj hother hkey]
      exact hne
    rw [hname, Bool.and_false, Bool.false_and]
  · rw [bne_iff_ne.2 he, Bool.and_true]

include hkey in
/-- After the entries only the keys that replace a key are written under its property. -/
theorem filter_closingPairs_without (hreplaced : (other, key) ∉ replacedKeys) :
    (r.without other).closingPairs.filter (·.1 == dasherize key) =
      r.closingPairs.filter (·.1 == dasherize key) := by
  rw [closingPairs_eq, closingPairs_eq, List.filter_append, List.filter_append,
    List.filter_filterMap, List.filter_filterMap]
  congr 1
  refine List.filterMap_congr fun keys hkeys => ?_
  unfold StyleRecord.replacingPair?
  by_cases hwriter : keys.1 = other
  · -- what the key writes stands under another property
    have hname : dasherize keys.2 ≠ dasherize key := by
      rw [ne_eq, dasherize_inj (hyphen_not_mem_of_mem_replacedKeys hkeys) hkey]
      rintro rfl
      exact hreplaced (hwriter ▸ hkeys)
    rw [hwriter, present?_without_self, Option.bind_none]
    cases present? r.entries other with
    | none => rfl
    | some v =>
      rw [Option.bind_some]
      cases (replacingText other v).toOption with
      | none => rfl
      | some text => simp [Option.filter, hname]
  · rw [present?_without_ne r hwriter]

end Without

/-- Declarations have one value under a property if the same is written there. -/
theorem get?_congr {r q : StyleRecord} {d d' : Declarations} (hr : r.convert = .ok d)
    (hq : q.convert = .ok d') {property : String}
    (hentries : (declaredPairs q.entries).filter (·.1 == property) =
      (declaredPairs r.entries).filter (·.1 == property))
    (hclosing : q.closingPairs.filter (·.1 == property) =
      r.closingPairs.filter (·.1 == property)) : d'.get? property = d.get? property := by
  rw [get?_of_convert hr, get?_of_convert hq]
  simp only [Entries.get?_eq_head?, List.filter_reverse, hentries, hclosing]

/-! ## Keys and declarations -/

/-- The declarations of a record, key by key. -/
structure StyleRecord.KeysApart (r : StyleRecord) (path : Path) (d : Declarations) : Prop where
  /-- An entry of a key without hyphens keeps its text, but for the keys with a hyphen that name its
      property, the keys that replace it and the reset of `grid-gap`. -/
  own : (Entries.names r.entries).Nodup → ∀ e ∈ r.entries, declares e = true → '-' ∉ e.1.toList →
    ∃ text, entryText e = .ok text ∧ (d.get? (dasherize e.1) = some text ∨ e.1 = "gridGap" ∨
      (∃ other, (other, e.1) ∈ replacedKeys ∧ (present? r.entries other).isSome) ∨
      ∃ other ∈ r.entries, declares other = true ∧ '-' ∈ other.1.toList ∧
        dasherize other.1 = dasherize e.1)
  /-- A key that replaces another one is declared in its place. -/
  replaced : ∀ keys ∈ replacedKeys, ∀ v, present? r.entries keys.1 = some v →
    ∃ text, replacingText keys.1 v = .ok text ∧ d.get? (dasherize keys.2) = some text
  /-- Any other key without hyphens can be left out, and the declaration of a key is the same. -/
  apart : ∀ key other, '-' ∉ key.toList → '-' ∉ other.toList → other ≠ key →
    (other, key) ∉ replacedKeys → ∃ d', convertStyle (r.without other) path = .ok d' ∧
      d'.get? (dasherize key) = d.get? (dasherize key)

/-- An entry of a key without hyphens is the only one that names its property, if no key with a hyphen
    names it too. -/
theorem filter_eq_of_no_hyphen {entries : Members} (nodup : (Entries.names entries).Nodup)
    {e : String × Value} (he : e ∈ entries) (hdeclares : declares e = true)
    (hkey : '-' ∉ e.1.toList)
    (hhyphen : ¬∃ other ∈ entries, declares other = true ∧ '-' ∈ other.1.toList ∧
      dasherize other.1 = dasherize e.1) :
    entries.filter (fun other => declares other && dasherize other.1 == dasherize e.1) = [e] := by
  have hkeys : entries.filter (fun other => declares other && dasherize other.1 == dasherize e.1) =
      entries.filter fun other => declares other && other.1 == e.1 := by
    refine List.filter_congr fun other hmem => ?_
    cases hsays : declares other with
    | false => rfl
    | true =>
      rw [Bool.true_and, Bool.true_and, Bool.eq_iff_iff, beq_iff_eq, beq_iff_eq]
      refine ⟨fun hname => ?_, congrArg dasherize⟩
      by_contra hdiffers
      have hplain : '-' ∉ other.1.toList := fun hmark => hhyphen ⟨other, hmem, hsays, hmark, hname⟩
      exact hdiffers ((dasherize_inj hplain hkey).1 hname)
  have hget : Entries.get? entries e.1 = some e.2 := (Entries.get?_eq_some_iff nodup).2 he
  rw [hkeys, ← List.filter_filter, Entries.filter_eq_singleton nodup hget,
    List.filter_cons_of_pos hdeclares, List.filter_nil]

theorem keysApart_of_convert {r : StyleRecord} {path : Path} {d : Declarations}
    (h : convertStyle r path = .ok d) : r.KeysApart path d := by
  have hconvert : r.convert = .ok d := ClassTable.convertStyle_eq_ok_iff.1 h
  obtain ⟨hconvertible, -, -⟩ := eq_write_of_convert hconvert
  constructor
  · intro nodup e he hdeclares hkey
    obtain ⟨text, htext⟩ := hconvertible e he hdeclares
    refine ⟨text, htext, ?_⟩
    by_cases hclosing : dasherize e.1 ∈ r.closingProperties
    · rcases dasherize_mem_closingProperties hkey hclosing with hgap | hreplaced
      · exact Or.inr (Or.inl hgap)
      · exact Or.inr (Or.inr (Or.inl hreplaced))
    by_cases hhyphen : ∃ other ∈ r.entries, declares other = true ∧ '-' ∈ other.1.toList ∧
        dasherize other.1 = dasherize e.1
    · exact Or.inr (Or.inr (Or.inr hhyphen))
    exact Or.inl (get?_of_filter_eq hconvert htext hclosing
      (filter_eq_of_no_hyphen nodup he hdeclares hkey hhyphen))
  · intro keys hkeys v hv
    obtain ⟨text, htext⟩ := exists_replacingText hconvert hv
    refine ⟨text, htext, get?_of_mem_closingPairs hconvert ?_⟩
    rw [closingPairs_eq]
    refine List.mem_append_left _ (List.mem_filterMap.2 ⟨keys, hkeys, ?_⟩)
    rw [StyleRecord.replacingPair?, hv, Option.bind_some, htext]
    rfl
  · intro key other hkey hother hne hreplaced
    have hok : ∃ d', convertStyle (r.without other) path = .ok d' :=
      convertStyle_isOk_iff_fault?.2 (fault?_without (convertStyle_isOk_iff_fault?.1 ⟨d, h⟩) other)
    obtain ⟨d', hd'⟩ := hok
    exact ⟨d', hd', get?_congr hconvert (ClassTable.convertStyle_eq_ok_iff.1 hd')
      (filter_declaredPairs_without hkey hother hne) (filter_closingPairs_without hkey hreplaced)⟩

/-- A property has no capital letters and names itself, and keys without hyphens name different
    properties.  So in a record such keys do not write over each other's declarations, but for the
    three that replace another key. -/
theorem dasherize_keeps_keys_apart :
    (∀ key, (∀ c ∈ (dasherize key).toList, c.isUpper = false) ∧
      dasherize (dasherize key) = dasherize key) ∧
    (∀ key other, '-' ∉ key.toList → '-' ∉ other.toList → dasherize key = dasherize other →
      key = other) ∧
    ∀ r path d, convertStyle r path = .ok d → r.KeysApart path d := by
  refine ⟨fun key => ⟨fun _ => isUpper_of_mem_dasherize, dasherize_dasherize key⟩, ?_, ?_⟩
  · intro key other hkey hother
    exact (dasherize_inj hkey hother).1
  · intro r path d
    exact keysApart_of_convert

/-- Two keys that differ in one capital letter declare two properties, and one of them can be left out
    without a trace in the other; `alignContent` is replaced, whatever its own value. -/
theorem keys_apart_by_capital :
    let r : StyleRecord := ⟨[("zIndex", .string "1"), ("zindex", .string "2"),
      ("alignContent", .string "start"), ("justifyContent", .string "end"), ("-color", .string "red")]⟩
    ('-' ∉ "zIndex".toList ∧ '-' ∉ "zindex".toList ∧
      (dasherize "zIndex" = dasherize "zindex" → "zIndex" = "zindex")) ∧
    ∃ d, convertStyle r .story = .ok d ∧ d.get? "z-index" = some "1" ∧
      d.get? "align-content" = some "end" ∧
      ∃ d', convertStyle (r.without "zindex") .story = .ok d' ∧ d'.get? "z-index" = some "1" := by
  intro r
  obtain ⟨-, hinjective, hrecord⟩ := dasherize_keeps_keys_apart
  have hcapital : '-' ∉ "zIndex".toList := by decide
  have hsmall : '-' ∉ "zindex".toList := by decide
  obtain ⟨d, hconvert⟩ : ∃ d, convertStyle r .story = .ok d := ⟨_, rfl⟩
  have hkeys := hrecord r .story d hconvert
  have hown : d.get? "z-index" = some "1" := by
    obtain ⟨text, htext, hcases⟩ :=
      hkeys.own (by decide) ("zIndex", .string "1") List.mem_cons_self rfl hcapital
    obtain rfl : "1" = text := Except.ok.inj htext
    rcases hcases with hget | hgap | ⟨other, hreplaced, -⟩ | ⟨other, hmem, -, hhyphen, hname⟩
    · exact hget
    · exact absurd hgap (by decide)
    · have hnone : ∀ keys ∈ replacedKeys, keys.2 ≠ "zIndex" := by decide
      exact absurd rfl (hnone _ hreplaced)
    · have hnone : ∀ other ∈ r.entries, '-' ∈ other.1.toList →
          dasherize other.1 ≠ dasherize "zIndex" := by decide
      exact absurd hname (hnone other hmem hhyphen)
  have hreplaced : d.get? "align-content" = some "end" := by
    obtain ⟨text, htext, hget⟩ :=
      hkeys.replaced ("justifyContent", "alignContent") (by decide) (.string "end") rfl
    obtain rfl : "end" = text := Except.ok.inj htext
    exact hget
  obtain ⟨d', hwithout, hsame⟩ :=
    hkeys.apart "zIndex" "zindex" hcapital hsmall (by decide) (by decide)
  exact ⟨⟨hcapital, hsmall, hinjective _ _ hcapital hsmall⟩, d, hconvert, hown, hreplaced, d',
    hwithout, hsame.trans hown⟩

/-- Three keys without hyphens write over the declaration of another such key: with them it has their
    text, without them its own. -/
theorem declarations_replaced_by_other_keys :
    let replaced : Members := [("background", .string "red"), ("alignContent", .string "start"),
      ("justifyItems", .string "left")]
    let replacing : Members := [("justifyContent", .string "end"), ("alignItems", .string "right"),
      (gradientKey, .object [("direction", .string "to top"),
        ("stops", .array [.object [("color", .string "blue")]])])]
    (∀ e ∈ replaced ++ replacing, '-' ∉ e.1.toList) ∧
    (Entries.names (replaced ++ replacing)).Nodup ∧
    (convertStyle ⟨replaced⟩ .story).toOption = some ⟨[("background", "red"),
      ("align-content", "start"), ("justify-items", "left"), ("grid-gap", "0")]⟩ ∧
    (convertStyle ⟨replaced ++ replacing⟩ .story).toOption = some ⟨[
      ("background", "linear-gradient(to top, blue)"), ("align-content", "end"),
      ("justify-items", "right"), ("justify-content", "end"), ("align-items", "right"),
      ("grid-gap", "0")]⟩ := by
  decide +kernel

end WebStory
