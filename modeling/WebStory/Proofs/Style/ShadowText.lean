import WebStory.Proofs.Number.Reading
import WebStory.Proofs.Style.Properties
import WebStory.Proofs.Style.Sharing
/-
  Shadows are read back from their text.

  A shadow is written as lengths in pixels, then its color, with spaces between, and a reader can
  tell a length only by its place.  The third length is the blur and the fourth the spread, so a
  blur of zero may be left out only if no spread follows.

  1. **The reader** — a length is a number with `px` behind it; lengths are read as long as there is
     a space behind each (`readLengths`).  It knows nothing of shadows, so what it makes of a text
     is no repetition of how the text was written.

  2. **Lengths** — a number in a style sheet has no exponent, so it is digits and perhaps a point
     with digits behind it, and these are its value (`Decimal.exists_positionalText`).  It is the
     shortest decimal of the number, so the value leads back to the number, and the text of a length
     is read as the length in front of any text (`readLength?_pixelText`).

  3. **Colors** — the lengths end where something begins that is no length.  A color is any string,
     and one like `2px red` would be taken for a further length; where the color does not begin with
     a length this cannot happen (`readLengths_intercalate`).

  4. **Places** — the crux is the case of a missing blur.  At each place stands what the shadow has
     there, what is left out being zero (`lengthAt_blur`, `lengthAt_spread`), in both forms of a
     shadow, with a spread and without.  Zero has no sign there, as a zero that is left out has
     none.

  5. **Records** — a list of shadows becomes as many pieces of text, and in a record that names the
     property once the pieces are its value (`convertStyle_shadows`).
-/

namespace WebStory

open Json

/-! ## Reading lengths -/

/-- The digits behind a point that follow, if there are any, and what comes after them. -/
def readPlaces : List Char → List Char × List Char
  | '.' :: rest =>
    if rest.takeWhile Char.isDigit = [] then ([], '.' :: rest)
    else (rest.takeWhile Char.isDigit, rest.dropWhile Char.isDigit)
  | rest => ([], rest)

/-- A number of pixels without a sign. -/
def readPixels? (negative : Bool) (chars : List Char) : Option (Binary64 × List Char) :=
  let whole := chars.takeWhile Char.isDigit
  let places := readPlaces (chars.dropWhile Char.isDigit)
  match whole, places.2 with
  | _ :: _, 'p' :: 'x' :: rest =>
    (Binary64.ofDecimal? negative (Nat.ofDigitChars 10 (whole ++ places.1) 0)
      (-places.1.length)).map (·, rest)
  | _, _ => none

/-- The length in pixels that a text begins with, and what comes after it. -/
def readLength? : List Char → Option (Binary64 × List Char)
  | '-' :: chars => readPixels? true chars
  | chars => readPixels? false chars

theorem length_readPlaces_le (chars : List Char) : (readPlaces chars).2.length ≤ chars.length := by
  unfold readPlaces
  split
  · next rest =>
    split
    · exact Nat.le_refl _
    · exact ((List.dropWhile_sublist _).length_le).trans (Nat.le_succ _)
  · exact Nat.le_refl _

theorem length_lt_of_readPixels? {negative : Bool} {chars rest : List Char} {x : Binary64}
    (h : readPixels? negative chars = some (x, rest)) : rest.length < chars.length := by
  unfold readPixels? at h
  simp only at h
  split at h
  · next rest' _ hrest =>
    obtain ⟨x', -, hpair⟩ := Option.map_eq_some_iff.1 h
    obtain ⟨-, rfl⟩ := Prod.mk.inj hpair
    have hplaces := length_readPlaces_le (chars.dropWhile Char.isDigit)
    have hdrop : (chars.dropWhile Char.isDigit).length ≤ chars.length :=
      (List.dropWhile_sublist _).length_le
    rw [hrest, List.length_cons, List.length_cons] at hplaces
    omega
  · cases h

theorem length_lt_of_readLength? {chars rest : List Char} {x : Binary64}
    (h : readLength? chars = some (x, rest)) : rest.length < chars.length := by
  unfold readLength? at h
  split at h
  · next unsigned =>
    have := length_lt_of_readPixels? h
    rw [List.length_cons]
    omega
  · exact length_lt_of_readPixels? h

/-- The lengths that a text begins with, each with a space behind it, and the rest of the text. -/
def readLengths (chars : List Char) : List Binary64 × List Char :=
  match _h : readLength? chars with
  | some (x, ' ' :: rest) => (x :: (readLengths rest).1, (readLengths rest).2)
  | _ => ([], chars)
termination_by chars.length
decreasing_by
  all_goals
    have := length_lt_of_readLength? ‹readLength? chars = _›
    rw [List.length_cons] at this
    omega

/-- Zero without its sign, and any other number as it is. -/
def Binary64.withoutZeroSign (x : Binary64) : Binary64 := if x.isZero then .zero false else x

/-- The length at a place; what is missing is zero, and zero has no sign. -/
def lengthAt (lengths : List Binary64) (place : Nat) : Binary64 :=
  (lengths[place]?.getD (.zero false)).withoutZeroSign

/-! ## Lengths are read back -/

/-- Digits behind a point, or no point where there are none. -/
def placesText : List Char → List Char
  | [] => []
  | places => '.' :: places

theorem takeWhile_digits {digits rest : List Char} (h : AllDigits digits)
    (hrest : ∀ c ∈ rest.head?, c.isDigit = false) :
    (digits ++ rest).takeWhile Char.isDigit = digits ∧
      (digits ++ rest).dropWhile Char.isDigit = rest := by
  rw [List.takeWhile_append_of_pos h, List.dropWhile_append_of_pos h]
  cases rest with
  | nil => exact ⟨List.append_nil _, rfl⟩
  | cons c rest =>
    have hc : ¬c.isDigit = true := by
      rw [hrest c rfl]
      exact Bool.false_ne_true
    rw [List.takeWhile_cons_of_neg hc, List.dropWhile_cons_of_neg hc]
    exact ⟨List.append_nil _, rfl⟩

theorem readPlaces_placesText {places rest : List Char} (h : AllDigits places)
    (hrest : ∀ c ∈ rest.head?, c.isDigit = false ∧ c ≠ '.') :
    readPlaces (placesText places ++ rest) = (places, rest) := by
  obtain ⟨htake, hdrop⟩ := takeWhile_digits h fun c hc => (hrest c hc).1
  cases places with
  | nil =>
    unfold readPlaces
    split
    · next heq =>
      have heq : rest = '.' :: _ := heq
      exact absurd rfl (hrest '.' (by rw [heq]; rfl)).2
    · rfl
  | cons p ps =>
    show readPlaces ('.' :: (p :: ps ++ rest)) = _
    rw [readPlaces, htake, hdrop, if_neg (List.cons_ne_nil _ _)]

/-- Without a zero behind the point a decimal is digits, and perhaps a point with digits behind it;
    and these are its value. -/
theorem Decimal.exists_positionalText (d : Decimal) : ∃ whole places,
    (d.positionalText false).toList = whole ++ placesText places ∧
      whole ≠ [] ∧ AllDigits whole ∧ AllDigits places ∧
      value ⟨Nat.ofDigitChars 10 (whole ++ places) 0, -places.length⟩ = d.value := by
  -- a point before digits that are not there is the only text that would not be of this form
  have hpoint {whole places : List Char} (hplaces : places ≠ [])
      (htext : (d.positionalText false).toList = whole ++ '.' :: places) (hwhole : whole ≠ [])
      (hw : AllDigits whole) (hp : AllDigits places) : ∃ whole places,
      (d.positionalText false).toList = whole ++ placesText places ∧
        whole ≠ [] ∧ AllDigits whole ∧ AllDigits places ∧
        value ⟨Nat.ofDigitChars 10 (whole ++ places) 0, -places.length⟩ = d.value := by
    have hvalue := d.decimalValue_positionalText false
    rw [htext, decimalValue_point hw hp (neg_neg _).symm] at hvalue
    refine ⟨whole, places, ?_, hwhole, hw, hp, hvalue⟩
    cases places with
    | nil => exact absurd rfl hplaces
    | cons p ps => exact htext
  have htext := d.toList_positionalText false
  have hdigits := allDigits_natDigits d.digits
  have hlength : 0 < (natDigits d.digits).length := List.length_pos_iff.2 (natDigits_ne_nil _)
  split at htext
  · have hwhole : AllDigits (natDigits d.digits ++ List.replicate d.exponent.toNat '0') :=
      hdigits.append (allDigits_zeros _)
    have hvalue := d.decimalValue_positionalText false
    rw [if_neg Bool.false_ne_true, List.append_nil] at htext
    rw [htext, decimalValue_digits hwhole] at hvalue
    refine ⟨_, [], htext.trans (List.append_nil _).symm, ?_, hwhole, nofun, ?_⟩
    · exact List.append_ne_nil_of_left_ne_nil (natDigits_ne_nil _) _
    · rw [List.append_nil, value, ← hvalue]
      simp
  · split at htext
    · refine hpoint ?_ htext ?_ ?_ ?_
      · rw [Ne, List.drop_eq_nil_iff]
        omega
      · rw [Ne, List.take_eq_nil_iff]
        rintro (h | h)
        · omega
        · exact natDigits_ne_nil _ h
      · exact fun c hc => hdigits c (List.mem_of_mem_take hc)
      · exact fun c hc => hdigits c (List.mem_of_mem_drop hc)
    · refine hpoint ?_ htext (List.cons_ne_nil _ _) (allDigits_zeros 1) ?_
      · exact List.append_ne_nil_of_right_ne_nil _ (natDigits_ne_nil _)
      · exact (allDigits_zeros _).append hdigits

/-- The text of a length is read as the length. -/
theorem readLength?_pixelText (x : Binary64) (rest : List Char) :
    readLength? ((pixelText x).toList ++ rest) = some (x, rest) := by
  obtain ⟨whole, places, htext, hwhole, hw, hp, hvalue⟩ :=
    (x.shortest Layout.cssNumber.tie).exists_positionalText
  have hchars : (pixelText x).toList ++ rest =
      signChars x.negative ++ (whole ++ (placesText places ++ 'p' :: 'x' :: rest)) := by
    have hdecimal : ((x.shortest Layout.cssNumber.tie).text .cssNumber).toList =
        whole ++ placesText places := htext
    rw [pixelText, String.toList_append, Binary64.toList_text, hdecimal]
    simp
  have hread : readPixels? x.negative (whole ++ (placesText places ++ 'p' :: 'x' :: rest)) =
      some (x, rest) := by
    have hunit : ∀ c ∈ (placesText places ++ 'p' :: 'x' :: rest).head?, c.isDigit = false := by
      intro c hc
      cases places with
      | nil =>
        obtain rfl := Option.some.inj hc
        rfl
      | cons p ps =>
        obtain rfl := Option.some.inj hc
        rfl
    have hplaces : readPlaces (placesText places ++ 'p' :: 'x' :: rest) =
        (places, 'p' :: 'x' :: rest) := by
      refine readPlaces_placesText hp fun c hc => ?_
      obtain rfl := Option.some.inj hc
      exact ⟨rfl, by decide⟩
    obtain ⟨htake, hdrop⟩ := takeWhile_digits hw hunit
    obtain ⟨c, ds, rfl⟩ := List.exists_cons_of_ne_nil hwhole
    unfold readPixels?
    rw [htake, hdrop, hplaces]
    show (Binary64.ofDecimal? _ _ _).map _ = _
    rw [Binary64.ofDecimal?_of_value hvalue]
    rfl
  rw [hchars]
  cases hsign : x.negative with
  | true =>
    rw [hsign] at hread
    exact hread
  | false =>
    rw [hsign] at hread
    show readLength? (whole ++ _) = _
    unfold readLength?
    split
    · next heq =>
      -- the digits do not begin with a sign
      obtain ⟨c, ds, rfl⟩ := List.exists_cons_of_ne_nil hwhole
      obtain ⟨rfl, -⟩ := List.cons.inj heq
      exact absurd (hw '-' List.mem_cons_self) (by decide)
    · exact hread

theorem readLengths_of_none {chars : List Char} (h : readLength? chars = none) :
    readLengths chars = ([], chars) := by
  rw [readLengths]
  split
  · next heq =>
    rw [h] at heq
    cases heq
  · rfl

theorem readLengths_cons {chars rest : List Char} {x : Binary64}
    (h : readLength? chars = some (x, ' ' :: rest)) :
    readLengths chars = (x :: (readLengths rest).1, (readLengths rest).2) := by
  rw [readLengths]
  split
  · next heq =>
    rw [h] at heq
    obtain ⟨rfl, hrest⟩ := Prod.mk.inj (Option.some.inj heq)
    obtain ⟨-, rfl⟩ := List.cons.inj hrest
    rfl
  · next hother => exact absurd h (hother x rest)

/-- Lengths are read up to a text that does not begin with one. -/
theorem readLengths_intercalate (lengths : List Binary64) {color : String}
    (h : readLength? color.toList = none) :
    readLengths (" ".intercalate (lengths.map pixelText ++ [color])).toList =
      (lengths, color.toList) := by
  induction lengths with
  | nil => exact readLengths_of_none h
  | cons x rest ih =>
    have hne : rest.map pixelText ++ [color] ≠ [] :=
      List.append_ne_nil_of_right_ne_nil _ (List.cons_ne_nil _ _)
    have hchars : (" ".intercalate ((x :: rest).map pixelText ++ [color])).toList =
        (pixelText x).toList ++
          ' ' :: (" ".intercalate (rest.map pixelText ++ [color])).toList := by
      rw [List.map_cons, List.cons_append, String.intercalate_cons_of_ne_nil hne]
      simp
    rw [hchars, readLengths_cons (readLength?_pixelText x _), ih]

/-! ## Shadows -/

/-- Leaving out a zero leaves the same number, zero being what is missing. -/
theorem withoutZeroSign_filter (x : Option Binary64) :
    ((x.filter (!·.isZero)).getD (.zero false)).withoutZeroSign =
      (x.getD (.zero false)).withoutZeroSign := by
  cases x with
  | none => rfl
  | some x =>
    cases hzero : x.isZero with
    | true =>
      rw [Option.filter_some_neg (by simp [hzero]), Option.getD_none, Option.getD_some,
        Binary64.withoutZeroSign, Binary64.withoutZeroSign, if_pos hzero]
      rfl
    | false => rw [Option.filter_some_pos (by simp [hzero])]

section Places

variable (x y : Binary64) {blur spread : Option Binary64} (hplaces : blur = none → spread = none)
include hplaces

theorem lengthAt_blur : lengthAt ([x, y] ++ blur.toList ++ spread.toList) 2 =
    (blur.getD (.zero false)).withoutZeroSign := by
  cases blur with
  | none =>
    rw [hplaces rfl]
    rfl
  | some b => rfl

theorem lengthAt_spread : lengthAt ([x, y] ++ blur.toList ++ spread.toList) 3 =
    (spread.getD (.zero false)).withoutZeroSign := by
  cases blur with
  | none =>
    rw [hplaces rfl]
    rfl
  | some b =>
    cases spread with
    | none => rfl
    | some s => rfl

end Places

namespace Shadow

/-- A piece of text shows a shadow: it has the form of one, and its lengths are by their places those
    of the shadow.  A spread is shown only where it is allowed. -/
structure ShownBy (s : Shadow) (allowSpread : Bool) (piece : String) : Prop where
  form : ∃ blur spread : Option Binary64, (blur = none → spread = none) ∧
    (allowSpread = false → spread = none) ∧
    piece = " ".intercalate
      (([s.offset.x, s.offset.y] ++ blur.toList ++ spread.toList).map pixelText ++ [s.color])
  color : (readLengths piece.toList).2 = s.color.toList
  x : lengthAt (readLengths piece.toList).1 0 = s.offset.x.withoutZeroSign
  y : lengthAt (readLengths piece.toList).1 1 = s.offset.y.withoutZeroSign
  blur : lengthAt (readLengths piece.toList).1 2 =
    (s.blurRadius.getD (.zero false)).withoutZeroSign
  spread : allowSpread = true → lengthAt (readLengths piece.toList).1 3 =
    (s.spread.getD (.zero false)).withoutZeroSign
  length_le : (readLengths piece.toList).1.length ≤ if allowSpread then 4 else 3

/-- The spread that is written. -/
def shownSpread (s : Shadow) (allowSpread : Bool) : Option Binary64 :=
  if allowSpread then s.spread.filter (!·.isZero) else none

/-- The blur that is written: where a spread is, a blur is too. -/
def shownBlur (s : Shadow) (allowSpread : Bool) : Option Binary64 :=
  (s.blurRadius.filter (!·.isZero)).or ((s.shownSpread allowSpread).map fun _ => .zero false)

theorem lengths_eq (s : Shadow) (allowSpread : Bool) : s.lengths allowSpread =
    [s.offset.x, s.offset.y] ++ (s.shownBlur allowSpread).toList ++
      (s.shownSpread allowSpread).toList := rfl

theorem shownSpread_of_shownBlur (s : Shadow) (allowSpread : Bool)
    (h : s.shownBlur allowSpread = none) : s.shownSpread allowSpread = none := by
  rw [shownBlur, Option.or_eq_none_iff, Option.map_eq_none_iff] at h
  exact h.2

theorem withoutZeroSign_shownBlur (s : Shadow) (allowSpread : Bool) :
    ((s.shownBlur allowSpread).getD (.zero false)).withoutZeroSign =
      (s.blurRadius.getD (.zero false)).withoutZeroSign := by
  have hblur := withoutZeroSign_filter s.blurRadius
  unfold shownBlur
  cases hshown : s.blurRadius.filter (!·.isZero) with
  | some b =>
    rw [hshown] at hblur
    exact hblur
  | none =>
    rw [hshown] at hblur
    rw [Option.none_or]
    cases s.shownSpread allowSpread with
    | none => exact hblur
    | some _ => exact hblur

/-- The text of a shadow shows it. -/
theorem shownBy_cssText {s : Shadow} (h : readLength? s.color.toList = none) (allowSpread : Bool) :
    s.ShownBy allowSpread (s.cssText allowSpread) := by
  have hread : readLengths (s.cssText allowSpread).toList =
      (s.lengths allowSpread, s.color.toList) := readLengths_intercalate _ h
  have hplaces := shownSpread_of_shownBlur s allowSpread
  constructor
  · refine ⟨_, _, hplaces, ?_, rfl⟩
    rintro rfl
    rfl
  · rw [hread]
  · rw [hread]
    rfl
  · rw [hread]
    rfl
  · rw [hread, lengths_eq, lengthAt_blur _ _ hplaces, withoutZeroSign_shownBlur]
  · rintro rfl
    rw [hread, lengths_eq, lengthAt_spread _ _ hplaces]
    exact withoutZeroSign_filter s.spread
  · have hlength (o : Option Binary64) : o.toList.length ≤ 1 := by cases o <;> simp
    have hblur := hlength (s.shownBlur allowSpread)
    rw [hread, lengths_eq, List.length_append, List.length_append]
    show 2 + _ + _ ≤ _
    cases allowSpread with
    | true =>
      have hspread := hlength (s.shownSpread true)
      show _ ≤ 4
      omega
    | false =>
      have hspread : (s.shownSpread false).toList.length = 0 := rfl
      show _ ≤ 3
      omega

end Shadow

/-- Shadows that are read from a value become their texts. -/
theorem shadowsText_of_decode {v : Value} {shadows : List Shadow}
    (h : decodeShadows v = .ok shadows) (hne : shadows ≠ []) (allowSpread : Bool) :
    shadowsText allowSpread v = .ok (", ".intercalate (shadows.map (·.cssText allowSpread))) := by
  have hstructured : structured decodeShadows v = .ok shadows := by
    rw [structured, h]
    rfl
  have hempty : ¬shadows.isEmpty = true := by rwa [List.isEmpty_iff]
  unfold shadowsText
  split
  · cases h
  · rw [hstructured]
    exact if_neg hempty

/-- A record of one entry declares its text, if the entry is nothing more than a declaration. -/
theorem convertStyle_singleton {key text : String} {v : Value} (hdeclares : declares (key, v) = true)
    (htext : entryText (key, v) = .ok text)
    (halias : key ∉ ["justifyContent", "alignItems"]) (path : Path) :
    convertStyle ⟨[(key, v)]⟩ path =
      .ok ((Declarations.empty.set (dasherize key) text).set "grid-gap" "0") := by
  have hgradient : key ≠ gradientKey := by
    rintro rfl
    rw [declares, bne_self_eq_false, Bool.and_false] at hdeclares
    cases hdeclares
  have habsent {other : String} (hne : key ≠ other) : present? [(key, v)] other = none := by
    rw [present?, Entries.get?, if_neg hne]
    rfl
  have hcontent : key ≠ "justifyContent" := fun h => halias (h ▸ List.mem_cons_self)
  have hitems : key ≠ "alignItems" := fun h =>
    halias (h ▸ List.mem_cons_of_mem _ List.mem_cons_self)
  have hown : declareEntries [(key, v)] .empty = .ok (Declarations.empty.set (dasherize key) text) := by
    have hvalue : (KeyKind.ofKey key).valueText v = .ok text := htext
    rw [declareEntries, if_pos hdeclares, hvalue]
    rfl
  rw [convertStyle, StyleRecord.convert, hown]
  unfold declareGradient declareAlias
  rw [habsent hgradient, habsent hcontent, habsent hitems]
  rfl

/-- The two keys of shadows declare a property of their own, which nothing else writes. -/
theorem shadowKey_plain {key : String} {allowSpread : Bool}
    (h : (key, allowSpread) = ("boxShadow", true) ∨ (key, allowSpread) = ("textShadow", false)) :
    KeyKind.ofKey key = .shadow allowSpread ∧ (key != gradientKey) = true ∧
      key ∉ ["justifyContent", "alignItems"] ∧
      dasherize key ∉ ["background", "align-content", "justify-items", "grid-gap"] := by
  rcases h with h | h
  · obtain ⟨rfl, rfl⟩ := Prod.mk.inj h
    decide
  · obtain ⟨rfl, rfl⟩ := Prod.mk.inj h
    decide

/-- Shadows become pieces of text, one for each in order, and by the places of its lengths each piece
    tells its shadow.  This is the value of the property in a record of only this entry, and in any
    record that can be converted and names the property once. -/
theorem convertStyle_shadows {key : String} {allowSpread : Bool}
    (hkey : (key, allowSpread) = ("boxShadow", true) ∨ (key, allowSpread) = ("textShadow", false))
    {v : Value} {shadows : List Shadow} (hdecode : decodeShadows v = .ok shadows)
    (hne : shadows ≠ []) (hcolor : ∀ s ∈ shadows, readLength? s.color.toList = none) :
    ∃ pieces, List.Forall₂ (·.ShownBy allowSpread ·) shadows pieces ∧
      (∀ path, convertStyle ⟨[(key, v)]⟩ path =
        .ok ⟨[(dasherize key, ", ".intercalate pieces), ("grid-gap", "0")]⟩) ∧
      ∀ r path d, convertStyle r path = .ok d →
        r.entries.filter (fun e => declares e && dasherize e.1 == dasherize key) = [(key, v)] →
        d.get? (dasherize key) = some (", ".intercalate pieces) := by
  obtain ⟨hkind, hgradient, halias, hclosing⟩ := shadowKey_plain hkey
  have htext : entryText (key, v) =
      .ok (", ".intercalate (shadows.map (·.cssText allowSpread))) := by
    rw [entryText, hkind]
    exact shadowsText_of_decode hdecode hne allowSpread
  refine ⟨shadows.map (·.cssText allowSpread), ?_, ?_, ?_⟩
  · rw [List.forall₂_map_right_iff, List.forall₂_same]
    exact fun s hs => Shadow.shownBy_cssText (hcolor s hs) allowSpread
  · -- a record of this entry only
    intro path
    have hdeclares : declares (key, v) = true := by
      have hnull : v.isNull = false := by
        cases v with
        | null => cases hdecode
        | _ => rfl
      rw [declares, hnull, hgradient]
      rfl
    have hgap : dasherize key ≠ "grid-gap" := by
      intro h
      rw [h] at hclosing
      exact hclosing (by decide)
    rw [convertStyle_singleton hdeclares htext halias, Declarations.set, Declarations.set,
      Declarations.empty, Entries.set, Entries.set, if_neg hgap, Entries.set]
  · -- among other entries, of which none writes this property later
    intro r path d hconvert hnamed
    exact get?_of_filter_eq (e := (key, v)) (ClassTable.convertStyle_eq_ok_iff.1 hconvert) htext
      (fun hmem => hclosing (mem_of_mem_closingProperties hmem)) hnamed

/-- A box with two shadows: a spread keeps a blur of zero in its place, and a color with spaces in it
    stands behind the lengths. -/
theorem convertStyle_shadows_box :
    let v : Value := .array [
      .object [("offset", .array [.number (.int 1 (by decide)), encodeBinary64 (.zero true)]),
        ("blurRadius", encodeBinary64 (.zero true)), ("spread", .number (.int 3 (by decide))),
        ("color", .string "red")],
      .object [("offset", .array [.number (.int 0 (by decide)), .number (.int 2 (by decide))]),
        ("color", .string "rgb(0, 0, 0)")]]
    ∃ shadows, decodeShadows v = .ok shadows ∧ shadows ≠ [] ∧
      (∀ s ∈ shadows, readLength? s.color.toList = none) ∧
      ∃ pieces, List.Forall₂ (·.ShownBy true ·) shadows pieces ∧
        convertStyle ⟨[("boxShadow", v)]⟩ .story =
          .ok ⟨[("box-shadow", ", ".intercalate pieces), ("grid-gap", "0")]⟩ ∧
        ", ".intercalate pieces = "1px -0px 0px 3px red, 0px 2px rgb(0, 0, 0)" := by
  intro v
  obtain ⟨shadows, hdecode⟩ : ∃ shadows, decodeShadows v = .ok shadows := ⟨_, rfl⟩
  have hcolors : shadows.map (·.color) = ["red", "rgb(0, 0, 0)"] := by
    obtain rfl := Except.ok.inj hdecode
    rfl
  have hne : shadows ≠ [] := by
    rintro rfl
    cases hcolors
  have hcolor : ∀ s ∈ shadows, readLength? s.color.toList = none := by
    have hall : ∀ color ∈ shadows.map (·.color), readLength? color.toList = none := by
      rw [hcolors]
      decide
    exact fun s hs => hall _ (List.mem_map_of_mem hs)
  have hkey : ("boxShadow", true) = ("boxShadow", true) ∨ ("boxShadow", true) = ("textShadow", false) :=
    Or.inl rfl
  obtain ⟨pieces, hpieces, hconvert, -⟩ := convertStyle_shadows hkey hdecode hne hcolor
  have hstyle : (convertStyle ⟨[("boxShadow", v)]⟩ .story).toOption =
      some ⟨[("box-shadow", "1px -0px 0px 3px red, 0px 2px rgb(0, 0, 0)"), ("grid-gap", "0")]⟩ := by
    decide +kernel
  have hself : dasherize "boxShadow" = "box-shadow" := by decide
  have htext := hconvert .story
  rw [hself] at htext
  refine ⟨shadows, hdecode, hne, hcolor, pieces, hpieces, htext, ?_⟩
  rw [htext] at hstyle
  have hpairs := congrArg Declarations.pairs (Option.some.inj hstyle)
  exact congrArg Prod.snd (List.cons.inj hpairs).1

end WebStory
