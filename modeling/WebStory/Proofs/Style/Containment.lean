import Mathlib.Data.List.Infix
import WebStory.Proofs.Json.Ensures
import WebStory.Proofs.Json.Tree
import WebStory.Proofs.Number.Spelling
import WebStory.Proofs.Style.Convert
/-
  Where the end of a style sheet can come from.

  A style sheet ends at the first `</style` in its text, and the strings of a style record are
  written into it as they are.  So a record can end the sheet it stands in; the question is whether
  it can only do so openly, with the mark in one of its strings, or also by way of the conversion,
  which renames keys, prints JSON, and puts strings, numbers and names together.

  1. **Texts put together** — between any two parts of a style sheet stands a character that does
     not occur in `</style` (`Separates`).  The mark does not lie across it, so a part has the mark
     or the whole has not (`endsStyle_append_cons`, `endsStyle_intercalate`).

  2. **Texts written character by character** — to rename a key or to print a string is to write
     something for each character.  If that is the character itself, or begins and goes on with
     nothing of the mark (`Rewrites`), then every character of a mark that is written was one
     before, and they stood side by side (`endsStyle_of_flatMap`).

  3. **Numbers and names** — these have no `<` at all, and the mark begins with one.

  4. **Values** — with these three kinds of argument every text of a value is followed to the
     strings in it, kind by kind, through the structured values as they are read
     (`ensures_valueText`).

  5. **Records** — a record without the mark is converted to declarations without it
     (`ensures_convertStyle`): not by renaming keys, not by printing JSON, not by reading structured
     values is a mark made out of strings that have none.
-/

namespace WebStory

open Json

/-- What ends the text of a style sheet. -/
def styleEnd : List Char := '<' :: '/' :: "style".toList

/-- The text ends the style sheet in which it stands. -/
def EndsStyle (cs : List Char) : Prop := styleEnd <:+: cs

instance (cs : List Char) : Decidable (EndsStyle cs) := inferInstanceAs (Decidable (_ <:+: _))

/-- The text does not end a style sheet. -/
abbrev Contained (text : String) : Prop := ¬EndsStyle text.toList

/-! ## Texts put together -/

theorem EndsStyle.mono {cs ds : List Char} (h : EndsStyle cs) (hinside : cs <:+: ds) :
    EndsStyle ds := List.IsInfix.trans h hinside

/-- The mark does not lie across a character that does not occur in it. -/
theorem endsStyle_append_cons {c : Char} (hc : c ∉ styleEnd) {cs ds : List Char} :
    EndsStyle (cs ++ c :: ds) ↔ EndsStyle cs ∨ EndsStyle ds := by
  have hapart {before after : List Char} (hmark : styleEnd = before ++ after)
      (hafter : after <+: c :: ds) : after = [] := by
    rcases List.prefix_cons_iff.1 hafter with hnil | ⟨rest, rfl, -⟩
    · exact hnil
    · exact absurd (by rw [hmark]; simp) hc
  constructor
  · intro h
    rcases List.infix_append_iff.1 h with hcs | hds | ⟨before, after, hmark, hbefore, hafter⟩
    · exact Or.inl hcs
    · rcases List.infix_cons_iff.1 hds with hds | hds
      · exact absurd (hapart (List.nil_append styleEnd).symm hds) (by decide)
      · exact Or.inr hds
    · rw [hapart hmark hafter, List.append_nil] at hmark
      rw [← hmark] at hbefore
      exact Or.inl hbefore.isInfix
  · rintro (h | h)
    · exact h.mono List.infix_append_left
    · exact h.mono ((List.suffix_cons c ds).isInfix.trans List.infix_append_right)

/-- A text without `<` has no mark. -/
theorem not_endsStyle {cs : List Char} (h : ∀ c ∈ cs, c ≠ '<') : ¬EndsStyle cs :=
  fun hends => h '<' (hends.subset (by decide)) rfl

/-- Text without `<` adds nothing to a mark behind it. -/
theorem EndsStyle.of_append {cs ds : List Char} (h : EndsStyle (cs ++ ds))
    (hcs : ∀ c ∈ cs, c ≠ '<') : EndsStyle ds := by
  induction cs with
  | nil => exact h
  | cons c cs ih =>
    rw [List.forall_mem_cons] at hcs
    rcases List.infix_cons_iff.1 h with hstart | hinside
    · obtain ⟨rest, hrest⟩ := hstart
      exact absurd (List.cons.inj hrest).1.symm hcs.1
    · exact ih hinside hcs.2

/-- Characters that do not occur in the mark add nothing to it. -/
theorem endsStyle_apart {cs ds : List Char} (hcs : ∀ c ∈ cs, c ∉ styleEnd) :
    EndsStyle (cs ++ ds) ↔ EndsStyle ds := by
  induction cs with
  | nil => rfl
  | cons c cs ih =>
    have hnil : ¬EndsStyle [] := by decide
    rw [List.forall_mem_cons] at hcs
    rw [List.cons_append, ← List.nil_append (c :: _), endsStyle_append_cons hcs.1, ih hcs.2,
      or_iff_right hnil]

/-- What stands between two parts of a style sheet. -/
def Separates (sep : String) : Prop := sep.toList ≠ [] ∧ ∀ c ∈ sep.toList, c ∉ styleEnd

instance (sep : String) : Decidable (Separates sep) :=
  have := List.decidableBAll (· ∉ styleEnd) sep.toList
  inferInstanceAs (Decidable (_ ∧ _))

section Separates

variable {sep : String} (h : Separates sep)
include h

theorem endsStyle_separated {a b : String} :
    EndsStyle (a ++ sep ++ b).toList ↔ EndsStyle a.toList ∨ EndsStyle b.toList := by
  obtain ⟨hne, hsep⟩ := h
  rw [String.toList_append, String.toList_append]
  obtain ⟨c, cs, hcons⟩ := List.exists_cons_of_ne_nil hne
  rw [hcons, List.forall_mem_cons] at hsep
  rw [hcons, List.append_assoc, List.cons_append, endsStyle_append_cons hsep.1,
    endsStyle_apart hsep.2]

/-- A separator at the end. -/
theorem endsStyle_closed {a : String} : EndsStyle (a ++ sep).toList ↔ EndsStyle a.toList := by
  have hnil : ¬EndsStyle "".toList := by decide
  rw [← String.append_empty (s := a ++ sep), endsStyle_separated h, or_iff_left hnil]

theorem endsStyle_intercalate {parts : List String} :
    EndsStyle (sep.intercalate parts).toList ↔ ∃ x ∈ parts, EndsStyle x.toList := by
  induction parts with
  | nil =>
    have hnil : ¬EndsStyle "".toList := by decide
    exact ⟨fun hends => absurd hends hnil, nofun⟩
  | cons x rest ih =>
    cases rest with
    | nil => simp
    | cons y rest =>
      rw [String.intercalate_cons_cons, endsStyle_separated h, ih]
      simp only [List.mem_cons, exists_eq_or_imp]

end Separates

/-! ## Texts written character by character -/

/-- A character stands for itself, or what is written for it neither goes on with a mark nor begins
    one. -/
def Rewrites (f : Char → List Char) : Prop :=
  ∀ c, f c = [c] ∨ ∃ d rest, f c = d :: rest ∧ d ∉ styleEnd ∧ ∀ e ∈ rest, e ≠ '<'

section Rewrites

variable {f : Char → List Char} (h : Rewrites f)
include h

/-- Characters of the mark are written for themselves only. -/
theorem prefix_of_prefix_flatMap {mark cs : List Char} (hmark : ∀ c ∈ mark, c ∈ styleEnd)
    (hstart : mark <+: cs.flatMap f) : mark <+: cs := by
  induction cs generalizing mark with
  | nil => exact hstart
  | cons c cs ih =>
    cases mark with
    | nil => exact List.nil_prefix
    | cons m mark =>
      rw [List.forall_mem_cons] at hmark
      rw [List.flatMap_cons] at hstart
      rcases h c with hself | ⟨d, rest, hother, hd, -⟩
      · rw [hself, List.singleton_append, List.cons_prefix_cons] at hstart
        rw [List.cons_prefix_cons]
        exact ⟨hstart.1, ih hmark.2 hstart.2⟩
      · rw [hother, List.cons_append, List.cons_prefix_cons] at hstart
        exact absurd (hstart.1 ▸ hmark.1) hd

/-- Writing brings no mark into a text. -/
theorem endsStyle_of_flatMap {cs : List Char} (hends : EndsStyle (cs.flatMap f)) : EndsStyle cs := by
  induction cs with
  | nil => exact hends
  | cons c cs ih =>
    rw [List.flatMap_cons] at hends
    have hbehind (hrest : EndsStyle (cs.flatMap f)) : EndsStyle (c :: cs) :=
      (ih hrest).mono (List.suffix_cons c cs).isInfix
    rcases h c with hself | ⟨d, rest, hother, hd, hfree⟩
    · rw [hself, List.singleton_append] at hends
      rcases List.infix_cons_iff.1 hends with hstart | hinside
      · rw [← List.singleton_append, ← hself, ← List.flatMap_cons] at hstart
        exact (prefix_of_prefix_flatMap h (fun _ hc => hc) hstart).isInfix
      · exact hbehind hinside
    · have hnil : ¬EndsStyle [] := by decide
      rw [hother, List.cons_append, ← List.nil_append (d :: _)] at hends
      have hrest := ((endsStyle_append_cons hd).1 hends).resolve_left hnil
      exact hbehind (hrest.of_append hfree)

end Rewrites

theorem rewrites_escapeChar : Rewrites escapeChar := by
  intro c
  have hescape {rest : List Char} (h : ∀ e ∈ rest, e ≠ '<') :
      ∃ d more, '\\' :: rest = d :: more ∧ d ∉ styleEnd ∧ ∀ e ∈ more, e ≠ '<' :=
    ⟨'\\', rest, rfl, by decide, h⟩
  unfold escapeChar
  split
  · exact Or.inr (hescape (by simp))
  split
  · exact Or.inr (hescape (by simp))
  split
  · exact Or.inr (hescape (by simp))
  split
  · exact Or.inr (hescape (by simp))
  split
  · exact Or.inr (hescape (by simp))
  split
  · exact Or.inr (hescape (by simp))
  split
  · exact Or.inr (hescape (by simp))
  split
  · have hdigit : ∀ n < 16, hexDigit n ≠ '<' := by decide
    refine Or.inr (hescape ?_)
    simp only [List.forall_mem_cons]
    exact ⟨by decide, by decide, by decide, hdigit _ (by omega), hdigit _ (by omega), nofun⟩
  · exact Or.inl rfl

theorem rewrites_dasherizeChar : Rewrites dasherizeChar := by
  intro c
  unfold dasherizeChar
  split
  · next hupper =>
    refine Or.inr ⟨'-', [c.toLower], rfl, by decide, ?_⟩
    have hlower : ∀ n < 91, (Char.ofNat n).isUpper = true → (Char.ofNat n).toLower ≠ '<' := by
      decide
    have hlt : c.toNat < 91 := Nat.lt_succ_of_le (of_decide_eq_true hupper).2
    rw [← Char.ofNat_toNat c] at hupper ⊢
    rw [List.forall_mem_singleton]
    exact hlower _ hlt hupper
  · exact Or.inl rfl

theorem contained_dasherize {key : String} (h : Contained key) : Contained (dasherize key) := by
  rw [Contained, dasherize, String.toList_ofList]
  exact fun hends => h (endsStyle_of_flatMap rewrites_dasherizeChar hends)

/-! ## Numbers -/

theorem ne_of_decimalChar {c : Char} (h : Decimal.decimalChar c) : c ≠ '<' := by
  rintro rfl
  rcases h with h | h
  · exact absurd h (by decide)
  · exact absurd h (by decide)

theorem contained_cssText (n : Number) : Contained n.cssText :=
  not_endsStyle fun _ hc => ne_of_decimalChar (Number.decimalChar_of_mem_cssText hc)

/-- A number with its unit. -/
theorem contained_measure {number unit : String}
    (hnumber : ∀ c ∈ number.toList, Decimal.decimalChar c) (hunit : Contained unit) :
    Contained (number ++ unit) := by
  rw [Contained, String.toList_append]
  exact fun hends => hunit (hends.of_append fun c hc => ne_of_decimalChar (hnumber c hc))

theorem contained_pixelText (x : Binary64) : Contained (pixelText x) :=
  contained_measure (fun _ => Binary64.decimalChar_of_mem_text) (by decide)

/-! ## Plain texts -/

/-- A text between two characters that do not occur in the mark. -/
theorem not_endsStyle_bracketed {opening closing : Char} (hopening : opening ∉ styleEnd)
    (hclosing : closing ∉ styleEnd) {cs : List Char} (h : ¬EndsStyle cs) :
    ¬EndsStyle (opening :: (cs ++ [closing])) := by
  have hnil : ¬EndsStyle [] := by decide
  rw [← List.nil_append (opening :: _), endsStyle_append_cons hopening,
    endsStyle_append_cons hclosing]
  rintro (hends | hends | hends)
  · exact hnil hends
  · exact h hends
  · exact hnil hends

theorem not_endsStyle_quote {s : String} (h : Contained s) : ¬EndsStyle (quote s) :=
  not_endsStyle_bracketed (by decide) (by decide) fun hends =>
    h (endsStyle_of_flatMap rewrites_escapeChar hends)

theorem not_endsStyle_listed {α : Type} {chars : α → List Char} {parts : List α}
    (h : ∀ a ∈ parts, ¬EndsStyle (chars a)) : ¬EndsStyle (separated chars parts) := by
  induction parts with
  | nil =>
    have hnil : ¬EndsStyle [] := by decide
    exact hnil
  | cons a rest ih =>
    rw [List.forall_mem_cons] at h
    cases rest with
    | nil => exact h.1
    | cons b rest =>
      show ¬EndsStyle (chars a ++ ',' :: separated chars (b :: rest))
      rw [endsStyle_append_cons (by decide)]
      exact not_or.2 ⟨h.1, ih h.2⟩

/-- No string in the value, be it a value or a key, has the mark. -/
def Json.Value.Contained (v : Value) : Prop := ∀ x ∈ v.strings, WebStory.Contained x

section Values

variable {v : Value}

theorem Json.Value.contained_array {items : List Value} :
    (Value.array items).Contained ↔ ∀ v ∈ items, v.Contained := by
  rw [Value.Contained, Value.strings_array, List.forall_mem_flatMap]
  rfl

theorem Json.Value.contained_object {members : Members} :
    (Value.object members).Contained ↔
      ∀ e ∈ members, WebStory.Contained e.1 ∧ e.2.Contained := by
  rw [Value.Contained, Value.strings_object, List.forall_mem_flatMap]
  simp only [List.forall_mem_cons, Value.Contained]

theorem Json.Value.contained_string {s : String} :
    (Value.string s).Contained ↔ WebStory.Contained s := List.forall_mem_singleton

theorem not_endsStyle_chars (h : v.Contained) : ¬EndsStyle v.chars := by
  induction v using Value.induct with
  | null => decide
  | bool b => cases b <;> decide
  | number n =>
    exact not_endsStyle fun _ hc => ne_of_decimalChar (Number.decimalChar_of_mem_text hc)
  | string s => exact not_endsStyle_quote (Value.contained_string.1 h)
  | array items ih =>
    rw [Value.contained_array] at h
    rw [Value.chars_array]
    exact not_endsStyle_bracketed (by decide) (by decide)
      (not_endsStyle_listed fun v hv => ih v hv (h v hv))
  | object members ih =>
    rw [Value.contained_object] at h
    rw [Value.chars_object]
    refine not_endsStyle_bracketed (by decide) (by decide) (not_endsStyle_listed fun e he => ?_)
    rw [memberText, endsStyle_append_cons (by decide)]
    exact not_or.2 ⟨not_endsStyle_quote (h e he).1, ih e he (h e he).2⟩

theorem contained_text (h : v.Contained) : Contained v.text := by
  rw [Contained, Value.text, String.toList_ofList]
  exact not_endsStyle_chars h

theorem contained_plainText (h : v.Contained) : Contained (plainText v) := by
  cases v with
  | null => exact (by decide : Contained "")
  | bool b => cases b <;> decide
  | number n => exact contained_cssText n
  | string s => exact Value.contained_string.1 h
  | array items => exact contained_text h
  | object members => exact contained_text h

theorem contained_distanceText (h : v.Contained) : Contained (distanceText v) := by
  have hplain := contained_plainText h
  cases v with
  | number n =>
    exact contained_measure (fun _ => Number.decimalChar_of_mem_cssText) (by decide : Contained "px")
  | _ => exact hplain

/-! ## Structured values -/

theorem ensures_decodeString (h : v.Contained) : Ensures Contained (decodeString v) := by
  cases v with
  | string s => exact ensures_ok (Value.contained_string.1 h)
  | _ => exact ensures_error _

/-- The fields of a record are read from values inside it. -/
theorem contained_of_mem_values (h : v.Contained) {s : RecordSource} (hs : s.value = v) :
    ∀ w ∈ s.values, w.Contained := by
  subst hs
  cases s with
  | items items => exact Value.contained_array.1 h
  | members members =>
    rw [RecordSource.values, List.forall_mem_map]
    exact fun e he => (Value.contained_object.1 h e he).2

theorem Distance.ensures_decode (h : v.Contained) :
    Ensures (fun d => Contained d.cssText) (Distance.decode v) :=
  ensures_decodeEither ((ensures_true _).map fun x _ => contained_pixelText x)
    ((ensures_decodeString h).map fun _ hs => hs)

theorem Border.ensures_decode (h : v.Contained) :
    Ensures (fun b => Contained b.style ∧ Contained b.color) (Border.decode v) := by
  refine ensures_decodeRecord fun s hs => ?_
  have hvalues := contained_of_mem_values h hs
  have hbase : Ensures (fun g => ∀ width, True → ∀ style, Contained style → ∀ color,
      Contained color → Contained (g width style color).style ∧ Contained (g width style color).color)
      (Fields.read Border.mk).toDecoded := ensures_ok fun _ _ _ hstyle _ hcolor => ⟨hstyle, hcolor⟩
  refine ensures_both (ensures_both (ensures_both hbase ?_) ?_) ?_
  · exact ensures_true _
  · exact ensures_readField (fun w hw => ensures_decodeString (hvalues w hw)) _ _ nofun
  · exact ensures_readField (fun w hw => ensures_decodeString (hvalues w hw)) _ _ nofun

theorem Shadow.ensures_decode (h : v.Contained) :
    Ensures (fun s => Contained s.color) (Shadow.decode v) := by
  refine ensures_decodeRecord fun s hs => ?_
  have hvalues := contained_of_mem_values h hs
  have hbase : Ensures (fun g => ∀ offset, True → ∀ color, Contained color → ∀ blur, True →
      ∀ spread, True → Contained (g offset color blur spread).color)
      (Fields.read Shadow.mk).toDecoded := ensures_ok fun _ _ _ hcolor _ _ _ _ => hcolor
  refine ensures_both (ensures_both (ensures_both (ensures_both hbase ?_) ?_) ?_) ?_
  · exact ensures_true _
  · exact ensures_readField (fun w hw => ensures_decodeString (hvalues w hw)) _ _ nofun
  · exact ensures_true _
  · exact ensures_true _

theorem ensures_decodeShadows (h : v.Contained) :
    Ensures (fun shadows => ∀ s ∈ shadows, Contained s.color) (decodeShadows v) := by
  refine ensures_decodeEither ?_ ?_
  · refine ensures_decodeList fun items hitems w hw => ?_
    rw [hitems, Value.contained_array] at h
    exact Shadow.ensures_decode (h w hw)
  · exact (Shadow.ensures_decode h).map fun s hs => List.forall_mem_singleton.2 hs

theorem GradientStop.ensures_decode (h : v.Contained) :
    Ensures (fun s => Contained s.cssText) (GradientStop.decode v) := by
  refine ensures_decodeRecord fun s hs => ?_
  have hvalues := contained_of_mem_values h hs
  have hbase : Ensures (fun g => ∀ color, Contained color → ∀ distance : Option Distance,
      (∀ d ∈ distance, Contained d.cssText) → Contained (g color distance).cssText)
      (Fields.read GradientStop.mk).toDecoded := by
    refine ensures_ok fun color hcolor distance hdistance => ?_
    cases distance with
    | none => exact hcolor
    | some d =>
      show ¬EndsStyle (color ++ " " ++ d.cssText).toList
      rw [endsStyle_separated (by decide)]
      exact not_or.2 ⟨hcolor, hdistance d rfl⟩
  refine ensures_both (ensures_both hbase ?_) ?_
  · exact ensures_readField (fun w hw => ensures_decodeString (hvalues w hw)) _ _ nofun
  · refine ensures_readField (fun w hw => ?_) _ _ ?_
    · exact ensures_decodeOption (Distance.ensures_decode (hvalues w hw))
    · rintro distance ⟨⟩
      exact nofun

theorem LinearGradient.ensures_decode (h : v.Contained) :
    Ensures (fun g => Contained g.direction ∧ ∀ s ∈ g.stops, Contained s.cssText)
      (LinearGradient.decode v) := by
  refine ensures_decodeRecord fun s hs => ?_
  have hvalues := contained_of_mem_values h hs
  have hbase : Ensures (fun g => ∀ direction, Contained direction → ∀ stops : List GradientStop,
      (∀ s ∈ stops, Contained s.cssText) → Contained (g direction stops).direction ∧
        ∀ s ∈ (g direction stops).stops, Contained s.cssText)
      (Fields.read LinearGradient.mk).toDecoded :=
    ensures_ok fun _ hdirection _ hstops => ⟨hdirection, hstops⟩
  refine ensures_both (ensures_both hbase ?_) ?_
  · exact ensures_readField (fun w hw => ensures_decodeString (hvalues w hw)) _ _ nofun
  · refine ensures_readField (fun w hw => ensures_decodeList fun items hitems x hx => ?_) _ _ nofun
    have hw := hvalues w hw
    rw [hitems, Value.contained_array] at hw
    exact GradientStop.ensures_decode (hw x hx)

/-! ## Values of each kind -/

theorem ensures_borderText (h : v.Contained) : Ensures Contained (borderText v) := by
  have hborder : Ensures Contained (structured Border.decode v >>= fun b => .ok b.cssText) := by
    refine ((Border.ensures_decode h).mapError _).bind fun b hb => ensures_ok ?_
    rw [Contained, Border.cssText, endsStyle_separated (by decide), endsStyle_separated (by decide)]
    exact not_or.2 ⟨not_or.2 ⟨contained_pixelText _, hb.1⟩, hb.2⟩
  cases v with
  | string s => exact ensures_ok (Value.contained_string.1 h)
  | _ => exact hborder

theorem contained_shadow {s : Shadow} (h : Contained s.color) (allowSpread : Bool) :
    Contained (s.cssText allowSpread) := by
  rw [Contained, Shadow.cssText, endsStyle_intercalate (by decide)]
  rintro ⟨x, hx, hends⟩
  rcases List.mem_append.1 hx with hx | hx
  · obtain ⟨length, -, rfl⟩ := List.mem_map.1 hx
    exact contained_pixelText length hends
  · rw [List.mem_singleton.1 hx] at hends
    exact h hends

theorem ensures_shadowsText (spread : Bool) (h : v.Contained) :
    Ensures Contained (shadowsText spread v) := by
  have hshadows : Ensures Contained (structured decodeShadows v >>= fun shadows =>
      if shadows.isEmpty then .error .noShadow
      else .ok (", ".intercalate (shadows.map (·.cssText spread)))) := by
    refine ((ensures_decodeShadows h).mapError _).bind fun shadows hs => ?_
    split
    · exact ensures_error _
    · refine ensures_ok ?_
      rw [Contained, endsStyle_intercalate (by decide)]
      rintro ⟨x, hx, hends⟩
      obtain ⟨s, hmem, rfl⟩ := List.mem_map.1 hx
      exact contained_shadow (hs s hmem) spread hends
  cases v with
  | string s => exact ensures_ok (Value.contained_string.1 h)
  | _ => exact hshadows

theorem ensures_gradientText (h : v.Contained) : Ensures Contained (gradientText v) := by
  refine ((LinearGradient.ensures_decode h).mapError _).bind fun g hg => ?_
  split
  · exact ensures_error _
  · refine ensures_ok ?_
    have hname : "linear-gradient(" = "linear-gradient" ++ "(" := by decide
    rw [Contained, endsStyle_closed (by decide), hname, endsStyle_separated (by decide),
      endsStyle_intercalate (by decide)]
    rintro (hends | ⟨x, hx, hends⟩)
    · exact absurd hends (by decide)
    · rcases List.mem_cons.1 hx with rfl | hx
      · exact hg.1 hends
      · obtain ⟨s, hmem, rfl⟩ := List.mem_map.1 hx
        exact hg.2 s hmem hends

theorem contained_cssName (family : FunctionFamily) {function : String} (h : Contained function) :
    Contained (family.cssName function) := by
  cases family with
  | transform => exact h
  | filter => exact contained_dasherize h

theorem contained_unit (family : FunctionFamily) (function : String) :
    Contained (family.unit function) := by
  fun_cases FunctionFamily.unit family function <;> decide

/-- An argument in brackets behind the name of its function. -/
theorem contained_call {name argument : String} (hname : Contained name)
    (hargument : Contained argument) : Contained (name ++ "(" ++ argument ++ ")") := by
  rw [Contained, endsStyle_closed (by decide), endsStyle_separated (by decide)]
  exact not_or.2 ⟨hname, hargument⟩

theorem ensures_functionText (family : FunctionFamily) (index : Nat) (h : v.Contained) :
    Ensures Contained (functionText family index v) := by
  fun_cases functionText family index v with
  | case1 function n =>
    have hfunction := (Value.contained_object.1 h _ List.mem_cons_self).1
    have hargument : Contained (n.cssText ++ family.unit function) :=
      contained_measure (fun _ => Number.decimalChar_of_mem_cssText) (contained_unit family function)
    have hcall := contained_call (contained_cssName family hfunction) hargument
    rw [← String.append_assoc] at hcall
    exact ensures_ok hcall
  | case2 function s =>
    obtain ⟨hfunction, hargument⟩ := Value.contained_object.1 h _ List.mem_cons_self
    exact ensures_ok (contained_call (contained_cssName family hfunction)
      (Value.contained_string.1 hargument))
  | case3 => exact ensures_error _
  | case4 => exact ensures_error _

theorem ensures_functionTexts (family : FunctionFamily) (index : Nat) {items : List Value}
    (h : ∀ w ∈ items, w.Contained) :
    Ensures (fun texts => ∀ x ∈ texts, Contained x) (functionTexts family index items) := by
  induction items generalizing index with
  | nil => exact ensures_ok nofun
  | cons w rest ih =>
    rw [List.forall_mem_cons] at h
    exact (ensures_functionText family index h.1).bind fun text htext =>
      (ih (index + 1) h.2).bind fun texts htexts =>
        ensures_ok (List.forall_mem_cons.2 ⟨htext, htexts⟩)

theorem ensures_functionsText (family : FunctionFamily) (h : v.Contained) :
    Ensures Contained (functionsText family v) := by
  cases v with
  | string s => exact ensures_ok (Value.contained_string.1 h)
  | array items =>
    refine (ensures_functionTexts family 0 (Value.contained_array.1 h)).bind fun texts htexts => ?_
    refine ensures_ok ?_
    rw [Contained, endsStyle_intercalate (by decide)]
    rintro ⟨x, hx, hends⟩
    exact htexts x hx hends
  | _ => exact ensures_error _

/-- Of whatever kind a value is, its text has no mark that its strings do not have. -/
theorem ensures_valueText (kind : KeyKind) (h : v.Contained) :
    Ensures Contained (kind.valueText v) := by
  cases kind with
  | distance => exact ensures_ok (contained_distanceText h)
  | border => exact ensures_borderText h
  | shadow spread => exact ensures_shadowsText spread h
  | functions family => exact ensures_functionsText family h
  | plain => exact ensures_ok (contained_plainText h)

end Values

/-! ## Declarations -/

/-- No property and no value has the mark. -/
def Declarations.Contained (d : Declarations) : Prop :=
  ∀ e ∈ d.pairs, WebStory.Contained e.1 ∧ WebStory.Contained e.2

/-- No key and no string in a value has the mark. -/
def StyleRecord.Contained (r : StyleRecord) : Prop := r.toValue.Contained

theorem Declarations.Contained.set {d : Declarations} (h : d.Contained) {property value : String}
    (hproperty : WebStory.Contained property) (hvalue : WebStory.Contained value) :
    (d.set property value).Contained := by
  intro e he
  rcases Entries.mem_of_mem_set he with rfl | he
  · exact ⟨hproperty, hvalue⟩
  · exact h e he

section Records

variable {r : StyleRecord} (h : r.Contained)

theorem ensures_declareEntries {entries : Members}
    (h : ∀ e ∈ entries, Contained e.1 ∧ e.2.Contained) {done : Declarations}
    (hdone : done.Contained) : Ensures Declarations.Contained (declareEntries entries done) := by
  induction entries generalizing done with
  | nil => exact ensures_ok hdone
  | cons e rest ih =>
    obtain ⟨key, value⟩ := e
    rw [List.forall_mem_cons] at h
    rw [declareEntries]
    split
    · exact ((ensures_valueText _ h.1.2).mapError _).bind fun text htext =>
        ih h.2 (hdone.set (contained_dasherize h.1.1) htext)
    · exact ih h.2 hdone

include h

theorem contained_of_present? {key : String} {v : Value} (hv : present? r.entries key = some v) :
    v.Contained := (Value.contained_object.1 h _ (mem_of_present? hv)).2

theorem ensures_declareGradient {done : Declarations} (hdone : done.Contained) :
    Ensures Declarations.Contained (declareGradient r done) := by
  unfold declareGradient
  split
  · exact ensures_ok hdone
  · next v hv =>
    refine ((ensures_gradientText (contained_of_present? h hv)).mapError _).bind fun text htext => ?_
    exact ensures_ok (hdone.set (by decide) htext)

theorem contained_declareAlias (key : String) {property : String} (hproperty : Contained property)
    {done : Declarations} (hdone : done.Contained) :
    (declareAlias r key property done).Contained := by
  unfold declareAlias
  split
  · exact hdone
  · next v hv => exact hdone.set hproperty (contained_plainText (contained_of_present? h hv))

/-- A record without the mark is converted to declarations without it. -/
theorem ensures_convert : Ensures Declarations.Contained r.convert := by
  have hempty : Declarations.empty.Contained := nofun
  refine (ensures_declareEntries (Value.contained_object.1 h) hempty).bind fun own hown => ?_
  refine (ensures_declareGradient h hown).bind fun d hd => ensures_ok ?_
  have hjustify := contained_declareAlias h "justifyContent"
    (by decide : Contained "align-content") hd
  have halign := contained_declareAlias h "alignItems"
    (by decide : Contained "justify-items") hjustify
  exact halign.set (by decide) (by decide)

theorem ensures_convertStyle (path : Path) :
    Ensures Declarations.Contained (convertStyle r path) := (ensures_convert h).mapError _

end Records

end WebStory
