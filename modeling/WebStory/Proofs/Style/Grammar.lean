import WebStory.Proofs.Json.Accepts
import WebStory.Proofs.Style.Convert
import WebStory.Proofs.Style.Faults
/-
  Which style records can be converted.

  1. **Grammars** — borders, shadows, gradients and lists of functions are four small grammars over
     JSON values (`IsBorder`, `IsShadow`, `IsGradient`, `IsFunction`).  They are written down
     without the functions that read such values, as the set of what these should take, with the
     array form that a record has beside its object form.

  2. **Reading** — a value is read exactly if it is of its grammar.  The readers try one form after
     another, so that the second is tried at all has to be shown of every value that the first
     refuses (`accepts_decodeShadows`).

  3. **Texts** — the conversion of a value succeeds exactly if the value is of the grammar that its
     key asks for (`exists_valueText_iff`).  Beyond being read, some values must not be empty.  So
     an entry is malformed or not for what it is, wherever it stands.

  4. **Records** — a record is converted exactly if no entry of it is malformed, and the first
     malformed entry is reported (`fault?_eq_findSome?`).  The crux is what comes first: the
     gradient is looked at after all other entries, wherever it stands among them
     (`StyleRecord.considered`), as the conversion does.
-/

namespace WebStory

open Json

/-! ## Grammars -/

/-- A length: a number of pixels, or a text that carries its unit. -/
def IsDistance (v : Value) : Prop := IsNumber v ∨ IsString v

def IsShadowOffset : Value → Prop := IsRecord [⟨"x", false, IsNumber⟩, ⟨"y", false, IsNumber⟩]

def IsShadow : Value → Prop :=
  IsRecord [⟨"offset", false, IsShadowOffset⟩, ⟨"color", false, IsString⟩,
    ⟨"blurRadius", true, OrNull IsNumber⟩, ⟨"spread", true, OrNull IsNumber⟩]

def IsBorder : Value → Prop :=
  IsRecord [⟨"width", false, IsNumber⟩, ⟨"style", false, IsString⟩, ⟨"color", false, IsString⟩]

def IsColorStop : Value → Prop :=
  IsRecord [⟨"color", false, IsString⟩, ⟨"distance", true, OrNull IsDistance⟩]

/-- A direction and at least one color stop. -/
def IsGradient : Value → Prop :=
  IsRecord [⟨"direction", false, IsString⟩, ⟨"stops", false, IsSomeOf IsColorStop⟩]

/-- An object with one key, the name of the function, and with its argument. -/
def IsFunction (v : Value) : Prop :=
  ∃ name argument, v = .object [(name, argument)] ∧ (IsNumber argument ∨ IsString argument)

/-! ## Structured values -/

theorem Distance.accepts_decode : Accepts Distance.decode Anything IsDistance :=
  (accepts_binary64.map fun _ => trivial).either (accepts_string.map fun _ => trivial) "Distance"

theorem ShadowOffset.accepts_decode : Accepts ShadowOffset.decode Anything IsShadowOffset := by
  have hx := (readsFields_start ShadowOffset.mk).required shape accepts_binary64 "x"
  have hy := hx.required shape accepts_binary64 "y"
  exact hy.accepts rfl

theorem Shadow.accepts_decode : Accepts Shadow.decode Anything IsShadow := by
  have hoffset := (readsFields_start Shadow.mk).required shape ShadowOffset.accepts_decode "offset"
  have hcolor := hoffset.required shape accepts_string "color"
  have hblur := hcolor.optional shape accepts_binary64.option "blurRadius" none
  have hspread := hblur.optional shape accepts_binary64.option "spread" none
  exact hspread.accepts rfl

theorem Border.accepts_decode : Accepts Border.decode Anything IsBorder := by
  have hwidth := (readsFields_start Border.mk).required shape accepts_binary64 "width"
  have hstyle := hwidth.required shape accepts_string "style"
  have hcolor := hstyle.required shape accepts_string "color"
  exact hcolor.accepts rfl

theorem GradientStop.accepts_decode : Accepts GradientStop.decode Anything IsColorStop := by
  have hcolor := (readsFields_start GradientStop.mk).required shape accepts_string "color"
  have hdistance := hcolor.optional shape Distance.accepts_decode.option "distance" none
  exact hdistance.accepts rfl

/-- A gradient that has color stops. -/
theorem LinearGradient.accepts_decode :
    Accepts LinearGradient.decode (·.stops ≠ []) IsGradient := by
  have hdirection := (readsFields_start LinearGradient.mk).required shape accepts_string "direction"
  -- whatever the direction is, the stops of the gradient are those that are read
  have hkept (s : RecordSource) : Ensures (fun g => ∀ stops, (g stops).stops = stops)
      ((Fields.read LinearGradient.mk).both
        (readField shape s 0 "direction" none decodeString)).toDecoded :=
    ensures_both (ensures_ok fun _ _ _ => rfl) (ensures_true _)
  have hstops := hdirection.field shape hkept (R := (·.stops ≠ []))
    (fun g hg stops => by rw [hg stops]) GradientStop.accepts_decode.someOf "stops" none
    (by simp : false = true ↔ _)
  exact hstops.accepts rfl

/-! ## Texts of values -/

/-- A structured value becomes a text exactly if it is read and is of the sort that is asked for. -/
theorem exists_structured_iff {α : Type} {decode : Value → Decoded α} {Q : α → Prop}
    {P : Value → Prop} (h : Accepts decode Q P) (text : α → Except StyleFault String)
    (htext : ∀ a, (∃ t, text a = .ok t) ↔ Q a) (v : Value) :
    (∃ t, (structured decode v >>= text) = .ok t) ↔ P v := by
  rw [← h v]
  unfold structured
  cases decode v with
  | error e =>
    constructor
    · rintro ⟨t, ht⟩
      cases ht
    · rintro ⟨a, ha, -⟩
      cases ha
  | ok a =>
    refine (htext a).trans ⟨fun hQ => ⟨a, rfl, hQ⟩, ?_⟩
    rintro ⟨_, ⟨⟩, hQ⟩
    exact hQ

theorem exists_borderText_iff (v : Value) :
    (∃ t, borderText v = .ok t) ↔ IsString v ∨ IsBorder v := by
  have hborder := exists_structured_iff Border.accepts_decode (fun b => .ok b.cssText)
    fun b => ⟨fun _ => trivial, fun _ => ⟨b.cssText, rfl⟩⟩
  cases v with
  | string s => exact ⟨fun _ => Or.inl ⟨s, rfl⟩, fun _ => ⟨s, rfl⟩⟩
  | _ => exact (hborder _).trans (or_iff_right nofun).symm

/-- A list of something is never empty where nothing else is asked for than that there is one. -/
theorem exists_ite_isEmpty_iff {α : Type} (as : List α) (fault : StyleFault) (text : String) :
    (∃ t, (if as.isEmpty then .error fault else .ok text : Except StyleFault String) = .ok t) ↔
      as ≠ [] := by
  cases as with
  | nil => exact ⟨nofun, fun h => absurd rfl h⟩
  | cons a as => exact ⟨fun _ => nofun, fun _ => ⟨text, rfl⟩⟩

/-- One shadow is not written as an empty list. -/
theorem IsShadow.ne_nil : ¬IsShadow (.array []) := by
  rintro ⟨-, hplaces⟩
  exact absurd (hplaces (_, 0) (List.mem_cons_self)) nofun

/-- Several shadows, or one. -/
theorem accepts_decodeShadows :
    Accepts decodeShadows (· ≠ []) fun v => IsSomeOf IsShadow v ∨ IsShadow v := by
  intro v
  have hone := Shadow.accepts_decode.map (f := fun s => [s]) (R := (· ≠ []))
    (fun _ => List.cons_ne_nil _ _) v
  rw [decodeShadows, exists_decodeEither_iff, Shadow.accepts_decode.someOf v, hone]
  constructor
  · exact Or.imp_right And.right
  · rintro (hmany | hshadow)
    · exact Or.inl hmany
    · by_cases hlist : ∃ as, decodeList Shadow.decode v = .ok as
      · -- a shadow that is also a list of shadows is not the empty list
        obtain ⟨items, rfl, hitems⟩ := (Shadow.accepts_decode.list.exists_ok_iff v).1 hlist
        refine Or.inl ⟨items, rfl, ?_, hitems⟩
        rintro rfl
        exact IsShadow.ne_nil hshadow
      · exact Or.inr ⟨fun as has => hlist ⟨as, has⟩, hshadow⟩

theorem exists_shadowsText_iff (spread : Bool) (v : Value) :
    (∃ t, shadowsText spread v = .ok t) ↔ IsString v ∨ IsSomeOf IsShadow v ∨ IsShadow v := by
  have hshadows := exists_structured_iff accepts_decodeShadows _ fun shadows =>
    exists_ite_isEmpty_iff shadows .noShadow (", ".intercalate (shadows.map (·.cssText spread)))
  cases v with
  | string s => exact ⟨fun _ => Or.inl ⟨s, rfl⟩, fun _ => ⟨s, rfl⟩⟩
  | _ => exact (hshadows _).trans (or_iff_right nofun).symm

theorem exists_gradientText_iff (v : Value) : (∃ t, gradientText v = .ok t) ↔ IsGradient v :=
  exists_structured_iff LinearGradient.accepts_decode _
    (fun g => exists_ite_isEmpty_iff g.stops .noColorStop ("linear-gradient(" ++
      ", ".intercalate (g.direction :: g.stops.map (·.cssText)) ++ ")")) v

theorem exists_functionText_iff (family : FunctionFamily) (index : Nat) (v : Value) :
    (∃ t, functionText family index v = .ok t) ↔ IsFunction v := by
  have hnone {w : Value} (hw : ∀ name argument, w ≠ .object [(name, argument)]) : ¬IsFunction w := by
    rintro ⟨name, argument, rfl, -⟩
    exact hw name argument rfl
  cases v with
  | object members =>
    match members with
    | [] => exact ⟨nofun, fun h => absurd h (hnone nofun)⟩
    | [(name, argument)] =>
      have hargument : IsFunction (.object [(name, argument)]) ↔
          IsNumber argument ∨ IsString argument := by
        constructor
        · rintro ⟨_, _, ⟨⟩, h⟩
          exact h
        · exact fun h => ⟨name, argument, rfl, h⟩
      rw [hargument]
      cases argument with
      | number n => exact ⟨fun _ => Or.inl ⟨n, rfl⟩, fun _ => ⟨_, rfl⟩⟩
      | string s => exact ⟨fun _ => Or.inr ⟨s, rfl⟩, fun _ => ⟨_, rfl⟩⟩
      | _ =>
        constructor
        · rintro ⟨t, ht⟩
          cases ht
        · rintro (⟨n, hn⟩ | ⟨s, hs⟩)
          · cases hn
          · cases hs
    | _ :: _ :: _ => exact ⟨nofun, fun h => absurd h (hnone nofun)⟩
  | _ => exact ⟨nofun, fun h => absurd h (hnone nofun)⟩

theorem exists_functionTexts_iff (family : FunctionFamily) (index : Nat) (items : List Value) :
    (∃ ts, functionTexts family index items = .ok ts) ↔ ∀ v ∈ items, IsFunction v := by
  induction items generalizing index with
  | nil => exact ⟨fun _ => nofun, fun _ => ⟨[], rfl⟩⟩
  | cons v rest ih =>
    rw [List.forall_mem_cons, ← exists_functionText_iff family index v, ← ih (index + 1),
      functionTexts]
    cases functionText family index v with
    | error e => exact ⟨nofun, nofun⟩
    | ok t =>
      cases functionTexts family (index + 1) rest with
      | error e => exact ⟨nofun, nofun⟩
      | ok ts => exact ⟨fun _ => ⟨⟨t, rfl⟩, ts, rfl⟩, fun _ => ⟨t :: ts, rfl⟩⟩

theorem exists_functionsText_iff (family : FunctionFamily) (v : Value) :
    (∃ t, functionsText family v = .ok t) ↔ IsString v ∨ IsListOf IsFunction v := by
  cases v with
  | string s => exact ⟨fun _ => Or.inl ⟨s, rfl⟩, fun _ => ⟨s, rfl⟩⟩
  | array items =>
    have hlist : IsString (.array items) ∨ IsListOf IsFunction (.array items) ↔
        ∀ v ∈ items, IsFunction v := by
      constructor
      · rintro (⟨s, hs⟩ | ⟨_, ⟨⟩, h⟩)
        · cases hs
        · exact h
      · exact fun h => Or.inr ⟨items, rfl, h⟩
    rw [hlist, ← exists_functionTexts_iff family 0 items, functionsText]
    cases functionTexts family 0 items with
    | error e => exact ⟨nofun, nofun⟩
    | ok ts => exact ⟨fun _ => ⟨ts, rfl⟩, fun _ => ⟨_, rfl⟩⟩
  | _ =>
    constructor
    · rintro ⟨t, ht⟩
      cases ht
    · rintro (⟨s, hs⟩ | ⟨items, hitems, -⟩)
      · cases hs
      · cases hitems

/-! ## Entries -/

/-- The value has the form that its key asks for. -/
structure WellFormed (key : String) (v : Value) : Prop where
  border : key ∈ borderKeys → IsString v ∨ IsBorder v
  shadows : key ∈ ["boxShadow", "textShadow"] → IsString v ∨ IsSomeOf IsShadow v ∨ IsShadow v
  functions : key ∈ ["transform", "filter", "backdropFilter"] → IsString v ∨ IsListOf IsFunction v
  gradient : key = gradientKey → IsGradient v

/-- The entry is there, and its value has not the form that its key asks for. -/
def Malformed (e : String × Value) : Prop := e.2 ≠ .null ∧ ¬WellFormed e.1 e.2

theorem wellFormed_gradient_iff (v : Value) : WellFormed gradientKey v ↔ IsGradient v := by
  have hother : gradientKey ∉ borderKeys ∧ gradientKey ∉ ["boxShadow", "textShadow"] ∧
      gradientKey ∉ ["transform", "filter", "backdropFilter"] := by decide
  refine ⟨fun h => h.gradient rfl, fun h => ⟨?_, ?_, ?_, fun _ => h⟩⟩
  · exact fun hkey => absurd hkey hother.1
  · exact fun hkey => absurd hkey hother.2.1
  · exact fun hkey => absurd hkey hother.2.2

section Keys

variable {key : String} (hgradient : key ≠ gradientKey) (v : Value)
include hgradient

theorem exists_valueText_border_iff (h : key ∈ borderKeys) :
    (∃ t, (KeyKind.ofKey key).valueText v = .ok t) ↔ WellFormed key v := by
  have hkeys : ∀ key ∈ borderKeys, KeyKind.ofKey key = .border ∧
      key ∉ ["boxShadow", "textShadow"] ∧ key ∉ ["transform", "filter", "backdropFilter"] := by decide
  obtain ⟨hkind, hshadows, hfunctions⟩ := hkeys key h
  rw [hkind, KeyKind.valueText, exists_borderText_iff]
  exact ⟨fun hv => ⟨fun _ => hv, (absurd · hshadows), (absurd · hfunctions), (absurd · hgradient)⟩,
    fun hv => hv.border h⟩

theorem exists_valueText_shadows_iff (h : key ∈ ["boxShadow", "textShadow"]) :
    (∃ t, (KeyKind.ofKey key).valueText v = .ok t) ↔ WellFormed key v := by
  have hkeys : ∀ key ∈ ["boxShadow", "textShadow"],
      (KeyKind.ofKey key = .shadow true ∨ KeyKind.ofKey key = .shadow false) ∧
        key ∉ borderKeys ∧ key ∉ ["transform", "filter", "backdropFilter"] := by decide
  obtain ⟨hkind, hborder, hfunctions⟩ := hkeys key h
  have htext : (∃ t, (KeyKind.ofKey key).valueText v = .ok t) ↔
      IsString v ∨ IsSomeOf IsShadow v ∨ IsShadow v := by
    rcases hkind with hkind | hkind
    · rw [hkind, KeyKind.valueText, exists_shadowsText_iff]
    · rw [hkind, KeyKind.valueText, exists_shadowsText_iff]
  rw [htext]
  exact ⟨fun hv => ⟨(absurd · hborder), fun _ => hv, (absurd · hfunctions), (absurd · hgradient)⟩,
    fun hv => hv.shadows h⟩

theorem exists_valueText_functions_iff (h : key ∈ ["transform", "filter", "backdropFilter"]) :
    (∃ t, (KeyKind.ofKey key).valueText v = .ok t) ↔ WellFormed key v := by
  have hkeys : ∀ key ∈ ["transform", "filter", "backdropFilter"],
      (KeyKind.ofKey key = .functions .transform ∨ KeyKind.ofKey key = .functions .filter) ∧
        key ∉ borderKeys ∧ key ∉ ["boxShadow", "textShadow"] := by decide
  obtain ⟨hkind, hborder, hshadows⟩ := hkeys key h
  have htext : (∃ t, (KeyKind.ofKey key).valueText v = .ok t) ↔
      IsString v ∨ IsListOf IsFunction v := by
    rcases hkind with hkind | hkind
    · rw [hkind, KeyKind.valueText, exists_functionsText_iff]
    · rw [hkind, KeyKind.valueText, exists_functionsText_iff]
  rw [htext]
  exact ⟨fun hv => ⟨(absurd · hborder), (absurd · hshadows), fun _ => hv, (absurd · hgradient)⟩,
    fun hv => hv.functions h⟩

omit hgradient in
/-- Every other key takes any value. -/
theorem exists_valueText_other (hborder : key ∉ borderKeys)
    (hshadows : key ∉ ["boxShadow", "textShadow"])
    (hfunctions : key ∉ ["transform", "filter", "backdropFilter"]) :
    ∃ t, (KeyKind.ofKey key).valueText v = .ok t := by
  simp only [List.mem_cons, List.not_mem_nil, or_false, not_or] at hshadows hfunctions
  unfold KeyKind.ofKey
  split
  · exact ⟨_, rfl⟩
  · rw [if_neg (by simpa using hborder), if_neg hshadows.1, if_neg hshadows.2,
      if_neg hfunctions.1, if_neg (not_or.2 hfunctions.2)]
    exact ⟨_, rfl⟩

/-- A value has a text exactly if it has the form that its key asks for. -/
theorem exists_valueText_iff :
    (∃ t, (KeyKind.ofKey key).valueText v = .ok t) ↔ WellFormed key v := by
  by_cases hborder : key ∈ borderKeys
  · exact exists_valueText_border_iff hgradient v hborder
  by_cases hshadows : key ∈ ["boxShadow", "textShadow"]
  · exact exists_valueText_shadows_iff hgradient v hshadows
  by_cases hfunctions : key ∈ ["transform", "filter", "backdropFilter"]
  · exact exists_valueText_functions_iff hgradient v hfunctions
  · refine ⟨fun _ => ⟨(absurd · hborder), (absurd · hshadows), (absurd · hfunctions),
      (absurd · hgradient)⟩, fun _ => exists_valueText_other v hborder hshadows hfunctions⟩

end Keys

/-! ## Records -/

/-- The entries in the order in which they are looked at: the gradient comes last. -/
def StyleRecord.considered (r : StyleRecord) : Members :=
  (r.entries.filter fun e => e.1 != gradientKey) ++
    ((r.get? gradientKey).map fun v => (gradientKey, v)).toList

/-- Where no key occurs twice, these are the entries of the record. -/
theorem perm_considered {r : StyleRecord} (once : (Entries.names r.entries).Nodup) :
    r.considered.Perm r.entries := by
  have hgradient : ((r.get? gradientKey).map fun v => (gradientKey, v)).toList =
      r.entries.filter fun e => !(e.1 != gradientKey) := by
    simp only [bne, Bool.not_not]
    cases hget : r.get? gradientKey with
    | none =>
      refine (List.filter_eq_nil_iff.2 fun e he hkey => ?_).symm
      have hname : e.1 = gradientKey := beq_iff_eq.1 hkey
      exact Entries.get?_eq_none_iff.1 hget (hname ▸ Entries.name_mem_of_mem he)
    | some v => exact (Entries.filter_eq_singleton once hget).symm
  rw [StyleRecord.considered, hgradient]
  exact List.filter_append_perm _ _

/-- A search asks only for the members of the list. -/
theorem findSome?_eq_of_forall_mem {α β : Type} {f g : α → Option β} {l : List α}
    (h : ∀ a ∈ l, f a = g a) : l.findSome? f = l.findSome? g := by
  induction l with
  | nil => rfl
  | cons a rest ih =>
    obtain ⟨hhead, hrest⟩ := List.forall_mem_cons.1 h
    rw [List.findSome?_cons, List.findSome?_cons, hhead, ih hrest]

/-- What is wrong with an entry, be it the gradient or another one. -/
def faultOf? (e : String × Value) : Option StyleError :=
  if e.2.isNull then none
  else (failure? (if e.1 = gradientKey then gradientText e.2 else entryText e)).map (⟨e.1, ·⟩)

/-- An entry is at fault exactly if it is malformed. -/
theorem faultOf?_eq_none_iff (e : String × Value) : faultOf? e = none ↔ ¬Malformed e := by
  obtain ⟨key, v⟩ := e
  have htext : (∃ t, (if key = gradientKey then gradientText v else entryText (key, v)) = .ok t) ↔
      WellFormed key v := by
    split
    · next hkey => rw [hkey, wellFormed_gradient_iff, exists_gradientText_iff]
    · next hkey => exact exists_valueText_iff hkey v
  unfold faultOf? Malformed
  by_cases hnull : v = .null
  · subst hnull
    exact ⟨fun _ h => h.1 rfl, fun _ => rfl⟩
  · have hisNull : v.isNull = false := by
      cases v with
      | null => exact absurd rfl hnull
      | _ => rfl
    rw [hisNull, if_neg Bool.false_ne_true, Option.map_eq_none_iff, failure?_eq_none_iff, htext]
    exact ⟨fun hwell h => h.2 hwell, fun h => by_contra fun hwell => h ⟨hnull, hwell⟩⟩

/-- A fault names the key of its entry. -/
theorem key_of_faultOf? {e : String × Value} {fault : StyleError} (h : faultOf? e = some fault) :
    fault.key = e.1 := by
  unfold faultOf? at h
  split at h
  · cases h
  · obtain ⟨_, -, rfl⟩ := Option.map_eq_some_iff.1 h
    rfl

/-- The fault of a record is that of the first entry at fault. -/
theorem fault?_eq_findSome? (r : StyleRecord) : r.fault? = r.considered.findSome? faultOf? := by
  have hsilent (v : Value) : entryFault? (gradientKey, v) = none := by
    rw [entryFault?, if_neg (by simp [declares])]
  have hsame : ∀ e ∈ r.entries.filter (fun e => e.1 != gradientKey), entryFault? e = faultOf? e := by
    intro e he
    have hkey : e.1 ≠ gradientKey := by simpa using (List.mem_filter.1 he).2
    unfold entryFault? faultOf? declares
    rw [if_neg hkey]
    cases hnull : e.2.isNull with
    | true => simp
    | false => simp [hkey, entryText]
  have hgradient : gradientFault? r =
      ((r.get? gradientKey).map fun v => (gradientKey, v)).toList.findSome? faultOf? := by
    unfold gradientFault? present? StyleRecord.get?
    cases Entries.get? r.entries gradientKey with
    | none => rfl
    | some v =>
      rw [Option.map_some, Option.toList_some, List.findSome?_singleton, faultOf?, if_pos rfl]
      cases hnull : v.isNull with
      | true => simp [hnull]
      | false => simp [hnull]
  have hentries : r.entries.findSome? entryFault? =
      (r.entries.filter fun e => e.1 != gradientKey).findSome? faultOf? := by
    rw [← findSome?_filter hsilent]
    exact findSome?_eq_of_forall_mem hsame
  rw [StyleRecord.fault?, StyleRecord.considered, List.findSome?_append, hgradient, hentries]

/-- A record cannot be converted exactly if an entry is malformed.  The error has the path that was
    given, and names the first malformed entry, in the order in which the entries are considered.
    Where no key occurs twice, as in every object, these are the entries of the record. -/
theorem convertStyle_reports_first_malformed (r : StyleRecord) (path : Path) :
    ((∃ error, convertStyle r path = .error error) ↔ ∃ e ∈ r.considered, Malformed e) ∧
      (∀ error, convertStyle r path = .error error →
        ∃ before key value after fault, r.considered = before ++ (key, value) :: after ∧
          (∀ e ∈ before, ¬Malformed e) ∧ Malformed (key, value) ∧
          error = .malformedStyle path ⟨key, fault⟩) ∧
      ((Entries.names r.entries).Nodup → r.considered.Perm r.entries) := by
  have hfailure := failure?_convertStyle r path
  rw [fault?_eq_findSome?] at hfailure
  refine ⟨?_, ?_, perm_considered⟩
  · have hok : (∃ d, convertStyle r path = .ok d) ↔ ∀ e ∈ r.considered, ¬Malformed e := by
      rw [convertStyle_isOk_iff_fault?, fault?_eq_findSome?, List.findSome?_eq_none_iff]
      exact forall₂_congr fun e _ => faultOf?_eq_none_iff e
    have herror : (∃ error, convertStyle r path = .error error) ↔
        ¬∃ d, convertStyle r path = .ok d := by
      rw [← failure?_eq_none_iff]
      cases convertStyle r path with
      | ok d => simp
      | error e => simp
    rw [herror, hok]
    push Not
    rfl
  · intro error herror
    rw [herror, failure?_error, eq_comm, Option.map_eq_some_iff] at hfailure
    obtain ⟨fault, hfault, rfl⟩ := hfailure
    obtain ⟨before, e, after, hsplit, he, hbefore⟩ := List.findSome?_eq_some_iff.1 hfault
    refine ⟨before, e.1, e.2, after, fault.fault, hsplit, ?_, ?_, ?_⟩
    · exact fun e' he' => (faultOf?_eq_none_iff e').1 (hbefore e' he')
    · by_contra hwell
      rw [(faultOf?_eq_none_iff e).2 hwell] at he
      cases he
    · rw [← key_of_faultOf? he]

/-- Of a gradient and a border that are both malformed the border is reported, though the gradient
    stands in front of it. -/
theorem convertStyle_reports_border_before_gradient :
    ∃ value fault, Malformed ("border", value) ∧
      convertStyle ⟨[(gradientKey, .bool true), ("border", .bool true)]⟩ .story =
        .error (.malformedStyle .story ⟨"border", fault⟩) := by
  have herror : convertStyle ⟨[(gradientKey, .bool true), ("border", .bool true)]⟩ .story =
      .error (.malformedStyle .story ⟨"border", _⟩) := rfl
  obtain ⟨_, _, value, _, fault, -, -, hmalformed, hnamed⟩ :=
    (convertStyle_reports_first_malformed _ .story).2.1 _ herror
  cases hnamed
  exact ⟨value, _, hmalformed, herror⟩

end WebStory
