import WebStory.Proofs.Outcome
import WebStory.Proofs.Style.Convert
import WebStory.Proofs.Style.Numbering
/-
  Which properties a record declares, in which order, and with which values.

  1. **Writes** — a conversion is a run of writes into a table: one for each entry that declares
     something, then those of the gradient, of the flex aliases and of the reset of `grid-gap`
     (`eq_write_of_convert`).  What a run of writes leaves is known from the list of what is
     written.  The names stand in the order in which they were first written (`names_foldl_set`),
     and each has the value that was written last (`get?_foldl_set`).

  2. **What is written** — of a record that can be converted, that list is found without converting
     anything: which entries declare, what the gradient and the aliases add
     (`StyleRecord.closingPairs`).  At most four properties are written after the entries, no two of
     them the same.

  3. **Reading a property** — first what is written at the end is asked, then the entries from the
     last to the first (`get?_of_convert`).  So an explicit `background`, or a second spelling of a
     key, keeps the place of the first and loses its value.

  4. **Null** — an entry that is null declares nothing and is not looked at by what comes after the
     entries, so it can as well be left out (`convert_withoutNulls`).

  Together: the properties of a record, their order and their values (`convertStyle_properties`).
-/

namespace WebStory

open Json

/-! ## Runs of writes -/

namespace Entries

variable {α : Type}

/-- Names come in the order in which they are first written. -/
theorem names_foldl_set {done : List (String × α)} (nodup : (names done).Nodup)
    (new : List (String × α)) :
    names (new.foldl (fun done e => set done e.1 e.2) done) = (names (done ++ new)).eraseDups := by
  induction new generalizing done with
  | nil => rw [List.foldl_nil, List.append_nil, ClassTable.eraseDups_of_nodup nodup]
  | cons e rest ih =>
    rw [List.foldl_cons, ih (nodup_names_set e.1 e.2 nodup)]
    rw [names_append, names_append, names_set]
    split
    · next hmem => exact (ClassTable.eraseDups_append_cons hmem).symm
    · rw [List.append_assoc]
      rfl

/-- No name is ever written beside itself. -/
theorem nodup_names_foldl_set {done : List (String × α)} (nodup : (names done).Nodup)
    (new : List (String × α)) :
    (names (new.foldl (fun done e => set done e.1 e.2) done)).Nodup := by
  induction new generalizing done with
  | nil => exact nodup
  | cons e rest ih => exact ih (nodup_names_set e.1 e.2 nodup)

/-- A name has the value that is written last. -/
theorem get?_foldl_set (done new : List (String × α)) (name : String) :
    get? (new.foldl (fun done e => set done e.1 e.2) done) name =
      (get? new.reverse name).or (get? done name) := by
  induction new generalizing done with
  | nil => rfl
  | cons e rest ih =>
    rw [List.foldl_cons, ih, List.reverse_cons, get?_append, Option.or_assoc]
    congr 1
    by_cases h : e.1 = name
    · rw [← h, get?_set_self, get?, if_pos rfl, Option.some_or]
    · rw [get?_set_ne _ _ (Ne.symm h), get?, if_neg h]
      rfl

end Entries

/-! ## What is written -/

/-- The entries without those that are null. -/
def StyleRecord.withoutNulls (r : StyleRecord) : StyleRecord :=
  ⟨r.entries.filter fun e => !e.2.isNull⟩

/-- The properties of the entries that declare something. -/
def StyleRecord.ownProperties (r : StyleRecord) : List String :=
  (r.entries.filter declares).map fun e => dasherize e.1

/-- The properties that are written after the entries. -/
def StyleRecord.closingProperties (r : StyleRecord) : List String :=
  (if (present? r.entries gradientKey).isSome then ["background"] else []) ++
    (if (present? r.entries "justifyContent").isSome then ["align-content"] else []) ++
    (if (present? r.entries "alignItems").isSome then ["justify-items"] else []) ++ ["grid-gap"]

/-- What the gradient writes, if it can be converted. -/
def StyleRecord.gradientPairs (r : StyleRecord) : List (String × String) :=
  ((present? r.entries gradientKey).bind fun v => (gradientText v).toOption.map
    ("background", ·)).toList

/-- What a flex alias writes. -/
def StyleRecord.aliasPairs (r : StyleRecord) (key property : String) : List (String × String) :=
  ((present? r.entries key).map fun v => (property, plainText v)).toList

/-- What is written after the entries. -/
def StyleRecord.closingPairs (r : StyleRecord) : List (String × String) :=
  r.gradientPairs ++ r.aliasPairs "justifyContent" "align-content" ++
    r.aliasPairs "alignItems" "justify-items" ++ [("grid-gap", "0")]

/-- The text is that of the last entry that declares the property. -/
def StyleRecord.LastText (r : StyleRecord) (property text : String) : Prop :=
  ∃ before e after, r.entries = before ++ e :: after ∧
    (declares e = true ∧ dasherize e.1 = property ∧ entryText e = .ok text) ∧
    ∀ later ∈ after, declares later = true → dasherize later.1 ≠ property

/-! ## Entries -/

/-- All entries that declare something have a text. -/
def Convertible (entries : Members) : Prop :=
  ∀ e ∈ entries, declares e = true → ∃ text, entryText e = .ok text

theorem declaredPair?_of_entryText {e : String × Value} {text : String} (h : declares e = true)
    (htext : entryText e = .ok text) : declaredPair? e = some (dasherize e.1, text) := by
  rw [declaredPair?, if_pos h, htext]
  rfl

theorem names_declaredPairs {entries : Members} (h : Convertible entries) :
    Entries.names (declaredPairs entries) =
      (entries.filter declares).map fun e => dasherize e.1 := by
  induction entries with
  | nil => rfl
  | cons e rest ih =>
    obtain ⟨hhead, hrest⟩ := List.forall_mem_cons.1 h
    cases hdeclares : declares e with
    | true =>
      obtain ⟨text, htext⟩ := hhead hdeclares
      rw [declaredPairs, List.filterMap_cons_some (declaredPair?_of_entryText hdeclares htext),
        List.filter_cons_of_pos hdeclares, List.map_cons, ← ih hrest]
      rfl
    | false =>
      have hnone : declaredPair? e = none := if_neg (by rw [hdeclares]; exact Bool.false_ne_true)
      rw [declaredPairs, List.filterMap_cons_none hnone,
        List.filter_cons_of_neg (by rw [hdeclares]; exact Bool.false_ne_true), ← ih hrest]
      rfl

/-- Reading what the entries declare from the end gives the text of the last entry. -/
theorem lastText_of_get? {entries : Members} (h : Convertible entries) {property text : String}
    (hget : Entries.get? (declaredPairs entries).reverse property = some text) :
    (StyleRecord.mk entries).LastText property text := by
  induction entries using List.reverseRecOn with
  | nil => cases hget
  | append_singleton rest e ih =>
    have hrest : Convertible rest := fun e he => h e (List.mem_append_left _ he)
    -- an entry that does not declare the property can stand behind the last one
    have hbehind (hother : declares e = true → dasherize e.1 ≠ property)
        (hget : Entries.get? (declaredPairs rest).reverse property = some text) :
        (StyleRecord.mk (rest ++ [e])).LastText property text := by
      obtain ⟨before, last, after, hsplit, hlast, hafter⟩ := ih hrest hget
      have hsplit : rest = before ++ last :: after := hsplit
      refine ⟨before, last, after ++ [e], ?_, hlast, ?_⟩
      · rw [hsplit, List.append_assoc, List.cons_append]
      · intro later hlater
        rcases List.mem_append.1 hlater with hlater | hlater
        · exact hafter later hlater
        · rw [List.mem_singleton.1 hlater]
          exact hother
    rw [declaredPairs, List.filterMap_append, List.reverse_append, Entries.get?_append] at hget
    by_cases hdeclares : declares e = true
    · obtain ⟨text', htext⟩ := h e (List.mem_append_right _ (List.mem_singleton.2 rfl)) hdeclares
      rw [List.filterMap_cons_some (declaredPair?_of_entryText hdeclares htext),
        List.filterMap_nil, List.reverse_singleton, Entries.get?] at hget
      by_cases hproperty : dasherize e.1 = property
      · rw [if_pos hproperty, Option.some_or] at hget
        obtain rfl := Option.some.inj hget
        exact ⟨rest, e, [], rfl, ⟨hdeclares, hproperty, htext⟩,
          fun later hlater => absurd hlater List.not_mem_nil⟩
      · rw [if_neg hproperty, Entries.get?, Option.none_or] at hget
        exact hbehind (fun _ => hproperty) hget
    · have hnone : declaredPair? e = none := if_neg hdeclares
      rw [List.filterMap_cons_none hnone, List.filterMap_nil, List.reverse_nil, Entries.get?,
        Option.none_or] at hget
      exact hbehind (fun h => absurd h hdeclares) hget

/-! ## Records -/

/-- Writes one after another. -/
def Declarations.write (d : Declarations) (new : List (String × String)) : Declarations :=
  ⟨new.foldl (fun pairs e => Entries.set pairs e.1 e.2) d.pairs⟩

theorem Declarations.write_append (d : Declarations) (l m : List (String × String)) :
    d.write (l ++ m) = (d.write l).write m := by
  rw [write, write, write, List.foldl_append]

section Converted

variable {r : StyleRecord}

theorem declareGradient_eq_ok {done d : Declarations} (h : declareGradient r done = .ok d) :
    (∀ v, present? r.entries gradientKey = some v →
      ∃ text, gradientText v = .ok text ∧ r.gradientPairs = [("background", text)]) ∧
      d = done.write r.gradientPairs := by
  unfold declareGradient at h
  unfold StyleRecord.gradientPairs
  cases hv : present? r.entries gradientKey with
  | none =>
    rw [hv] at h
    exact ⟨nofun, (Except.ok.inj h).symm⟩
  | some v =>
    rw [hv] at h
    dsimp only at h
    cases htext : gradientText v with
    | error fault =>
      rw [htext] at h
      cases h
    | ok text =>
      rw [htext] at h
      have hpairs : ((some v).bind fun v => (gradientText v).toOption.map
          ("background", ·)).toList = [("background", text)] := by
        rw [Option.bind_some, htext]
        rfl
      refine ⟨?_, ?_⟩
      · rintro _ ⟨⟩
        exact ⟨text, htext, hpairs⟩
      · rw [hpairs]
        exact (Except.ok.inj h).symm

theorem declareAlias_eq (key property : String) (done : Declarations) :
    declareAlias r key property done = done.write (r.aliasPairs key property) := by
  unfold declareAlias StyleRecord.aliasPairs
  cases present? r.entries key with
  | none => rfl
  | some v => rfl

variable {d : Declarations} (hconvert : r.convert = .ok d)
include hconvert

/-- The declarations are what the writes leave, those of the entries and those at the end. -/
theorem eq_write_of_convert : Convertible r.entries ∧
    (∀ v, present? r.entries gradientKey = some v →
      ∃ text, gradientText v = .ok text ∧ r.gradientPairs = [("background", text)]) ∧
    d = Declarations.empty.write (declaredPairs r.entries ++ r.closingPairs) := by
  obtain ⟨own, hown, hafter⟩ := exists_of_bind_eq_ok hconvert
  obtain ⟨withGradient, hgradient, hd⟩ := exists_of_bind_eq_ok hafter
  obtain ⟨htext, rfl⟩ := declareGradient_eq_ok hgradient
  have hpairs : own = Declarations.empty.write (declaredPairs r.entries) :=
    congrArg Declarations.mk (pairs_of_declareEntries hown)
  refine ⟨(declareEntries_isOk_iff r.entries .empty).1 ⟨own, hown⟩, htext, ?_⟩
  rw [StyleRecord.closingPairs, Declarations.write_append, Declarations.write_append,
    Declarations.write_append, Declarations.write_append, ← hpairs, ← declareAlias_eq,
    ← declareAlias_eq]
  exact (Except.ok.inj hd).symm

theorem names_closingPairs : Entries.names r.closingPairs = r.closingProperties := by
  obtain ⟨-, hgradient, -⟩ := eq_write_of_convert hconvert
  have hbackground : Entries.names r.gradientPairs =
      if (present? r.entries gradientKey).isSome then ["background"] else [] := by
    cases hv : present? r.entries gradientKey with
    | none =>
      rw [StyleRecord.gradientPairs, hv]
      rfl
    | some v =>
      obtain ⟨text, -, hpairs⟩ := hgradient v hv
      rw [hpairs]
      rfl
  have halias (key property : String) : Entries.names (r.aliasPairs key property) =
      if (present? r.entries key).isSome then [property] else [] := by
    unfold StyleRecord.aliasPairs
    cases present? r.entries key <;> rfl
  rw [StyleRecord.closingPairs, Entries.names_append, Entries.names_append, Entries.names_append,
    hbackground, halias, halias]
  rfl

omit hconvert in
theorem closingProperties_nodup (r : StyleRecord) : r.closingProperties.Nodup := by
  unfold StyleRecord.closingProperties
  split <;> split <;> split <;> decide

/-- Reading a property asks first what is written at the end. -/
theorem get?_of_convert (property : String) : d.get? property =
    (Entries.get? r.closingPairs.reverse property).or
      (Entries.get? (declaredPairs r.entries).reverse property) := by
  obtain ⟨-, -, rfl⟩ := eq_write_of_convert hconvert
  rw [Declarations.get?, Declarations.write, Entries.get?_foldl_set, List.reverse_append,
    Entries.get?_append]
  exact Option.or_none

/-- What is written at the end stays. -/
theorem get?_of_mem_closingPairs {property text : String} (h : (property, text) ∈ r.closingPairs) :
    d.get? property = some text := by
  have hnodup : (Entries.names r.closingPairs.reverse).Nodup := by
    rw [Entries.names, List.map_reverse, List.nodup_reverse, ← Entries.names,
      names_closingPairs hconvert]
    exact closingProperties_nodup r
  rw [get?_of_convert hconvert, (Entries.get?_eq_some_iff hnodup).2 (List.mem_reverse.2 h),
    Option.some_or]

end Converted

/-- Four properties at most are written after the entries. -/
theorem mem_of_mem_closingProperties {r : StyleRecord} {property : String}
    (h : property ∈ r.closingProperties) :
    property ∈ ["background", "align-content", "justify-items", "grid-gap"] := by
  have hite {c : Prop} [Decidable c] {l : List String} (h : property ∈ if c then l else []) :
      property ∈ l := by
    split at h
    · exact h
    · cases h
  unfold StyleRecord.closingProperties at h
  rcases List.mem_append.1 h with h | hgap
  · rcases List.mem_append.1 h with h | hitems
    · rcases List.mem_append.1 h with hbackground | hcontent
      · exact List.mem_append_left _ (hite hbackground)
      · exact List.mem_append_right ["background"] (List.mem_append_left _ (hite hcontent))
    · exact List.mem_append_right ["background", "align-content"]
        (List.mem_append_left _ (hite hitems))
  · exact List.mem_append_right ["background", "align-content", "justify-items"] hgap

/-- What is declared under a property is what the entries that name it declare. -/
theorem filter_declaredPairs (property : String) (entries : Members) :
    (declaredPairs entries).filter (·.1 == property) =
      declaredPairs (entries.filter fun e => declares e && dasherize e.1 == property) := by
  unfold declaredPairs
  rw [List.filter_filterMap, List.filterMap_filter]
  refine List.filterMap_congr fun e _ => ?_
  unfold declaredPair?
  cases hdeclares : declares e with
  | false => rfl
  | true =>
    cases htext : (entryText e).toOption with
    | none => simp
    | some text => simp [Option.filter]

variable {r : StyleRecord} {d : Declarations} in
/-- A property that one entry names, and nothing writes after the entries, has the text of this
    entry. -/
theorem get?_of_filter_eq (hconvert : r.convert = .ok d) {e : String × Value} {text : String}
    (htext : entryText e = .ok text) (hclosing : dasherize e.1 ∉ r.closingProperties)
    (hentry : r.entries.filter (fun other => declares other && dasherize other.1 == dasherize e.1) =
      [e]) : d.get? (dasherize e.1) = some text := by
  have hnone : Entries.get? r.closingPairs.reverse (dasherize e.1) = none := by
    rw [Entries.get?_eq_none_iff, Entries.names, List.map_reverse, List.mem_reverse, ← Entries.names,
      names_closingPairs hconvert]
    exact hclosing
  have hdeclares : declares e = true := by
    have hmem : e ∈ r.entries.filter fun other =>
        declares other && dasherize other.1 == dasherize e.1 := by
      rw [hentry]
      exact List.mem_singleton.2 rfl
    exact (Bool.and_eq_true_iff.1 (List.mem_filter.1 hmem).2).1
  rw [get?_of_convert hconvert, hnone, Option.none_or, Entries.get?_eq_head?, List.filter_reverse,
    filter_declaredPairs, hentry, declaredPairs,
    List.filterMap_cons_some (declaredPair?_of_entryText hdeclares htext)]
  rfl

/-! ## Null -/

/-- Entries that are null say nothing. -/
theorem declareEntries_filter (entries : Members) (done : Declarations) :
    declareEntries (entries.filter fun e => !e.2.isNull) done = declareEntries entries done := by
  induction entries generalizing done with
  | nil => rfl
  | cons e rest ih =>
    obtain ⟨key, value⟩ := e
    cases hnull : value.isNull with
    | true =>
      rw [List.filter_cons_of_neg (by simp [hnull]), ih, declareEntries,
        if_neg (by simp [declares, hnull])]
    | false =>
      rw [List.filter_cons_of_pos (by simp [hnull]), declareEntries, declareEntries]
      split
      · simp only [ih]
      · exact ih done

theorem present?_withoutNulls {r : StyleRecord} (once : (Entries.names r.entries).Nodup)
    (key : String) : present? r.withoutNulls.entries key = present? r.entries key := by
  have hget : Entries.get? r.withoutNulls.entries key =
      (((r.entries.filter fun e => e.1 == key).filter fun e => !e.2.isNull).head?).map (·.2) := by
    rw [StyleRecord.withoutNulls, Entries.get?_eq_head?, List.filter_filter, List.filter_filter]
    simp only [Bool.and_comm]
  unfold present?
  rw [hget]
  cases hvalue : Entries.get? r.entries key with
  | none =>
    rw [Entries.get?_eq_head?, Option.map_eq_none_iff, List.head?_eq_none_iff] at hvalue
    rw [hvalue]
    rfl
  | some v =>
    rw [Entries.filter_eq_singleton once hvalue]
    cases hnull : v.isNull <;> simp [hnull]

/-- Dropping the entries that are null changes neither the declarations nor the error. -/
theorem convert_withoutNulls {r : StyleRecord} (once : (Entries.names r.entries).Nodup) :
    r.withoutNulls.convert = r.convert := by
  unfold StyleRecord.convert declareGradient declareAlias
  rw [present?_withoutNulls once, present?_withoutNulls once, present?_withoutNulls once,
    StyleRecord.withoutNulls, declareEntries_filter]

/-! ## The declarations of a record -/

/-- What a record that can be converted declares: which properties, in which order, and with which
    values. -/
structure StyleRecord.Declared (r : StyleRecord) (d : Declarations) : Prop where
  nodup : d.properties.Nodup
  order : d.properties = (r.ownProperties ++ r.closingProperties).eraseDups
  grid_gap : d.properties.count "grid-gap" = 1 ∧ d.get? "grid-gap" = some "0"
  background : ∀ v, present? r.entries gradientKey = some v →
    ∃ text, gradientText v = .ok text ∧ d.get? "background" = some text
  align_content : ∀ v, present? r.entries "justifyContent" = some v →
    d.get? "align-content" = some (plainText v)
  justify_items : ∀ v, present? r.entries "alignItems" = some v →
    d.get? "justify-items" = some (plainText v)
  own : ∀ property ∈ d.properties, property ∉ r.closingProperties →
    ∃ text, d.get? property = some text ∧ r.LastText property text

theorem declared_of_convert {r : StyleRecord} {d : Declarations} (h : r.convert = .ok d) :
    r.Declared d := by
  obtain ⟨hentries, hgradient, hd⟩ := eq_write_of_convert h
  have hempty : (Entries.names ([] : List (String × String))).Nodup := List.nodup_nil
  have horder : d.properties = (r.ownProperties ++ r.closingProperties).eraseDups := by
    have hnames := Entries.names_foldl_set hempty (declaredPairs r.entries ++ r.closingPairs)
    rw [List.nil_append, Entries.names_append, names_declaredPairs hentries,
      names_closingPairs h] at hnames
    rw [hd]
    exact hnames
  have hnodup : d.properties.Nodup := by
    rw [hd]
    exact Entries.nodup_names_foldl_set hempty _
  have hgap : ("grid-gap", "0") ∈ r.closingPairs :=
    List.mem_append_right _ (List.mem_singleton.2 rfl)
  constructor
  · exact hnodup
  · exact horder
  · refine ⟨List.count_eq_one_of_mem hnodup ?_, get?_of_mem_closingPairs h hgap⟩
    exact Entries.name_mem_of_mem (Entries.mem_of_get? (get?_of_mem_closingPairs h hgap))
  · intro v hv
    obtain ⟨text, htext, hpairs⟩ := hgradient v hv
    refine ⟨text, htext, get?_of_mem_closingPairs h ?_⟩
    simp [StyleRecord.closingPairs, hpairs]
  · intro v hv
    refine get?_of_mem_closingPairs h ?_
    simp [StyleRecord.closingPairs, StyleRecord.aliasPairs, hv]
  · intro v hv
    refine get?_of_mem_closingPairs h ?_
    simp [StyleRecord.closingPairs, StyleRecord.aliasPairs, hv]
  · intro property hmem hother
    have hclosing : Entries.get? r.closingPairs.reverse property = none := by
      rw [Entries.get?_eq_none_iff, Entries.names, List.map_reverse, List.mem_reverse,
        ← Entries.names, names_closingPairs h]
      exact hother
    have hget := get?_of_convert h property
    rw [hclosing, Option.none_or] at hget
    cases hlast : Entries.get? (declaredPairs r.entries).reverse property with
    | none =>
      rw [hlast, Declarations.get?, Entries.get?_eq_none_iff] at hget
      exact absurd hmem hget
    | some text => exact ⟨text, hget.trans hlast, lastText_of_get? hentries hlast⟩

/-- Which properties a record declares, in which order and with which values is known from its
    entries; and of an object, the members that are null can as well be left out. -/
theorem convertStyle_properties (r : StyleRecord) (path : Path) :
    ((Entries.names r.entries).Nodup → convertStyle r.withoutNulls path = convertStyle r path) ∧
      ∀ d, convertStyle r path = .ok d → r.Declared d := by
  constructor
  · intro once
    rw [convertStyle, convert_withoutNulls once, ← convertStyle]
  · intro d hd
    refine declared_of_convert ?_
    rw [convertStyle] at hd
    cases hconvert : r.convert with
    | error e =>
      rw [hconvert] at hd
      cases hd
    | ok d' =>
      rw [hconvert] at hd
      exact congrArg Except.ok (Except.ok.inj hd)

/-- An explicit `gridGap` keeps its place and is reset; a null says nothing. -/
theorem convertStyle_gridGap :
    convertStyle ⟨[("gridGap", .string "5px"), ("color", .string "red")]⟩ .story =
      convertStyle ⟨[("gridGap", .string "5px"), ("top", .null), ("color", .string "red")]⟩ .story ∧
    ∃ d, convertStyle ⟨[("gridGap", .string "5px"), ("top", .null), ("color", .string "red")]⟩
        .story = .ok d ∧
      d.properties = ["grid-gap", "color"] ∧ d.get? "grid-gap" = some "0" := by
  obtain ⟨hnulls, hdeclared⟩ := convertStyle_properties
    ⟨[("gridGap", .string "5px"), ("top", .null), ("color", .string "red")]⟩ .story
  have hok : convertStyle ⟨[("gridGap", .string "5px"), ("top", .null), ("color", .string "red")]⟩
      .story = .ok ⟨[("grid-gap", "0"), ("color", "red")]⟩ := rfl
  have hd := hdeclared _ hok
  exact ⟨hnulls (by decide), _, hok, hd.order.trans (by decide), hd.grid_gap.2⟩

end WebStory
