import WebStory.Style.Convert
import WebStory.Proofs.Entries
import WebStory.Proofs.Outcome
/-
  Which fault of a record is reported.

  The conversion stops at the first malformed entry, and looks at the gradient only after all other
  entries.  What was declared before makes no difference to this, so the fault of a record is a
  function of its entries (`StyleRecord.fault?`), and the conversion fails with this fault or not
  at all (`failure?_convert`).  A `display` in front of a record is never at fault; so a record is
  malformed with it as it is without it (`fault?_withLeadingDefault`).
-/

namespace WebStory

open Json

/-! ## Entries -/

/-- What is wrong with an entry that declares something. -/
def entryFault? (e : String × Value) : Option StyleError :=
  if declares e then (failure? ((KeyKind.ofKey e.1).valueText e.2)).map (⟨e.1, ·⟩) else none

/-- Values that are taken as they are cannot be malformed. -/
theorem entryFault?_of_plain {key : String} (v : Value) (h : KeyKind.ofKey key = .plain) :
    entryFault? (key, v) = none := by
  unfold entryFault?
  rw [h]
  split <;> rfl

/-- Declaring entries fails at the first malformed one, whatever was declared before. -/
theorem failure?_declareEntries (entries : Members) (done : Declarations) :
    failure? (declareEntries entries done) = entries.findSome? entryFault? := by
  induction entries generalizing done with
  | nil => rfl
  | cons e rest ih =>
    obtain ⟨key, value⟩ := e
    have hcons : ((key, value) :: rest).findSome? entryFault? =
        (entryFault? (key, value)).or (rest.findSome? entryFault?) := by
      rw [List.findSome?_cons]
      cases entryFault? (key, value) <;> rfl
    rw [declareEntries, hcons, entryFault?]
    split
    · rw [failure?_bind _ fun text => ih (done.set (dasherize key) text), atKey, failure?_mapError]
    · exact ih done

/-! ## Records -/

/-- What is wrong with the gradient of a record, if it has one. -/
def gradientFault? (r : StyleRecord) : Option StyleError :=
  (present? r.entries gradientKey).bind fun v => (failure? (gradientText v)).map (⟨gradientKey, ·⟩)

/-- The first fault of a record: that of its first malformed entry, else that of its gradient. -/
def StyleRecord.fault? (r : StyleRecord) : Option StyleError :=
  (r.entries.findSome? entryFault?).or (gradientFault? r)

theorem failure?_declareGradient (r : StyleRecord) (done : Declarations) :
    failure? (declareGradient r done) = gradientFault? r := by
  unfold declareGradient gradientFault?
  cases present? r.entries gradientKey with
  | none => rfl
  | some v =>
    have htext := failure?_bind (atKey gradientKey (gradientText v))
      (f := fun text => .ok (done.set "background" text)) fun _ => rfl
    rw [Option.or_none, atKey, failure?_mapError] at htext
    exact htext

/-- A record is converted, or fails with its first fault. -/
theorem failure?_convert (r : StyleRecord) : failure? r.convert = r.fault? := by
  unfold StyleRecord.convert StyleRecord.fault?
  have hgradient (own : Declarations) : failure? (do
      let withGradient ← declareGradient r own
      let withFlex := declareAlias r "alignItems" "justify-items"
        (declareAlias r "justifyContent" "align-content" withGradient)
      .ok (withFlex.set "grid-gap" "0")) = gradientFault? r := by
    -- what follows the gradient cannot fail
    refine (failure?_bind (declareGradient r own) fun _ => failure?_ok _).trans ?_
    rw [failure?_declareGradient, Option.or_none]
  rw [failure?_bind _ hgradient, failure?_declareEntries]

theorem failure?_convertStyle (r : StyleRecord) (path : Path) :
    failure? (convertStyle r path) = r.fault?.map (.malformedStyle path) := by
  rw [convertStyle, failure?_mapError, failure?_convert]

/-- A record that cannot be converted is malformed, and is reported at the path. -/
theorem exists_cause_of_failure? {r : StyleRecord} {path : Path} {e : Error}
    (h : failure? (convertStyle r path) = some e) : ∃ cause, e = .malformedStyle path cause := by
  rw [failure?_convertStyle] at h
  obtain ⟨cause, -, rfl⟩ := Option.map_eq_some_iff.1 h
  exact ⟨cause, rfl⟩

/-- The path makes no difference to whether a record can be converted. -/
theorem convertStyle_isOk_iff_fault? {r : StyleRecord} {path : Path} :
    (∃ d, convertStyle r path = .ok d) ↔ r.fault? = none := by
  rw [← failure?_eq_none_iff, failure?_convertStyle, Option.map_eq_none_iff]

/-! ## A default in front -/

/-- Entries that are never at fault can be left out. -/
theorem findSome?_filter {entries : Members} {key : String}
    (h : ∀ v, entryFault? (key, v) = none) :
    (entries.filter fun e => e.1 != key).findSome? entryFault? = entries.findSome? entryFault? := by
  induction entries with
  | nil => rfl
  | cons e rest ih =>
    obtain ⟨k, v⟩ := e
    by_cases hk : k = key
    · subst hk
      rw [List.filter_cons_of_neg (by simp), List.findSome?_cons, h v, ih]
    · rw [List.filter_cons_of_pos (by simpa using hk), List.findSome?_cons, List.findSome?_cons, ih]

/-- A default in front of a record hides no other key. -/
theorem get?_withLeadingDefault_ne (r : StyleRecord) {key other : String} (fallback : Value)
    (h : other ≠ key) :
    Entries.get? (r.withLeadingDefault key fallback).entries other = Entries.get? r.entries other := by
  rw [StyleRecord.withLeadingDefault, Entries.get?, if_neg (Ne.symm h), Entries.get?_filter_ne _ h]

/-- A default under a plain key changes nothing about what is wrong with a record. -/
theorem fault?_withLeadingDefault (r : StyleRecord) {key : String} (fallback : Value)
    (hkind : KeyKind.ofKey key = .plain) (hkey : key ≠ gradientKey) :
    (r.withLeadingDefault key fallback).fault? = r.fault? := by
  have hnone (v : Value) : entryFault? (key, v) = none := entryFault?_of_plain v hkind
  have hentries : (r.withLeadingDefault key fallback).entries.findSome? entryFault? =
      r.entries.findSome? entryFault? := by
    rw [StyleRecord.withLeadingDefault, List.findSome?_cons, hnone, findSome?_filter hnone]
  have hgradient : gradientFault? (r.withLeadingDefault key fallback) = gradientFault? r := by
    unfold gradientFault? present?
    rw [get?_withLeadingDefault_ne r fallback (Ne.symm hkey)]
  rw [StyleRecord.fault?, hentries, hgradient, ← StyleRecord.fault?]

end WebStory
