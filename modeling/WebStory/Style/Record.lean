import WebStory.Json.Canonical
/-
  Style records.

  A style record is an open, ordered map from style keys to JSON values.  Unknown keys are kept
  as they are; what the known ones mean is settled by the conversion to declarations.  The
  canonical key of a record is one text for all records with the same keys and values, however
  they are ordered and however their numbers are spelled.
-/

namespace WebStory

/-- An ordered map from style keys to values. -/
structure StyleRecord where
  entries : Json.Members

namespace StyleRecord

def empty : StyleRecord := ⟨[]⟩

instance : Inhabited StyleRecord := ⟨empty⟩

/-- An object is a record, nothing else is. -/
def ofValue? (v : Json.Value) : Option StyleRecord := v.asObject?.map StyleRecord.mk

def toValue (r : StyleRecord) : Json.Value := .object r.entries

def get? (r : StyleRecord) (key : String) : Option Json.Value := Entries.get? r.entries key

def insert (r : StyleRecord) (key : String) (value : Json.Value) : StyleRecord :=
  ⟨Entries.set r.entries key value⟩

/-- The record with the given entries; of entries with one key the last counts, in the place of
    the first. -/
def ofEntries (entries : Json.Members) : StyleRecord := ⟨Entries.ofList entries⟩

def size (r : StyleRecord) : Nat := r.entries.length

def isEmpty (r : StyleRecord) : Bool := r.entries.isEmpty

/-- The record with `key` in front.  A value that is there is kept, and only moves; otherwise the
    default is put in. -/
def withLeadingDefault (r : StyleRecord) (key : String) (fallback : Json.Value) : StyleRecord :=
  ⟨(key, (r.get? key).getD fallback) :: r.entries.filter fun e => e.1 != key⟩

/-- The text of the canonical form: what records are compared by. -/
def canonicalKey (r : StyleRecord) : String := r.toValue.canonical.text

theorem get?_insert_self (r : StyleRecord) (key : String) (value : Json.Value) :
    (r.insert key value).get? key = some value :=
  Entries.get?_set_self _ _ _

theorem get?_withLeadingDefault_self (r : StyleRecord) (key : String) (fallback : Json.Value) :
    (r.withLeadingDefault key fallback).get? key = some ((r.get? key).getD fallback) := by
  simp [withLeadingDefault, get?, Entries.get?]

end StyleRecord

end WebStory
