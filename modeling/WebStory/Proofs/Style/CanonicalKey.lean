import WebStory.Style.Record
import WebStory.Proofs.Json.Canonical
import WebStory.Proofs.Json.Printer
import WebStory.Proofs.Json.Reader
/-
  Canonical keys tell styles apart.

  The canonical key of a record is the text of its canonical form.  The text says which value it
  is of, so one key means one canonical form (`canonical_eq_of_canonicalKey_eq`).  And a
  canonical form keeps of a record all but the order of keys and the spelling of numbers.
  Together, two records have one key if and only if they are the same style.  This is asked of
  records that have every key once, as a map does; the records read from a text are of this kind
  (`keysOnce_of_parse`).
-/

namespace WebStory.StyleRecord

open Json

/-- The record with its entries in canonical form. -/
def canonical (r : StyleRecord) : StyleRecord := ⟨sortMembers (r.entries.map canonicalMember)⟩

theorem toValue_canonical (r : StyleRecord) : r.toValue.canonical = r.canonical.toValue :=
  Value.canonical_object r.entries

/-- Records have one canonical key exactly if they have one canonical form. -/
theorem canonicalKey_eq_iff {a b : StyleRecord} :
    a.canonicalKey = b.canonicalKey ↔ a.toValue.canonical = b.toValue.canonical :=
  ⟨Value.text_injective, congrArg Value.text⟩

theorem canonical_eq_of_canonicalKey_eq {a b : StyleRecord} (h : a.canonicalKey = b.canonicalKey) :
    a.canonical = b.canonical := by
  rw [canonicalKey_eq_iff, toValue_canonical, toValue_canonical] at h
  cases ha : a.canonical
  cases hb : b.canonical
  rw [ha, hb] at h
  exact congrArg StyleRecord.mk (Value.object.inj h)

/-- A record that is read from a text has every key once, at every depth. -/
theorem keysOnce_of_parse {text : String} {v : Value} {r : StyleRecord} (h : parse text = .ok v)
    (hr : ofValue? v = some r) : r.toValue.KeysOnce := by
  have hv : v.KeysOnce := keysOnce_parse h
  cases v with
  | object members =>
    rw [← Option.some.inj hr]
    exact hv
  | _ => exact absurd hr (by simp [ofValue?, Value.asObject?])

/-- Two records have one canonical key if and only if they have the same keys with the same values,
    up to the order of the keys at every depth and the spelling of the numbers. -/
theorem canonicalKey_eq_iff_same (a b : StyleRecord) (once : a.toValue.KeysOnce) :
    a.canonicalKey = b.canonicalKey ↔ a.toValue.Same b.toValue := by
  rw [canonicalKey_eq_iff, Value.canonical_eq_iff once]

/-- Twelve as an integer and as a floating-point number, under keys in two orders. -/
theorem canonicalKey_eq_respelled :
    let twelve : Number := .int 12 (by decide)
    let twelvePointZero : Number := .float ((Binary64.ofInt? 12).getD default)
    let a : StyleRecord := ⟨[("fontSize", .number twelve), ("textShadow", .object
      [("offset", .array [.number twelve]), ("color", .string "\"red\"")])]⟩
    let b : StyleRecord := ⟨[("textShadow", .object
      [("color", .string "\"red\""), ("offset", .array [.number twelvePointZero])]),
      ("fontSize", .number twelvePointZero)]⟩
    a.toValue.KeysOnce ∧ a.canonicalKey = b.canonicalKey := by
  intro twelve twelvePointZero a b
  have hint : ((Binary64.ofInt? 12).getD default).toInt? = some 12 := by decide +kernel
  have hvalue : twelve.value = twelvePointZero.value := (Binary64.toInt?_eq_some_iff.1 hint).symm
  have hoffset : (Value.array [.number twelve]).Same (.array [.number twelvePointZero]) :=
    .array (.cons (.number hvalue) .nil)
  have once : a.toValue.KeysOnce := by
    simp [a, toValue, Value.KeysOnce, Value.MembersOnce, Value.ItemsOnce, Entries.names]
  refine ⟨once, (canonicalKey_eq_iff_same a b once).2 ?_⟩
  refine .object (List.Perm.swap _ _ _) (.cons ?_ (.cons (.number hvalue) .nil))
  exact .object (List.Perm.swap _ _ _) (.cons (.string _) (.cons hoffset .nil))

end WebStory.StyleRecord
