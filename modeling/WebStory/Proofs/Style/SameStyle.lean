import WebStory.Proofs.Style.Faults
import WebStory.Proofs.Style.Sharing
/-
  Records that are one style.

  Records with one canonical key are treated alike wherever the order of entries or the spelling of a
  number might show.  Both are empty or neither is, both can be converted or neither, and with a
  default in front both still have one key.  The last of these needs that no key occurs twice
  (`StyleRecord.SameStyle`): what is put in front is sorted in among the other entries, which gives
  one list only where no two entries compete for a place.
-/

namespace WebStory.StyleRecord

open Json

/-- Two records with one canonical key, in which no key occurs twice. -/
structure SameStyle (r r' : StyleRecord) : Prop where
  nodup : (Entries.names r.entries).Nodup
  key : r.canonicalKey = r'.canonicalKey

theorem SameStyle.of_same {r r' : StyleRecord} (once : r.toValue.KeysOnce)
    (h : r.toValue.Same r'.toValue) : r.SameStyle r' := by
  refine ⟨((Value.keysOnce_object r.entries).1 once).1, ?_⟩
  rw [canonicalKey_eq_iff, Value.canonical_eq_iff once]
  exact h

section SameStyle

variable {r r' : StyleRecord} (h : r.SameStyle r')
include h

/-- The entries in canonical form are the same once they are sorted. -/
theorem SameStyle.sorted_eq :
    sortMembers (r.entries.map canonicalMember) = sortMembers (r'.entries.map canonicalMember) :=
  congrArg StyleRecord.entries (canonical_eq_of_canonicalKey_eq h.key)

theorem SameStyle.perm : (r.entries.map canonicalMember).Perm (r'.entries.map canonicalMember) :=
  (sortMembers_perm _).symm.trans (h.sorted_eq ▸ sortMembers_perm _)

theorem SameStyle.isEmpty_eq : r.isEmpty = r'.isEmpty := by
  have hlength := h.perm.length_eq
  rw [List.length_map, List.length_map] at hlength
  unfold isEmpty
  rw [Bool.eq_iff_iff, List.isEmpty_iff_length_eq_zero, List.isEmpty_iff_length_eq_zero, hlength]

theorem SameStyle.fault?_eq_none_iff : r.fault? = none ↔ r'.fault? = none := by
  rw [← convertStyle_isOk_iff_fault?, ← convertStyle_isOk_iff_fault?]
  exact ClassTable.convertStyle_isOk_iff h.key .story .story

/-- One value in canonical form stands under a key in both. -/
theorem SameStyle.get?_eq (key : String) :
    Entries.get? (r.entries.map canonicalMember) key =
      Entries.get? (r'.entries.map canonicalMember) key := by
  rw [← get?_sortMembers, h.sorted_eq, get?_sortMembers]

end SameStyle

/-- The entries in canonical form of a record with a default in front. -/
theorem map_withLeadingDefault (r : StyleRecord) (key : String) (fallback : Value) :
    (r.withLeadingDefault key fallback).entries.map canonicalMember =
      (key, (Entries.get? (r.entries.map canonicalMember) key).getD fallback.canonical) ::
        (r.entries.map canonicalMember).filter fun e => e.1 != key := by
  have hget : Entries.get? (r.entries.map canonicalMember) key =
      (Entries.get? r.entries key).map Value.canonical := Entries.get?_map Value.canonical _ _
  rw [withLeadingDefault, List.map_cons, hget, List.filter_map, get?]
  congr 2
  cases Entries.get? r.entries key <;> rfl

/-- A default in front leaves two records one style. -/
theorem SameStyle.withLeadingDefault {r r' : StyleRecord} (h : r.SameStyle r') (key : String)
    (fallback : Value) :
    (r.withLeadingDefault key fallback).SameStyle (r'.withLeadingDefault key fallback) := by
  have hnames : (Entries.names (r.withLeadingDefault key fallback).entries).Nodup := by
    rw [StyleRecord.withLeadingDefault, Entries.names, List.map_cons, List.nodup_cons]
    refine ⟨fun hmem => ?_, h.nodup.sublist (List.filter_sublist.map _)⟩
    obtain ⟨e, he, heq⟩ := List.mem_map.1 hmem
    exact absurd heq (by simpa using (List.mem_filter.1 he).2)
  refine ⟨hnames, ?_⟩
  rw [canonicalKey_eq_iff, toValue_canonical, toValue_canonical, canonical, canonical]
  have hperm : ((r.withLeadingDefault key fallback).entries.map canonicalMember).Perm
      ((r'.withLeadingDefault key fallback).entries.map canonicalMember) := by
    rw [map_withLeadingDefault, map_withLeadingDefault, h.get?_eq key]
    exact (h.perm.filter _).cons _
  rw [sortMembers_eq_of_perm hperm (by rwa [names_map_canonicalMember])]

end WebStory.StyleRecord
