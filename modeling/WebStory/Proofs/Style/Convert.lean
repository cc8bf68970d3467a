import WebStory.Style.Convert
import WebStory.Proofs.Style.CanonicalKey
import WebStory.Proofs.Style.Shapes
/-
  The declarations of a record and of its canonical form.

  One class is given to all records with one canonical form, and its rule shows the first of them.
  So it matters what the conversion sees of the difference between a record and its canonical form:
  the order of keys at every depth, and whether a whole number is spelled with a point.

  1. **Texts of values** — scalars are shown as their canonical forms are.  A structured value is
     read first, and reading looks up its fields and takes numbers for what they are, so it does not
     see the difference either.  Both readings fail, or both give one value (`agree_valueText`).

  2. **Entries** — what a record is converted to comes from its entries one by one
     (`declaredPair?`), so a permutation of the entries permutes what they declare
     (`declaredPairs_canonical`).

  3. **Overwrites** — those at the end look up single properties and do not see the order.  They do
     see the place of what they overwrite, which is why the order of declarations is left open
     (`SameDeclarations`).

  4. **Records** — so a record and its canonical form are converted alike: both fail, or both give
     declarations (`agree_convert_canonical`).  For plain records (`StyleRecord.Plain`) these are
     the same declarations up to their order.  What is not plain is an array or an object where a
     scalar is expected, since it is printed as it stands, with its own order and spelling.
-/

namespace WebStory

open Json

/-! ## Texts of values -/

/-- A value that is neither an array nor an object. -/
def Json.Value.isScalar : Value → Bool
  | .array _ => false
  | .object _ => false
  | _ => true

section Values

variable {strict : Prop} {v : Value}

/-- A scalar is shown as its canonical form is. -/
theorem plainText_canonical (hexact : v.Exact) (hscalar : v.isScalar = true) :
    plainText v.canonical = plainText v := by
  cases v with
  | number n => exact Number.cssText_canonical (hexact n (List.mem_singleton.2 rfl))
  | array items => exact absurd hscalar (by simp [Value.isScalar])
  | object members => exact absurd hscalar (by simp [Value.isScalar])
  | _ => rfl

theorem distanceText_canonical (hexact : v.Exact) (hscalar : v.isScalar = true) :
    distanceText v.canonical = distanceText v := by
  cases v with
  | number n =>
    have hn := Number.cssText_canonical (hexact n (List.mem_singleton.2 rfl))
    exact congrArg (· ++ "px") hn
  | array items => exact absurd hscalar (by simp [Value.isScalar])
  | object members => exact absurd hscalar (by simp [Value.isScalar])
  | _ => rfl

theorem agree_structured {α : Type} {R : α → α → Prop} {decode : Value → Decoded α}
    (h : Respects strict R decode) (hexact : strict → v.Exact) :
    Agree R (structured decode v) (structured decode v.canonical) :=
  (h v hexact).mapError _ _

theorem agree_borderText (hexact : strict → v.Exact) :
    Agree (Alike strict) (borderText v) (borderText v.canonical) := by
  have hborder := agree_structured Border.respects_decode hexact
  cases v with
  | string s => exact fun _ => rfl
  | _ => exact hborder.bind fun a b hab hs => congrArg Border.cssText (hab hs)

/-- Lists of one length are both empty or both not. -/
theorem isEmpty_eq_of_length_eq {α : Type} {as bs : List α} (h : as.length = bs.length) :
    as.isEmpty = bs.isEmpty := by
  rw [Bool.eq_iff_iff, List.isEmpty_iff_length_eq_zero, List.isEmpty_iff_length_eq_zero, h]

theorem agree_shadowsText (spread : Bool) (hexact : strict → v.Exact) :
    Agree (Alike strict) (shadowsText spread v) (shadowsText spread v.canonical) := by
  have htext : Agree (Alike strict)
      (structured decodeShadows v >>= fun shadows => if shadows.isEmpty then .error .noShadow
        else .ok (", ".intercalate (shadows.map (·.cssText spread))))
      (structured decodeShadows v.canonical >>= fun shadows =>
        if shadows.isEmpty then .error StyleFault.noShadow
        else .ok (", ".intercalate (shadows.map (·.cssText spread)))) := by
    refine (agree_structured respects_decodeShadows hexact).bind fun as bs h => ?_
    rw [isEmpty_eq_of_length_eq h.1]
    split
    · trivial
    · intro hs
      rw [h.2 hs]
  cases v with
  | string s => exact fun _ => rfl
  | _ => exact htext

theorem agree_gradientText (hexact : strict → v.Exact) :
    Agree (Alike strict) (gradientText v) (gradientText v.canonical) := by
  refine (agree_structured LinearGradient.respects_decode hexact).bind fun g h hgh => ?_
  rw [isEmpty_eq_of_length_eq hgh.1]
  split
  · trivial
  · intro hs
    rw [hgh.2 hs]

/-- An object that does not have one member is no function. -/
theorem functionText_object (family : FunctionFamily) (index : Nat) {members : Members}
    (h : members.length ≠ 1) :
    functionText family index (.object members) = .error (.notSingleKey index) := by
  match members with
  | [] => rfl
  | [_] => exact absurd rfl h
  | _ :: _ :: _ => rfl

theorem agree_functionText (family : FunctionFamily) (index : Nat) (hexact : strict → v.Exact) :
    Agree (Alike strict) (functionText family index v) (functionText family index v.canonical) := by
  cases v with
  | object members =>
    rw [Value.canonical_object]
    -- one member is sorted already, and sorting does not change how many there are
    by_cases hone : members.length = 1
    · obtain ⟨⟨function, argument⟩, rfl⟩ := List.length_eq_one_iff.1 hone
      have hsort : sortMembers (List.map canonicalMember [(function, argument)]) =
          [(function, argument.canonical)] := List.mergeSort_singleton _
      rw [hsort]
      cases argument with
      | number n =>
        intro hs
        have hn : n.Exact := hexact hs n
          (Value.mem_numbers_object.2 ⟨_, List.mem_singleton.2 rfl, List.mem_singleton.2 rfl⟩)
        rw [Number.cssText_canonical hn]
      | string s => exact fun _ => rfl
      | _ => trivial
    · have hlength : (sortMembers (members.map canonicalMember)).length ≠ 1 := by
        rw [(sortMembers_perm _).length_eq, List.length_map]
        exact hone
      rw [functionText_object family index hone, functionText_object family index hlength]
      trivial
  | _ => trivial

theorem agree_functionTexts (family : FunctionFamily) (index : Nat) {items : List Value}
    (hexact : strict → ∀ v ∈ items, v.Exact) :
    Agree (Alike strict) (functionTexts family index items)
      (functionTexts family index (items.map Value.canonical)) := by
  induction items generalizing index with
  | nil => exact fun _ => rfl
  | cons v rest ih =>
    have hhead := agree_functionText family index fun hs => hexact hs v List.mem_cons_self
    have hrest := ih (index + 1) fun hs w hw => hexact hs w (List.mem_cons_of_mem _ hw)
    refine hhead.bind fun a b hab => hrest.bind fun as bs habs hs => ?_
    rw [hab hs, habs hs]

theorem agree_functionsText (family : FunctionFamily) (hexact : strict → v.Exact) :
    Agree (Alike strict) (functionsText family v) (functionsText family v.canonical) := by
  cases v with
  | string s => exact fun _ => rfl
  | array items =>
    rw [Value.canonical_array]
    have htexts := agree_functionTexts family 0 fun hs w hw => (hexact hs).item hw
    exact htexts.bind fun as bs h hs => congrArg (" ".intercalate) (h hs)
  | _ => trivial

/-- The text of a value is that of its canonical form, where only scalars are taken as they are. -/
theorem agree_valueText (kind : KeyKind) (hexact : strict → v.Exact)
    (hscalar : strict → kind = .distance ∨ kind = .plain → v.isScalar = true) :
    Agree (Alike strict) (kind.valueText v) (kind.valueText v.canonical) := by
  cases kind with
  | distance =>
    exact fun hs => (distanceText_canonical (hexact hs) (hscalar hs (Or.inl rfl))).symm
  | border => exact agree_borderText hexact
  | shadow spread => exact agree_shadowsText spread hexact
  | functions family => exact agree_functionsText family hexact
  | plain => exact fun hs => (plainText_canonical (hexact hs) (hscalar hs (Or.inr rfl))).symm

end Values

/-! ## Entries -/

/-- The text of an entry's value. -/
def entryText (e : String × Value) : Except StyleFault String := (KeyKind.ofKey e.1).valueText e.2

/-- What an entry declares, if it declares something and its value has a text. -/
def declaredPair? (e : String × Value) : Option (String × String) :=
  if declares e then (entryText e).toOption.map (dasherize e.1, ·) else none

/-- What the entries of a record declare, in their order. -/
def declaredPairs (entries : Members) : List (String × String) := entries.filterMap declaredPair?

/-- The entries are declared exactly if each of them has a text. -/
theorem declareEntries_isOk_iff (entries : Members) (done : Declarations) :
    (∃ d, declareEntries entries done = .ok d) ↔
      ∀ e ∈ entries, declares e = true → ∃ text, entryText e = .ok text := by
  induction entries generalizing done with
  | nil => exact ⟨fun _ => nofun, fun _ => ⟨done, rfl⟩⟩
  | cons e rest ih =>
    obtain ⟨key, value⟩ := e
    rw [List.forall_mem_cons, declareEntries]
    split
    · next hdeclares =>
      cases htext : (KeyKind.ofKey key).valueText value with
      | error fault =>
        constructor
        · rintro ⟨d, hd⟩
          exact absurd hd nofun
        · rintro ⟨hhead, -⟩
          obtain ⟨text, ht⟩ := hhead hdeclares
          rw [entryText, htext] at ht
          exact absurd ht nofun
      | ok text =>
        exact (ih _).trans ⟨fun hrest => ⟨fun _ => ⟨text, htext⟩, hrest⟩, fun h => h.2⟩
    · next hsilent =>
      -- an entry that declares nothing is passed over, whatever its value
      exact (ih _).trans ⟨fun hrest => ⟨fun h => absurd h hsilent, hrest⟩, fun h => h.2⟩

/-- What was declared is set one after another. -/
theorem pairs_of_declareEntries {entries : Members} {done d : Declarations}
    (h : declareEntries entries done = .ok d) :
    d.pairs =
      (declaredPairs entries).foldl (fun pairs e => Entries.set pairs e.1 e.2) done.pairs := by
  induction entries generalizing done with
  | nil => rw [← Except.ok.inj h]; rfl
  | cons e rest ih =>
    obtain ⟨key, value⟩ := e
    rw [declareEntries] at h
    split at h
    · next hdeclares =>
      cases htext : (KeyKind.ofKey key).valueText value with
      | error fault =>
        rw [htext] at h
        exact absurd h nofun
      | ok text =>
        rw [htext] at h
        have hpair : declaredPair? (key, value) = some (dasherize key, text) := by
          rw [declaredPair?, if_pos hdeclares, entryText, htext]
          rfl
        rw [ih h, declaredPairs, declaredPairs, List.filterMap_cons_some hpair, List.foldl_cons]
        rfl
    · next hsilent =>
      have hpair : declaredPair? (key, value) = none := if_neg hsilent
      rw [ih h, declaredPairs, declaredPairs, List.filterMap_cons_none hpair]

/-- Every declared property is that of an entry. -/
theorem names_declaredPairs_sublist (entries : Members) :
    (Entries.names (declaredPairs entries)).Sublist (entries.map fun e => dasherize e.1) := by
  induction entries with
  | nil => exact List.Sublist.refl _
  | cons e rest ih =>
    cases hpair : declaredPair? e with
    | none =>
      rw [declaredPairs, List.filterMap_cons_none hpair, List.map_cons]
      exact ih.cons _
    | some pair =>
      have hname : pair.1 = dasherize e.1 := by
        unfold declaredPair? at hpair
        split at hpair
        · obtain ⟨text, -, rfl⟩ := Option.map_eq_some_iff.1 hpair
          rfl
        · exact absurd hpair nofun
      rw [declaredPairs, List.filterMap_cons_some hpair, Entries.names, List.map_cons, hname,
        List.map_cons]
      exact ih.cons_cons _

/-! ## Records -/

/-- The keys whose values are structured. -/
def structuredKeys : List String :=
  borderKeys ++ ["boxShadow", "textShadow", "transform", "filter", "backdropFilter", gradientKey]

/-- A record of which a style sheet shows neither the order nor how its numbers are spelled. -/
structure StyleRecord.Plain (r : StyleRecord) : Prop where
  /-- No two keys name one property. -/
  properties_nodup : (r.entries.map fun e => dasherize e.1).Nodup
  /-- Only structured keys have structured values. -/
  scalar : ∀ e ∈ r.entries, e.1 ∉ structuredKeys → e.2.isScalar = true
  exact : r.toValue.Exact

/-- Values that are taken as they are, or as lengths, do not belong to structured keys. -/
theorem not_mem_structuredKeys {key : String} (h : key ≠ gradientKey)
    (hkind : KeyKind.ofKey key = .distance ∨ KeyKind.ofKey key = .plain) :
    key ∉ structuredKeys := by
  have hstructured : ∀ key ∈ structuredKeys, key = gradientKey ∨
      KeyKind.ofKey key ≠ .distance ∧ KeyKind.ofKey key ≠ .plain := by decide
  intro hmem
  rcases hstructured key hmem with heq | ⟨hdistance, hplain⟩
  · exact h heq
  · exact hkind.elim hdistance hplain

theorem isNull_canonical (v : Value) : v.canonical.isNull = v.isNull := by cases v <;> rfl

theorem declares_canonicalMember (e : String × Value) :
    declares (canonicalMember e) = declares e := by
  rw [declares, declares, canonicalMember, isNull_canonical]

section Records

variable {strict : Prop} {r : StyleRecord} (plain : strict → r.Plain)
include plain

theorem exact_of_mem {e : String × Value} (he : e ∈ r.entries) (hs : strict) : e.2.Exact :=
  Value.Exact.member (plain hs).exact he

/-- An entry that declares something has the text of its canonical form. -/
theorem agree_entryText {e : String × Value} (he : e ∈ r.entries) (hdeclares : declares e = true) :
    Agree (Alike strict) (entryText e) (entryText (canonicalMember e)) := by
  refine agree_valueText _ (exact_of_mem plain he) fun hs hkind => ?_
  have hkey : e.1 ≠ gradientKey := by
    rw [declares, Bool.and_eq_true] at hdeclares
    exact bne_iff_ne.1 hdeclares.2
  exact (plain hs).scalar e he (not_mem_structuredKeys hkey hkind)

theorem declaredPair?_canonicalMember {e : String × Value} (he : e ∈ r.entries) (hs : strict) :
    declaredPair? (canonicalMember e) = declaredPair? e := by
  unfold declaredPair?
  rw [declares_canonicalMember]
  split
  · next hdeclares =>
    have htext := agree_entryText plain he hdeclares
    cases ht : entryText e <;> cases ht' : entryText (canonicalMember e) <;> rw [ht, ht'] at htext
    · rfl
    · exact htext.elim
    · exact htext.elim
    · rw [htext hs]
      rfl
  · rfl

/-- The entries of the canonical form declare the same, in another order. -/
theorem declaredPairs_canonical (hs : strict) :
    (declaredPairs r.entries).Perm (declaredPairs r.canonical.entries) := by
  have hmap : declaredPairs (r.entries.map canonicalMember) = declaredPairs r.entries := by
    rw [declaredPairs, List.filterMap_map]
    exact List.filterMap_congr fun e he => declaredPair?_canonicalMember plain he hs
  rw [← hmap]
  exact ((sortMembers_perm _).filterMap declaredPair?).symm

/-- Declarations that are the same up to their order, where that is asked for. -/
def SameDeclarations (strict : Prop) (d d' : Declarations) : Prop :=
  strict → (Entries.names d.pairs).Nodup ∧ d.pairs.Perm d'.pairs

omit plain in
theorem SameDeclarations.set {d d' : Declarations} (h : SameDeclarations strict d d')
    (property value : String) :
    SameDeclarations strict (d.set property value) (d'.set property value) :=
  fun hs => ⟨Entries.nodup_names_set _ _ (h hs).1, Entries.set_perm (h hs).2 (h hs).1 _ _⟩

theorem agree_declareEntries : Agree (SameDeclarations strict)
    (declareEntries r.entries .empty) (declareEntries r.canonical.entries .empty) := by
  have hisOk : (∃ d, declareEntries r.entries .empty = .ok d) ↔
      ∃ d, declareEntries r.canonical.entries .empty = .ok d := by
    rw [declareEntries_isOk_iff, declareEntries_isOk_iff]
    -- the entries of the canonical form are the canonical forms of the entries
    have hmem (e : String × Value) : e ∈ r.canonical.entries ↔
        ∃ e' ∈ r.entries, canonicalMember e' = e := by
      rw [StyleRecord.canonical, (sortMembers_perm _).mem_iff, List.mem_map]
    constructor
    · intro h e he hdeclares
      obtain ⟨e', he', rfl⟩ := (hmem e).1 he
      rw [declares_canonicalMember] at hdeclares
      exact (agree_entryText plain he' hdeclares).exists_ok_iff.1 (h e' he' hdeclares)
    · intro h e he hdeclares
      have htext := h (canonicalMember e) ((hmem _).2 ⟨e, he, rfl⟩)
        (by rw [declares_canonicalMember, hdeclares])
      exact (agree_entryText plain he hdeclares).exists_ok_iff.2 htext
  refine Agree.of_exists_ok_iff hisOk fun d d' hd hd' hs => ?_
  have hperm := declaredPairs_canonical plain hs
  have hnodup : (Entries.names (declaredPairs r.entries)).Nodup :=
    (names_declaredPairs_sublist r.entries).nodup (plain hs).properties_nodup
  have hnodup' : (Entries.names (declaredPairs r.canonical.entries)).Nodup :=
    (hperm.map _).nodup hnodup
  -- no property is set twice, so what is declared is the list of what the entries declare
  have hpairs : d.pairs = declaredPairs r.entries := by
    rw [pairs_of_declareEntries hd]
    exact Entries.foldl_set_of_nodup [] hnodup
  have hpairs' : d'.pairs = declaredPairs r.canonical.entries := by
    rw [pairs_of_declareEntries hd']
    exact Entries.foldl_set_of_nodup [] hnodup'
  rw [hpairs, hpairs']
  exact ⟨hnodup, hperm⟩

omit plain in
theorem present?_canonical (key : String) :
    present? r.canonical.entries key = (present? r.entries key).map Value.canonical := by
  unfold present?
  rw [StyleRecord.canonical, get?_canonical]
  cases Entries.get? r.entries key with
  | none => rfl
  | some v =>
    simp only [Option.map_some, isNull_canonical]
    split <;> rfl

omit plain in
theorem mem_of_present? {key : String} {v : Value} (h : present? r.entries key = some v) :
    (key, v) ∈ r.entries := by
  unfold present? at h
  split at h
  · exact absurd h nofun
  · next w hget =>
    split at h
    · exact absurd h nofun
    · rw [← Option.some.inj h]
      exact Entries.mem_of_get? hget

theorem agree_declareGradient {d d' : Declarations} (h : SameDeclarations strict d d') :
    Agree (SameDeclarations strict) (declareGradient r d) (declareGradient r.canonical d') := by
  unfold declareGradient
  rw [present?_canonical]
  cases hv : present? r.entries gradientKey with
  | none => exact h
  | some v =>
    have htext := agree_gradientText (exact_of_mem plain (mem_of_present? hv))
    refine (htext.mapError _ _).bind fun a b hab hs => ?_
    rw [hab hs]
    exact h.set _ _ hs

theorem sameDeclarations_declareAlias {d d' : Declarations} (h : SameDeclarations strict d d')
    (key property : String) (hkey : key ∉ structuredKeys) :
    SameDeclarations strict (declareAlias r key property d)
      (declareAlias r.canonical key property d') := by
  unfold declareAlias
  rw [present?_canonical]
  cases hv : present? r.entries key with
  | none => exact h
  | some v =>
    intro hs
    have hmem := mem_of_present? hv
    have htext := plainText_canonical (exact_of_mem plain hmem hs) ((plain hs).scalar _ hmem hkey)
    simp only [Option.map_some, htext]
    exact h.set _ _ hs

/-- A record and its canonical form are converted alike. -/
theorem agree_convert_canonical :
    Agree (SameDeclarations strict) r.convert r.canonical.convert := by
  -- step by step as the conversion goes
  refine (agree_declareEntries plain).bind fun own own' hown => ?_
  refine (agree_declareGradient plain hown).bind fun d d' hd => ?_
  have hjustify :=
    sameDeclarations_declareAlias plain hd "justifyContent" "align-content" (by decide)
  have halign :=
    sameDeclarations_declareAlias plain hjustify "alignItems" "justify-items" (by decide)
  exact halign.set _ _

end Records

/-- Records with one canonical form are both malformed or both converted. -/
theorem isOk_convert_iff {r q : StyleRecord} (h : r.canonical = q.canonical) :
    (∃ d, r.convert = .ok d) ↔ ∃ d, q.convert = .ok d := by
  have hr := agree_convert_canonical (False.elim : False → r.Plain)
  have hq := agree_convert_canonical (False.elim : False → q.Plain)
  rw [hr.exists_ok_iff, hq.exists_ok_iff, h]

/-- Plain records with one canonical form are converted to the same declarations. -/
theorem perm_of_convert {r q : StyleRecord} (h : r.canonical = q.canonical) (plain : r.Plain)
    (plain' : q.Plain) {d d' : Declarations} (hr : r.convert = .ok d) (hq : q.convert = .ok d') :
    d.pairs.Perm d'.pairs := by
  have hagree := agree_convert_canonical fun _ : True => plain
  have hagree' := agree_convert_canonical fun _ : True => plain'
  rw [hr, h] at hagree
  rw [hq] at hagree'
  cases hc : q.canonical.convert with
  | error e =>
    rw [hc] at hagree
    exact hagree.elim
  | ok c =>
    rw [hc] at hagree hagree'
    exact (hagree trivial).2.trans (hagree' trivial).2.symm

end WebStory
