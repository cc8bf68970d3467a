import WebStory.Story.Parse
import WebStory.Proofs.Json.Ensures
import WebStory.Proofs.Json.Tree
import WebStory.Proofs.Outcome
import WebStory.Proofs.Story.Tree
import WebStory.Proofs.Style.Convert
/-
  The style records of a story that was read.

  That no key of a record occurs twice is asked for where records are compared by their canonical
  forms, so it should hold of all records that a story can have.

  1. **Values** — a style record is a part of the value the story is read from.  If no object in
     that value has a key twice, the same holds of every part of it: items, members, and what is
     present under a key.

  2. **Readers** — what reads a part of a story out of such a value reads it with such records
     (`Yields`), and a reader made of readers does as they do.  Only the readers that take a record
     at all have anything to prove.

  3. **Elements** — containers are followed by induction on the value (`ensures_parseElement`), then
     layers, pages and the table of default styles, up to the story (`keysOnce_parseStory`).
-/

namespace WebStory

open Json

/-- No key occurs twice in the record, at any depth. -/
def StyleRecord.KeysOnce (r : StyleRecord) : Prop := r.toValue.KeysOnce

/-- Read out of values in which no key occurs twice, the result is of a certain kind. -/
def Yields {ε α : Type} (P : α → Prop) (read : Value → Except ε α) : Prop :=
  ∀ v, v.KeysOnce → Ensures P (read v)

/-! ## Parts of values -/

theorem keysOnce_item {items : List Value} (h : (Value.array items).KeysOnce) {v : Value}
    (hv : v ∈ items) : v.KeysOnce := (Value.keysOnce_array items).1 h v hv

theorem keysOnce_member {members : Members} (h : (Value.object members).KeysOnce)
    {e : String × Value} (he : e ∈ members) : e.2.KeysOnce :=
  ((Value.keysOnce_object members).1 h).2 e he

theorem keysOnce_present? {members : Members} (h : (Value.object members).KeysOnce) {key : String}
    {v : Value} (hv : present? members key = some v) : v.KeysOnce :=
  keysOnce_member h (mem_of_present? (r := ⟨members⟩) hv)

/-! ## Typed data -/

theorem keysOnce_values {s : RecordSource} (once : s.value.KeysOnce) : ∀ v ∈ s.values, v.KeysOnce := by
  intro v hv
  cases s with
  | members entries =>
    obtain ⟨e, he, rfl⟩ := List.mem_map.1 hv
    exact keysOnce_member once he
  | items values => exact keysOnce_item once hv

section Decode

variable {α : Type} {P : α → Prop} {decode : Value → Decoded α}

theorem Yields.list (h : Yields P decode) : Yields (fun as => ∀ a ∈ as, P a) (decodeList decode) := by
  intro v once
  refine ensures_decodeList fun items hitems w hw => h w ?_
  exact keysOnce_item (hitems ▸ once) hw

theorem Yields.field (h : Yields P decode) {shape : RecordShape} {s : RecordSource}
    (once : s.value.KeysOnce) (index : Nat) (name : String) {fallback : Option α}
    (hfallback : ∀ a ∈ fallback, P a) :
    Ensures P (readField shape s index name fallback decode).toDecoded :=
  ensures_readField (fun v hv => h v (keysOnce_values once v hv)) index name hfallback

theorem yields_record {shape : RecordShape} {fields : RecordSource → Fields α}
    (h : ∀ s : RecordSource, s.value.KeysOnce → Ensures P (fields s).toDecoded) :
    Yields P (decodeRecord shape fields) :=
  fun _ once => ensures_decodeRecord fun s hs => h s (hs ▸ once)

end Decode

theorem yields_inlineStyle : Yields (fun s => s.styles.KeysOnce) InlineStyle.decode := by
  have hany {α : Type} (read : Value → Decoded α) : Yields (fun _ => True) read :=
    fun v _ => ensures_true _
  have hstyles : Yields StyleRecord.KeysOnce fun v => (decodeObject v).map StyleRecord.mk := by
    intro v once
    cases v with
    | object members => exact ensures_ok once
    | _ => exact ensures_error _
  refine yields_record fun s once => ?_
  refine ensures_both (Q := StyleRecord.KeysOnce) (ensures_both (ensures_both (ensures_ok ?_)
    ((hany _).field once _ _ fun _ _ => trivial))
    ((hany _).field once _ _ fun _ _ => trivial)) ?_
  · exact fun start _ length _ styles hs => hs
  · refine hstyles.field once _ _ fun r hr => ?_
    obtain rfl : StyleRecord.empty = r := Option.some.inj hr
    exact (Value.keysOnce_object []).2 ⟨List.nodup_nil, nofun⟩

/-! ## Elements -/

/-- Records that may be there have every key once. -/
theorem ensures_optionalStyle {members : Members} (once : (Value.object members).KeysOnce)
    (path : Path) :
    Ensures (fun styles => ∀ r ∈ styles.toList, r.KeysOnce) (optionalStyle members path) := by
  unfold optionalStyle
  split
  · exact ensures_ok nofun
  · next v hv =>
    have hv := keysOnce_present? once hv
    cases v with
    | object entries => exact ensures_ok (List.forall_mem_singleton.2 hv)
    | _ => exact ensures_error _

theorem ensures_optionalTyped {α : Type} {P : α → Prop} {decode : Value → Decoded α}
    (h : Yields P decode) {members : Members} (once : (Value.object members).KeysOnce) (key : String)
    (path : Path) : Ensures (fun a? => ∀ a ∈ a?, P a) (optionalTyped decode members key path) := by
  unfold optionalTyped
  split
  · exact ensures_ok nofun
  · next v hv =>
    have hread := h v (keysOnce_present? once hv)
    split
    · next a ha =>
      refine ensures_ok fun b hb => ?_
      rw [← Option.some.inj hb]
      exact hread a ha
    · exact ensures_error _

/-- Every style record of the element has every key once. -/
def Element.KeysOnce (e : Element) : Prop := ∀ r ∈ e.styleRecords, r.KeysOnce

section Element

variable {members : Members} (once : (Value.object members).KeysOnce) (path : Path)
include once

theorem ensures_parseText (kind : TextKind) :
    Ensures (fun t => (Element.text t).KeysOnce) (parseText kind members path) := by
  have hranges := ensures_optionalTyped yields_inlineStyle.list once "inlineStyles" path
  refine hranges.bind fun ranges? hranges => ?_
  have hall : ∀ s ∈ ranges?.getD [], s.styles.KeysOnce := by
    cases ranges? with
    | none => exact nofun
    | some ranges => exact hranges ranges rfl
  dsimp only
  split
  · exact ensures_error _
  · refine (ensures_true _).bind fun id _ => (ensures_true _).bind fun text _ => ?_
    refine (ensures_optionalStyle once path).bind fun styles hstyles => ensures_ok ?_
    rw [Element.KeysOnce, Element.styleRecords, List.forall_mem_append, List.forall_mem_map]
    exact ⟨hall, hstyles⟩

theorem ensures_parseImage :
    Ensures (fun i => (Element.image i).KeysOnce) (parseImage members path) := by
  refine (ensures_true _).bind fun id _ => (ensures_true _).bind fun source _ => ?_
  refine (ensures_true _).bind fun alt _ => (ensures_true _).bind fun width _ => ?_
  refine (ensures_true _).bind fun height _ => (ensures_true _).bind fun layout _ => ?_
  exact (ensures_optionalStyle once path).bind fun styles hstyles => ensures_ok hstyles

theorem ensures_parseVideo :
    Ensures (fun v => (Element.video v).KeysOnce) (parseVideo members path) := by
  refine (ensures_true _).bind fun sources? _ => ?_
  split
  · exact ensures_error _
  · exact ensures_error _
  · refine (ensures_true _).bind fun id _ => (ensures_true _).bind fun width _ => ?_
    refine (ensures_true _).bind fun height _ => (ensures_true _).bind fun layout _ => ?_
    refine (ensures_true _).bind fun poster _ => (ensures_true _).bind fun looping _ => ?_
    refine (ensures_true _).bind fun autoplay _ => ?_
    exact (ensures_optionalStyle once path).bind fun styles hstyles => ensures_ok hstyles

end Element

/-! ## Parts in a list -/

section Parts

variable {α : Type} {P : α → Prop} {parse : Nat → Value → Parsed α}

theorem ensures_parseIndexed {items : List Value} (h : ∀ v ∈ items, ∀ i, Ensures P (parse i v))
    (index : Nat) : Ensures (fun as => ∀ a ∈ as, P a) (parseIndexed parse index items) := by
  induction items generalizing index with
  | nil => exact ensures_ok nofun
  | cons v rest ih =>
    rw [List.forall_mem_cons] at h
    exact (h.1 index).bind fun a ha => (ih h.2 (index + 1)).bind fun as has =>
      ensures_ok (List.forall_mem_cons.2 ⟨ha, has⟩)

theorem ensures_parseParts {members : Members} (once : (Value.object members).KeysOnce) (key : String)
    (path : Path) (h : ∀ items, Entries.get? members key = some (.array items) → ∀ v ∈ items,
      v.KeysOnce → ∀ i, Ensures P (parse i v)) :
    Ensures (fun as => ∀ a ∈ as, P a) (parseParts parse members key path) := by
  unfold parseParts
  split
  · exact ensures_ok nofun
  · next items hitems =>
    have honce := keysOnce_present? once hitems
    have hget := (present?_eq_some_iff.1 hitems).1
    exact ensures_parseIndexed (fun v hv => h items hget v hv (keysOnce_item honce hv)) 0
  · exact ensures_error _

end Parts

/-! ## Elements in elements -/

/-- The elements of a container are read from the items of an array inside its object. -/
theorem ensures_parseElement {v : Value} (once : v.KeysOnce) (path : Path) :
    Ensures Element.KeysOnce (parseElement path v) := by
  induction v using Value.induct_listed generalizing path with
  | other v hv =>
    cases v with
    | object members => exact absurd rfl (hv members)
    | _ => exact ensures_error _
  | object members ih =>
    have hmembers : Ensures (fun elements => ∀ e ∈ elements, e.KeysOnce)
        (parseMember path "elements" members) := by
      rw [parseMember_eq]
      exact ensures_parseParts once "elements" path fun items hitems w hw hwonce i =>
        ih _ items hitems w hw hwonce _
    rw [parseElement]
    refine (ensures_true _).bind fun head _ => ?_
    split
    · refine (Ensures.bind (P := fun head => ∀ r ∈ head.2.toList, r.KeysOnce) ?_)
        fun head hhead => hmembers.bind fun elements helements => ensures_ok ?_
      · exact (ensures_true _).bind fun id _ =>
          (ensures_optionalStyle once path).bind fun styles hstyles => ensures_ok hstyles
      · rw [Element.KeysOnce, Element.styleRecords, List.forall_mem_append,
          elementRecords_eq_flatMap, List.forall_mem_flatMap]
        exact ⟨helements, hhead⟩
    · exact (ensures_parseImage once path).map fun i hi => hi
    · exact (ensures_parseVideo once path).map fun v hv => hv
    · exact (ensures_parseText once path _).map fun t ht => ht

/-! ## Layers, pages, stories -/

theorem ensures_parseObject {v : Value} (once : v.KeysOnce) (what : String) (path : Path) :
    Ensures (fun members => (Value.object members).KeysOnce) (parseObject what path v) := by
  cases v with
  | object members => exact ensures_ok once
  | _ => exact ensures_error _

theorem ensures_parseLayerElements {members : Members} (once : (Value.object members).KeysOnce)
    (template : LayerTemplate) (path : Path) :
    Ensures (fun elements => ∀ e ∈ elements, e.KeysOnce)
      (parseLayerElements template members path) := by
  have hlist : Ensures (fun elements => ∀ e ∈ elements, e.KeysOnce)
      (parseMember path "elements" members) := by
    rw [parseMember_eq]
    exact ensures_parseParts once "elements" path fun _ _ v _ hv i => ensures_parseElement hv _
  cases template with
  | fill =>
    unfold parseLayerElements
    simp only
    split
    · exact ensures_error _
    · next v hv =>
      exact (ensures_parseElement (keysOnce_present? once hv) (path.key "element")).map
        fun e he => List.forall_mem_singleton.2 he
  | _ => exact hlist

theorem yields_parseLayer (path : Path) :
    Yields (fun l => ∀ r ∈ l.styleRecords, r.KeysOnce) (parseLayer path) := by
  intro v once
  have hrecords {elements : List Element} {styles : Option StyleRecord} (template : LayerTemplate)
      (helements : ∀ e ∈ elements, e.KeysOnce) (hstyles : ∀ r ∈ styles.toList, r.KeysOnce) :
      ∀ r ∈ (Layer.mk template styles elements).styleRecords, r.KeysOnce := by
    rw [Layer.styleRecords, List.forall_mem_append, elementRecords_eq_flatMap,
      List.forall_mem_flatMap]
    exact ⟨helements, hstyles⟩
  refine (ensures_parseObject once "layer" path).bind fun members hmembers => ?_
  split
  · exact (ensures_parseElement once path).bind fun e he =>
      ensures_ok (hrecords .fill (List.forall_mem_singleton.2 he) nofun)
  · refine (ensures_true _).bind fun template _ => ?_
    refine (ensures_parseLayerElements hmembers template path).bind fun elements helements => ?_
    exact (ensures_optionalStyle hmembers path).bind fun styles hstyles =>
      ensures_ok (hrecords template helements hstyles)

theorem yields_parsePage (path : Path) (index : Nat) :
    Yields (fun p => ∀ r ∈ p.styleRecords, r.KeysOnce) (parsePage path index) := by
  intro v once
  refine (ensures_parseObject once "page" path).bind fun members hmembers => ?_
  have hlayers := ensures_parseParts hmembers "layers" path fun _ _ v _ hv i =>
    yields_parseLayer (path.keyItem "layers" i) v hv
  refine hlayers.bind fun layers hlayers => (ensures_true _).bind fun id _ => ?_
  refine (ensures_true _).bind fun advance _ => ensures_ok ?_
  rw [Page.styleRecords, List.forall_mem_flatMap]
  exact hlayers

theorem ensures_parseDefaultStyles {table : Members} (once : (Value.object table).KeysOnce) :
    Ensures (fun styles => ∀ e ∈ styles, e.2.KeysOnce) (parseDefaultStyles table) := by
  have hvalues (e : String × Value) (he : e ∈ table) : e.2.KeysOnce := keysOnce_member once he
  clear once
  induction table with
  | nil => exact ensures_ok nofun
  | cons e rest ih =>
    obtain ⟨name, v⟩ := e
    have hrest := ih fun f hf => hvalues f (List.mem_cons_of_mem _ hf)
    have hv : v.KeysOnce := hvalues (name, v) List.mem_cons_self
    have hstyle : Ensures StyleRecord.KeysOnce (parseStyle (defaultStylePath name) v) := by
      cases v with
      | object entries => exact ensures_ok hv
      | _ => exact ensures_error _
    rw [parseDefaultStyles]
    exact hstyle.bind fun style hstyle => hrest.bind fun styles hstyles =>
      ensures_ok (List.forall_mem_cons.2 ⟨hstyle, hstyles⟩)

/-- Every style record of a story that was read has every key once. -/
theorem keysOnce_parseStory : Yields (fun s => ∀ r ∈ s.styleRecords, r.KeysOnce) parseStory := by
  intro v once
  refine (ensures_parseObject once "story" .story).bind fun members hmembers => ?_
  have hpages := ensures_parseParts hmembers "pages" .story fun _ _ v _ hv i =>
    yields_parsePage (pagePath i) i v hv
  have hdefaults : Ensures (fun styles => ∀ e ∈ styles, e.2.KeysOnce) (parseStyleTable members) := by
    unfold parseStyleTable
    split
    · exact ensures_ok nofun
    · next table htable => exact ensures_parseDefaultStyles (keysOnce_present? hmembers htable)
    · exact ensures_error _
  refine hpages.bind fun pages hpages => hdefaults.bind fun defaults hdefaults => ?_
  refine (ensures_true _).bind fun title _ => (ensures_true _).bind fun canonicalUrl _ => ?_
  refine (ensures_true _).bind fun preview _ => (ensures_true _).bind fun storyMeta _ => ?_
  refine (ensures_true _).bind fun customCss _ => (ensures_true _).bind fun analytics _ => ?_
  refine (ensures_true _).bind fun bookend _ => ensures_ok ?_
  rw [Story.styleRecords, List.forall_mem_append, List.forall_mem_flatMap, List.forall_mem_map]
  exact ⟨hpages, hdefaults⟩

end WebStory
