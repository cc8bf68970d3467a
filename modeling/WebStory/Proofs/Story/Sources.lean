import WebStory.Proofs.Story.Places
import Mathlib.Data.List.Forall2
/-
  Where in a value the parts of a story were read.

  A part keeps nothing of the value it was read from, but that value can be found again.

  1. **Lists** — ranges, elements, layers and pages are the items of a list under a key, one by one
     and in order (`listUnder`).  Where the key is absent or null, or holds no list, there are none,
     and the part has none.

  2. **Parts** — what an element is made of stands among the members of an object: its styles are
     those under their key, its ranges and the elements inside come from the items of their lists
     (`Element.ReadFrom`).  A layer may have been an element in place of a layer
     (`readFrom_parseLayer`).

  3. **The way down** — from the root to a layer it is the steps through the lists of pages and of
     layers (`layerSteps`), so the value of every layer of a story stands where its path says
     (`exists_layer_of_parseStory`).
-/

namespace WebStory

open Json

/-! ## Items of a list -/

/-- The items of the list under a key, none if there is no list. -/
def listUnder (members : Members) (key : String) : List Value :=
  match Entries.get? members key with
  | some (.array items) => items
  | _ => []

theorem listUnder_eq {members : Members} {key : String} {items : List Value}
    (h : Entries.get? members key = some (.array items)) : listUnder members key = items := by
  rw [listUnder, h]

theorem listUnder_eq_nil {members : Members} {key : String}
    (h : present? members key = none) : listUnder members key = [] := by
  unfold listUnder
  rcases present?_eq_none_iff.1 h with h | h <;> rw [h]

/-- An item is only where there is a list. -/
theorem get?_of_getElem?_listUnder {members : Members} {key : String} {i : Nat} {v : Value}
    (h : (listUnder members key)[i]? = some v) :
    Entries.get? members key = some (.array (listUnder members key)) := by
  unfold listUnder at h ⊢
  split at h
  · next items hitems => exact hitems
  · cases h

theorem exists_getElem?_of_forall₂ {α β : Type} {R : α → β → Prop} {as : List α} {bs : List β}
    (h : List.Forall₂ R as bs) {i : Nat} {b : β} (hb : bs[i]? = some b) :
    ∃ a, as[i]? = some a ∧ R a b := by
  induction h generalizing i with
  | nil => cases hb
  | cons hab _ ih =>
    cases i with
    | zero =>
      obtain rfl := Option.some.inj hb
      exact ⟨_, rfl, hab⟩
    | succ i => exact ih hb

/-- What holds of items, whatever their indices are. -/
theorem forall₂_of_zipIdx {α β : Type} {R : α → β → Prop} {as : List α} {bs : List β} {k : Nat}
    (h : List.Forall₂ (fun x b => R x.1 b) (as.zipIdx k) bs) : List.Forall₂ R as bs := by
  rw [← List.zipIdx_map_fst k as]
  exact List.forall₂_map_left_iff.2 h

/-! ## Readers -/

section Readers

variable {α : Type} {decode : Value → Decoded α} {parse : Nat → Value → Parsed α}

theorem items_decodeItems {items : List Value} :
    Ensures (List.Forall₂ (fun v a => decode v = .ok a) items) (decodeItems decode items) := by
  induction items with
  | nil => exact ensures_ok .nil
  | cons v rest ih =>
    intro as has
    rw [decodeItems] at has
    cases hv : decode v with
    | error e => rw [hv] at has; cases has
    | ok a =>
      rw [hv] at has
      refine (ih.bind fun as hrest => ?_) as has
      exact ensures_ok (.cons hv hrest)

/-- Items are read one by one, each with its own index. -/
theorem indexed_parseIndexed {items : List Value} {index : Nat} :
    Ensures (List.Forall₂ (fun x a => parse x.2 x.1 = .ok a) (items.zipIdx index))
      (parseIndexed parse index items) := by
  induction items generalizing index with
  | nil => exact ensures_ok .nil
  | cons v rest ih =>
    intro as has
    rw [parseIndexed] at has
    cases hv : parse index v with
    | error e => rw [hv] at has; cases has
    | ok a =>
      rw [hv] at has
      refine (ih.bind fun as hrest => ?_) as has
      rw [List.zipIdx_cons]
      exact ensures_ok (.cons hv hrest)

variable (members : Members) (key : String) (path : Path)

theorem indexed_parseParts :
    Ensures (List.Forall₂ (fun x a => parse x.2 x.1 = .ok a) (listUnder members key).zipIdx)
      (parseParts parse members key path) := by
  unfold parseParts
  split
  · next h =>
    rw [listUnder_eq_nil h]
    exact ensures_ok .nil
  · next items h =>
    rw [listUnder_eq (present?_eq_some_iff.1 h).1]
    exact indexed_parseIndexed
  · exact ensures_error _

/-- The same where the index does not matter. -/
theorem items_parseParts :
    Ensures (List.Forall₂ (fun v a => ∃ i, parse i v = .ok a) (listUnder members key))
      (parseParts parse members key path) := by
  intro as has
  exact forall₂_of_zipIdx ((indexed_parseParts members key path as has).imp fun x a h => ⟨x.2, h⟩)

theorem items_optionalTyped :
    Ensures (fun as? => List.Forall₂ (fun v a => decode v = .ok a) (listUnder members key)
      (as?.getD [])) (optionalTyped (decodeList decode) members key path) := by
  unfold optionalTyped
  split
  · next h =>
    rw [listUnder_eq_nil h]
    exact ensures_ok .nil
  · next v h =>
    split
    · next as has =>
      cases v with
      | array items =>
        rw [listUnder_eq (present?_eq_some_iff.1 h).1]
        exact ensures_ok (items_decodeItems as has)
      | _ => cases has
    · exact ensures_error _

/-- The styles that stand under their key. -/
theorem given_optionalStyle :
    Ensures (fun styles => ∀ r ∈ styles, Entries.get? members "styles" = some (.object r.entries))
      (optionalStyle members path) := by
  unfold optionalStyle
  split
  · exact ensures_ok nofun
  · next v h =>
    cases v with
    | object entries =>
      refine ensures_ok fun r hr => ?_
      obtain rfl := Option.some.inj hr
      exact (present?_eq_some_iff.1 h).1
    | _ => exact ensures_error _

end Readers

/-! ## Elements -/

namespace Element

/-- The styles of the element itself. -/
def ownStyles : Element → Option StyleRecord
  | .container _ styles _ => styles
  | .text t => t.styles
  | .image i => i.styles
  | .video v => v.styles

/-- The ranges, if it is a text. -/
def ranges : Element → List InlineStyle
  | .text t => t.inlineStyles
  | _ => []

/-- The elements right inside it, if it is a container. -/
def children : Element → List Element
  | .container _ _ elements => elements
  | _ => []

/-- What the element is made of stands among these members. -/
structure ReadFrom (members : Members) (e : Element) : Prop where
  styles : ∀ r ∈ e.ownStyles, Entries.get? members "styles" = some (.object r.entries)
  ranges : ∀ (i : Nat) s, e.ranges[i]? = some s →
    ∃ v, (listUnder members "inlineStyles")[i]? = some v ∧ InlineStyle.decode v = .ok s
  children : ∀ (i : Nat) c, e.children[i]? = some c →
    ∃ v, (listUnder members "elements")[i]? = some v ∧ ∃ path, parseElement path v = .ok c

end Element

section Element

variable (members : Members) (path : Path)

theorem readFrom_parseText (kind : TextKind) :
    Ensures (fun t => (Element.text t).ReadFrom members) (parseText kind members path) := by
  refine (items_optionalTyped members "inlineStyles" path).bind fun ranges hranges => ?_
  dsimp only
  split
  · exact ensures_error _
  · refine (ensures_true _).bind fun id _ => (ensures_true _).bind fun text _ => ?_
    exact (given_optionalStyle members path).bind fun styles hstyles =>
      ensures_ok ⟨hstyles, fun i s hs => exists_getElem?_of_forall₂ hranges hs, nofun⟩

theorem readFrom_parseImage :
    Ensures (fun i => (Element.image i).ReadFrom members) (parseImage members path) := by
  refine (ensures_true _).bind fun id _ => (ensures_true _).bind fun source _ => ?_
  refine (ensures_true _).bind fun alt _ => (ensures_true _).bind fun width _ => ?_
  refine (ensures_true _).bind fun height _ => (ensures_true _).bind fun layout _ => ?_
  exact (given_optionalStyle members path).bind fun styles hstyles =>
    ensures_ok ⟨hstyles, nofun, nofun⟩

theorem readFrom_parseVideo :
    Ensures (fun v => (Element.video v).ReadFrom members) (parseVideo members path) := by
  refine (ensures_true _).bind fun sources _ => ?_
  split
  · exact ensures_error _
  · exact ensures_error _
  · refine (ensures_true _).bind fun id _ => (ensures_true _).bind fun width _ => ?_
    refine (ensures_true _).bind fun height _ => (ensures_true _).bind fun layout _ => ?_
    refine (ensures_true _).bind fun poster _ => (ensures_true _).bind fun looping _ => ?_
    refine (ensures_true _).bind fun autoplay _ => ?_
    exact (given_optionalStyle members path).bind fun styles hstyles =>
      ensures_ok ⟨hstyles, nofun, nofun⟩

theorem given_parseContainerHead :
    Ensures (fun own => ∀ r ∈ own.2, Entries.get? members "styles" = some (.object r.entries))
      (parseContainerHead members path) := by
  refine (ensures_true _).bind fun id _ => ?_
  exact (given_optionalStyle members path).bind fun styles hstyles => ensures_ok hstyles

/-- The elements in a list are read from its items. -/
theorem items_parseMember (key : String) :
    Ensures (List.Forall₂ (fun v e => ∃ path, parseElement path v = .ok e) (listUnder members key))
      (parseMember path key members) := by
  intro elements helements
  rw [parseMember_eq] at helements
  refine (items_parseParts members key path elements helements).imp fun v e he => ?_
  obtain ⟨i, hparse⟩ := he
  exact ⟨path.keyItem key i, hparse⟩

theorem readFrom_parseElement :
    Ensures (Element.ReadFrom members) (parseElement path (.object members)) := by
  rw [parseElement]
  refine (ensures_true _).bind fun head _ => ?_
  split
  · refine (given_parseContainerHead members path).bind fun own hown => ?_
    refine (items_parseMember members path "elements").bind fun elements helements => ?_
    refine ensures_ok ⟨hown, fun i s hs => ?_, fun i e he => exists_getElem?_of_forall₂ helements he⟩
    cases hs
  · exact (readFrom_parseImage members path).map fun i hi => hi
  · exact (readFrom_parseVideo members path).map fun v hv => hv
  · exact (readFrom_parseText members path _).map fun t ht => ht

end Element

/-! ## Layers, pages, stories -/

/-- What the layer is made of stands among these members. -/
structure Layer.ReadFrom (members : Members) (l : Layer) : Prop where
  template : ∃ name, Entries.get? members "template" = some (.string name) ∧
    LayerTemplate.ofName? name = some l.template
  styles : ∀ r ∈ l.styles, Entries.get? members "styles" = some (.object r.entries)
  element : l.template = .fill → ∃ e v path, l.elements = [e] ∧
    Entries.get? members "element" = some v ∧ parseElement path v = .ok e
  elements : l.template ≠ .fill →
    List.Forall₂ (fun v e => ∃ path, parseElement path v = .ok e) (listUnder members "elements")
      l.elements

section Layer

variable (members : Members) (path : Path)

theorem known_parseTemplate :
    Ensures (fun template => ∃ name, Entries.get? members "template" = some (.string name) ∧
      LayerTemplate.ofName? name = some template) (parseTemplate members path) := by
  unfold parseTemplate
  have hname : Ensures (fun name => Entries.get? members "template" = some (.string name))
      (requiredString members "template" path) := fun name h => requiredString_eq_ok_iff.1 h
  refine hname.bind fun name hname => ?_
  split
  · next template htemplate => exact ensures_ok ⟨name, hname, htemplate⟩
  · exact ensures_error _

theorem element_parseLayerElements :
    Ensures (fun elements => ∃ e v path, elements = [e] ∧ Entries.get? members "element" = some v ∧
      parseElement path v = .ok e) (parseLayerElements .fill members path) := by
  unfold parseLayerElements
  simp only
  split
  · exact ensures_error _
  · next v hv =>
    intro elements h
    cases helement : parseElement (path.key "element") v with
    | error e => rw [helement] at h; cases h
    | ok e =>
      rw [helement] at h
      exact ⟨e, v, _, (Except.ok.inj h).symm, (present?_eq_some_iff.1 hv).1, helement⟩

theorem items_parseLayerElements {template : LayerTemplate} (h : template ≠ .fill) :
    Ensures (List.Forall₂ (fun v e => ∃ path, parseElement path v = .ok e)
      (listUnder members "elements")) (parseLayerElements template members path) := by
  cases template with
  | fill => exact absurd rfl h
  | _ => exact items_parseMember members path "elements"

/-- A layer is read as such, or it is an element that fills one. -/
theorem readFrom_parseLayer :
    Ensures (fun l => if isBareElement members then
        ∃ e, parseElement path (.object members) = .ok e ∧ l = ⟨.fill, none, [e]⟩
      else l.ReadFrom members) (parseLayer path (.object members)) := by
  rw [parseLayer]
  refine (ensures_ok (P := (members = ·)) rfl).bind ?_
  rintro _ rfl
  split
  · have helement : Ensures (fun e => parseElement path (.object members) = .ok e)
        (parseElement path (.object members)) := fun _ h => h
    exact helement.bind fun e he => ensures_ok ⟨e, he, rfl⟩
  · refine (known_parseTemplate members path).bind fun template htemplate => ?_
    have helements : Ensures (fun elements =>
        (template = .fill → ∃ e v path, elements = [e] ∧
          Entries.get? members "element" = some v ∧ parseElement path v = .ok e) ∧
        (template ≠ .fill →
          List.Forall₂ (fun v e => ∃ path, parseElement path v = .ok e)
            (listUnder members "elements") elements))
        (parseLayerElements template members path) := by
      intro elements h
      refine ⟨?_, fun hother => items_parseLayerElements members path hother elements h⟩
      rintro rfl
      exact element_parseLayerElements members path elements h
    refine helements.bind fun elements helements => ?_
    exact (given_optionalStyle members path).bind fun styles hstyles =>
      ensures_ok ⟨htemplate, hstyles, helements.1, helements.2⟩

theorem items_parsePage (index : Nat) :
    Ensures (fun p => List.Forall₂ (fun v l => ∃ path, parseLayer path v = .ok l)
      (listUnder members "layers") p.layers) (parsePage path index (.object members)) := by
  rw [parsePage]
  refine (ensures_ok (P := (members = ·)) rfl).bind ?_
  rintro _ rfl
  refine (items_parseParts members "layers" path).bind fun layers hlayers => ?_
  refine (ensures_true _).bind fun id _ => (ensures_true _).bind fun advance _ => ensures_ok ?_
  refine hlayers.imp fun v l hl => ?_
  obtain ⟨i, hparse⟩ := hl
  exact ⟨path.keyItem "layers" i, hparse⟩

/-- The pages of a story are read from the items under its key, each with its own index. -/
theorem indexed_parseStory :
    Ensures (fun s => List.Forall₂ (fun x p => parsePage (pagePath x.2) x.2 x.1 = .ok p)
      (listUnder members "pages").zipIdx s.pages) (parseStory (.object members)) := by
  rw [parseStory]
  refine (ensures_ok (P := (members = ·)) rfl).bind ?_
  rintro _ rfl
  refine (indexed_parseParts members "pages" .story).bind fun pages hpages => ?_
  refine (ensures_true _).bind fun defaults _ => (ensures_true _).bind fun title _ => ?_
  refine (ensures_true _).bind fun url _ => (ensures_true _).bind fun preview _ => ?_
  refine (ensures_true _).bind fun storyMeta _ => (ensures_true _).bind fun css _ => ?_
  refine (ensures_true _).bind fun analytics _ => (ensures_true _).bind fun bookend _ => ?_
  exact ensures_ok hpages

theorem items_parseStory :
    Ensures (fun s => List.Forall₂ (fun v p => ∃ path index, parsePage path index v = .ok p)
      (listUnder members "pages") s.pages) (parseStory (.object members)) := by
  intro s hs
  exact forall₂_of_zipIdx
    ((indexed_parseStory members s hs).imp fun x p h => ⟨pagePath x.2, x.2, h⟩)

end Layer

/-- Only objects are read as layers, pages and stories. -/
theorem exists_members_of_parseObject {α : Type} {what : String} {path : Path} {v : Value}
    {parse : Members → Parsed α} {a : α} (h : (parseObject what path v >>= parse) = .ok a) :
    ∃ members, v = .object members := by
  cases v with
  | object members => exact ⟨members, rfl⟩
  | _ => cases h

/-- The steps to a layer. -/
def layerSteps (page layer : Nat) : List Step :=
  [.key "pages", .item page, .key "layers", .item layer]

/-- Every layer of a story was read from the value at its place. -/
theorem exists_layer_of_parseStory {v : Value} {s : Story} (h : parseStory v = .ok s) {i j : Nat}
    {p : Page} {l : Layer} (hp : s.pages[i]? = some p) (hl : p.layers[j]? = some l) :
    ∃ members path, Path.follow (layerSteps i j) v = some (.object members) ∧
      parseLayer path (.object members) = .ok l := by
  obtain ⟨story, rfl⟩ := exists_members_of_parseObject h
  obtain ⟨v, hv, path, index, hpage⟩ := exists_getElem?_of_forall₂ (items_parseStory story s h) hp
  obtain ⟨page, rfl⟩ := exists_members_of_parseObject hpage
  obtain ⟨w, hw, path, hlayer⟩ :=
    exists_getElem?_of_forall₂ (items_parsePage page path index p hpage) hl
  obtain ⟨layer, rfl⟩ := exists_members_of_parseObject hlayer
  refine ⟨layer, path, ?_, hlayer⟩
  rw [layerSteps, Path.follow, get?_of_getElem?_listUnder hv, Option.bind_some, Path.follow, hv,
    Option.bind_some, Path.follow, get?_of_getElem?_listUnder hw, Option.bind_some, Path.follow, hw]
  rfl

end WebStory
