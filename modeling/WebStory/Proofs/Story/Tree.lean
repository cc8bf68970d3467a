import WebStory.Story.Parse
/-
  The elements of a story as trees, and the style records in them.

  A container holds further elements, so a statement about all elements is proved for a container
  from the elements inside it (`Element.induct`).  These are read with the container, but in the same
  way as the parts in any other list (`parseMember_eq`).
-/

namespace WebStory

open Json

/-- A statement about elements holds of all of them if it passes from the elements inside a
    container to the container. -/
@[elab_as_elim]
theorem Element.induct {P : Element → Prop}
    (container : ∀ id styles elements, (∀ e ∈ elements, P e) → P (.container id styles elements))
    (text : ∀ t, P (.text t)) (image : ∀ i, P (.image i)) (video : ∀ v, P (.video v))
    (e : Element) : P e := by
  refine @Element.rec P (fun elements => ∀ e ∈ elements, P e) container text image video ?_ ?_ e
  · exact fun e he => absurd he List.not_mem_nil
  · intro e rest he hrest f hf
    rcases List.mem_cons.1 hf with rfl | hf
    · exact he
    · exact hrest f hf

/-! ## Style records -/

mutual

/-- The style records of an element and of all elements inside it, those of ranges included. -/
def Element.styleRecords : Element → List StyleRecord
  | .container _ styles elements => elementRecords elements ++ styles.toList
  | .text t => t.inlineStyles.map (·.styles) ++ t.styles.toList
  | .image i => i.styles.toList
  | .video v => v.styles.toList

def elementRecords : List Element → List StyleRecord
  | [] => []
  | e :: rest => e.styleRecords ++ elementRecords rest

end

def Layer.styleRecords (l : Layer) : List StyleRecord := elementRecords l.elements ++ l.styles.toList

def Page.styleRecords (p : Page) : List StyleRecord := p.layers.flatMap Layer.styleRecords

/-- The style records of a story: of each element at any depth, each layer, each range of a text
    and each default style. -/
def Story.styleRecords (s : Story) : List StyleRecord :=
  s.pages.flatMap Page.styleRecords ++ s.defaultStyles.map (·.2)

theorem elementRecords_eq_flatMap (elements : List Element) :
    elementRecords elements = elements.flatMap Element.styleRecords := by
  induction elements with
  | nil => rfl
  | cons e rest ih => rw [elementRecords, ih, List.flatMap_cons]

/-! ## Elements in a list -/

/-- The elements in a list are read like any other parts. -/
theorem parseItems_eq (path : Path) (key : String) (index : Nat) (items : List Value) :
    parseItems path key index items =
      parseIndexed (fun i => parseElement (path.keyItem key i)) index items := by
  induction items generalizing index with
  | nil => rfl
  | cons v rest ih => rw [parseItems, ih, parseIndexed]

theorem parseMember_eq (path : Path) (key : String) (members : Members) :
    parseMember path key members =
      parseParts (fun i => parseElement (path.keyItem key i)) members key path := by
  unfold parseParts present?
  induction members with
  | nil => rfl
  | cons e rest ih =>
    obtain ⟨k, v⟩ := e
    rw [Entries.get?]
    by_cases hk : k = key
    · rw [if_pos hk]
      cases v with
      | null => rw [parseMember, if_pos hk]; rfl
      | array items => rw [parseMember, if_pos hk, parseItems_eq]; rfl
      | _ => unfold parseMember; rw [if_pos hk]; rfl
    · rw [if_neg hk, ← ih]
      generalize hrest : parseMember path key rest = read
      cases v <;> unfold parseMember <;> rw [if_neg hk, hrest]

end WebStory
