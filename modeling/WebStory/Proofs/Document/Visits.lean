import WebStory.Document.Body
import WebStory.Story.Parse
import WebStory.Proofs.Style.Reachable
/-
  What is met when a story is rendered, in order.

  The body is walked through in document order, from the inside out.  On the way four kinds of things
  are met (`Visit`): the number of elements of a layer of thirds, the ranges of texts, the styles of
  texts, images, videos and layers, and the boxes of containers.  From this list can be read which
  style records ask for a class (`Visit.request?`) and what is wrong with a story
  (`Visit.fault?`).
-/

namespace WebStory

/-- One thing that is met on the way through a story. -/
inductive Visit where
  /-- A layer of thirds, and how many elements it has. -/
  | thirds (path : Path) (count : Nat)
  /-- A range of a text. -/
  | range (path : Path) (styles : StyleRecord)
  /-- A text, an image, a video or a layer. -/
  | own (path : Path) (styles : Option StyleRecord)
  /-- A container. -/
  | box (path : Path) (styles : Option StyleRecord)

/-! ## The way through a story -/

def rangeVisits (path : Path) (ranges : List InlineStyle) : List Visit :=
  ranges.zipIdx.map fun (s, i) => .range (path.keyItem "inlineStyles" i) s.styles

mutual

/-- Ranges come before their text, the elements of a container before the container. -/
def Element.visits (path : Path) : Element → List Visit
  | .container _ styles elements => childVisits path 0 elements ++ [.box path styles]
  | .text t => rangeVisits path t.inlineStyles ++ [.own path t.styles]
  | .image i => [.own path i.styles]
  | .video v => [.own path v.styles]

/-- The first of the elements is the `index`-th. -/
def childVisits (path : Path) (index : Nat) : List Element → List Visit
  | [] => []
  | e :: rest => e.visits (path.keyItem "elements" index) ++ childVisits path (index + 1) rest

end

/-- The number of thirds comes before the elements, the layer itself after them. -/
def Layer.visits (path : Path) (l : Layer) : List Visit :=
  (if l.template = .thirds then [.thirds path l.elements.length] else []) ++
    l.elements.zipIdx.flatMap (fun (e, i) => e.visits (layerElementPath l.template path i)) ++
    [.own path l.styles]

def Page.visits (path : Path) (p : Page) : List Visit :=
  p.layers.zipIdx.flatMap fun (l, i) => l.visits (path.keyItem "layers" i)

/-- All that is met in the body of a story. -/
def Story.visits (s : Story) : List Visit :=
  s.pages.zipIdx.flatMap fun (p, i) => p.visits (pagePath i)

theorem childVisits_eq_flatMap (path : Path) (index : Nat) (elements : List Element) :
    childVisits path index elements =
      (elements.zipIdx index).flatMap fun (e, i) => e.visits (path.keyItem "elements" i) := by
  induction elements generalizing index with
  | nil => rfl
  | cons e rest ih => rw [childVisits, ih, List.zipIdx_cons, List.flatMap_cons]

/-! ## Requests -/

/-- The styles of a box: what it is displayed as comes first, a flex box if it does not say. -/
def boxStyles (styles : Option StyleRecord) : StyleRecord :=
  (styles.getD .empty).withLeadingDefault "display" (.string "flex")

/-- The style record that asks for a class.  A range and a container always do; all others if they
    have styles that are not empty. -/
def Visit.request? : Visit → Option ClassRequest
  | .thirds _ _ => none
  | .range path styles => some ⟨styles, path⟩
  | .own path styles => (styles.filter (!·.isEmpty)).map (⟨·, path⟩)
  | .box path styles => some ⟨boxStyles styles, path⟩

/-- The requests of a story, in order. -/
def Story.requests (s : Story) : List ClassRequest := s.visits.filterMap Visit.request?

/-! ## Faults -/

/-- What is wrong: a wrong number of thirds, or a style record that cannot be converted. -/
def Visit.fault? : Visit → Option Error
  | .thirds path count => if count = 3 then none else some (.invalidThirdsArity path count)
  | .range path styles => failure? (convertStyle styles path)
  | .own path styles => styles.bind fun r => failure? (convertStyle r path)
  | .box path styles => styles.bind fun r => failure? (convertStyle r path)

theorem fault?_empty (path : Path) : failure? (convertStyle .empty path) = none := rfl

/-- A box displayed as anything whatever has the faults of its styles. -/
theorem failure?_boxStyles (styles : Option StyleRecord) (path : Path) :
    failure? (convertStyle (boxStyles styles) path) =
      styles.bind fun r => failure? (convertStyle r path) := by
  have hdisplay (r : StyleRecord) : failure? (convertStyle
      (r.withLeadingDefault "display" (.string "flex")) path) = failure? (convertStyle r path) := by
    rw [failure?_convertStyle, failure?_convertStyle,
      fault?_withLeadingDefault r _ (by decide) (by decide)]
  cases styles with
  | none => exact (hdisplay .empty).trans (fault?_empty path)
  | some r => exact hdisplay r

/-- An empty record has no fault, so one that asks for no class has none either. -/
theorem failure?_own (styles : Option StyleRecord) (path : Path) :
    (styles.filter (!·.isEmpty)).bind (fun r => failure? (convertStyle r path)) =
      styles.bind fun r => failure? (convertStyle r path) := by
  cases styles with
  | none => rfl
  | some r =>
    obtain ⟨entries⟩ := r
    cases entries <;> rfl

/-- Apart from thirds, what is wrong is what is wrong with the record that asks for a class. -/
theorem Visit.fault?_eq {v : Visit} (h : ∀ path count, v ≠ .thirds path count) :
    v.fault? = v.request?.bind ClassRequest.fault? := by
  cases v with
  | thirds path count => exact absurd rfl (h path count)
  | range path styles => rfl
  | own path styles =>
    rw [Visit.request?, Option.bind_map]
    exact (failure?_own styles path).symm
  | box path styles => exact (failure?_boxStyles styles path).symm

/-- The first fault. -/
def firstFault (visits : List Visit) : Option Error := visits.findSome? Visit.fault?

theorem firstFault_append (visits more : List Visit) :
    firstFault (visits ++ more) = (firstFault visits).or (firstFault more) :=
  List.findSome?_append

theorem firstFault_singleton (v : Visit) : firstFault [v] = v.fault? := by
  rw [firstFault, List.findSome?_cons]
  cases v.fault? <;> rfl

end WebStory
