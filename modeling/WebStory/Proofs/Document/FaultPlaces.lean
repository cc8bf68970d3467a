import WebStory.Proofs.Document.Compile
import WebStory.Proofs.Story.Sources
/-
  Where the errors of a compilation point.

  1. **Two ways** — the way through a story builds its paths anew, from the story and not from the
     value it was read from.  The two have to be brought together: each thing that is met has a
     value that it was read from, and the path should lead there (`Visit.StyledAt`).  What a reader
     did is known part by part (`Element.ReadFrom`, `Layer.ReadFrom`), so for each part that is met
     there is the value of it, one step further in.

  2. **Down from a layer** — this can be shown for an element and everything inside it, by induction
     on the value, wherever the element stands (`met_in_element`): at that place the path and the
     value go the same steps.

  3. **At a layer** — over a layer the paths of reader and compilation may differ.  An element that
     stands in place of a layer is read at the path of the layer, but it is rendered inside one, at
     the path with `element` behind it, where in the value there is nothing
     (`compile_error_leads_past_element`).  So `met_in_layer` says where things are met in both
     cases, with this step or without.

  4. **Errors** — an error is the fault of something that is met, if it is not about the options or
     a default style (`exists_visit_of_compile`).  So it leads to what it is about once the one step
     is left out (`compile_error_leads_to_value`).
-/

namespace WebStory

open Json

/-! ## Values that give styles -/

/-- The value at a path, an element, a layer or a range of a text, gives a style record. -/
inductive GivesStyle : Path → Value → StyleRecord → Prop
  | element {path place : Path} {members : Members} {e : Element} {r : StyleRecord}
      (read : parseElement place (.object members) = .ok e)
      (styles : Entries.get? members "styles" = some (.object r.entries)) :
      GivesStyle path (.object members) r
  | layer {path place : Path} {members : Members} {l : Layer} {r : StyleRecord}
      (read : parseLayer place (.object members) = .ok l)
      (styles : Entries.get? members "styles" = some (.object r.entries)) :
      GivesStyle path (.object members) r
  | range {path : Path} {index : Nat} {v : Value} {s : InlineStyle}
      (read : InlineStyle.decode v = .ok s) :
      GivesStyle (path.keyItem "inlineStyles" index) v s.styles

/-- The members are those of a layer of thirds with this many elements. -/
def IsThirds (members : Members) (count : Nat) : Prop :=
  Entries.get? members "template" = some (.string "thirds") ∧
    (listUnder members "elements").length = count

/-- Styles are met at this path, and the value there gives them. -/
def Visit.StyledAt (path : Path) (v : Value) : Visit → Prop
  | .thirds _ _ => False
  | .range place r => place = path ∧ GivesStyle path v r
  | .own place styles => place = path ∧ ∀ r ∈ styles, GivesStyle path v r
  | .box place styles => place = path ∧ ∀ r ∈ styles, GivesStyle path v r

/-- Styles at fault are given where they are met. -/
theorem Visit.StyledAt.fault {path : Path} {v : Value} {visit : Visit} {e : Error}
    (h : visit.StyledAt path v) (hfault : visit.fault? = some e) :
    ∃ r, GivesStyle path v r ∧ convertStyle r path = .error e := by
  have hoptional {styles : Option StyleRecord} (hgives : ∀ r ∈ styles, GivesStyle path v r)
      (hfault : (styles.bind fun r => failure? (convertStyle r path)) = some e) :
      ∃ r, GivesStyle path v r ∧ convertStyle r path = .error e := by
    obtain ⟨r, hr, hconvert⟩ := Option.bind_eq_some_iff.1 hfault
    exact ⟨r, hgives r hr, failure?_eq_some_iff.1 hconvert⟩
  cases visit with
  | thirds place count => exact h.elim
  | range place r =>
    obtain ⟨rfl, hgives⟩ := h
    exact ⟨r, hgives, failure?_eq_some_iff.1 hfault⟩
  | own place styles =>
    obtain ⟨rfl, hgives⟩ := h
    exact hoptional hgives hfault
  | box place styles =>
    obtain ⟨rfl, hgives⟩ := h
    exact hoptional hgives hfault

/-! ## The way through the value -/

/-- What is met in an element: a range of it, something in an element inside it, or the element. -/
theorem Element.of_mem_visits {e : Element} {path : Path} {visit : Visit}
    (h : visit ∈ e.visits path) :
    (∃ (i : Nat) (s : InlineStyle), e.ranges[i]? = some s ∧
      visit = .range (path.keyItem "inlineStyles" i) s.styles) ∨
    (∃ (i : Nat) (c : Element), e.children[i]? = some c ∧
      visit ∈ c.visits (path.keyItem "elements" i)) ∨
    visit = .own path e.ownStyles ∨ visit = .box path e.ownStyles := by
  cases e with
  | container id styles elements =>
    rw [Element.visits, childVisits_eq_flatMap, List.mem_append, List.mem_flatMap] at h
    rcases h with ⟨⟨c, i⟩, hc, hvisit⟩ | h
    · exact .inr (.inl ⟨i, c, List.mem_zipIdx_iff_getElem?.1 hc, hvisit⟩)
    · exact .inr (.inr (.inr (List.mem_singleton.1 h)))
  | text t =>
    rw [Element.visits, rangeVisits, List.mem_append, List.mem_map] at h
    rcases h with ⟨⟨s, i⟩, hs, rfl⟩ | h
    · exact .inl ⟨i, s, List.mem_zipIdx_iff_getElem?.1 hs, rfl⟩
    · exact .inr (.inr (.inl (List.mem_singleton.1 h)))
  | image i => exact .inr (.inr (.inl (List.mem_singleton.1 h)))
  | video v => exact .inr (.inr (.inl (List.mem_singleton.1 h)))

/-- Wherever the value of an element stands, what is met in the element is met inside that value. -/
theorem met_in_element {v : Value} {place : Path} {e : Element} (h : parseElement place v = .ok e)
    {path : Path} {visit : Visit} (hvisit : visit ∈ e.visits path) :
    Inside visit.StyledAt path v := by
  induction v using Value.induct_listed generalizing place e path with
  | other v hv =>
    cases v with
    | object members => exact absurd rfl (hv members)
    | _ => cases h
  | object members ih =>
    have hread := readFrom_parseElement members place e h
    rcases Element.of_mem_visits hvisit with ⟨i, s, hs, rfl⟩ | ⟨i, c, hc, hvisit⟩ | rfl | rfl
    · obtain ⟨w, hw, hdecode⟩ := hread.ranges i s hs
      exact .keyItem (get?_of_getElem?_listUnder hw) hw (.here ⟨rfl, .range hdecode⟩)
    · obtain ⟨w, hw, at', hparse⟩ := hread.children i c hc
      have hget := get?_of_getElem?_listUnder hw
      exact .keyItem hget hw (ih _ _ hget w (List.mem_of_getElem? hw) hparse hvisit)
    · exact .here ⟨rfl, fun r hr => .element h (hread.styles r hr)⟩
    · exact .here ⟨rfl, fun r hr => .element h (hread.styles r hr)⟩

/-- The name of the layers of thirds. -/
theorem eq_thirds_of_ofName? {name : String} (h : LayerTemplate.ofName? name = some .thirds) :
    name = "thirds" := by
  unfold LayerTemplate.ofName? at h
  split at h
  · cases h
  split at h
  · cases h
  split at h
  · cases h
  split at h
  · next hname => exact hname
  · cases h

/-- The elements of a layer are met inside it, under the key that its template has for them. -/
theorem met_in_layer_elements {members : Members} {l : Layer} (hread : l.ReadFrom members)
    {path : Path} {e : Element} {i : Nat} (he : l.elements[i]? = some e) {visit : Visit}
    (hvisit : visit ∈ e.visits (layerElementPath l.template path i)) :
    Inside visit.StyledAt path (.object members) := by
  by_cases hfill : l.template = .fill
  · obtain ⟨e', v, place, helements, hget, hparse⟩ := hread.element hfill
    rw [helements] at he
    rw [hfill] at hvisit
    obtain rfl : e' = e := by
      cases i with
      | zero => exact Option.some.inj he
      | succ i => cases he
    exact .key hget (met_in_element hparse hvisit)
  · obtain ⟨v, hv, place, hparse⟩ := exists_getElem?_of_forall₂ (hread.elements hfill) he
    have hpath : layerElementPath l.template path i = path.keyItem "elements" i := by
      unfold layerElementPath
      split
      · next htemplate => exact absurd htemplate hfill
      · rfl
    rw [hpath] at hvisit
    exact .keyItem (get?_of_getElem?_listUnder hv) hv (met_in_element hparse hvisit)

/-- What is at fault in a layer is the number of its elements, or styles inside its value.  Those of
    an element in place of a layer are met as if it stood under a key. -/
theorem met_in_layer {members : Members} {place : Path} {l : Layer}
    (h : parseLayer place (.object members) = .ok l) {path : Path} {visit : Visit}
    (hvisit : visit ∈ l.visits path) (hfault : visit.fault? ≠ none) :
    (∃ count, visit = .thirds path count ∧ IsThirds members count) ∨
    Inside visit.StyledAt (if isBareElement members then path.key "element" else path)
      (.object members) := by
  have hread := readFrom_parseLayer members place l h
  rw [Layer.visits, List.mem_append, List.mem_append, List.mem_flatMap, List.mem_singleton] at hvisit
  split at hread
  · next hbare =>
    obtain ⟨e, hparse, rfl⟩ := hread
    rw [if_pos hbare]
    rcases hvisit with (hvisit | ⟨⟨e', i⟩, he, hvisit⟩) | rfl
    · exact absurd hvisit List.not_mem_nil
    · obtain ⟨rfl, rfl⟩ := Prod.mk.inj (List.mem_singleton.1 he)
      exact .inr (met_in_element hparse hvisit)
    · -- the layer around such an element has no styles
      exact absurd rfl hfault
  · next hbare =>
    rw [if_neg hbare]
    rcases hvisit with (hvisit | ⟨⟨e, i⟩, he, hvisit⟩) | rfl
    · split at hvisit
      · next hthirds =>
        obtain ⟨name, hname, hof⟩ := hread.template
        obtain rfl := eq_thirds_of_ofName? (hof.trans (congrArg some hthirds))
        have hlength := (hread.elements (by rw [hthirds]; decide)).length_eq
        exact .inl ⟨_, List.mem_singleton.1 hvisit, hname, hlength⟩
      · exact absurd hvisit List.not_mem_nil
    · exact .inr (met_in_layer_elements hread (List.mem_zipIdx_iff_getElem?.1 he) hvisit)
    · exact .inr (.here ⟨rfl, fun r hr => .layer h (hread.styles r hr)⟩)

/-- What is met in a story is met in one of its layers. -/
theorem Story.exists_layer_of_mem_visits {s : Story} {visit : Visit} (h : visit ∈ s.visits) :
    ∃ (i j : Nat) (p : Page) (l : Layer), s.pages[i]? = some p ∧ p.layers[j]? = some l ∧
      visit ∈ l.visits ⟨.story, layerSteps i j⟩ := by
  rw [Story.visits, List.mem_flatMap] at h
  obtain ⟨⟨p, i⟩, hp, h⟩ := h
  obtain ⟨⟨l, j⟩, hl, h⟩ := List.mem_flatMap.1 h
  exact ⟨i, j, p, l, List.mem_zipIdx_iff_getElem?.1 hp, List.mem_zipIdx_iff_getElem?.1 hl, h⟩

/-! ## Errors -/

/-- The path of a default style begins with the key of the table. -/
theorem text_defaultStylePath (name : String) :
    (defaultStylePath name).text = "defaultStyles." ++ name := by
  show "defaultStyles" ++ ("." ++ name ++ "") = _
  rw [String.append_empty, ← String.append_assoc]
  rfl

/-- The error of a compilation is one of the body if it is not one of the options or of a default style. -/
theorem exists_visit_of_compile {s : Story} {o : CompileOptions} {e : Error}
    (h : compile s o = .error e) :
    (∃ visit ∈ s.visits, visit.fault? = some e) ∨ (∃ option, e = .blankOption option) ∨
      ∃ name cause, e = .malformedStyle (defaultStylePath name) cause := by
  have hmem : e ∈ compileFaults s o := by
    rw [← failure?_eq_some_iff, failure?_compile] at h
    exact List.mem_of_head? h
  rw [compileFaults, List.mem_append, List.mem_append, List.mem_filterMap, List.mem_filterMap] at hmem
  rcases hmem with (hoption | hvisit) | ⟨⟨name, style⟩, -, hstyle⟩
  · obtain ⟨option, -, rfl⟩ := Option.map_eq_some_iff.1 (Option.mem_toList.1 hoption)
    exact .inr (.inl ⟨option, rfl⟩)
  · exact .inl hvisit
  · exact .inr (.inr ⟨name, exists_cause_of_failure? hstyle⟩)

/-- A compilation of a story that was read fails with an error about a place in the body, if it is not
    about the options or a default style.  A malformed style is one of the style record that the value at
    this place gives; and this value is where the path of the error leads, with `element` left out
    where an element stands in place of a layer.  A wrong number of thirds is that of the layer at
    the path. -/
theorem compile_error_leads_to_value {v : Value} {s : Story} {o : CompileOptions} {e : Error}
    (hs : parseStory v = .ok s) (h : compile s o = .error e) :
    (∀ path cause, e = .malformedStyle path cause →
      ¬ "defaultStyles.".toList <+: path.text.toList →
      ∃ (i j : Nat) (layer : Members) (steps : List Step) (node : Value) (r : StyleRecord),
        Path.follow (layerSteps i j) v = some (.object layer) ∧
        Path.follow (layerSteps i j ++ steps) v = some node ∧
        path = ⟨.story, layerSteps i j ++
          if isBareElement layer then .key "element" :: steps else steps⟩ ∧
        GivesStyle path node r ∧ convertStyle r path = .error e) ∧
    ∀ path count, e = .invalidThirdsArity path count →
      ∃ (i j : Nat) (layer : Members), path = ⟨.story, layerSteps i j⟩ ∧
        Path.follow path.steps v = some (.object layer) ∧ IsThirds layer count := by
  rcases exists_visit_of_compile h with ⟨visit, hvisit, hfault⟩ | ⟨option, rfl⟩ | ⟨name, cause, rfl⟩
  · -- something in the body is at fault
    obtain ⟨i, j, p, l, hp, hl, hvisit⟩ := Story.exists_layer_of_mem_visits hvisit
    obtain ⟨layer, place, hlayer, hparse⟩ := exists_layer_of_parseStory hs hp hl
    have hsome : visit.fault? ≠ none := by rw [hfault]; nofun
    rcases met_in_layer hparse hvisit hsome with ⟨count, rfl, hthirds⟩ | hinside
    · rw [Visit.fault?] at hfault
      split at hfault
      · cases hfault
      · obtain rfl := Option.some.inj hfault
        constructor
        · intro path cause he
          cases he
        · intro path count' he
          obtain ⟨rfl, rfl⟩ := Error.invalidThirdsArity.inj he
          exact ⟨i, j, layer, rfl, hlayer, hthirds⟩
    · obtain ⟨steps, node, hnode, hstyled⟩ := hinside
      obtain ⟨r, hgives, hconvert⟩ := hstyled.fault hfault
      obtain ⟨cause, hcause⟩ := exists_cause_of_failure? (failure?_eq_some_iff.2 hconvert)
      constructor
      · intro path cause' he _
        obtain ⟨rfl, rfl⟩ := Error.malformedStyle.inj (he.symm.trans hcause)
        refine ⟨i, j, layer, steps, node, r, hlayer, ?_, ?_, hgives, hconvert⟩
        · rw [Path.follow_append, hlayer, Option.bind_some, hnode]
        · split
          · rw [Path.extend_key]
            rfl
          · rfl
      · intro path count he
        rw [hcause] at he
        cases he
  · constructor
    · intro path cause he
      cases he
    · intro path count he
      cases he
  · constructor
    · intro path cause' he hnot
      obtain ⟨rfl, -⟩ := Error.malformedStyle.inj he
      rw [text_defaultStylePath, String.toList_append] at hnot
      exact absurd (List.prefix_append _ _) hnot
    · intro path count he
      cases he

/-- A range of a text in a container: the error leads to the range. -/
theorem compile_error_leads_to_range :
    let range : Value := .object [("start", .number (.ofNat 0)), ("length", .number (.ofNat 1)),
      ("styles", .object [("boxShadow", .array [])])]
    let value : Value := .object [("pages", .array [.object [("layers", .array [.object
      [("template", .string "vertical"), ("elements", .array [.object
        [("type", .string "container"), ("elements", .array [.object
          [("type", .string "paragraph"), ("text", .string "x"),
            ("inlineStyles", .array [range])]])]])]])]])]
    let path : Path := ⟨.story, layerSteps 0 0 ++ [.key "elements", .item 0, .key "elements", .item 0,
      .key "inlineStyles", .item 0]⟩
    ∃ s cause, parseStory value = .ok s ∧
      compile s .standard = .error (.malformedStyle path cause) ∧
      ∃ node r, Path.follow path.steps value = some node ∧ GivesStyle path node r ∧
        convertStyle r path = .error (.malformedStyle path cause) := by
  intro range value path
  obtain ⟨s, cause, hs, h⟩ : ∃ s cause, parseStory value = .ok s ∧
      compile s .standard = .error (.malformedStyle path cause) := ⟨_, _, rfl, rfl⟩
  obtain ⟨i, j, layer, steps, node, r, -, hnode, hpath, hgives, hconvert⟩ :=
    (compile_error_leads_to_value hs h).1 path cause rfl (by decide +kernel)
  refine ⟨s, cause, hs, h, node, r, ?_, hgives, hconvert⟩
  -- the layer is no element, as the steps below it do not begin with `element`
  obtain ⟨rfl, rfl, hsteps⟩ : 0 = i ∧ 0 = j ∧
      _ = if isBareElement layer then .key "element" :: steps else steps := by
    simpa [path, layerSteps] using congrArg Path.steps hpath
  split at hsteps
  · simp at hsteps
  · rw [← hsteps] at hnode
    exact hnode

/-- An element in place of a layer: its styles are at fault, but the path leads past it to nothing. -/
theorem compile_error_leads_past_element :
    let value : Value := .object [("pages", .array [.object [("layers", .array [.object
      [("type", .string "paragraph"), ("text", .string "x"),
        ("styles", .object [("boxShadow", .array [])])]])]])]
    let path : Path := ⟨.story, layerSteps 0 0 ++ [.key "element"]⟩
    ∃ s cause, parseStory value = .ok s ∧
      compile s .standard = .error (.malformedStyle path cause) ∧
      ¬ "defaultStyles.".toList <+: path.text.toList ∧ Path.follow path.steps value = none := by
  intro value path
  exact ⟨_, _, rfl, rfl, by decide +kernel, rfl⟩

end WebStory
