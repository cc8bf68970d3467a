import WebStory.Document.Compile
import WebStory.Proofs.Document.Rendering
/-
  When a compilation fails, and with which error.

  1. **Parts** — a compilation checks the options, walks through the body and converts the default
     styles, in this order, and each of the three either succeeds or fails with the first of its own
     faults.  So the error is the first of all faults (`compileFaults`, `failure?_compile`).

  2. **Faults of the body** — these are met on the way through the story, in document order, and
     neither the classes nor the markup have a part in it (`failure?_renderStory`).  Which faults
     there are can be read off the story without following the way: none are there exactly if every
     layer of thirds has three elements and every style record can be converted
     (`Story.firstFault_eq_none_iff`).  Parts in a row are without fault if each part is, so this is
     one lemma for each kind of part, and an induction for containers.

  3. **Results** — if there is no fault, the three results are put together (`Story.documentWith`,
     `compile_eq_ok_iff`).  There is no fourth kind of error (`kind_of_mem_compileFaults`).
-/

namespace WebStory

/-! ## Records that can be converted -/

theorem fault?_range_eq_none_iff {path : Path} {r : StyleRecord} :
    (Visit.range path r).fault? = none ↔ r.fault? = none := by
  rw [Visit.fault?, failure?_convertStyle, Option.map_eq_none_iff]

/-- Styles that stand anywhere are at fault if they are there and malformed. -/
theorem bind_failure?_eq_none_iff {path : Path} {styles : Option StyleRecord} :
    (styles.bind fun r => failure? (convertStyle r path)) = none ↔
      ∀ r ∈ styles.toList, r.fault? = none := by
  cases styles with
  | none => exact ⟨fun _ => nofun, fun _ => rfl⟩
  | some r =>
    rw [Option.bind_some, Option.toList_some, List.forall_mem_singleton, failure?_convertStyle,
      Option.map_eq_none_iff]

/-! ## Faults of the body -/

theorem firstFault_append_eq_none_iff {visits more : List Visit} :
    firstFault (visits ++ more) = none ↔ firstFault visits = none ∧ firstFault more = none := by
  rw [firstFault_append, Option.or_eq_none_iff]

/-- Parts in a row are without fault if each of them is, whatever its index. -/
theorem firstFault_parts_eq_none_iff {β : Type} {parts : List β} {visits : β → Nat → List Visit}
    {sound : β → Prop} (h : ∀ b ∈ parts, ∀ i, firstFault (visits b i) = none ↔ sound b)
    (index : Nat) :
    firstFault ((parts.zipIdx index).flatMap fun (b, i) => visits b i) = none ↔
      ∀ b ∈ parts, sound b := by
  induction parts generalizing index with
  | nil => exact ⟨fun _ => nofun, fun _ => rfl⟩
  | cons b rest ih =>
    have hrest := ih (fun b hb => h b (List.mem_cons_of_mem _ hb)) (index + 1)
    rw [List.zipIdx_cons, List.flatMap_cons, firstFault_append_eq_none_iff, hrest,
      h b List.mem_cons_self, List.forall_mem_cons]

theorem firstFault_rangeVisits_eq_none_iff {path : Path} {ranges : List InlineStyle} :
    firstFault (rangeVisits path ranges) = none ↔
      ∀ r ∈ ranges.map (·.styles), r.fault? = none := by
  have hrange : ∀ s ∈ ranges, ∀ i : Nat,
      firstFault [.range (path.keyItem "inlineStyles" i) s.styles] = none ↔
        s.styles.fault? = none := fun s _ i => by
    rw [firstFault_singleton, fault?_range_eq_none_iff]
  rw [rangeVisits, List.map_eq_flatMap, List.forall_mem_map]
  exact firstFault_parts_eq_none_iff hrange 0

/-- Text, images, videos, layers and boxes have the fault of their own styles. -/
theorem firstFault_append_styles_eq_none_iff {visits : List Visit} {v : Visit} {path : Path}
    {styles : Option StyleRecord} (hv : v.fault? = styles.bind fun r => failure? (convertStyle r path))
    {records : List StyleRecord} (hvisits : firstFault visits = none ↔ ∀ r ∈ records, r.fault? = none) :
    firstFault (visits ++ [v]) = none ↔ ∀ r ∈ records ++ styles.toList, r.fault? = none := by
  rw [firstFault_append_eq_none_iff, firstFault_singleton, hv, bind_failure?_eq_none_iff, hvisits,
    List.forall_mem_append]

/-- An element is without fault if all style records in it are. -/
theorem Element.firstFault_eq_none_iff (e : Element) (path : Path) :
    firstFault (e.visits path) = none ↔ ∀ r ∈ e.styleRecords, r.fault? = none := by
  induction e using Element.induct generalizing path with
  | container id styles elements ih =>
    have hchildren : firstFault (childVisits path 0 elements) = none ↔
        ∀ r ∈ elementRecords elements, r.fault? = none := by
      rw [childVisits_eq_flatMap, elementRecords_eq_flatMap, List.forall_mem_flatMap]
      exact firstFault_parts_eq_none_iff (fun e he i => ih e he (path.keyItem "elements" i)) 0
    rw [Element.visits, Element.styleRecords]
    exact firstFault_append_styles_eq_none_iff rfl hchildren
  | text t =>
    rw [Element.visits, Element.styleRecords]
    exact firstFault_append_styles_eq_none_iff rfl firstFault_rangeVisits_eq_none_iff
  | image i =>
    rw [Element.visits, Element.styleRecords, firstFault_singleton]
    exact bind_failure?_eq_none_iff
  | video v =>
    rw [Element.visits, Element.styleRecords, firstFault_singleton]
    exact bind_failure?_eq_none_iff

theorem Layer.firstFault_eq_none_iff (l : Layer) (path : Path) :
    firstFault (l.visits path) = none ↔
      (l.template = .thirds → l.elements.length = 3) ∧ ∀ r ∈ l.styleRecords, r.fault? = none := by
  have hthirds : firstFault (if l.template = .thirds then [.thirds path l.elements.length] else []) =
      none ↔ (l.template = .thirds → l.elements.length = 3) := by
    split
    · next htemplate =>
      rw [firstFault_singleton, Visit.fault?, forall_prop_of_true htemplate]
      split <;> simp [*]
    · next htemplate => exact ⟨fun _ h => absurd h htemplate, fun _ => rfl⟩
  have helements : firstFault (l.elements.zipIdx.flatMap fun x =>
      x.1.visits (layerElementPath l.template path x.2)) = none ↔
        ∀ r ∈ elementRecords l.elements, r.fault? = none := by
    rw [elementRecords_eq_flatMap, List.forall_mem_flatMap]
    exact firstFault_parts_eq_none_iff
      (fun (e : Element) _ i => e.firstFault_eq_none_iff (layerElementPath l.template path i)) 0
  rw [Layer.visits, Layer.styleRecords, List.append_assoc, firstFault_append_eq_none_iff, hthirds,
    firstFault_append_styles_eq_none_iff rfl helements]

theorem Page.firstFault_eq_none_iff (p : Page) (path : Path) :
    firstFault (p.visits path) = none ↔
      (∀ l ∈ p.layers, l.template = .thirds → l.elements.length = 3) ∧
        ∀ r ∈ p.styleRecords, r.fault? = none := by
  rw [Page.styleRecords, List.forall_mem_flatMap, ← forall₂_and]
  exact firstFault_parts_eq_none_iff
    (fun (l : Layer) _ i => l.firstFault_eq_none_iff (path.keyItem "layers" i)) 0

/-- A body is without fault if its thirds are three and all style records in it can be converted. -/
theorem Story.firstFault_eq_none_iff (s : Story) :
    firstFault s.visits = none ↔
      (∀ p ∈ s.pages, ∀ l ∈ p.layers, l.template = .thirds → l.elements.length = 3) ∧
        ∀ r ∈ s.pages.flatMap Page.styleRecords, r.fault? = none := by
  rw [List.forall_mem_flatMap, ← forall₂_and]
  exact firstFault_parts_eq_none_iff
    (fun (p : Page) _ i => p.firstFault_eq_none_iff (pagePath i)) 0

/-! ## The parts of a compilation -/

/-- The body fails with the first fault that is met. -/
theorem failure?_renderStory (s : Story) :
    failure? ((renderStory s).run .empty) = firstFault s.visits := by
  cases hfault : firstFault s.visits with
  | some e =>
    rw [(walks_story s).fails ClassTable.reachable_empty hfault]
    rfl
  | none =>
    obtain ⟨name, hname⟩ := (ClassTable.empty.after s.visits).exists_gives
    rw [(walks_story s).succeeds ClassTable.reachable_empty hfault hname]
    rfl

/-- What is wrong with a default style. -/
def defaultStyleFault? (e : String × StyleRecord) : Option Error :=
  failure? (convertStyle e.2 (defaultStylePath e.1))

theorem failure?_defaultRules (styles : List (String × StyleRecord)) :
    failure? (defaultRules styles) = styles.findSome? defaultStyleFault? := by
  induction styles with
  | nil => rfl
  | cons e rest ih =>
    obtain ⟨name, style⟩ := e
    have hrest (d : Declarations) : failure? (do
        let rules ← defaultRules rest
        .ok (⟨defaultStyleSelector name, d⟩ :: rules)) = rest.findSome? defaultStyleFault? := by
      refine (failure?_bind (defaultRules rest) fun _ => failure?_ok _).trans ?_
      rw [Option.or_none, ih]
    rw [defaultRules, failure?_bind _ hrest, List.findSome?_cons, defaultStyleFault?]
    cases failure? (convertStyle style (defaultStylePath name)) <;> rfl

theorem findSome?_defaultStyleFault?_eq_none_iff {styles : List (String × StyleRecord)} :
    styles.findSome? defaultStyleFault? = none ↔ ∀ r ∈ styles.map (·.2), r.fault? = none := by
  rw [List.findSome?_eq_none_iff, List.forall_mem_map]
  simp only [defaultStyleFault?, failure?_convertStyle, Option.map_eq_none_iff]

theorem CompileOptions.failure?_validate (o : CompileOptions) :
    failure? o.validate = o.blank?.map .blankOption := by
  unfold validate
  cases o.blank? <;> rfl

/-! ## The whole compilation -/

/-- The document with the scripts of these extensions, with these rules for default styles and for
    classes, and with this body. -/
def Story.documentWith (s : Story) (o : CompileOptions) (runtime : List RuntimeComponent)
    (defaults classes : List Rule) (body : String) : String :=
  let sheet := s.customCss.getD "" ++ sheetText defaults ++ sheetText classes
  let document := documentText s o runtime sheet body
  if o.pretty then indentMarkup document else document

/-- A compilation succeeds if its three parts do, and puts their results together. -/
theorem compile_eq_ok_iff {s : Story} {o : CompileOptions} {document : String} :
    compile s o = .ok document ↔ o.validate = .ok () ∧ ∃ body state defaults,
      (renderStory s).run .empty = .ok (body, state) ∧ defaultRules s.defaultStyles = .ok defaults ∧
      document = s.documentWith o state.runtime defaults state.classes.rules body := by
  unfold compile
  cases o.validate with
  | error e => exact ⟨nofun, nofun⟩
  | ok _ =>
    cases (renderStory s).run .empty with
    | error e => exact ⟨nofun, nofun⟩
    | ok rendered =>
      cases defaultRules s.defaultStyles with
      | error e => exact ⟨nofun, nofun⟩
      | ok rules =>
        obtain ⟨body, state⟩ := rendered
        constructor
        · intro h
          exact ⟨rfl, body, state, rules, rfl, rfl, (Except.ok.inj h).symm⟩
        · rintro ⟨-, body', state', defaults, ⟨⟩, ⟨⟩, rfl⟩
          rfl

/-- All faults of a compilation: that of the options, those of the body in document order, those of
    the default styles. -/
def compileFaults (s : Story) (o : CompileOptions) : List Error :=
  (o.blank?.map .blankOption).toList ++ s.visits.filterMap Visit.fault? ++
    s.defaultStyles.filterMap defaultStyleFault?

/-- A compilation fails with its first fault. -/
theorem failure?_compile (s : Story) (o : CompileOptions) :
    failure? (compile s o) = (compileFaults s o).head? := by
  unfold compile
  rw [failure?_bind _ fun _ => failure?_bind _ fun _ =>
    (failure?_bind (defaultRules s.defaultStyles) fun _ => failure?_ok _).trans Option.or_none]
  rw [o.failure?_validate, failure?_renderStory, failure?_defaultRules, compileFaults, firstFault]
  simp only [List.head?_append, List.head?_filterMap]
  cases o.blank? <;> cases s.visits.findSome? Visit.fault? <;> rfl

/-- No compilation has a fault of another kind than these three. -/
theorem kind_of_mem_compileFaults {s : Story} {o : CompileOptions} {e : Error}
    (h : e ∈ compileFaults s o) :
    (∃ option, e = .blankOption option) ∨ (∃ path count, e = .invalidThirdsArity path count) ∨
      ∃ path cause, e = .malformedStyle path cause := by
  have hstyle {r : StyleRecord} {path : Path} (h : failure? (convertStyle r path) = some e) :
      ∃ path cause, e = .malformedStyle path cause :=
    ⟨path, exists_cause_of_failure? h⟩
  rw [compileFaults, List.mem_append, List.mem_append] at h
  rcases h with (h | h) | h
  · obtain ⟨option, -, rfl⟩ := Option.map_eq_some_iff.1 (Option.mem_toList.1 h)
    exact .inl ⟨option, rfl⟩
  · obtain ⟨v, -, hv⟩ := List.mem_filterMap.1 h
    cases v with
    | thirds path count =>
      rw [Visit.fault?] at hv
      split at hv
      · cases hv
      · exact .inr (.inl ⟨path, count, (Option.some.inj hv).symm⟩)
    | range path styles => exact .inr (.inr (hstyle hv))
    | own path styles =>
      obtain ⟨r, -, hr⟩ := Option.bind_eq_some_iff.1 hv
      exact .inr (.inr (hstyle hr))
    | box path styles =>
      obtain ⟨r, -, hr⟩ := Option.bind_eq_some_iff.1 hv
      exact .inr (.inr (hstyle hr))
  · obtain ⟨style, -, hstyle'⟩ := List.mem_filterMap.1 h
    exact .inr (.inr (hstyle hstyle'))

/-- There is no fault if none of the three parts has one. -/
theorem head?_compileFaults_eq_none_iff {s : Story} {o : CompileOptions} :
    (compileFaults s o).head? = none ↔ o.blank? = none ∧ firstFault s.visits = none ∧
      s.defaultStyles.findSome? defaultStyleFault? = none := by
  rw [compileFaults, List.head?_append, List.head?_append, Option.or_eq_none_iff,
    Option.or_eq_none_iff, List.head?_filterMap, List.head?_filterMap, ← firstFault, and_assoc]
  cases o.blank? <;> simp

/-- A compilation succeeds exactly if the options are valid, layers of thirds have three elements and
    all style records can be converted.  Otherwise it fails with the first fault in document order,
    and there are three kinds of faults. -/
theorem compile_fails_with_first_fault (s : Story) (o : CompileOptions) :
    ((∃ document, compile s o = .ok document) ↔
      o.validate = .ok () ∧
      (∀ p ∈ s.pages, ∀ l ∈ p.layers, l.template = .thirds → l.elements.length = 3) ∧
      ∀ r ∈ s.styleRecords, ∀ path, ∃ d, convertStyle r path = .ok d) ∧
    (∀ e, compile s o = .error e ↔ (compileFaults s o).head? = some e) ∧
    ∀ e, compile s o = .error e →
      (∃ option, e = .blankOption option) ∨ (∃ path count, e = .invalidThirdsArity path count) ∨
        ∃ path cause, e = .malformedStyle path cause := by
  have herror (e : Error) : compile s o = .error e ↔ (compileFaults s o).head? = some e := by
    rw [← failure?_eq_some_iff, failure?_compile]
  refine ⟨?_, herror, fun e h => kind_of_mem_compileFaults (List.mem_of_head? ((herror e).1 h))⟩
  have hoptions : o.validate = .ok () ↔ o.blank? = none := by
    rw [← Option.map_eq_none_iff (f := Error.blankOption), ← o.failure?_validate,
      failure?_eq_none_iff]
    exact ⟨fun h => ⟨(), h⟩, fun ⟨_, h⟩ => h⟩
  have hrecord (r : StyleRecord) :
      (∀ path, ∃ d, convertStyle r path = .ok d) ↔ r.fault? = none :=
    ⟨fun h => convertStyle_isOk_iff_fault?.1 (h .story), fun h _ => convertStyle_isOk_iff_fault?.2 h⟩
  rw [← failure?_eq_none_iff, failure?_compile, head?_compileFaults_eq_none_iff, hoptions,
    s.firstFault_eq_none_iff, findSome?_defaultStyleFault?_eq_none_iff, Story.styleRecords]
  simp only [hrecord, List.forall_mem_append, and_assoc]

end WebStory
