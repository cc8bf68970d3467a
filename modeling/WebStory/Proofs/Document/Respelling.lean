import WebStory.Proofs.Document.Classes
import WebStory.Proofs.Story.KeysOnce
import WebStory.Proofs.Story.Restyled
import WebStory.Proofs.Style.SameStyle
/-
  How styles are spelled does not show in a document, but for the text of its rules.

  Two stories are compared that are the same story with each style record spelled in its own way.
  They are never compiled side by side.  What a compilation makes of a story depends on two things,
  the requests for classes that are met on the way and a body as a function of the classes, and the
  stories are compared in each.

  1. **The body** — a tag with a class asks for it under the canonical key of its styles, which is
     the same in every spelling, also behind the defaults that the tag puts in
     (`sameStyle_effectiveStyles`).  So a body is one function of the numbers for both stories
     (`Story.markup_eq`).

  2. **The way** — the two stories have visits at the same places, and each of a pair asks for a
     class with the same key, or for none, and is at fault if the other one is (`Visit.Alike`,
     `alike_story`).  The induction is on what it means that one story restyles the other, and has
     one case for each constructor.

  3. **Numbers** — the classes are numbered by first occurrences of keys, and keys are all that this
     looks at (`keys_firstOccurrences`).  So the classes of both stories are numbered alike.

  4. **Documents** — it remains that the selectors of default styles and the scripts are those of
     the names and of the extensions in use, and neither are styles (`compile_respelled`).
-/

namespace WebStory

open StyleRecord

/-! ## Styles of tags -/

section Styles

variable {styles styles' : Option StyleRecord} (h : Option.Rel SameStyle styles styles')
include h

theorem sameStyle_boxStyles : (boxStyles styles).SameStyle (boxStyles styles') := by
  have hstyles : (styles.getD .empty).SameStyle (styles'.getD .empty) := by
    cases h with
    | none => exact ⟨List.nodup_nil, rfl⟩
    | some h => exact h
  exact hstyles.withLeadingDefault _ _

/-- Either both are empty or neither is. -/
theorem sameStyle_filter :
    Option.Rel SameStyle (styles.filter (!·.isEmpty)) (styles'.filter (!·.isEmpty)) := by
  cases h with
  | none => exact .none
  | some h =>
    rw [Option.filter_some, Option.filter_some, h.isEmpty_eq]
    split
    · exact .some h
    · exact .none

theorem sameStyle_effectiveStyles (name : String) :
    Option.Rel SameStyle (Tag.effectiveStyles name styles) (Tag.effectiveStyles name styles') := by
  unfold Tag.effectiveStyles
  split
  · exact sameStyle_filter h
  · exact .some (sameStyle_boxStyles h)

theorem stylesClass_eq (name : Naming) : stylesClass name styles = stylesClass name styles' := by
  cases h with
  | none => rfl
  | some h => exact congrArg (fun key => some (name key)) h.key

end Styles

/-! ## Markup -/

/-- Tags that differ only in their styles have one markup. -/
theorem markup_eq_of_styles {t : Tag} {styles styles' : Option StyleRecord} (name : Naming)
    (content : String) (h : Option.Rel SameStyle styles styles') :
    (t.withStyles styles).markup name content = (t.withStyles styles').markup name content :=
  congrArg (fun classes => t.wrap (Tag.joinClasses t.explicitClass classes) content)
    (stylesClass_eq (sameStyle_effectiveStyles h t.name) name)

section Markup

variable (name : Naming)

/-- The same classes are active at every character. -/
theorem activeClasses_eq {ranges ranges' : List InlineStyle}
    (h : List.Forall₂ (InlineStyle.Restyled SameStyle) ranges ranges') (index : Nat) :
    activeClasses (ranges.zip (ranges.map fun s => name s.styles.canonicalKey)) index =
      activeClasses (ranges'.zip (ranges'.map fun s => name s.styles.canonicalKey)) index := by
  induction h with
  | nil => rfl
  | @cons s s' ranges ranges' hs _ ih =>
    have hcovers : s.covers index = s'.covers index := by rw [hs.1]; rfl
    unfold activeClasses at ih ⊢
    simp only [List.map_cons, List.zip_cons_cons, List.filter_cons, hcovers, hs.2.key]
    split
    · rw [List.map_cons, List.map_cons, ih]
    · exact ih

theorem textMarkup_eq (text : String) {ranges ranges' : List InlineStyle}
    (h : List.Forall₂ (InlineStyle.Restyled SameStyle) ranges ranges') :
    textMarkup name text ranges = textMarkup name text ranges' := by
  have hempty : ranges.isEmpty = ranges'.isEmpty := by cases h <;> rfl
  have hspans (index : Nat) (cs : List Char) :
      spansFrom (ranges.zip (ranges.map fun s => name s.styles.canonicalKey)) index cs =
        spansFrom (ranges'.zip (ranges'.map fun s => name s.styles.canonicalKey)) index cs := by
    induction cs generalizing index with
    | nil => rfl
    | cons c rest ih => rw [spansFrom, spansFrom, ih, activeClasses_eq name h]
  rw [textMarkup, textMarkup, textSpans, textSpans, hempty, hspans]

theorem Element.markup_eq {e e' : Element} (h : e.Restyled SameStyle e') (third : Option Nat) :
    e.markup name third = e'.markup name third := by
  induction e using Element.induct generalizing e' third with
  | container id styles elements ih =>
    cases h with
    | container _ own inside =>
      have hchildren := map_eq_of_forall₂ inside fun e he e' hee' => ih e he hee' none
      rw [Element.markup, Element.markup, childMarkup_eq_join, childMarkup_eq_join, hchildren]
      exact markup_eq_of_styles (t := containerTag id none third) name _ own
  | text t =>
    cases h with
    | text h =>
      rw [Element.markup, Element.markup, textMarkup_eq name t.text h.ranges, h.rest]
      exact markup_eq_of_styles (t := textTag t third) name _ h.styles
  | image i =>
    cases h with
    | image h =>
      rw [Element.markup, Element.markup, h.rest]
      exact markup_eq_of_styles (t := imageTag i third) name _ h.styles
  | video v =>
    cases h with
    | video h =>
      rw [Element.markup, Element.markup, h.rest]
      exact markup_eq_of_styles (t := videoTag v third) name _ h.styles

theorem Layer.markup_eq {l l' : Layer} (h : l.Restyled SameStyle l') :
    l.markup name = l'.markup name := by
  have helements := map_eq_of_forall₂ (forall₂_zipIdx h.elements 0)
    (f := fun x => x.1.markup name (layerThird l.template x.2)) fun x _ y hxy =>
      (Element.markup_eq name hxy.1 _).trans (by rw [hxy.2])
  rw [Layer.markup, Layer.markup, helements, h.rest]
  exact markup_eq_of_styles (t := layerTag l) name _ h.styles

theorem Page.markup_eq {p p' : Page} (h : p.Restyled SameStyle p') :
    p.markup name = p'.markup name := by
  have hlayers := map_eq_of_forall₂ h.layers fun l _ l' hl => Layer.markup_eq name hl
  rw [Page.markup, Page.markup, hlayers, h.rest]
  rfl

/-- Restyled stories have one body for the same classes. -/
theorem Story.markup_eq {s s' : Story} (h : s.Restyled SameStyle s') :
    s.markup name = s'.markup name := by
  have hpages := map_eq_of_forall₂ h.pages fun p _ p' hp => Page.markup_eq name hp
  rw [Story.markup, Story.markup, hpages, h.rest]
  rfl

end Markup

/-! ## Visits -/

/-- Two visits ask for a class with one key, or for none, and have a fault both or neither. -/
structure Visit.Alike (v v' : Visit) : Prop where
  key : v.request?.map ClassRequest.key = v'.request?.map ClassRequest.key
  fault : v.fault? = none ↔ v'.fault? = none

theorem alike_range {s s' : InlineStyle} (h : s.Restyled SameStyle s') (path : Path) :
    (Visit.range path s.styles).Alike (.range path s'.styles) := by
  refine ⟨congrArg some h.2.key, ?_⟩
  rw [fault?_range_eq_none_iff, fault?_range_eq_none_iff]
  exact h.2.fault?_eq_none_iff

section Styles

variable {styles styles' : Option StyleRecord} (h : Option.Rel SameStyle styles styles') (path : Path)
include h

theorem bind_failure?_iff : (styles.bind fun r => failure? (convertStyle r path)) = none ↔
    (styles'.bind fun r => failure? (convertStyle r path)) = none := by
  rw [bind_failure?_eq_none_iff, bind_failure?_eq_none_iff]
  cases h with
  | none => exact Iff.rfl
  | some h =>
    rw [Option.toList_some, Option.toList_some, List.forall_mem_singleton, List.forall_mem_singleton]
    exact h.fault?_eq_none_iff

theorem alike_own : (Visit.own path styles).Alike (.own path styles') := by
  refine ⟨?_, bind_failure?_iff h path⟩
  rw [Visit.request?, Visit.request?, Option.map_map, Option.map_map]
  exact stylesClass_eq (sameStyle_filter h) id

theorem alike_box : (Visit.box path styles).Alike (.box path styles') :=
  ⟨congrArg some (sameStyle_boxStyles h).key, bind_failure?_iff h path⟩

end Styles

/-- Parts in a row are met alike if each of them is, whatever its index. -/
theorem alike_parts {α β : Type} {P : α → β → Prop} {visits : α → Nat → List Visit}
    {visits' : β → Nat → List Visit} {as : List α} {bs : List β} (h : List.Forall₂ P as bs)
    (hvisits : ∀ a ∈ as, ∀ b, P a b → ∀ i, List.Forall₂ Visit.Alike (visits a i) (visits' b i))
    (index : Nat) :
    List.Forall₂ Visit.Alike ((as.zipIdx index).flatMap fun (a, i) => visits a i)
      ((bs.zipIdx index).flatMap fun (b, i) => visits' b i) := by
  have hparts := forall₂_zipIdx (forall₂_of_mem h hvisits) index
  refine List.rel_flatMap hparts ?_
  rintro ⟨a, i⟩ ⟨b, _⟩ ⟨hab, rfl⟩
  exact hab i

theorem alike_element {e e' : Element} (h : e.Restyled SameStyle e') (path : Path) :
    List.Forall₂ Visit.Alike (e.visits path) (e'.visits path) := by
  induction e using Element.induct generalizing e' path with
  | container id styles elements ih =>
    cases h with
    | container _ own inside =>
      rw [Element.visits, Element.visits, childVisits_eq_flatMap, childVisits_eq_flatMap]
      refine List.rel_append ?_ (.cons (alike_box own path) .nil)
      exact alike_parts inside (fun e he e' hee' i => ih e he hee' (path.keyItem "elements" i)) 0
  | text t =>
    cases h with
    | text h =>
      rw [Element.visits, Element.visits]
      refine List.rel_append ?_ (.cons (alike_own h.styles path) .nil)
      rw [rangeVisits, rangeVisits, List.map_eq_flatMap, List.map_eq_flatMap]
      exact alike_parts h.ranges (fun s _ s' hs i =>
        .cons (alike_range hs (path.keyItem "inlineStyles" i)) .nil) 0
  | image i =>
    cases h with
    | image h =>
      rw [Element.visits, Element.visits]
      exact .cons (alike_own h.styles path) .nil
  | video v =>
    cases h with
    | video h =>
      rw [Element.visits, Element.visits]
      exact .cons (alike_own h.styles path) .nil

theorem alike_layer {l l' : Layer} (h : l.Restyled SameStyle l') (path : Path) :
    List.Forall₂ Visit.Alike (l.visits path) (l'.visits path) := by
  have htemplate : l'.template = l.template := by rw [h.rest]
  rw [Layer.visits, Layer.visits, htemplate, ← h.elements.length_eq]
  refine List.rel_append (List.rel_append ?_ ?_) (.cons (alike_own h.styles path) .nil)
  · split
    · exact .cons ⟨rfl, Iff.rfl⟩ .nil
    · exact .nil
  · exact alike_parts h.elements (fun e _ e' hee' i =>
      alike_element hee' (layerElementPath l.template path i)) 0

/-- Restyled stories are met alike. -/
theorem alike_story {s s' : Story} (h : s.Restyled SameStyle s') :
    List.Forall₂ Visit.Alike s.visits s'.visits :=
  alike_parts h.pages (fun _ _ _ hp i => alike_parts hp.layers
    (fun _ _ _ hl j => alike_layer hl ((pagePath i).keyItem "layers" j)) 0) 0

/-! ## Numbers -/

section Alike

variable {visits visits' : List Visit} (h : List.Forall₂ Visit.Alike visits visits')
include h

theorem keys_eq_of_alike : (visits.filterMap Visit.request?).map ClassRequest.key =
    (visits'.filterMap Visit.request?).map ClassRequest.key := by
  rw [List.map_filterMap, List.map_filterMap]
  induction h with
  | nil => rfl
  | cons hv _ ih => rw [List.filterMap_cons, List.filterMap_cons, hv.key, ih]

theorem firstFault_iff_of_alike : firstFault visits = none ↔ firstFault visits' = none := by
  rw [firstFault, firstFault, List.findSome?_eq_none_iff, List.findSome?_eq_none_iff]
  induction h with
  | nil => exact Iff.rfl
  | cons hv _ ih => rw [List.forall_mem_cons, List.forall_mem_cons, hv.fault, ih]

end Alike

/-- The keys of first occurrences depend on the keys only. -/
theorem keys_firstOccurrences {requests requests' : List ClassRequest}
    (h : requests.map ClassRequest.key = requests'.map ClassRequest.key) :
    (ClassTable.firstOccurrences requests).map ClassRequest.key =
      (ClassTable.firstOccurrences requests').map ClassRequest.key := by
  induction requests generalizing requests' with
  | nil =>
    obtain rfl : requests' = [] := List.map_eq_nil_iff.1 h.symm
    rfl
  | cons q rest ih =>
    cases requests' with
    | nil => cases h
    | cons q' rest' =>
      rw [List.map_cons, List.map_cons, List.cons.injEq] at h
      -- keys are kept or dropped by a test of the key
      have hfilter (qs : List ClassRequest) (key : String) :
          (qs.filter fun p => p.key != key).map ClassRequest.key =
            (qs.map ClassRequest.key).filter (· != key) := by
        rw [List.filter_map]
        rfl
      rw [ClassTable.firstOccurrences, ClassTable.firstOccurrences, List.map_cons, List.map_cons,
        hfilter, hfilter, h.1, ih h.2]

/-! ## Classes and default styles -/

section Story

variable {s s' : Story} (h : s.Restyled SameStyle s')
include h

/-- Classes are numbered alike. -/
theorem number_eq_of_restyled : ClassTable.number (ClassTable.firstOccurrences s.requests) =
    ClassTable.number (ClassTable.firstOccurrences s'.requests) := by
  funext key
  have hkeys := keys_firstOccurrences (keys_eq_of_alike (alike_story h))
  rw [ClassTable.number, ClassTable.number, Story.requests, Story.requests, hkeys]

/-- There are as many class rules. -/
theorem length_rules_eq (hsound : firstFault s.visits = none) :
    (ClassTable.empty.assignAll s.requests).2.rules.length =
      (ClassTable.empty.assignAll s'.requests).2.rules.length := by
  have hsound' := (firstFault_iff_of_alike (alike_story h)).1 hsound
  have hkeys := keys_firstOccurrences (keys_eq_of_alike (alike_story h))
  rw [(numbered_story hsound).length_eq (ClassTable.consistent_run s.requests),
    (numbered_story hsound').length_eq (ClassTable.consistent_run s'.requests),
    ← List.length_map, Story.requests, hkeys, List.length_map, Story.requests]

/-- What is asked of the records of default styles is asked of those of a restyled story. -/
theorem defaultStyles_iff : s.defaultStyles.findSome? defaultStyleFault? = none ↔
    s'.defaultStyles.findSome? defaultStyleFault? = none := by
  have hstyles := h.defaultStyles
  rw [findSome?_defaultStyleFault?_eq_none_iff, findSome?_defaultStyleFault?_eq_none_iff]
  generalize s.defaultStyles = styles at hstyles
  generalize s'.defaultStyles = styles' at hstyles
  induction hstyles with
  | nil => exact Iff.rfl
  | cons he _ ih =>
    rw [List.map_cons, List.map_cons, List.forall_mem_cons, List.forall_mem_cons]
    exact and_congr he.2.fault?_eq_none_iff ih

theorem names_defaultStyles_eq :
    (s.defaultStyles.map fun e => defaultStyleSelector e.1) =
      s'.defaultStyles.map fun e => defaultStyleSelector e.1 :=
  map_eq_of_forall₂ h.defaultStyles fun _ _ _ he => congrArg defaultStyleSelector he.1

end Story

/-! ## Extensions of the runtime -/

theorem flatMap_eq_of_forall₂ {α β γ : Type} {P : α → β → Prop} {f : α → List γ} {g : β → List γ}
    {as : List α} {bs : List β} (h : List.Forall₂ P as bs)
    (hfg : ∀ a ∈ as, ∀ b, P a b → f a = g b) : as.flatMap f = bs.flatMap g := by
  rw [List.flatMap_def, List.flatMap_def, map_eq_of_forall₂ h hfg]

theorem Element.uses_eq {e e' : Element} (h : e.Restyled SameStyle e') : e.uses = e'.uses := by
  induction e using Element.induct generalizing e' with
  | container id styles elements ih =>
    cases h with
    | container _ own inside =>
      rw [Element.uses, Element.uses, elementUses_eq_flatMap, elementUses_eq_flatMap]
      exact flatMap_eq_of_forall₂ inside fun e he e' hee' => ih e he hee'
  | text t => cases h with | text h => rfl
  | image i => cases h with | image h => rfl
  | video v => cases h with | video h => rfl

/-- A story uses the same extensions of the runtime in all spellings of its styles. -/
theorem Story.uses_eq {s s' : Story} (h : s.Restyled SameStyle s') : s.uses = s'.uses := by
  have hpages : s.pages.flatMap Page.uses = s'.pages.flatMap Page.uses :=
    flatMap_eq_of_forall₂ h.pages fun p _ p' hp => flatMap_eq_of_forall₂ hp.layers fun l _ l' hl =>
      flatMap_eq_of_forall₂ hl.elements fun e _ e' he => Element.uses_eq he
  have hanalytics : s'.analytics = s.analytics := by rw [h.rest]
  have hads : s'.ads = s.ads := by rw [h.rest]
  rw [Story.uses, Story.uses, hpages, hanalytics, hads]

/-! ## Documents -/

section Compile

variable {s s' : Story} (h : s.Restyled SameStyle s') (o : CompileOptions)
include h

/-- Both stories can be compiled or neither. -/
theorem compile_isOk_iff : (∃ d, compile s o = .ok d) ↔ ∃ d, compile s' o = .ok d := by
  rw [← failure?_eq_none_iff, ← failure?_eq_none_iff, failure?_compile, failure?_compile,
    head?_compileFaults_eq_none_iff, head?_compileFaults_eq_none_iff,
    firstFault_iff_of_alike (alike_story h), defaultStyles_iff h]

/-- The selectors of class rules are numbered, so their number decides. -/
theorem selectors_eq {defaults defaults' : List Rule} (hsound : firstFault s.visits = none)
    (hdefaults : defaultRules s.defaultStyles = .ok defaults)
    (hdefaults' : defaultRules s'.defaultStyles = .ok defaults') :
    (defaults ++ (ClassTable.empty.assignAll s.requests).2.rules).map (·.selector) =
      (defaults' ++ (ClassTable.empty.assignAll s'.requests).2.rules).map (·.selector) := by
  rw [List.map_append, List.map_append, selectors_of_defaultRules hdefaults,
    selectors_of_defaultRules hdefaults', names_defaultStyles_eq h,
    (ClassTable.consistent_run s.requests).selectors,
    (ClassTable.consistent_run s'.requests).selectors, length_rules_eq h hsound]

end Compile

/-- A story that was read, and another that differs from it only in how the styles are spelled: either
    neither can be compiled, or both are compiled to one body, with the same selectors in their
    style sheets and the same scripts. -/
theorem compile_respelled {v : Json.Value} {s s' : Story} (o : CompileOptions)
    (hs : parseStory v = .ok s) (once : v.KeysOnce)
    (h : s.Restyled (fun r r' => r.toValue.Same r'.toValue) s') :
    (∃ e e', compile s o = .error e ∧ compile s' o = .error e') ∨
    ∃ body state state' defaults defaults',
      (renderStory s).run .empty = .ok (body, state) ∧
      (renderStory s').run .empty = .ok (body, state') ∧
      defaultRules s.defaultStyles = .ok defaults ∧
      defaultRules s'.defaultStyles = .ok defaults' ∧
      compile s o = .ok (s.documentWith o state.runtime defaults state.classes.rules body) ∧
      compile s' o = .ok (s'.documentWith o state'.runtime defaults' state'.classes.rules body) ∧
      s.customCss = s'.customCss ∧
      (defaults ++ state.classes.rules).map (·.selector) =
        (defaults' ++ state'.classes.rules).map (·.selector) ∧
      runtimeScripts o state.runtime = runtimeScripts o state'.runtime := by
  have hstyle : s.Restyled SameStyle s' :=
    h.mono fun r hr r' hsame => SameStyle.of_same (keysOnce_parseStory v once s hs r hr) hsame
  have hiff := compile_isOk_iff hstyle o
  cases hcompile : compile s o with
  | error e =>
    cases hcompile' : compile s' o with
    | error e' => exact .inl ⟨e, e', rfl, rfl⟩
    | ok d =>
      obtain ⟨_, hd⟩ := hiff.2 ⟨d, hcompile'⟩
      rw [hcompile] at hd
      cases hd
  | ok d =>
    obtain ⟨d', hcompile'⟩ := hiff.1 ⟨d, hcompile⟩
    obtain ⟨-, body, state, defaults, hbody, hdefaults, rfl⟩ := compile_eq_ok_iff.1 hcompile
    obtain ⟨-, body', state', defaults', hbody', hdefaults', rfl⟩ := compile_eq_ok_iff.1 hcompile'
    obtain ⟨hsound, hmarkup, rfl⟩ := of_renderStory_eq_ok hbody
    obtain ⟨-, hmarkup', rfl⟩ := of_renderStory_eq_ok hbody'
    -- both bodies are the markup for the same numbers
    obtain rfl : body = body' := by
      rw [hmarkup, hmarkup', Story.markup_eq _ hstyle, number_eq_of_restyled hstyle]
    refine .inr ⟨body, _, _, defaults, defaults', hbody, hbody', hdefaults, hdefaults', rfl,
      hcompile', ?_, selectors_eq hstyle hsound hdefaults hdefaults', ?_⟩
    · rw [hstyle.rest]
    · rw [Story.runtime, Story.runtime, Story.uses_eq hstyle]

/-- Twelve as an integer and as a floating-point number, under keys in two orders. -/
theorem compile_twelve_respelled :
    let twelve : Json.Number := .int 12 (by decide)
    let twelvePointZero : Json.Number := .float ((Binary64.ofInt? 12).getD default)
    let color : String × Json.Value := ("color", .string "red")
    let value : Json.Value := .object [("pages", .array [.object [("layers", .array [.object
      [("template", .string "vertical"),
        ("styles", .object [("fontSize", .number twelve), color])]])]])]
    let story (entries : Json.Members) : Story :=
      { title := none, canonicalUrl := none, preview := none, storyMeta := none, customCss := none
        defaultStyles := [], pages := [⟨"page-0", none, [⟨.vertical, some ⟨entries⟩, []⟩]⟩]
        analytics := [], ads := none, bookendConfigSrc := none }
    let s := story [("fontSize", .number twelve), color]
    let s' := story [color, ("fontSize", .number twelvePointZero)]
    parseStory value = .ok s ∧ value.KeysOnce ∧
      s.Restyled (fun r r' => r.toValue.Same r'.toValue) s' ∧
      ∃ body state state', (renderStory s).run .empty = .ok (body, state) ∧
        (renderStory s').run .empty = .ok (body, state') := by
  intro twelve twelvePointZero color value story s s'
  have hs : parseStory value = .ok s := by rfl
  have once : value.KeysOnce := by
    simp [value, color, Json.Value.KeysOnce, Json.Value.ItemsOnce, Json.Value.MembersOnce,
      Entries.names]
  have hint : ((Binary64.ofInt? 12).getD default).toInt? = some 12 := by decide +kernel
  have hvalue : twelve.value = twelvePointZero.value := (Binary64.toInt?_eq_some_iff.1 hint).symm
  have hstyles : (Json.Value.object [("fontSize", .number twelve), color]).Same
      (.object [color, ("fontSize", .number twelvePointZero)]) :=
    .object (List.Perm.swap _ _ _) (.cons (.string _) (.cons (.number hvalue) .nil))
  have h : s.Restyled (fun r r' => r.toValue.Same r'.toValue) s' :=
    ⟨rfl, .cons ⟨rfl, .cons ⟨rfl, .some hstyles, .nil⟩ .nil⟩ .nil, .nil⟩
  refine ⟨hs, once, h, ?_⟩
  obtain ⟨document, hdocument⟩ := exists_eq_ok (x := compile s .standard) (by decide +kernel)
  rcases compile_respelled .standard hs once h with
    ⟨e, _, herror, -⟩ | ⟨body, state, state', _, _, hbody, hbody', -⟩
  · rw [hdocument] at herror
    cases herror
  · exact ⟨body, state, state', hbody, hbody'⟩

end WebStory
