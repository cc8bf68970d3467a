import WebStory.Proofs.Document.Markup
import WebStory.Proofs.Document.Runtime
import WebStory.Proofs.Document.Visits
import WebStory.Proofs.Markup.Tag
import WebStory.Proofs.Story.Tree
/-
  Rendering is the walk through a story.

  The program renders a story in one go: it asks for classes, may fail at any of them, and puts the
  names it got into the text.  Here the three are taken apart.  What is met on the way is a list
  that depends on the story alone, and the text is a function of the names.

  1. **Classes** — `Renders m visits out` says all about a rendering `m` that does not depend on the
     table it starts with: from every reachable table it fails with the first fault of `visits`, or
     it ends with the table after the requests of `visits` and with the text `out` for the classes
     in that table.  The crux is that the classes may be read off the last table, although the text
     was made with the tables on the way: a class once given stays (`Gives.of_after`).  So
     renderings one after another are described by their visits one after another (`Renders.bind`).
     Tags and texts need no more than this.

  2. **Extensions** — a body also collects the extensions of the runtime that are in use.  What it
     has collected has no influence on what it does next, so a walk is a rendering that notes some
     extensions as well (`Walks`, with the same laws).

  3. **The parts** — every part of a story has one lemma, up to the whole body (`walks_story`).
     That of an element is by induction on the element; parts in a row are put together once for all
     (`walks_join`).

  What is known of compiled stories is derived from `walks_story`, without another look into the
  rendering.
-/

namespace WebStory

open Json

/-- The table after the requests of visits. -/
def ClassTable.after (t : ClassTable) (visits : List Visit) : ClassTable :=
  (t.assignAll (visits.filterMap Visit.request?)).2

/-- A naming has the classes of a table. -/
def ClassTable.Gives (t : ClassTable) (name : Naming) : Prop :=
  ∀ key c, t.classOf? key = some c → name key = c

namespace ClassTable

variable {t : ClassTable}

theorem after_append (t : ClassTable) (visits more : List Visit) :
    t.after (visits ++ more) = (t.after visits).after more := by
  rw [after, List.filterMap_append, assignAll_append]
  rfl

theorem Reachable.after (h : t.Reachable) (visits : List Visit) : (t.after visits).Reachable :=
  h.assignAll _

/-- What has the classes of a later table has those of an earlier one. -/
theorem Gives.of_after (h : t.Reachable) {visits : List Visit} {name : Naming}
    (hname : (t.after visits).Gives name) : t.Gives name :=
  fun key c hkey => hname key c (classOf?_assignAll h.consistent hkey _)

/-- The names of a table: a key is numbered by its place among the keys. -/
def naming (t : ClassTable) : Naming := fun key => className ((Entries.names t.cache).idxOf key)

theorem Consistent.gives_naming (h : t.Consistent) : t.Gives t.naming := by
  intro key c hkey
  obtain ⟨i, hi, rfl⟩ := h.classOf?_iff.1 hkey
  obtain ⟨hlt, rfl⟩ := List.getElem?_eq_some_iff.1 hi
  rw [naming, h.keys_nodup.idxOf_getElem i hlt]

/-- Keys that have classes have different ones. -/
theorem Consistent.eq_of_naming_eq (h : t.Consistent) {key key' : String}
    (hkey : ∃ c, t.classOf? key = some c) (hkey' : ∃ c, t.classOf? key' = some c)
    (heq : t.naming key = t.naming key') : key = key' := by
  obtain ⟨c, hc⟩ := hkey
  obtain ⟨c', hc'⟩ := hkey'
  rw [h.gives_naming key c hc, h.gives_naming key' c' hc'] at heq
  exact h.classOf?_injective hc (heq ▸ hc')

/-- What was asked for without fault has a class from then on. -/
theorem Reachable.exists_classOf?_after (h : t.Reachable) {visits : List Visit}
    (hsound : firstFault visits = none) {v : Visit} (hv : v ∈ visits) {q : ClassRequest}
    (hq : v.request? = some q) : ∃ c, (t.after visits).classOf? q.key = some c := by
  obtain ⟨before, more, rfl⟩ := List.append_of_mem hv
  have hthirds : ∀ path count, v ≠ .thirds path count := by
    rintro path count rfl
    cases hq
  have hfault : q.fault? = none := by
    have hnone : v.fault? = none := List.findSome?_eq_none_iff.1 hsound v hv
    rwa [Visit.fault?_eq hthirds, hq] at hnone
  obtain ⟨c, -, hkey⟩ := (t.after before).assign_of_fault?_none hfault
  have hone : (t.after before).after [v] = ((t.after before).assign q.record q.path).2 := by
    rw [ClassTable.after, List.filterMap_cons_some hq]
    rfl
  refine ⟨c, ?_⟩
  rw [after_append, ← List.singleton_append, after_append, hone]
  exact classOf?_assignAll ((h.after before).consistent.assign _ _) hkey _

/-- Every table gives names. -/
theorem exists_gives (t : ClassTable) : ∃ name : Naming, t.Gives name :=
  ⟨fun key => (t.classOf? key).getD "", fun _ _ h => by simp only [h, Option.getD_some]⟩

end ClassTable

/-- What a rendering does, in terms of what it meets and of the text that results. -/
structure Renders {α : Type} (m : Rendering α) (visits : List Visit) (out : Naming → α) : Prop where
  fails : ∀ {t : ClassTable} {e : Error}, t.Reachable → firstFault visits = some e →
    m.run t = .error e
  succeeds : ∀ {t : ClassTable} {name : Naming}, t.Reachable → firstFault visits = none →
    (t.after visits).Gives name → m.run t = .ok (out name, t.after visits)

section Renders

variable {α β : Type} {m : Rendering α} {visits more : List Visit} {out : Naming → α}

theorem renders_pure (a : α) : Renders (pure a) [] fun _ => a := ⟨nofun, fun _ _ _ => rfl⟩

theorem Renders.bind {k : α → Rendering β} {next : α → Naming → β} (hm : Renders m visits out)
    (hk : ∀ a, Renders (k a) more (next a)) :
    Renders (m >>= k) (visits ++ more) fun name => next (out name) name := by
  constructor
  · intro t e ht hfault
    rw [StateT.run_bind]
    rw [firstFault_append] at hfault
    -- the first part fails, or it leads to the second
    cases hfirst : firstFault visits with
    | some e' =>
      rw [hfirst, Option.some_or] at hfault
      rw [hm.fails ht (hfirst.trans hfault)]
      rfl
    | none =>
      rw [hfirst, Option.none_or] at hfault
      obtain ⟨name, hname⟩ := (t.after visits).exists_gives
      rw [hm.succeeds ht hfirst hname]
      exact (hk _).fails (ht.after visits) hfault
  · intro t name ht hfault hname
    rw [firstFault_append, Option.or_eq_none_iff] at hfault
    rw [ClassTable.after_append] at hname ⊢
    rw [StateT.run_bind, hm.succeeds ht hfault.1 (hname.of_after (ht.after visits))]
    exact (hk _).succeeds (ht.after visits) hfault.2 hname

theorem Renders.map (hm : Renders m visits out) (f : α → β) :
    Renders (do return f (← m)) visits fun name => f (out name) := by
  have h := hm.bind fun a => renders_pure (f a)
  rwa [List.append_nil] at h

/-- What asks for no class and has no fault need not be met. -/
theorem Renders.silent {v : Visit} (hm : Renders m visits out) (hrequest : v.request? = none)
    (hfault : v.fault? = none) : Renders m (v :: visits) out := by
  have hfirst : firstFault (v :: visits) = firstFault visits := by
    rw [firstFault, List.findSome?_cons, hfault]
    rfl
  have hafter (t : ClassTable) : t.after (v :: visits) = t.after visits := by
    rw [ClassTable.after, List.filterMap_cons_none hrequest]
    rfl
  constructor
  · intro t e ht h
    exact hm.fails ht (hfirst ▸ h)
  · intro t name ht h hname
    rw [hafter] at hname ⊢
    exact hm.succeeds ht (hfirst ▸ h) hname

/-- Nothing is met after a fault. -/
theorem renders_throw {v : Visit} {e : Error} (h : v.fault? = some e) (visits : List Visit)
    (out : Naming → α) : Renders (throw e) (v :: visits) out := by
  have hfirst : firstFault (v :: visits) = some e := by rw [firstFault, List.findSome?_cons, h]
  constructor
  · intro t e' _ h'
    rw [← Option.some.inj (hfirst.symm.trans h')]
    rfl
  · intro t name _ h'
    rw [hfirst] at h'
    cases h'

/-- A request for a class. -/
theorem renders_assignClass {v : Visit} {q : ClassRequest} (hrequest : v.request? = some q)
    (hfault : v.fault? = q.fault?) :
    Renders (assignClass q.record q.path) [v] fun name => name q.key := by
  have hafter (t : ClassTable) : t.after [v] = (t.assign q.record q.path).2 := by
    rw [ClassTable.after, List.filterMap_cons_some hrequest]
    rfl
  constructor
  · intro t e ht h
    rw [firstFault_singleton, hfault] at h
    rw [StateT.run, assignClass, ht.assign_of_fault? h]
  · intro t name _ h hname
    rw [firstFault_singleton, hfault] at h
    rw [hafter] at hname ⊢
    obtain ⟨c, hassign, hkey⟩ := t.assign_of_fault?_none h
    rw [StateT.run, assignClass, hassign, hname _ _ hkey]

/-- A rendering that succeeded met no fault, and what it gave is known. -/
theorem Renders.of_run_eq_ok (hm : Renders m visits out) {t u : ClassTable} {a : α}
    (ht : t.Reachable) (h : m.run t = .ok (a, u)) :
    firstFault visits = none ∧ u = t.after visits ∧ ∀ name, u.Gives name → a = out name := by
  have hsound : firstFault visits = none := by
    cases hfault : firstFault visits with
    | none => rfl
    | some e =>
      rw [hm.fails ht hfault] at h
      cases h
  have hrun {name : Naming} (hname : (t.after visits).Gives name) :
      (out name, t.after visits) = (a, u) :=
    Except.ok.inj ((hm.succeeds ht hsound hname).symm.trans h)
  obtain ⟨name, hname⟩ := (t.after visits).exists_gives
  obtain rfl : t.after visits = u := congrArg Prod.snd (hrun hname)
  exact ⟨hsound, rfl, fun other hother => (congrArg Prod.fst (hrun hother)).symm⟩

end Renders

/-! ## Tags -/

/-- A tag meets its own styles, in one way or another. -/
theorem renders_tag {t : Tag} {path : Path} {v : Visit} (content : String)
    (hrequest : v.request? = (Tag.effectiveStyles t.name t.styles).map (⟨·, path⟩))
    (hthirds : ∀ path count, v ≠ .thirds path count) :
    Renders (t.render path content) [v] fun name => t.markup name content := by
  have hfault := Visit.fault?_eq hthirds
  have hclass : Renders (t.generatedClass path) [v] fun name =>
      stylesClass name (Tag.effectiveStyles t.name t.styles) := by
    unfold Tag.generatedClass
    cases hstyles : Tag.effectiveStyles t.name t.styles with
    | none =>
      rw [hstyles] at hrequest
      rw [hrequest] at hfault
      exact (renders_pure none).silent hrequest hfault
    | some r =>
      rw [hstyles] at hrequest
      rw [hrequest] at hfault
      exact (renders_assignClass hrequest hfault).map some
  exact hclass.map fun generated => t.wrap (Tag.joinClasses t.explicitClass generated) content

/-- A tag without styles, and without the default of a box, meets nothing. -/
theorem renders_plain_tag (t : Tag) (path : Path) (content : String)
    (h : Tag.effectiveStyles t.name t.styles = none) :
    Renders (t.render path content) [] fun name => t.markup name content := by
  have hclass : Renders (t.generatedClass path) [] fun name =>
      stylesClass name (Tag.effectiveStyles t.name t.styles) := by
    rw [Tag.generatedClass, h]
    exact renders_pure none
  exact hclass.map fun generated => t.wrap (Tag.joinClasses t.explicitClass generated) content

/-! ## Texts -/

/-- The ranges of a text ask for their classes one after another. -/
theorem renders_rangeClasses (path : Path) (ranges : List InlineStyle) (index : Nat) :
    Renders (rangeClasses path index ranges)
      ((ranges.zipIdx index).map fun (s, i) => .range (path.keyItem "inlineStyles" i) s.styles)
      fun name => ranges.map fun s => name s.styles.canonicalKey := by
  induction ranges generalizing index with
  | nil => exact renders_pure []
  | cons s rest ih =>
    have hfirst := renders_assignClass (v := .range (path.keyItem "inlineStyles" index) s.styles)
      rfl rfl
    exact hfirst.bind fun c => (ih (index + 1)).map (c :: ·)

theorem renders_text (text : String) (ranges : List InlineStyle) (path : Path) :
    Renders (renderText text ranges path) (rangeVisits path ranges)
      fun name => textMarkup name text ranges := by
  have hspans : Renders (splitText text ranges path) (rangeVisits path ranges)
      fun name => textSpans name text ranges := by
    unfold splitText textSpans
    split
    · next hempty =>
      rw [List.isEmpty_iff.1 hempty]
      exact renders_pure _
    · exact (renders_rangeClasses path ranges 0).map fun names =>
        spansFrom (ranges.zip names) 0 text.toList
  exact hspans.map fun spans => replaceLineBreaks (renderSpans spans)

/-! ## Elements -/

/-- The tag of a text, an image, a video or a layer meets its own styles. -/
theorem renders_own_tag {t : Tag} {styles : Option StyleRecord} {path : Path} (content : String)
    (hname : t.name ∈ Tag.flexExempt) (hstyles : t.styles = styles) :
    Renders (t.render path content) [.own path styles] fun name => t.markup name content := by
  refine renders_tag content ?_ nofun
  rw [effectiveStyles_of_exempt hname, hstyles]
  rfl

theorem renders_box_tag {t : Tag} {styles : Option StyleRecord} {path : Path} (content : String)
    (hname : t.name = "div") (hstyles : t.styles = styles) :
    Renders (t.render path content) [.box path styles] fun name => t.markup name content := by
  refine renders_tag content ?_ nofun
  rw [hname, hstyles]
  rfl

theorem renders_sources (path : Path) (sources : List VideoSource) :
    Renders (renderSources path sources) []
      fun name => String.join (sources.map fun s => (sourceTag s).markup name "") := by
  induction sources with
  | nil => exact renders_pure ""
  | cons s rest ih =>
    have hfirst := renders_plain_tag (sourceTag s) path "" (by simp [sourceTag]; rfl)
    simp only [List.map_cons, String.join_cons]
    exact hfirst.bind fun first => ih.map (first ++ ·)

/-! ## Bodies -/

/-- A rendering as a part of a body that notes extensions as in use. -/
def noting {α : Type} (m : Rendering α) (uses : List RuntimeComponent) : BodyRendering α :=
  fun state => do
    let (a, classes) ← m.run state.classes
    return (a, ⟨classes, RuntimeComponent.addAll state.runtime uses⟩)

/-- What a part of a body does: what it meets, the extensions it uses and the text that results. -/
def Walks {α : Type} (m : BodyRendering α) (visits : List Visit) (uses : List RuntimeComponent)
    (out : Naming → α) : Prop :=
  ∃ r : Rendering α, Renders r visits out ∧ m = noting r uses

section Walks

variable {α β : Type} {m : BodyRendering α} {visits more : List Visit}
  {uses moreUses : List RuntimeComponent} {out : Naming → α}

theorem noting_bind (r : Rendering α) (k : α → Rendering β) (uses moreUses : List RuntimeComponent) :
    noting r uses >>= (fun a => noting (k a) moreUses) = noting (r >>= k) (uses ++ moreUses) := by
  funext state
  show ((noting r uses).run state >>= fun p => (noting (k p.1) moreUses).run p.2) = _
  simp only [noting, StateT.run, bind, StateT.bind, RuntimeComponent.addAll_append]
  cases r state.classes <;> rfl

theorem walks_pure (a : α) : Walks (pure a) [] [] fun _ => a := ⟨pure a, renders_pure a, rfl⟩

theorem Renders.inBody {r : Rendering α} (h : Renders r visits out) :
    Walks (inBody r) visits [] out := ⟨r, h, rfl⟩

theorem walks_useComponent (c : RuntimeComponent) : Walks (useComponent c) [] [c] fun _ => () :=
  ⟨pure (), renders_pure (), rfl⟩

theorem Walks.bind {k : α → BodyRendering β} {next : α → Naming → β} (hm : Walks m visits uses out)
    (hk : ∀ a, Walks (k a) more moreUses (next a)) :
    Walks (m >>= k) (visits ++ more) (uses ++ moreUses) fun name => next (out name) name := by
  obtain ⟨r, hr, rfl⟩ := hm
  choose q hq hkq using hk
  obtain rfl : k = fun a => noting (q a) moreUses := funext hkq
  exact ⟨r >>= q, hr.bind hq, noting_bind r q uses moreUses⟩

theorem Walks.map (hm : Walks m visits uses out) (f : α → β) :
    Walks (do return f (← m)) visits uses fun name => f (out name) := by
  have h := hm.bind fun a => walks_pure (f a)
  rwa [List.append_nil, List.append_nil] at h

theorem Walks.silent {v : Visit} (hm : Walks m visits uses out) (hrequest : v.request? = none)
    (hfault : v.fault? = none) : Walks m (v :: visits) uses out := by
  obtain ⟨r, hr, rfl⟩ := hm
  exact ⟨r, hr.silent hrequest hfault, rfl⟩

theorem walks_throw {v : Visit} {e : Error} (h : v.fault? = some e) (visits : List Visit)
    (uses : List RuntimeComponent) (out : Naming → α) :
    Walks (throw e) (v :: visits) uses out := ⟨throw e, renders_throw h visits out, rfl⟩

theorem Walks.fails (hm : Walks m visits uses out) {state : BodyState} {e : Error}
    (ht : state.classes.Reachable) (h : firstFault visits = some e) : m.run state = .error e := by
  obtain ⟨r, hr, rfl⟩ := hm
  show (r.run state.classes >>= _) = _
  rw [hr.fails ht h]
  rfl

theorem Walks.succeeds (hm : Walks m visits uses out) {state : BodyState} {name : Naming}
    (ht : state.classes.Reachable) (h : firstFault visits = none)
    (hname : (state.classes.after visits).Gives name) :
    m.run state = .ok (out name,
      ⟨state.classes.after visits, RuntimeComponent.addAll state.runtime uses⟩) := by
  obtain ⟨r, hr, rfl⟩ := hm
  show (r.run state.classes >>= _) = _
  rw [hr.succeeds ht h hname]
  rfl

/-- A body that was rendered met no fault, and what it gave and what it collected is known. -/
theorem Walks.of_run_eq_ok (hm : Walks m visits uses out) {state last : BodyState} {a : α}
    (ht : state.classes.Reachable) (h : m.run state = .ok (a, last)) :
    firstFault visits = none ∧ last.classes = state.classes.after visits ∧
      last.runtime = RuntimeComponent.addAll state.runtime uses ∧
      ∀ name, last.classes.Gives name → a = out name := by
  obtain ⟨r, hr, rfl⟩ := hm
  have hrun : (r.run state.classes >>= fun p => pure
      (p.1, (⟨p.2, RuntimeComponent.addAll state.runtime uses⟩ : BodyState))) = .ok (a, last) := h
  cases hclasses : r.run state.classes with
  | error e =>
    rw [hclasses] at hrun
    cases hrun
  | ok p =>
    rw [hclasses] at hrun
    obtain ⟨b, classes⟩ := p
    obtain ⟨rfl, rfl⟩ := Prod.mk.inj (Except.ok.inj hrun)
    obtain ⟨hsound, htable, hout⟩ := hr.of_run_eq_ok ht hclasses
    exact ⟨hsound, htable, rfl, hout⟩

/-- Parts that are rendered one after another and joined, each with its index. -/
theorem walks_join {step : Nat → β → BodyRendering String}
    {all : Nat → List β → BodyRendering String} {stepVisits : Nat → β → List Visit}
    {stepUses : β → List RuntimeComponent} (stepOut : Nat → β → Naming → String)
    (hnil : ∀ index, all index [] = pure "")
    (hcons : ∀ index b rest, all index (b :: rest) = do
      let first ← step index b
      let others ← all (index + 1) rest
      return first ++ others)
    {parts : List β} (hstep : ∀ b ∈ parts, ∀ index,
      Walks (step index b) (stepVisits index b) (stepUses b) (stepOut index b)) (index : Nat) :
    Walks (all index parts) ((parts.zipIdx index).flatMap fun (b, i) => stepVisits i b)
      (parts.flatMap stepUses) fun name =>
        String.join ((parts.zipIdx index).map fun (b, i) => stepOut i b name) := by
  induction parts generalizing index with
  | nil =>
    rw [hnil]
    exact walks_pure ""
  | cons b rest ih =>
    rw [hcons]
    have hfirst := hstep b List.mem_cons_self index
    have hrest := ih (fun b hb => hstep b (List.mem_cons_of_mem _ hb)) (index + 1)
    simp only [List.zipIdx_cons, List.flatMap_cons, List.map_cons, String.join_cons]
    exact hfirst.bind fun first => hrest.map (first ++ ·)

/-- The same where the index does not show in the text. -/
theorem walks_join_uniform {step : Nat → β → BodyRendering String}
    {all : Nat → List β → BodyRendering String} {stepVisits : Nat → β → List Visit}
    {stepUses : β → List RuntimeComponent} {stepOut : β → Naming → String}
    (hnil : ∀ index, all index [] = pure "")
    (hcons : ∀ index b rest, all index (b :: rest) = do
      let first ← step index b
      let others ← all (index + 1) rest
      return first ++ others)
    {parts : List β} (hstep : ∀ b ∈ parts, ∀ index,
      Walks (step index b) (stepVisits index b) (stepUses b) (stepOut b)) (index : Nat) :
    Walks (all index parts) ((parts.zipIdx index).flatMap fun (b, i) => stepVisits i b)
      (parts.flatMap stepUses) fun name => String.join (parts.map fun b => stepOut b name) := by
  have hjoin := walks_join (fun _ b => stepOut b) hnil hcons hstep index
  have hmap (name : Naming) : (parts.zipIdx index).map (fun (b, _) => stepOut b name) =
      parts.map fun b => stepOut b name := by
    rw [← List.zipIdx_map_fst index parts, List.map_map, List.zipIdx_map_fst]
    rfl
  simpa only [hmap] using hjoin

end Walks

/-- Every element meets what its visits say, uses what it uses, and becomes its markup. -/
theorem walks_element (e : Element) (path : Path) (third : Option Nat) :
    Walks (renderElement path third e) (e.visits path) e.uses fun name => e.markup name third := by
  induction e using Element.induct generalizing path third with
  | container id styles elements ih =>
    have hchildren : Walks (renderChildren path 0 elements) (childVisits path 0 elements)
        (elementUses elements) fun name => childMarkup name elements := by
      rw [childVisits_eq_flatMap, elementUses_eq_flatMap]
      simp only [childMarkup_eq_join]
      exact walks_join_uniform (fun _ => by rw [renderChildren])
        (fun _ _ _ => by rw [renderChildren])
        (fun e he index => ih e he (path.keyItem "elements" index) none) 0
    rw [renderElement, Element.visits, Element.uses, ← List.append_nil (elementUses elements)]
    simp only [Element.markup]
    exact hchildren.bind fun content =>
      (renders_box_tag content (by simp [containerTag]) (by simp [containerTag])).inBody
  | text t =>
    rw [renderElement, Element.visits]
    simp only [Element.markup]
    exact (renders_text t.text t.inlineStyles path).inBody.bind fun content =>
      (renders_own_tag content (by simp [textTag, TextKind.tagName_mem_flexExempt])
        (by simp [textTag])).inBody
  | image i =>
    rw [renderElement, Element.visits]
    simp only [Element.markup]
    exact (renders_own_tag "" (by simp [imageTag]; decide) (by simp [imageTag])).inBody
  | video v =>
    rw [renderElement, Element.visits]
    simp only [Element.markup]
    exact (walks_useComponent .video).bind fun _ => (renders_sources path v.sources).inBody.bind
      fun content => (renders_own_tag content (by simp [videoTag]; decide) (by simp [videoTag])).inBody

/-! ## Layers, pages, stories -/

/-- A layer of thirds is refused ahead of its elements if it does not have three. -/
theorem walks_layer (l : Layer) (path : Path) :
    Walks (renderLayer path l) (l.visits path) l.uses fun name => l.markup name := by
  have helements : Walks (renderLayerElements l.template path 0 l.elements)
      (l.elements.zipIdx.flatMap fun x => x.1.visits (layerElementPath l.template path x.2))
      l.uses fun name => String.join
        (l.elements.zipIdx.map fun x => x.1.markup name (layerThird l.template x.2)) :=
    walks_join (fun index e name => e.markup name (layerThird l.template index))
      (fun _ => rfl) (fun _ _ _ => rfl)
      (fun e _ index => walks_element e (layerElementPath l.template path index)
        (layerThird l.template index)) 0
  have hlayer : Walks (do
      let content ← renderLayerElements l.template path 0 l.elements
      inBody ((layerTag l).render path content))
      (l.elements.zipIdx.flatMap (fun x => x.1.visits (layerElementPath l.template path x.2)) ++
      [.own path l.styles]) l.uses fun name => l.markup name := by
    rw [← List.append_nil l.uses]
    exact helements.bind fun content =>
      (renders_own_tag content (by simp [layerTag]; decide) (by simp [layerTag])).inBody
  -- only thirds meet the number of their elements, and they meet it first
  unfold renderLayer Layer.visits
  by_cases hthirds : l.template = .thirds
  · rw [if_pos hthirds, List.singleton_append]
    by_cases hcount : l.elements.length = 3
    · rw [if_neg fun h => h.2 hcount]
      exact hlayer.silent rfl (if_pos hcount)
    · have hfault : (Visit.thirds path l.elements.length).fault? =
          some (.invalidThirdsArity path l.elements.length) := if_neg hcount
      rw [if_pos ⟨hthirds, hcount⟩]
      exact walks_throw hfault _ _ _
  · rw [if_neg fun h => hthirds h.1, if_neg hthirds, List.nil_append]
    exact hlayer

theorem walks_page (p : Page) (path : Path) :
    Walks (renderPage path p) (p.visits path) p.uses fun name => p.markup name := by
  have hlayers : Walks (renderLayers path 0 p.layers) (p.visits path) p.uses
      fun name => String.join (p.layers.map fun l => l.markup name) :=
    walks_join_uniform (fun _ => rfl) (fun _ _ _ => rfl)
      (fun l _ index => walks_layer l (path.keyItem "layers" index)) 0
  have h := hlayers.bind fun content => (renders_plain_tag (pageTag p) path content
    (by simp [pageTag]; rfl)).inBody
  rwa [List.append_nil, List.append_nil] at h

theorem walks_storyAnalytics (entries : List AnalyticsConfig) :
    Walks (storyAnalytics entries) [] (if entries.isEmpty then [] else [.analytics])
      fun _ => renderAnalytics entries := by
  unfold storyAnalytics
  cases entries with
  | nil => exact walks_pure ""
  | cons a rest => exact (walks_useComponent .analytics).map fun _ => renderAnalytics (a :: rest)

theorem walks_storyAds (ads : Option Value) :
    Walks (storyAds ads) [] (ads.map fun _ => .autoAds).toList
      fun _ => (ads.map renderAds).getD "" := by
  cases ads with
  | none => exact walks_pure ""
  | some config => exact (walks_useComponent .autoAds).map fun _ => renderAds config

/-- The body of a story. -/
theorem walks_story (s : Story) :
    Walks (renderStory s) s.visits s.uses fun name => s.markup name := by
  have hpages : Walks (renderPages 0 s.pages) s.visits (s.pages.flatMap Page.uses)
      fun name => String.join (s.pages.map fun p => p.markup name) :=
    walks_join_uniform (fun _ => rfl) (fun _ _ _ => rfl)
      (fun p _ index => walks_page p (pagePath index)) 0
  have h := (walks_storyAnalytics s.analytics).bind fun analytics => (walks_storyAds s.ads).bind
    fun ads => hpages.bind fun pages => (renders_plain_tag (storyTag s) .story
      (analytics ++ ads ++ pages) (by simp [storyTag]; rfl)).inBody
  rw [List.append_nil, List.append_nil] at h
  rw [Story.uses, List.append_assoc]
  exact h

end WebStory
