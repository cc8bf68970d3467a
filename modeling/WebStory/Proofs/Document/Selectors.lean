import WebStory.Proofs.Document.Compile
import WebStory.Proofs.Document.Outline
import WebStory.Proofs.Story.Grammar
/-
  Default styles reach the elements of their type.

  The name of a type is looked up twice, by the parser and for the selector of a default style.  A
  name that only one of them knows would be a default style without an element, or the other way
  round.

  1. **One tag** — both lead to the tag of the type (`ElementType.tagName`): it is the selector for
     every name of the type (`defaultStyleSelector_eq`).  A type may have several names, as a level
     can be spelled in more than one way, so this is about all names that are read as the type.

  2. **Elements** — an element of the type is rendered as this tag around some others
     (`reads_renderElement`), by what mirrors it in the outline of a body.

  3. **Rules** — every default style has a rule under its selector (`exists_rule_of_defaultRules`).
     No name takes the rule of another one, as rules are not merged.
-/

namespace WebStory

open Json Token

/-! ## Tags of types -/

/-- The tag that elements of a type are rendered as. -/
def ElementType.tagName : ElementType → String
  | .container => "div"
  | .image => "amp-img"
  | .video => "amp-video"
  | .text kind => kind.tagName

def Element.type : Element → ElementType
  | .container _ _ _ => .container
  | .image _ => .image
  | .video _ => .video
  | .text t => .text t.kind

/-- A default style under a name of a type selects the tag of the type. -/
theorem defaultStyleSelector_eq {name : String} {type : ElementType}
    (h : ElementType.ofName? name = some type) : defaultStyleSelector name = type.tagName := by
  unfold ElementType.ofName? at h
  unfold defaultStyleSelector
  split at h
  · obtain rfl := Option.some.inj h
    rw [if_pos ‹_›]
    rfl
  · rw [if_neg ‹_›]
    split at h
    · obtain rfl := Option.some.inj h
      rw [if_pos ‹_›]
      rfl
    · rw [if_neg ‹_›]
      split at h
      · obtain rfl := Option.some.inj h
        rw [if_pos ‹_›]
        rfl
      · rw [if_neg ‹_›]
        obtain ⟨kind, hkind, rfl⟩ := Option.map_eq_some_iff.1 h
        rw [hkind]
        rfl

/-- What gives an element is an object, with a name of the element's type. -/
theorem Gives.exists_type {v : Value} {e : Element} (h : Gives v e) :
    ∃ members name, v = .object members ∧ Entries.get? members "type" = some (.string name) ∧
      ElementType.ofName? name = some e.type := by
  have hmembers : ∃ members, v = .object members ∧ HasType members e.type := by
    cases h with
    | container type => exact ⟨_, rfl, type⟩
    | image type => exact ⟨_, rfl, type⟩
    | video type => exact ⟨_, rfl, type⟩
    | text type => exact ⟨_, rfl, type⟩
  obtain ⟨members, rfl, htype⟩ := hmembers
  obtain ⟨name, hname, hof⟩ := hasType_iff.1 htype
  exact ⟨members, name, rfl, hname, hof⟩

/-! ## Rendering -/

/-- What mirrors an element is the tag of its type around some elements. -/
theorem Element.Mirrors.exists_node {e : Element} {o : Outline} (h : e.Mirrors o) :
    ∃ inside, o = .node e.type.tagName inside := by
  cases h with
  | container id styles h => exact ⟨_, rfl⟩
  | text t h => exact ⟨_, rfl⟩
  | image i => exact ⟨_, rfl⟩
  | video v => exact ⟨_, rfl⟩

/-- With a reachable table an element is rendered as one tag, that of its type, around some others. -/
theorem reads_renderElement {e : Element} {path : Path} {third : Option Nat}
    {state last : BodyState} (ht : state.classes.Reachable) {markup : String}
    (hrun : (renderElement path third e).run state = .ok (markup, last)) :
    ∃ inside, outline? [] [] (scan markup.toList) = some [.node e.type.tagName inside] := by
  obtain ⟨-, htable, -, hmarkup⟩ := (walks_element e path third).of_run_eq_ok ht hrun
  rw [htable] at hmarkup
  have hgives := (ht.after (e.visits path)).consistent.gives_naming
  have hplain : (state.classes.after (e.visits path)).naming.Plain := fun _ => isClassChar_className _
  obtain ⟨o, ho, hreads⟩ := exists_reads_element hplain e third
  obtain ⟨inside, rfl⟩ := ho.exists_node
  have hread := hreads [] [] []
  rw [List.append_nil, ← hmarkup _ hgives] at hread
  exact ⟨inside, hread.trans (by rw [scan, outline?]; rfl)⟩

/-! ## Rules -/

/-- Every default style has a rule under its selector. -/
theorem exists_rule_of_defaultRules {styles : List (String × StyleRecord)} {rules : List Rule}
    (h : defaultRules styles = .ok rules) {name : String} {style : StyleRecord}
    (hstyle : (name, style) ∈ styles) :
    ∃ d, convertStyle style (defaultStylePath name) = .ok d ∧
      ⟨defaultStyleSelector name, d⟩ ∈ rules := by
  induction styles generalizing rules with
  | nil => cases hstyle
  | cons e rest ih =>
    obtain ⟨d, hd, h⟩ := exists_of_bind_eq_ok h
    obtain ⟨others, hothers, h⟩ := exists_of_bind_eq_ok h
    obtain rfl := Except.ok.inj h
    rcases List.mem_cons.1 hstyle with rfl | hstyle
    · exact ⟨d, hd, List.mem_cons_self⟩
    · obtain ⟨d', hd', hrule⟩ := ih hothers hstyle
      exact ⟨d', hd', List.mem_cons_of_mem _ hrule⟩

/-- A default style selects what the elements of its type are rendered as: an element has a type,
    its rendering is one tag around some others, and in every document a default style under this
    type has a rule whose selector is the name of this tag. -/
theorem defaultStyle_selects_element {v : Value} {path : Path} {e : Element}
    (h : parseElement path v = .ok e) :
    ∃ members type, v = .object members ∧ Entries.get? members "type" = some (.string type) ∧
      (∀ state : BodyState, state.classes.Reachable → ∀ place third markup last,
        (renderElement place third e).run state = .ok (markup, last) →
        ∃ inside, outline? [] [] (scan markup.toList) =
          some [.node (defaultStyleSelector type) inside]) ∧
      ∀ s o document, compile s o = .ok document → ∀ style, (type, style) ∈ s.defaultStyles →
        ∃ runtime defaults classes body d,
          document = s.documentWith o runtime defaults classes body ∧
          convertStyle style (defaultStylePath type) = .ok d ∧
          ⟨defaultStyleSelector type, d⟩ ∈ defaults := by
  obtain ⟨members, type, rfl, htype, hname⟩ :=
    ((parseElement_eq_ok_iff_gives v path e).1 h).exists_type
  refine ⟨members, type, rfl, htype, fun state ht place third markup last hrun => ?_,
    fun s o document hcompile style hstyle => ?_⟩
  · rw [defaultStyleSelector_eq hname]
    exact reads_renderElement ht hrun
  · obtain ⟨-, body, state, defaults, -, hdefaults, hdocument⟩ := compile_eq_ok_iff.1 hcompile
    obtain ⟨d, hd, hrule⟩ := exists_rule_of_defaultRules hdefaults hstyle
    exact ⟨state.runtime, defaults, state.classes.rules, body, d, hdocument, hd, hrule⟩

/-- A heading whose level is spelled out of the ordinary, and a default style under this spelling. -/
theorem defaultStyle_selects_heading :
    let v : Value := .object [("type", .string "heading+03"), ("text", .string "a < b")]
    let s : Story :=
      { title := none, canonicalUrl := none, preview := none, storyMeta := none, customCss := none
        defaultStyles := [("heading+03", ⟨[("color", .string "red")]⟩)], pages := []
        analytics := [], ads := none, bookendConfigSrc := none }
    ∃ e, parseElement .story v = .ok e ∧
      (∃ markup u inside, (renderElement .story none e).run .empty = .ok (markup, u) ∧
        outline? [] [] (scan markup.toList) = some [.node "h3" inside]) ∧
      ∃ document runtime defaults classes body d, compile s .standard = .ok document ∧
        document = s.documentWith .standard runtime defaults classes body ∧
        ⟨"h3", d⟩ ∈ defaults := by
  intro v s
  have hisOk : (do
      let e ← parseElement .story v
      (renderElement .story none e).run .empty).isOk = true := by decide +kernel
  obtain ⟨⟨markup, u⟩, hboth⟩ := exists_eq_ok hisOk
  obtain ⟨e, he, hrun⟩ := exists_of_bind_eq_ok hboth
  obtain ⟨document, hcompile⟩ := exists_eq_ok (x := compile s .standard) (by decide +kernel)
  obtain ⟨members, type, hv, htype, hrender, hrule⟩ := defaultStyle_selects_element he
  obtain rfl := Value.object.inj hv
  obtain rfl : "heading+03" = type := Value.string.inj (Option.some.inj htype)
  have hselector : defaultStyleSelector "heading+03" = "h3" := by decide +kernel
  obtain ⟨inside, hread⟩ := hrender .empty ClassTable.reachable_empty .story none markup u hrun
  obtain ⟨runtime, defaults, classes, body, d, hdocument, -, hmem⟩ :=
    hrule s .standard document hcompile _ List.mem_cons_self
  rw [hselector] at hread hmem
  exact ⟨e, he, ⟨markup, u, inside, hrun, hread⟩, document, runtime, defaults, classes, body, d,
    hcompile, hdocument, hmem⟩

end WebStory
