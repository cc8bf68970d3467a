import WebStory.Proofs.Document.Compile
/-
  The classes of a document.

  1. **Rendering** — if a story can be compiled, none of its requests for a class fails.  So its
     classes are numbered by first occurrences: the class rules of the style sheet are those of the
     first requests with their keys, in order, and the body names for each key the number of its
     first request (`renderStory_eq_ok`).

  2. **No other class** — a body depends on a naming only through the keys of the requests
     (`markup_eq_of_requests`), so no class is named for any other key.  Here the two namings are
     any two that agree on these keys; none of them has to be that of a table.

  3. **Default styles** — a class rule has a selector that begins with a point, and a default style
     has such a selector only if the author gave it this name.  The type names lead to the names of
     tags (`eq_of_defaultStyleSelector`).  So a second rule with the selector of a class is one of
     these, and there are such stories (`two_rules_under_one_class`).
-/

namespace WebStory

open ClassTable

section Body

variable {s : Story}

/-- In a body without fault every record that asks for a class can be converted. -/
theorem fault?_of_mem_requests (h : firstFault s.visits = none) :
    ∀ q ∈ s.requests, q.fault? = none := by
  intro q hq
  obtain ⟨v, hv, hrequest⟩ := List.mem_filterMap.1 hq
  have hthirds : ∀ path count, v ≠ .thirds path count := by
    rintro path count rfl
    cases hrequest
  have hfault := Visit.fault?_eq hthirds
  rw [hrequest, Option.bind_some] at hfault
  rw [← hfault]
  exact List.findSome?_eq_none_iff.1 h v hv

/-- The table of a body without fault numbers the first occurrences. -/
theorem numbered_story (h : firstFault s.visits = none) :
    Numbered (firstOccurrences s.requests) (empty.assignAll s.requests).2 :=
  numbered_run (fault?_of_mem_requests h)

/-- A body without fault names the numbers of the first occurrences. -/
theorem renderStory_eq_ok (h : firstFault s.visits = none) :
    (renderStory s).run .empty = .ok (s.markup (number (firstOccurrences s.requests)),
      ⟨(empty.assignAll s.requests).2, s.runtime⟩) :=
  (walks_story s).succeeds reachable_empty h fun _ _ hkey =>
    (numbered_story h).number_eq (consistent_run s.requests) hkey

/-- A body that was rendered names the numbers of the first occurrences, and none of its records was
    malformed. -/
theorem of_renderStory_eq_ok {body : String} {state : BodyState}
    (h : (renderStory s).run .empty = .ok (body, state)) :
    firstFault s.visits = none ∧ body = s.markup (number (firstOccurrences s.requests)) ∧
      state = ⟨(empty.assignAll s.requests).2, s.runtime⟩ := by
  have hsound : firstFault s.visits = none := by
    rw [← failure?_renderStory, h]
    rfl
  rw [renderStory_eq_ok hsound, Except.ok.injEq, Prod.mk.injEq] at h
  exact ⟨hsound, h.1.symm, h.2.symm⟩

/-- Every request finds its class in the table. -/
theorem classOf?_of_mem_requests (h : firstFault s.visits = none) {q : ClassRequest}
    (hq : q ∈ s.requests) : (empty.assignAll s.requests).2.classOf? q.key =
      some (number (firstOccurrences s.requests) q.key) := by
  have hmem : q.key ∈ Entries.names (empty.assignAll s.requests).2.cache := by
    rw [(numbered_story h).names, key_mem_firstOccurrences]
    exact List.mem_map_of_mem hq
  cases hkey : (empty.assignAll s.requests).2.classOf? q.key with
  | none => exact absurd hmem (Entries.get?_eq_none_iff.1 hkey)
  | some c => rw [(numbered_story h).number_eq (consistent_run s.requests) hkey]

/-- A body names classes only for the keys of its requests. -/
theorem markup_eq_of_requests (h : firstFault s.visits = none) {name : Naming}
    (hname : ∀ q ∈ s.requests, name q.key = number (firstOccurrences s.requests) q.key) :
    s.markup name = s.markup (number (firstOccurrences s.requests)) := by
  have hgives : (empty.after s.visits).Gives name := by
    intro key c (hkey : (empty.assignAll s.requests).2.classOf? key = some c)
    have hmem := Entries.name_mem_of_mem (Entries.mem_of_get? hkey)
    rw [(numbered_story h).names, key_mem_firstOccurrences] at hmem
    obtain ⟨q, hq, rfl⟩ := List.mem_map.1 hmem
    rw [hname q hq]
    exact (numbered_story h).number_eq (consistent_run s.requests) hkey
  have hempty : BodyState.empty.classes.Reachable := reachable_empty
  have hrun := (walks_story s).succeeds hempty h hgives
  rw [renderStory_eq_ok h] at hrun
  exact (congrArg Prod.fst (Except.ok.inj hrun)).symm

end Body

/-! ## Rules of default styles -/

theorem ne_class_of_head? {tag selector : String} (h : tag.toList.head? ≠ some '.') :
    tag ≠ "." ++ selector := by
  rintro rfl
  exact h (by simp)

/-- Only a name that is used as it is can be the selector of a class. -/
theorem eq_of_defaultStyleSelector {name selector : String}
    (h : defaultStyleSelector name = "." ++ selector) : name = "." ++ selector := by
  unfold defaultStyleSelector at h
  split at h
  · exact absurd h (ne_class_of_head? (by decide))
  · split at h
    · exact absurd h (ne_class_of_head? (by decide))
    · split at h
      · exact absurd h (ne_class_of_head? (by decide))
      · cases hkind : TextKind.ofName? name with
        | none => rwa [hkind] at h
        | some kind =>
          rw [hkind, Option.map_some, Option.getD_some] at h
          have hexempt : ∀ tag ∈ Tag.flexExempt, tag.toList.head? ≠ some '.' := by decide
          exact absurd h (ne_class_of_head? (hexempt _ kind.tagName_mem_flexExempt))

theorem selectors_of_defaultRules {styles : List (String × StyleRecord)} {rules : List Rule}
    (h : defaultRules styles = .ok rules) :
    rules.map (·.selector) = styles.map fun e => defaultStyleSelector e.1 := by
  induction styles generalizing rules with
  | nil =>
    obtain rfl : [] = rules := Except.ok.inj h
    rfl
  | cons e rest ih =>
    obtain ⟨name, style⟩ := e
    rw [defaultRules] at h
    cases hconv : convertStyle style (defaultStylePath name) with
    | error e => rw [hconv] at h; cases h
    | ok d =>
      cases hrest : defaultRules rest with
      | error e => rw [hconv, hrest] at h; cases h
      | ok others =>
        rw [hconv, hrest] at h
        obtain rfl := Except.ok.inj h
        rw [List.map_cons, List.map_cons, ih hrest]

/-- A default style with the selector of a class is one that the author gave this selector. -/
theorem exists_style_of_selector {styles : List (String × StyleRecord)} {rules : List Rule}
    (h : defaultRules styles = .ok rules) {rule : Rule} (hrule : rule ∈ rules) {c : String}
    (hselector : rule.selector = "." ++ c) : ∃ e ∈ styles, e.1 = "." ++ c := by
  have hmem : rule.selector ∈ rules.map (·.selector) := List.mem_map_of_mem hrule
  rw [selectors_of_defaultRules h] at hmem
  obtain ⟨e, he, heq⟩ := List.mem_map.1 hmem
  exact ⟨e, he, eq_of_defaultStyleSelector (heq.trans hselector)⟩

/-! ## The classes of a document -/

/-- The class rules of a document are, in order, those of the first requests with their keys.  The
    body names for every key the number of the first request with this key, and no other class.  A
    class has exactly one class rule; further rules with its selector are default styles that the
    author put under this selector. -/
theorem classes_number_first_occurrences {s : Story} {o : CompileOptions} {document : String}
    (h : compile s o = .ok document) :
    let first := firstOccurrences s.requests
    let name := number first
    ∃ defaults classes, defaultRules s.defaultStyles = .ok defaults ∧
      document = s.documentWith o s.runtime defaults classes (s.markup name) ∧
      -- the class rules
      classes.length = first.length ∧
      (∀ (i : Nat) p, first[i]? = some p → ∃ d, convertStyle p.record p.path = .ok d ∧
        classes[i]? = some ⟨".s-" ++ toString (i + 1), d⟩) ∧
      -- the classes in the body
      (∀ other : Naming, (∀ q ∈ s.requests, other q.key = name q.key) →
        s.markup other = s.markup name) ∧
      ∀ q ∈ s.requests,
        (∃ (i : Nat) (p : ClassRequest), first[i]? = some p ∧
          s.requests.find? (·.key == q.key) = some p ∧ name q.key = "s-" ++ toString (i + 1)) ∧
        (classes.map (·.selector)).count ("." ++ name q.key) = 1 ∧
        ∀ rule ∈ defaults, rule.selector = "." ++ name q.key →
          ∃ e ∈ s.defaultStyles, e.1 = "." ++ name q.key := by
  intro first name
  obtain ⟨-, body, state, defaults, hbody, hdefaults, rfl⟩ := compile_eq_ok_iff.1 h
  obtain ⟨hsound, rfl, rfl⟩ := of_renderStory_eq_ok hbody
  have hnumbered := numbered_story hsound
  refine ⟨defaults, _, hdefaults, rfl, hnumbered.length_eq (consistent_run s.requests), ?_,
    fun other hother => markup_eq_of_requests hsound hother, fun q hq => ⟨?_, ?_, ?_⟩⟩
  · intro i p hp
    obtain ⟨d, hconv, hrule⟩ := hnumbered.rule i p hp
    refine ⟨d, hconv, hrule.trans ?_⟩
    rw [Rule.ofClass, className, ← String.append_assoc]
    rfl
  · exact exists_number hq
  · exact count_selector s.requests (classOf?_of_mem_requests hsound hq)
  · exact fun rule hrule hselector => exists_style_of_selector hdefaults hrule hselector

/-- A range and two boxes: two classes, the second of them for both boxes. -/
theorem two_boxes_share_one_class :
    let red : StyleRecord := ⟨[("color", .string "red")]⟩
    let text : Element := .text ⟨.paragraph, none, "ab", [⟨0, 1, red⟩], none⟩
    let box : Element := .container none none []
    let s : Story :=
      { title := none, canonicalUrl := none, preview := none, storyMeta := none, customCss := none
        defaultStyles := [], pages := [⟨"p", none, [⟨.vertical, none, [text, box, box]⟩]⟩]
        analytics := [], ads := none, bookendConfigSrc := none }
    (compile s .standard).isOk = true ∧ ∃ classes,
      compile s .standard = .ok (s.documentWith .standard [] [] classes
        (s.markup (number (firstOccurrences s.requests)))) ∧ classes.length = 2 := by
  intro red text box s
  have hisOk : (compile s .standard).isOk = true := by decide +kernel
  obtain ⟨document, hdocument⟩ := exists_eq_ok hisOk
  obtain ⟨defaults, classes, hdefaults, heq, hlength, -⟩ :=
    classes_number_first_occurrences hdocument
  obtain rfl : [] = defaults := Except.ok.inj hdefaults
  have hfirst : (firstOccurrences s.requests).length = 2 := by decide +kernel
  exact ⟨hisOk, classes, hdocument.trans (congrArg _ heq), hlength.trans hfirst⟩

/-- A default style may be put under the selector of a class, which then has two rules. -/
theorem two_rules_under_one_class :
    let color (c : String) : Json.Value := .object [("color", .string c)]
    let value : Json.Value := .object [("defaultStyles", .object [(".s-1", color "red")]),
      ("pages", .array [.object [("layers", .array [.object
        [("template", .string "vertical"), ("styles", color "blue")]])]])]
    let defaults : List Rule := [⟨".s-1", ⟨[("color", "red"), ("grid-gap", "0")]⟩⟩]
    let classes : List Rule := [⟨".s-1", ⟨[("color", "blue"), ("grid-gap", "0")]⟩⟩]
    let body := "<amp-story standalone><amp-story-page id=\"page-0\"><amp-story-grid-layer " ++
      "template=\"vertical\" class=\"s-1\"></amp-story-grid-layer></amp-story-page></amp-story>"
    ∃ s, parseStory value = .ok s ∧
      compile s .standard = .ok (s.documentWith .standard [] defaults classes body) ∧
      ((defaults ++ classes).map (·.selector)).count ".s-1" = 2 := by
  intro color value defaults classes body
  obtain ⟨s, hs⟩ := exists_eq_ok (x := parseStory value) (by decide +kernel)
  have hcompiled : (do compile (← parseStory value) .standard).toOption =
      (do return (← parseStory value).documentWith .standard [] defaults classes body :
        Except Error String).toOption := by decide +kernel
  rw [hs] at hcompiled
  exact ⟨s, hs, eq_ok_of_toOption hcompiled, rfl⟩

end WebStory
