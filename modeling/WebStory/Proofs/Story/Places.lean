import WebStory.Proofs.Json.Tree
import WebStory.Proofs.Outcome
import WebStory.Proofs.Story.Tree
/-
  Where the errors of reading a story point.

  A reader goes down into a value and builds a path beside it, and the two must keep in step.

  1. **Places** — what is said here of a reader is said of the value it reads alone, wherever that
     stands: its error is about a place inside this value, and the path of the error is the path of
     the value with the steps to that place behind it (`Error.PointsInto`).

  2. **What an error says** — each kind of error says something of the value at its place: that a
     property is missing from an object, that a name is not known, that a property is invalid
     (`Error.TrueOf`).

  3. **Composition** — a reader of a part can be put into the reader of the whole by one step of the
     path and the same step into the value (`Inside.key`, `Inside.keyItem`).  So for every reader
     there is one lemma, made of the lemmas of the readers it calls, and elements are followed to
     any depth by induction (`pointing_parseElement`).

  4. **The root** — where no step has been taken the path leads all the way
     (`parse_error_leads_to_value`).  A default style stands under its name in a table, and the path
     goes through that name; all other steps are keys and indices that the program knows.
-/

namespace WebStory

open Json

/-! ## Places inside a value -/

/-- The place some steps further on. -/
def Path.extend (path : Path) (steps : List Step) : Path := { path with steps := path.steps ++ steps }

theorem Path.extend_nil (path : Path) : path.extend [] = path := by
  rw [Path.extend, List.append_nil]

theorem Path.extend_key (path : Path) (name : String) (steps : List Step) :
    (path.key name).extend steps = path.extend (.key name :: steps) := by
  rw [Path.extend, Path.extend, Path.key, List.append_assoc, List.singleton_append]

theorem Path.extend_keyItem (path : Path) (name : String) (index : Nat) (steps : List Step) :
    (path.keyItem name index).extend steps = path.extend (.key name :: .item index :: steps) := by
  rw [← Path.extend_key, Path.extend, Path.extend, Path.keyItem, Path.item, List.append_assoc,
    List.singleton_append]

/-- Of some place inside a value that stands at a path, and of what is there, something holds. -/
def Inside (P : Path → Value → Prop) (path : Path) (v : Value) : Prop :=
  ∃ steps node, Path.follow steps v = some node ∧ P (path.extend steps) node

section Inside

variable {P Q : Path → Value → Prop} {path : Path}

theorem Inside.here {v : Value} (h : P path v) : Inside P path v :=
  ⟨[], v, rfl, by rwa [Path.extend_nil]⟩

theorem Inside.imp {v : Value} (h : Inside P path v) (himp : ∀ path node, P path node → Q path node) :
    Inside Q path v := by
  obtain ⟨steps, node, hnode, hp⟩ := h
  exact ⟨steps, node, hnode, himp _ _ hp⟩

variable {members : Members} {name : String}

theorem Inside.key {v : Value} (hget : Entries.get? members name = some v)
    (h : Inside P (path.key name) v) : Inside P path (.object members) := by
  obtain ⟨steps, node, hnode, hp⟩ := h
  refine ⟨.key name :: steps, node, ?_, by rwa [← Path.extend_key]⟩
  rw [Path.follow, hget, Option.bind_some, hnode]

theorem Inside.keyItem {items : List Value} (hget : Entries.get? members name = some (.array items))
    {index : Nat} {v : Value} (hitem : items[index]? = some v)
    (h : Inside P (path.keyItem name index) v) : Inside P path (.object members) := by
  obtain ⟨steps, node, hnode, hp⟩ := h
  refine ⟨.key name :: .item index :: steps, node, ?_, by rwa [← Path.extend_keyItem]⟩
  rw [Path.follow, hget, Option.bind_some, Path.follow, hitem, Option.bind_some, hnode]

end Inside

/-! ## What an error says -/

namespace Error

/-- The path of an error that has one. -/
def path? : Error → Option Path
  | .malformedStyle path _ => some path
  | .unknownElementType _ path => some path
  | .unknownLayerTemplate _ path => some path
  | .invalidThirdsArity path _ => some path
  | .missingProperty _ path => some path
  | .invalidProperty _ path _ => some path
  | .unreadableJson _ => none
  | .unreadableYaml => none
  | .blankOption _ => none
  | .unreadableOptions => none

/-- The error is one of reading a story, and what it says is so of the value at its path. -/
def TrueOf (node : Value) : Error → Prop
  | .missingProperty property _ => ∃ members, node = .object members ∧
      (Entries.get? members property = none ∨ Entries.get? members property = some .null)
  | .unknownElementType name _ => ∃ members, node = .object members ∧
      Entries.get? members "type" = some (.string name)
  | .unknownLayerTemplate name _ => ∃ members, node = .object members ∧
      Entries.get? members "template" = some (.string name)
  | .invalidProperty _ _ _ => True
  | _ => False

/-- The error is about a place inside the value that stands at a path. -/
def PointsInto (path : Path) (v : Value) (e : Error) : Prop :=
  Inside (fun place node => e.path? = some place ∧ e.TrueOf node) path v

/-- An invalid property may be one of any value. -/
theorem pointsInto_invalid (property : String) (path : Path) (fault : PropertyFault) (v : Value) :
    PointsInto path v (.invalidProperty property path fault) := .here ⟨rfl, trivial⟩

end Error

/-! ## Properties of an object -/

/-- A text is read from a member that is a string, and none where the member is absent or null. -/
theorem optionalString_eq_ok_iff {members : Members} {key : String} {path : Path}
    {text : Option String} : optionalString members key path = .ok text ↔
      present? members key = text.map .string := by
  unfold optionalString
  split
  · next h => cases text <;> simp [h]
  · next s h => cases text <;> simp [h]
  · next v hstring h =>
    cases text with
    | none => simp [h]
    | some s =>
      simp only [reduceCtorEq, Option.map_some, h, Option.some.injEq, false_iff]
      exact hstring s

theorem requiredString_eq_ok_iff {members : Members} {key : String} {path : Path} {s : String} :
    requiredString members key path = .ok s ↔
      Entries.get? members key = some (.string s) := by
  have hpresent : present? members key = some (.string s) ↔
      Entries.get? members key = some (.string s) := by
    rw [present?_eq_some_iff]
    simp
  rw [← hpresent]
  unfold requiredString
  cases htext : optionalString members key path with
  | error e =>
    have hno : present? members key ≠ some (.string s) := fun h => by
      have hread : optionalString members key path = .ok (some s) := optionalString_eq_ok_iff.2 h
      rw [hread] at htext
      cases htext
    exact ⟨nofun, fun h => absurd h hno⟩
  | ok text =>
    rw [optionalString_eq_ok_iff] at htext
    rw [htext]
    cases text with
    | none => exact ⟨nofun, nofun⟩
    | some s' =>
      show (.ok s' : Parsed String) = .ok s ↔ _
      simp

section Properties

variable (members : Members) (key : String) (path : Path)

theorem pointing_optionalString :
    FailsWith (Error.PointsInto path (.object members)) (optionalString members key path) := by
  unfold optionalString
  split
  · exact failsWith_ok _
  · exact failsWith_ok _
  · exact failsWith_error (Error.pointsInto_invalid _ _ _ _)

/-- A property is missing only where it is absent or null. -/
theorem pointing_requiredString :
    FailsWith (Error.PointsInto path (.object members)) (requiredString members key path) := by
  refine (pointing_optionalString members key path).bind fun text htext => ?_
  cases text with
  | some s => exact failsWith_ok s
  | none =>
    have habsent := present?_eq_none_iff.1 (optionalString_eq_ok_iff.1 htext)
    exact failsWith_error (.here ⟨rfl, members, rfl, habsent⟩)

theorem pointing_optionalDimension :
    FailsWith (Error.PointsInto path (.object members)) (optionalDimension members key path) := by
  unfold optionalDimension
  split
  · exact failsWith_ok _
  · exact failsWith_ok _
  · exact failsWith_ok _
  · exact failsWith_error (Error.pointsInto_invalid _ _ _ _)

theorem pointing_optionalTyped {α : Type} (decode : Value → Decoded α) :
    FailsWith (Error.PointsInto path (.object members))
      (optionalTyped decode members key path) := by
  unfold optionalTyped
  split
  · exact failsWith_ok _
  · split
    · exact failsWith_ok _
    · exact failsWith_error (Error.pointsInto_invalid _ _ _ _)

theorem pointing_optionalStyle :
    FailsWith (Error.PointsInto path (.object members)) (optionalStyle members path) := by
  unfold optionalStyle
  split
  · exact failsWith_ok _
  · next v _ =>
    cases v with
    | object entries => exact failsWith_ok _
    | _ => exact failsWith_error (Error.pointsInto_invalid _ _ _ _)

end Properties

/-! ## Elements -/

section Element

variable (members : Members) (path : Path)

theorem pointing_parseText (kind : TextKind) :
    FailsWith (Error.PointsInto path (.object members)) (parseText kind members path) := by
  refine (pointing_optionalTyped members _ path _).bind fun ranges _ => ?_
  dsimp only
  split
  · exact failsWith_error (Error.pointsInto_invalid _ _ _ _)
  · refine (pointing_optionalString members _ path).bind fun id _ => ?_
    refine (pointing_requiredString members _ path).bind fun text _ => ?_
    exact (pointing_optionalStyle members path).bind fun styles _ => failsWith_ok _

theorem pointing_parseImage :
    FailsWith (Error.PointsInto path (.object members)) (parseImage members path) := by
  refine (pointing_optionalString members _ path).bind fun id _ => ?_
  refine (pointing_requiredString members _ path).bind fun source _ => ?_
  refine (pointing_optionalString members _ path).bind fun alt _ => ?_
  refine (pointing_optionalDimension members _ path).bind fun width _ => ?_
  refine (pointing_optionalDimension members _ path).bind fun height _ => ?_
  refine (pointing_optionalTyped members _ path _).bind fun layout _ => ?_
  exact (pointing_optionalStyle members path).bind fun styles _ => failsWith_ok _

theorem pointing_parseVideo :
    FailsWith (Error.PointsInto path (.object members)) (parseVideo members path) := by
  refine (pointing_optionalTyped members _ path _).bind fun sources hsources => ?_
  split
  · -- sources are missing only where they are absent or null
    have habsent : present? members "sources" = none := by
      unfold optionalTyped at hsources
      split at hsources
      · next h => exact h
      · split at hsources <;> cases hsources
    exact failsWith_error (.here ⟨rfl, members, rfl, present?_eq_none_iff.1 habsent⟩)
  · exact failsWith_error (Error.pointsInto_invalid _ _ _ _)
  · refine (pointing_optionalString members _ path).bind fun id _ => ?_
    refine (pointing_optionalDimension members _ path).bind fun width _ => ?_
    refine (pointing_optionalDimension members _ path).bind fun height _ => ?_
    refine (pointing_optionalTyped members _ path _).bind fun layout _ => ?_
    refine (pointing_optionalString members _ path).bind fun poster _ => ?_
    refine (pointing_optionalTyped members _ path _).bind fun looping _ => ?_
    refine (pointing_optionalTyped members _ path _).bind fun autoplay _ => ?_
    exact (pointing_optionalStyle members path).bind fun styles _ => failsWith_ok _

/-- The type of an element is unknown only as it stands in the element. -/
theorem pointing_parseElementHead :
    FailsWith (Error.PointsInto path (.object members))
      (parseElementHead path (.object members)) := by
  refine (failsWith_ok members).bind fun _ h => ?_
  obtain rfl := Except.ok.inj h
  refine (pointing_requiredString members "type" path).bind fun name hname => ?_
  cases ElementType.ofName? name with
  | some type => exact failsWith_ok _
  | none => exact failsWith_error (.here ⟨rfl, members, rfl, requiredString_eq_ok_iff.1 hname⟩)

theorem pointing_parseContainerHead :
    FailsWith (Error.PointsInto path (.object members)) (parseContainerHead members path) := by
  refine (pointing_optionalString members _ path).bind fun id _ => ?_
  exact (pointing_optionalStyle members path).bind fun styles _ => failsWith_ok _

end Element

/-! ## Parts in a list -/

/-- An error in a list of parts is one of an item. -/
theorem failsWith_parseIndexed {α : Type} {parse : Nat → Value → Parsed α} {items : List Value}
    {P : Error → Prop} {index : Nat}
    (h : ∀ i v, items[i]? = some v → FailsWith P (parse (index + i) v)) :
    FailsWith P (parseIndexed parse index items) := by
  induction items generalizing index with
  | nil => exact failsWith_ok _
  | cons v rest ih =>
    rw [parseIndexed]
    refine (h 0 v rfl).bind fun a _ => ?_
    refine (ih fun i w hw => ?_).bind fun as _ => failsWith_ok _
    have hitem := h (i + 1) w hw
    rwa [Nat.add_comm i, ← Nat.add_assoc] at hitem

/-- An error in the parts under a key is one of the list, or of an item of it. -/
theorem pointing_parseParts {α : Type} {parse : Nat → Value → Parsed α} {members : Members}
    {key : String} {path : Path}
    (h : ∀ items, Entries.get? members key = some (.array items) → ∀ i, ∀ v ∈ items,
      FailsWith (Error.PointsInto (path.keyItem key i) v) (parse i v)) :
    FailsWith (Error.PointsInto path (.object members)) (parseParts parse members key path) := by
  unfold parseParts
  split
  · exact failsWith_ok _
  · next items hitems =>
    have hget := (present?_eq_some_iff.1 hitems).1
    refine failsWith_parseIndexed fun i v hv => ?_
    rw [Nat.zero_add]
    exact (h items hget i v (List.mem_of_getElem? hv)).imp fun e he => .keyItem hget hv he
  · exact failsWith_error (Error.pointsInto_invalid _ _ _ _)

/-! ## Elements in elements -/

/-- The errors of an element are about places inside the value it is read from. -/
theorem pointing_parseElement (v : Value) (path : Path) :
    FailsWith (Error.PointsInto path v) (parseElement path v) := by
  induction v using Value.induct_listed generalizing path with
  | other v hv =>
    cases v with
    | object members => exact absurd rfl (hv members)
    | _ => exact failsWith_error (Error.pointsInto_invalid _ _ _ _)
  | object members ih =>
    rw [parseElement]
    refine (pointing_parseElementHead members path).bind fun head _ => ?_
    split
    · refine (pointing_parseContainerHead members path).bind fun own _ => ?_
      rw [parseMember_eq]
      exact (pointing_parseParts fun items hitems i w hw => ih _ items hitems w hw _).bind
        fun elements _ => failsWith_ok _
    · exact (pointing_parseImage members path).map _
    · exact (pointing_parseVideo members path).map _
    · exact (pointing_parseText members path _).map _

/-! ## Layers, pages, stories -/

/-- An object is read as its members, and anything else is none. -/
theorem pointing_parseObject {α : Type} {what : String} {path : Path} {v : Value}
    {parse : Members → Parsed α}
    (h : ∀ members, v = .object members →
      FailsWith (Error.PointsInto path (.object members)) (parse members)) :
    FailsWith (Error.PointsInto path v) (parseObject what path v >>= parse) := by
  cases v with
  | object members => exact h members rfl
  | _ => exact failsWith_error (Error.pointsInto_invalid _ _ _ _)

theorem pointing_parseTemplate (members : Members) (path : Path) :
    FailsWith (Error.PointsInto path (.object members)) (parseTemplate members path) := by
  refine (pointing_requiredString members "template" path).bind fun name hname => ?_
  split
  · exact failsWith_ok _
  · exact failsWith_error (.here ⟨rfl, members, rfl, requiredString_eq_ok_iff.1 hname⟩)

theorem pointing_parseLayerElements (template : LayerTemplate) (members : Members) (path : Path) :
    FailsWith (Error.PointsInto path (.object members))
      (parseLayerElements template members path) := by
  have hlist : FailsWith (Error.PointsInto path (.object members))
      (parseMember path "elements" members) := by
    rw [parseMember_eq]
    exact pointing_parseParts fun _ _ i v _ => pointing_parseElement v _
  cases template with
  | fill =>
    unfold parseLayerElements
    simp only
    split
    · next h => exact failsWith_error (.here ⟨rfl, members, rfl, present?_eq_none_iff.1 h⟩)
    · next v hv =>
      have hget := (present?_eq_some_iff.1 hv).1
      exact ((pointing_parseElement v (path.key "element")).imp fun e he => .key hget he).map _
  | _ => exact hlist

theorem pointing_parseLayer (path : Path) (v : Value) :
    FailsWith (Error.PointsInto path v) (parseLayer path v) := by
  refine pointing_parseObject fun members hv => ?_
  split
  · rw [← hv]
    exact (pointing_parseElement v path).bind fun element _ => failsWith_ok _
  · refine (pointing_parseTemplate members path).bind fun template _ => ?_
    refine (pointing_parseLayerElements template members path).bind fun elements _ => ?_
    exact (pointing_optionalStyle members path).bind fun styles _ => failsWith_ok _

theorem pointing_parsePage (path : Path) (index : Nat) (v : Value) :
    FailsWith (Error.PointsInto path v) (parsePage path index v) := by
  refine pointing_parseObject fun members _ => ?_
  refine (pointing_parseParts fun _ _ i v _ => pointing_parseLayer _ v).bind fun layers _ => ?_
  refine (pointing_optionalString members _ path).bind fun id _ => ?_
  exact (pointing_optionalTyped members _ path _).bind fun advance _ => failsWith_ok _

/-- A default style is looked for under its name, and there is something under that name. -/
theorem pointing_parseDefaultStyles {members table rest : Members}
    (htable : Entries.get? members "defaultStyles" = some (.object table))
    (hrest : ∀ e ∈ rest, e ∈ table) :
    FailsWith (Error.PointsInto .story (.object members)) (parseDefaultStyles rest) := by
  induction rest with
  | nil => exact failsWith_ok _
  | cons e rest ih =>
    obtain ⟨name, v⟩ := e
    rw [List.forall_mem_cons] at hrest
    have hname : name ∈ Entries.names table := Entries.name_mem_of_mem hrest.1
    obtain ⟨w, hw⟩ : ∃ w, Entries.get? table name = some w := by
      cases hget : Entries.get? table name with
      | none => exact absurd hname (Entries.get?_eq_none_iff.1 hget)
      | some w => exact ⟨w, rfl⟩
    have hstyle : FailsWith (Error.PointsInto .story (.object members))
        (parseStyle (defaultStylePath name) v) := by
      cases v with
      | object entries => exact failsWith_ok _
      | _ =>
        exact failsWith_error
          (.key htable (.key hw (Error.pointsInto_invalid _ (defaultStylePath name) _ w)))
    rw [parseDefaultStyles]
    exact hstyle.bind fun style _ => (ih hrest.2).bind fun styles _ => failsWith_ok _

theorem pointing_parseStyleTable (members : Members) :
    FailsWith (Error.PointsInto .story (.object members)) (parseStyleTable members) := by
  unfold parseStyleTable
  split
  · exact failsWith_ok _
  · next table htable =>
    exact pointing_parseDefaultStyles (present?_eq_some_iff.1 htable).1 fun _ he => he
  · exact failsWith_error (Error.pointsInto_invalid _ _ _ _)

theorem pointing_parseStory (v : Value) :
    FailsWith (Error.PointsInto .story v) (parseStory v) := by
  refine pointing_parseObject fun members _ => ?_
  refine (pointing_parseParts fun _ _ i v _ => pointing_parsePage (pagePath i) i v).bind fun pages _ => ?_
  refine (pointing_parseStyleTable members).bind fun defaults _ => ?_
  refine (pointing_optionalString members _ .story).bind fun title _ => ?_
  refine (pointing_optionalString members _ .story).bind fun url _ => ?_
  refine (pointing_optionalTyped members _ .story _).bind fun preview _ => ?_
  refine (pointing_optionalTyped members _ .story _).bind fun storyMeta _ => ?_
  refine (pointing_optionalString members _ .story).bind fun css _ => ?_
  refine (pointing_optionalTyped members _ .story _).bind fun analytics _ => ?_
  exact (pointing_optionalString members _ .story).bind fun bookend _ => failsWith_ok _

/-- A story that cannot be read fails with an error whose path leads from the root to a value.  That is
    an object without the property that is missing, or one whose type or template is the name that
    is not known; of no other kind is an error but that a property is invalid. -/
theorem parse_error_leads_to_value {v : Value} {e : Error} (h : parseStory v = .error e) :
    ∃ steps node, e.path? = some ⟨.story, steps⟩ ∧ Path.follow steps v = some node ∧
      e.TrueOf node := by
  obtain ⟨steps, node, hnode, hpath, htrue⟩ := pointing_parseStory v e h
  exact ⟨steps, node, hpath, hnode, htrue⟩

/-- An element of an unknown type, in a container of its own. -/
theorem unknown_type_in_container :
    let value : Value := .object [("pages", .array [.object [("layers", .array [.object
      [("template", .string "vertical"), ("elements", .array [.object
        [("type", .string "container"), ("elements", .array [.object
          [("type", .string "marquee")]])]])]])]])]
    let steps : List Step := [.key "pages", .item 0, .key "layers", .item 0, .key "elements",
      .item 0, .key "elements", .item 0]
    parseStory value = .error (.unknownElementType "marquee" ⟨.story, steps⟩) ∧
      ∃ members, Path.follow steps value = some (.object members) ∧
        Entries.get? members "type" = some (.string "marquee") := by
  intro value steps
  have hparse : parseStory value = .error (.unknownElementType "marquee" ⟨.story, steps⟩) := by rfl
  obtain ⟨places, node, hpath, hnode, members, rfl, htype⟩ := parse_error_leads_to_value hparse
  obtain rfl : steps = places := congrArg Path.steps (Option.some.inj hpath)
  exact ⟨hparse, members, hnode, htype⟩

end WebStory
