import WebStory.Document.Compile
import WebStory.Proofs.Story.Readers
import WebStory.Proofs.Story.Sources
/-
  Elements in place of layers.

  An element may stand where a layer is asked for.  It stands for a layer that it fills, which could
  be written out as well (`filledBy`).  Any choice of such elements may be written out in this way
  (`fillLayers`), and the story is the same; where there is none, the error is the same, only that
  its path goes through the layer that has been added (`throughElement`).

  1. **One layer** — an element is read alike wherever it stands, so the filled layer is read as the
     element is, one step further down (`parseLayer_filledBy`).

  2. **Other layers** — a layer that is left as it is has only errors about places inside it.  A
     path through another layer is not moved, and that is a matter of indices: which page, and which
     layer there (`throughElement_layer`).

  3. **The story** — pages are compared layer by layer and the story page by page
     (`sameUpTo_parseStory_fill`).  Which error comes first is decided by the order of reading, and
     that is the order of the list in both.
-/

namespace WebStory

open Json

/-! ## Layers written out -/

/-- The layer that an element stands for, written out. -/
def filledBy (v : Value) : Value := .object [("template", .string "fill"), ("element", v)]

/-- The list under a key with its items changed, each by its index. -/
def mapItems (key : String) (f : Nat → Value → Value) (members : Members) : Members :=
  match Entries.get? members key with
  | some (.array items) => Entries.set members key (.array (items.mapIdx f))
  | _ => members

/-- An object with its members changed. -/
def mapObject (f : Members → Members) : Value → Value
  | .object members => .object (f members)
  | v => v

/-- The story with the chosen layers written out.  A layer is known by the index of its page and its
    index there. -/
def fillLayers (chosen : Nat → Nat → Bool) : Value → Value :=
  mapObject <| mapItems "pages" fun i =>
    mapObject <| mapItems "layers" fun j v => if chosen i j then filledBy v else v

/-- The path with the step to the element, if it goes through a chosen layer. -/
def throughElement (chosen : Nat → Nat → Bool) (path : Path) : Path :=
  match path.steps with
  | .key pages :: .item i :: .key layers :: .item j :: rest =>
    if pages = "pages" ∧ layers = "layers" ∧ chosen i j then
      { path with steps := layerSteps i j ++ .key "element" :: rest }
    else path
  | _ => path

/-- Each chosen layer is an object with a type and without a template. -/
def BareWhere (chosen : Nat → Nat → Bool) (v : Value) : Prop :=
  ∀ i j, chosen i j = true →
    ∃ members, Path.follow (layerSteps i j) v = some (.object members) ∧
      isBareElement members = true

/-! ## Lists changed -/

section MapItems

variable {key : String} {f : Nat → Value → Value} {members : Members}

theorem agreeOn_mapItems {keys : List String} (h : key ∉ keys) :
    AgreeOn keys members (mapItems key f members) := by
  unfold mapItems
  split
  · exact agreeOn_set members _ h
  · exact fun _ _ => rfl

theorem itemwise_mapItems {R : Nat → Value → Value → Prop}
    (h : ∀ items, Entries.get? members key = some (.array items) →
      ∀ (i : Nat) v, items[i]? = some v → R i v (f i v)) :
    Itemwise R (present? members key) (present? (mapItems key f members) key) := by
  unfold mapItems
  split
  · next items hitems =>
    have hold : present? members key = some (.array items) :=
      present?_eq_some_iff.2 ⟨hitems, Value.noConfusion⟩
    rw [hold, present?_set_self members key Value.noConfusion]
    refine .array List.length_mapIdx fun i v w hv hw => ?_
    rw [List.getElem?_mapIdx, hv] at hw
    obtain rfl := Option.some.inj hw
    exact h items hitems i v hv
  · next hother => exact .other fun items hitems => hother items (present?_eq_some_iff.1 hitems).1

end MapItems

/-! ## Paths -/

/-- The path of a layer. -/
def layerPath (i j : Nat) : Path := (pagePath i).keyItem "layers" j

theorem throughElement_layer (chosen : Nat → Nat → Bool) (i j : Nat) (steps : List Step) :
    throughElement chosen ((layerPath i j).extend steps) =
      if chosen i j then ((layerPath i j).key "element").extend steps
      else (layerPath i j).extend steps := by
  have hsteps : ((layerPath i j).extend steps).steps =
      .key "pages" :: .item i :: .key "layers" :: .item j :: steps := rfl
  rw [throughElement, hsteps]
  simp only [true_and]
  rfl

/-- Errors correspond as the path of the one is that of the other taken through the elements. -/
def ThroughElement (chosen : Nat → Nat → Bool) (e e' : Error) : Prop :=
  e' = e.mapPath (throughElement chosen)

theorem sameFaults_throughElement {chosen : Nat → Nat → Bool} {place other : Path}
    (h : throughElement chosen place = other) :
    SameFaults (ThroughElement chosen) place other :=
  fun _ he => Error.mapPath_congr he h.symm

/-! ## A layer written out -/

/-- A filled layer is read from its element. -/
theorem parseLayer_filledBy (path : Path) (members : Members) :
    parseLayer path (filledBy (.object members)) =
      (parseElement (path.key "element") (.object members)).map filledLayer := by
  have hbare : isBareElement [("template", .string "fill"), ("element", .object members)] = false :=
    rfl
  rw [filledBy, parseLayer_object, hbare, if_neg Bool.false_ne_true]
  show ((parseElement (path.key "element") (.object members)).map ([·]) >>= _) = _
  cases parseElement (path.key "element") (.object members) <;> rfl

theorem parseLayer_of_isBareElement (path : Path) {members : Members}
    (h : isBareElement members = true) :
    parseLayer path (.object members) = (parseElement path (.object members)).map filledLayer := by
  rw [parseLayer_object, if_pos h]

/-- A layer that is left as it is has the same errors, and one that is written out those of its
    element one step further on. -/
theorem sameUpTo_parseLayer_fill (chosen : Nat → Nat → Bool) (i j : Nat) {v : Value}
    (hbare : chosen i j = true → ∃ members, v = .object members ∧ isBareElement members = true) :
    SameUpTo (ThroughElement chosen) (parseLayer (layerPath i j) v)
      (parseLayer (layerPath i j) (if chosen i j then filledBy v else v)) := by
  by_cases hchosen : chosen i j = true
  · obtain ⟨members, rfl, hmembers⟩ := hbare hchosen
    rw [if_pos hchosen, parseLayer_filledBy, parseLayer_of_isBareElement _ hmembers]
    refine (sameUpTo_parseElement_moved _ fun steps => ?_).map filledLayer
    refine sameFaults_throughElement ?_
    rw [throughElement_layer, if_pos hchosen]
  · rw [if_neg hchosen]
    refine sameUpTo_self fun e he => ?_
    obtain ⟨steps, node, -, hpath, -⟩ := pointing_parseLayer (layerPath i j) v e he
    have hstays : throughElement chosen ((layerPath i j).extend steps) =
        id ((layerPath i j).extend steps) := by
      rw [throughElement_layer, if_neg hchosen]
      rfl
    show e = e.mapPath (throughElement chosen)
    rw [Error.mapPath_congr hpath hstays, Error.mapPath_id]

/-! ## The story -/

section Story

variable {chosen : Nat → Nat → Bool} {v : Value}

theorem sameUpTo_parsePage_fill (i : Nat)
    (hbare : ∀ j, chosen i j = true → ∃ members,
      Path.follow [.key "layers", .item j] v = some (.object members) ∧
        isBareElement members = true) :
    SameUpTo (ThroughElement chosen) (parsePage (pagePath i) i v)
      (parsePage (pagePath i) i
        (mapObject (mapItems "layers" fun j v => if chosen i j then filledBy v else v) v)) := by
  have hpath : SameFaults (ThroughElement chosen) (pagePath i) (pagePath i) :=
    sameFaults_throughElement rfl
  cases v with
  | object members =>
    refine sameUpTo_parsePage i hpath (agreeOn_mapItems (by decide)) ?_
    refine itemwise_mapItems fun items hitems j v hv => ?_
    refine sameUpTo_parseLayer_fill chosen i j fun hchosen => ?_
    obtain ⟨layer, hfollow, hlayer⟩ := hbare j hchosen
    rw [Path.follow, hitems, Option.bind_some, Path.follow, hv, Option.bind_some,
      Path.follow] at hfollow
    exact ⟨layer, Option.some.inj hfollow, hlayer⟩
  | _ => exact .error (hpath _ rfl)

theorem sameUpTo_parseStory_fill (hbare : BareWhere chosen v) :
    SameUpTo (ThroughElement chosen) (parseStory v) (parseStory (fillLayers chosen v)) := by
  have hroot : SameFaults (ThroughElement chosen) .story .story := sameFaults_throughElement rfl
  cases v with
  | object members =>
    refine sameUpTo_parseStory hroot (fun _ => sameFaults_throughElement rfl)
      (agreeOn_mapItems (by decide)) ?_
    refine itemwise_mapItems fun items hitems i page hpage => ?_
    refine sameUpTo_parsePage_fill i fun j hchosen => ?_
    obtain ⟨layer, hfollow, hlayer⟩ := hbare i j hchosen
    rw [layerSteps, Path.follow, hitems, Option.bind_some, Path.follow, hpage,
      Option.bind_some] at hfollow
    exact ⟨layer, hfollow, hlayer⟩
  | _ => exact .error (hroot _ rfl)

end Story

/-- Elements that stand in place of layers may be written out as the layers they fill: the story is
    the same, and so is its document, and an error is the same up to its path, which goes through
    the layers that have been added. -/
theorem parseStory_fillLayers {chosen : Nat → Nat → Bool} {v : Value} (hbare : BareWhere chosen v) :
    parseStory (fillLayers chosen v) =
        (parseStory v).mapError (Error.mapPath (throughElement chosen)) ∧
      ∀ s, parseStory v = .ok s → parseStory (fillLayers chosen v) = .ok s ∧
        ∀ options,
          (parseStory (fillLayers chosen v) >>= (compile · options)) = compile s options := by
  have hstory := sameUpTo_reword_iff.1 (sameUpTo_parseStory_fill hbare)
  refine ⟨hstory, fun s hs => ?_⟩
  have hsame : parseStory (fillLayers chosen v) = .ok s := by
    rw [hstory, hs]
    rfl
  refine ⟨hsame, fun options => ?_⟩
  rw [hsame]
  rfl

/-- A container in place of a layer, with an element of no known type: when it is written out, the
    path of the error goes through `element`. -/
theorem unknown_type_in_layer_written_out :
    let value : Value := .object [("pages", .array [.object [("layers", .array [.object
      [("type", .string "container"), ("elements", .array [.object
        [("type", .string "marquee")]])]])]])]
    let chosen : Nat → Nat → Bool := fun i j => i == 0 && j == 0
    let inside : Path → Path := fun path => path.keyItem "elements" 0
    BareWhere chosen value ∧
      parseStory value = .error (.unknownElementType "marquee" (inside (layerPath 0 0))) ∧
      parseStory (fillLayers chosen value) =
        .error (.unknownElementType "marquee" (inside ((layerPath 0 0).key "element"))) := by
  intro value chosen inside
  have hbare : BareWhere chosen value := by
    intro i j hchosen
    obtain ⟨hi, hj⟩ := Bool.and_eq_true_iff.1 hchosen
    obtain rfl := eq_of_beq hi
    obtain rfl := eq_of_beq hj
    exact ⟨_, rfl, rfl⟩
  refine ⟨hbare, rfl, ?_⟩
  rw [(parseStory_fillLayers hbare).1]
  rfl

end WebStory
