import WebStory.Proofs.Story.Places
/-
  What the readers of a story look at.

  A reader of an element, a layer, a page or a story asks for a few keys, and under each of them for
  what is present there, so a key that is absent and one that is null are the same to it.

  1. **Agreement** — two objects are read alike if they agree on these keys (`AgreeOn`) and the
     parts inside them are read alike.  This is proved reader by reader, and is the one thing that
     later proofs know about them.

  2. **Places** — the two objects may also stand at different places: then the errors differ in
     their paths.  How the errors of the two readings correspond is left open here (`SameUpTo`), as
     an argument of every lemma: that they are equal, that any two will do, or that the path of the
     one is moved to that of the other.

  3. **Parts in a list** — lists are compared item by item, each with the one in its place
     (`Itemwise`), so one lemma takes care of elements, layers and pages (`sameUpTo_parseParts`).

  4. **Elements moved** — an element is read alike at two places if errors correspond at these and
     at all places inside (`sameUpTo_parseElement_moved`).
-/

namespace WebStory

open Json

/-! ## Readers opened -/

/-- What an element of a known type is read from. -/
def parseFields (type : ElementType) (members : Members) (path : Path) : Parsed Element :=
  match type with
  | .container => do
    let (id, styles) ← parseContainerHead members path
    let elements ← parseMember path "elements" members
    .ok (.container id styles elements)
  | .image => (parseImage members path).map .image
  | .video => (parseVideo members path).map .video
  | .text kind => (parseText kind members path).map .text

/-- A type by its name, which must be known. -/
def knownType (path : Path) (name : String) : Parsed ElementType :=
  match ElementType.ofName? name with
  | some type => .ok type
  | none => .error (.unknownElementType name path)

/-- Any other name can only be that of a text. -/
theorem ElementType.ofName?_of_ne {name : String} (hcontainer : name ≠ "container")
    (himage : name ≠ "image") (hvideo : name ≠ "video") :
    ofName? name = (TextKind.ofName? name).map .text := by
  rw [ofName?, if_neg hcontainer, if_neg himage, if_neg hvideo]

/-- An element is read by its type. -/
theorem parseElement_object (path : Path) (members : Members) :
    parseElement path (.object members) =
      requiredString members "type" path >>= fun name =>
        knownType path name >>= fun type => parseFields type members path := by
  have hhead : parseElementHead path (.object members) =
      requiredString members "type" path >>= fun name =>
        (knownType path name).map fun type => (members, type) := by
    show (requiredString members "type" path >>= _) = _
    congr 1
    funext name
    unfold knownType
    cases ElementType.ofName? name <;> rfl
  rw [parseElement, hhead]
  cases requiredString members "type" path with
  | error e => rfl
  | ok name =>
    show ((knownType path name).map _ >>= _) = (knownType path name >>= _)
    cases knownType path name with
    | error e => rfl
    | ok type => cases type <;> rfl

/-- The layer that an element fills. -/
def filledLayer (e : Element) : Layer := ⟨.fill, none, [e]⟩

/-- A layer with a template of its own. -/
def parseTemplateLayer (path : Path) (members : Members) : Parsed Layer := do
  let template ← parseTemplate members path
  let elements ← parseLayerElements template members path
  let styles ← optionalStyle members path
  .ok ⟨template, styles, elements⟩

/-- A layer is read as the element it is, or by its template. -/
theorem parseLayer_object (path : Path) (members : Members) :
    parseLayer path (.object members) =
      if isBareElement members then (parseElement path (.object members)).map filledLayer
      else parseTemplateLayer path members := by
  show (if isBareElement members then _ else _) = _
  by_cases hbare : isBareElement members = true
  · rw [if_pos hbare, if_pos hbare]
    cases parseElement path (.object members) <;> rfl
  · rw [if_neg hbare, if_neg hbare]
    rfl

/-! ## Errors at other places -/

/-- The error with another path, if it has one. -/
def Error.mapPath (f : Path → Path) : Error → Error
  | .malformedStyle path cause => .malformedStyle (f path) cause
  | .unknownElementType name path => .unknownElementType name (f path)
  | .unknownLayerTemplate name path => .unknownLayerTemplate name (f path)
  | .invalidThirdsArity path count => .invalidThirdsArity (f path) count
  | .missingProperty property path => .missingProperty property (f path)
  | .invalidProperty property path fault => .invalidProperty property (f path) fault
  | .unreadableJson cause => .unreadableJson cause
  | .unreadableYaml => .unreadableYaml
  | .blankOption option => .blankOption option
  | .unreadableOptions => .unreadableOptions

/-- The path is all there is to change. -/
theorem Error.mapPath_congr {e : Error} {path : Path} (h : e.path? = some path) {f g : Path → Path}
    (hfg : f path = g path) : e.mapPath f = e.mapPath g := by
  cases e <;> cases h <;> simp only [mapPath, hfg]

theorem Error.mapPath_id (e : Error) : e.mapPath id = e := by
  cases e <;> rfl

/-- Whatever is wrong at one place is related to the same at another place. -/
def SameFaults (E : Error → Error → Prop) (place other : Path) : Prop :=
  ∀ e : Error, e.path? = some place → E e (e.mapPath fun _ => other)

/-! ## Properties -/

/-- Under these keys the same is present. -/
def AgreeOn (keys : List String) (members others : Members) : Prop :=
  ∀ key ∈ keys, present? others key = present? members key

theorem present?_set_self (members : Members) (key : String) {v : Value} (hv : v ≠ .null) :
    present? (Entries.set members key v) key = some v :=
  present?_eq_some_iff.2 ⟨Entries.get?_set_self members key v, hv⟩

theorem present?_set_ne (members : Members) {key other : String} (v : Value) (h : other ≠ key) :
    present? (Entries.set members key v) other = present? members other := by
  unfold present?
  rw [Entries.get?_set_ne members v h]

/-- A member that is written changes nothing under other keys. -/
theorem agreeOn_set (members : Members) {keys : List String} {key : String} (v : Value)
    (h : key ∉ keys) : AgreeOn keys members (Entries.set members key v) :=
  fun _ hother => present?_set_ne members v fun heq => h (heq ▸ hother)

/-- The keys under which the properties of elements of all types stand. -/
def elementKeys : List String :=
  ["type", "id", "text", "inlineStyles", "styles", "source", "alt", "width", "height", "layout",
    "sources", "poster", "loop", "autoplay"]

/-- The keys under which the properties of a story stand. -/
def storyKeys : List String :=
  ["defaultStyles", "title", "canonicalUrl", "preview", "meta", "customCss", "analytics",
    "bookendConfigSrc", "ads"]

section Properties

variable {E : Error → Error → Prop} {place other : Path} {members others : Members} {key : String}

theorem sameUpTo_optionalString (h : SameFaults E place other)
    (hkey : present? others key = present? members key) :
    SameUpTo E (optionalString members key place) (optionalString others key other) := by
  unfold optionalString
  rw [hkey]
  split
  · exact .ok none
  · exact .ok _
  · exact .error (h _ rfl)

theorem sameUpTo_requiredString (h : SameFaults E place other)
    (hkey : present? others key = present? members key) :
    SameUpTo E (requiredString members key place) (requiredString others key other) := by
  refine (sameUpTo_optionalString h hkey).bind fun s? => ?_
  cases s? with
  | none => exact .error (h _ rfl)
  | some s => exact .ok s

theorem sameUpTo_optionalDimension (h : SameFaults E place other)
    (hkey : present? others key = present? members key) :
    SameUpTo E (optionalDimension members key place) (optionalDimension others key other) := by
  unfold optionalDimension
  rw [hkey]
  split
  · exact .ok none
  · exact .ok _
  · exact .ok _
  · exact .error (h _ rfl)

theorem sameUpTo_optionalTyped {α : Type} (decode : Value → Decoded α)
    (h : SameFaults E place other) (hkey : present? others key = present? members key) :
    SameUpTo E (optionalTyped decode members key place)
      (optionalTyped decode others key other) := by
  unfold optionalTyped
  rw [hkey]
  split
  · exact .ok none
  · split
    · exact .ok _
    · exact .error (h _ rfl)

theorem sameUpTo_parseStyle (h : SameFaults E place other) (v : Value) :
    SameUpTo E (parseStyle place v) (parseStyle other v) := by
  cases v with
  | object entries => exact .ok _
  | _ => exact .error (h _ rfl)

theorem sameUpTo_optionalStyle (h : SameFaults E place other)
    (hkey : present? others "styles" = present? members "styles") :
    SameUpTo E (optionalStyle members place) (optionalStyle others other) := by
  unfold optionalStyle
  rw [hkey]
  split
  · exact .ok none
  · exact (sameUpTo_parseStyle h _).map some

end Properties

/-! ## Elements -/

section Element

variable {E : Error → Error → Prop} {place other : Path} {members others : Members}

theorem sameUpTo_parseText (kind : TextKind) (h : SameFaults E place other)
    (agree : AgreeOn elementKeys members others) :
    SameUpTo E (parseText kind members place) (parseText kind others other) := by
  refine (sameUpTo_optionalTyped _ h (agree _ (by decide))).bind fun ranges => ?_
  dsimp only
  split
  · exact .error (h _ rfl)
  · refine (sameUpTo_optionalString h (agree _ (by decide))).bind fun id => ?_
    refine (sameUpTo_requiredString h (agree _ (by decide))).bind fun text => ?_
    exact (sameUpTo_optionalStyle h (agree _ (by decide))).bind fun styles => .ok _

theorem sameUpTo_parseImage (h : SameFaults E place other)
    (agree : AgreeOn elementKeys members others) :
    SameUpTo E (parseImage members place) (parseImage others other) := by
  refine (sameUpTo_optionalString h (agree _ (by decide))).bind fun id => ?_
  refine (sameUpTo_requiredString h (agree _ (by decide))).bind fun source => ?_
  refine (sameUpTo_optionalString h (agree _ (by decide))).bind fun alt => ?_
  refine (sameUpTo_optionalDimension h (agree _ (by decide))).bind fun width => ?_
  refine (sameUpTo_optionalDimension h (agree _ (by decide))).bind fun height => ?_
  refine (sameUpTo_optionalTyped _ h (agree _ (by decide))).bind fun layout => ?_
  exact (sameUpTo_optionalStyle h (agree _ (by decide))).bind fun styles => .ok _

theorem sameUpTo_parseVideo (h : SameFaults E place other)
    (agree : AgreeOn elementKeys members others) :
    SameUpTo E (parseVideo members place) (parseVideo others other) := by
  refine (sameUpTo_optionalTyped _ h (agree _ (by decide))).bind fun sources => ?_
  split
  · exact .error (h _ rfl)
  · exact .error (h _ rfl)
  · refine (sameUpTo_optionalString h (agree _ (by decide))).bind fun id => ?_
    refine (sameUpTo_optionalDimension h (agree _ (by decide))).bind fun width => ?_
    refine (sameUpTo_optionalDimension h (agree _ (by decide))).bind fun height => ?_
    refine (sameUpTo_optionalTyped _ h (agree _ (by decide))).bind fun layout => ?_
    refine (sameUpTo_optionalString h (agree _ (by decide))).bind fun poster => ?_
    refine (sameUpTo_optionalTyped _ h (agree _ (by decide))).bind fun looping => ?_
    refine (sameUpTo_optionalTyped _ h (agree _ (by decide))).bind fun autoplay => ?_
    exact (sameUpTo_optionalStyle h (agree _ (by decide))).bind fun styles => .ok _

/-- Elements are read alike if their properties agree and the elements inside are read alike. -/
theorem sameUpTo_parseElement (h : SameFaults E place other)
    (agree : AgreeOn elementKeys members others)
    (inside : SameUpTo E (parseMember place "elements" members)
      (parseMember other "elements" others)) :
    SameUpTo E (parseElement place (.object members)) (parseElement other (.object others)) := by
  rw [parseElement_object, parseElement_object]
  refine (sameUpTo_requiredString h (agree _ (by decide))).bind fun name => ?_
  have hknown : SameUpTo E (knownType place name) (knownType other name) := by
    unfold knownType
    split
    · exact .ok _
    · exact .error (h _ rfl)
  refine hknown.bind fun type => ?_
  cases type with
  | container =>
    have hhead : SameUpTo E (parseContainerHead members place)
        (parseContainerHead others other) := by
      refine (sameUpTo_optionalString h (agree _ (by decide))).bind fun id => ?_
      exact (sameUpTo_optionalStyle h (agree _ (by decide))).bind fun styles => .ok _
    exact hhead.bind fun own => inside.bind fun elements => .ok _
  | image => exact (sameUpTo_parseImage h agree).map _
  | video => exact (sameUpTo_parseVideo h agree).map _
  | text kind => exact (sameUpTo_parseText kind h agree).map _

end Element

/-! ## Parts in a list -/

/-- The same is present, or a list whose items are related to those in their places. -/
inductive Itemwise (R : Nat → Value → Value → Prop) : Option Value → Option Value → Prop where
  | other {v? : Option Value} (h : ∀ items, v? ≠ some (.array items)) : Itemwise R v? v?
  | array {items items' : List Value} (length : items'.length = items.length)
      (related : ∀ (i : Nat) v w, items[i]? = some v → items'[i]? = some w → R i v w) :
      Itemwise R (some (.array items)) (some (.array items'))

/-- What is present is related to itself if its items are. -/
theorem itemwise_self {R : Nat → Value → Value → Prop} {v? : Option Value}
    (h : ∀ items, v? = some (.array items) → ∀ (i : Nat), ∀ v ∈ items, R i v v) :
    Itemwise R v? v? := by
  by_cases hlist : ∃ items, v? = some (.array items)
  · obtain ⟨items, rfl⟩ := hlist
    refine .array rfl fun i v w hv hw => ?_
    obtain rfl := Option.some.inj (hv.symm.trans hw)
    exact h items rfl i v (List.mem_of_getElem? hv)
  · exact .other fun items hitems => hlist ⟨items, hitems⟩

theorem Itemwise.imp {R S : Nat → Value → Value → Prop} {v? w? : Option Value}
    (h : Itemwise R v? w?) (himp : ∀ i v w, R i v w → S i v w) : Itemwise S v? w? := by
  cases h with
  | other hother => exact .other hother
  | array length related =>
    exact .array length fun i v w hv hw => himp i v w (related i v w hv hw)

section Parts

variable {α : Type} {E : Error → Error → Prop} {place other : Path}
variable {parse parse' : Nat → Value → Parsed α}

theorem sameUpTo_parseIndexed {items items' : List Value} (index : Nat)
    (length : items'.length = items.length)
    (related : ∀ (i : Nat) v w, items[i]? = some v → items'[i]? = some w →
      SameUpTo E (parse (index + i) v) (parse' (index + i) w)) :
    SameUpTo E (parseIndexed parse index items) (parseIndexed parse' index items') := by
  induction items generalizing index items' with
  | nil =>
    obtain rfl := List.length_eq_zero_iff.1 length
    exact .ok []
  | cons v rest ih =>
    cases items' with
    | nil => cases length
    | cons w rest' =>
      refine (related 0 v w rfl rfl).bind fun a => ?_
      refine (ih (index + 1) (Nat.succ.inj length) fun i v w hv hw => ?_).bind fun as => .ok _
      rw [Nat.add_right_comm]
      exact related (i + 1) v w hv hw

/-- Parts are read alike if each is read like the one in its place. -/
theorem sameUpTo_parseParts {members others : Members} {key : String} (h : SameFaults E place other)
    (items : Itemwise (fun i v w => SameUpTo E (parse i v) (parse' i w)) (present? members key)
      (present? others key)) :
    SameUpTo E (parseParts parse members key place) (parseParts parse' others key other) := by
  unfold parseParts
  generalize present? members key = v? at items ⊢
  generalize present? others key = w? at items ⊢
  cases items with
  | other hother =>
    split
    · exact .ok []
    · exact absurd rfl (hother _)
    · exact .error (h _ rfl)
  | array length related =>
    refine sameUpTo_parseIndexed 0 length fun i v w hv hw => ?_
    rw [Nat.zero_add]
    exact related i v w hv hw

/-- Elements are read alike from a list if each is read like the one in its place. -/
theorem sameUpTo_parseMember {members others : Members} {key : String}
    (h : SameFaults E place other)
    (items : Itemwise (fun i v w => SameUpTo E (parseElement (place.keyItem key i) v)
      (parseElement (other.keyItem key i) w)) (present? members key) (present? others key)) :
    SameUpTo E (parseMember place key members) (parseMember other key others) := by
  rw [parseMember_eq, parseMember_eq]
  exact sameUpTo_parseParts h items

end Parts

/-- An element is read alike at two places if errors correspond at these and all places inside. -/
theorem sameUpTo_parseElement_moved {E : Error → Error → Prop} (v : Value) {place other : Path}
    (h : ∀ steps, SameFaults E (place.extend steps) (other.extend steps)) :
    SameUpTo E (parseElement place v) (parseElement other v) := by
  have here : SameFaults E place other := by
    have hnil := h []
    rwa [Path.extend_nil, Path.extend_nil] at hnil
  induction v using Value.induct_listed generalizing place other with
  | other v hv =>
    cases v with
    | object members => exact absurd rfl (hv members)
    | _ => exact .error (here _ rfl)
  | object members ih =>
    refine sameUpTo_parseElement here (fun _ _ => rfl) (sameUpTo_parseMember here ?_)
    refine itemwise_self fun items hitems i v hv => ?_
    have hinside (steps : List Step) : SameFaults E ((place.keyItem "elements" i).extend steps)
        ((other.keyItem "elements" i).extend steps) := by
      rw [Path.extend_keyItem, Path.extend_keyItem]
      exact h _
    have hitem := hinside []
    rw [Path.extend_nil, Path.extend_nil] at hitem
    exact ih "elements" items (present?_eq_some_iff.1 hitems).1 v hv hinside hitem

/-! ## Layers, pages, stories -/

section Story

variable {E : Error → Error → Prop} {members others : Members}

theorem sameUpTo_parseTemplateLayer {path : Path} (h : SameFaults E path path)
    (agree : AgreeOn ["template", "styles"] members others)
    (elements : ∀ template, SameUpTo E (parseLayerElements template members path)
      (parseLayerElements template others path)) :
    SameUpTo E (parseTemplateLayer path members) (parseTemplateLayer path others) := by
  have htemplate : SameUpTo E (parseTemplate members path) (parseTemplate others path) := by
    refine (sameUpTo_requiredString h (agree _ (by decide))).bind fun name => ?_
    split
    · exact .ok _
    · exact .error (h _ rfl)
  refine htemplate.bind fun template => (elements template).bind fun parts => ?_
  exact (sameUpTo_optionalStyle h (agree _ (by decide))).bind fun styles => .ok _

theorem sameUpTo_parsePage {path : Path} (index : Nat) (h : SameFaults E path path)
    (agree : AgreeOn ["id", "autoAdvanceAfter"] members others)
    (layers : Itemwise (fun j v w => SameUpTo E (parseLayer (path.keyItem "layers" j) v)
      (parseLayer (path.keyItem "layers" j) w)) (present? members "layers")
      (present? others "layers")) :
    SameUpTo E (parsePage path index (.object members))
      (parsePage path index (.object others)) := by
  show SameUpTo E (parseParts _ members "layers" path >>= _)
    (parseParts _ others "layers" path >>= _)
  refine (sameUpTo_parseParts h layers).bind fun layers => ?_
  refine (sameUpTo_optionalString h (agree _ (by decide))).bind fun id => ?_
  exact (sameUpTo_optionalTyped _ h (agree _ (by decide))).bind fun advance => .ok _

theorem sameUpTo_parseStyleTable (root : SameFaults E .story .story)
    (styles : ∀ name, SameFaults E (defaultStylePath name) (defaultStylePath name))
    (hkey : present? others "defaultStyles" = present? members "defaultStyles") :
    SameUpTo E (parseStyleTable members) (parseStyleTable others) := by
  have htable (table : Members) :
      SameUpTo E (parseDefaultStyles table) (parseDefaultStyles table) := by
    induction table with
    | nil => exact .ok []
    | cons e rest ih =>
      refine (sameUpTo_parseStyle (styles e.1) e.2).bind fun style => ?_
      exact ih.bind fun styles => .ok _
  unfold parseStyleTable
  rw [hkey]
  split
  · exact .ok []
  · exact htable _
  · exact .error (root _ rfl)

/-- Stories are read alike if their own properties agree and their pages are read alike. -/
theorem sameUpTo_parseStory (root : SameFaults E .story .story)
    (styles : ∀ name, SameFaults E (defaultStylePath name) (defaultStylePath name))
    (agree : AgreeOn storyKeys members others)
    (pages : Itemwise (fun i v w => SameUpTo E (parsePage (pagePath i) i v)
      (parsePage (pagePath i) i w)) (present? members "pages") (present? others "pages")) :
    SameUpTo E (parseStory (.object members)) (parseStory (.object others)) := by
  show SameUpTo E (parseParts _ members "pages" .story >>= _)
    (parseParts _ others "pages" .story >>= _)
  refine (sameUpTo_parseParts root pages).bind fun pages => ?_
  refine (sameUpTo_parseStyleTable root styles (agree _ (by decide))).bind fun table => ?_
  refine (sameUpTo_optionalString root (agree _ (by decide))).bind fun title => ?_
  refine (sameUpTo_optionalString root (agree _ (by decide))).bind fun canonicalUrl => ?_
  refine (sameUpTo_optionalTyped _ root (agree _ (by decide))).bind fun preview => ?_
  refine (sameUpTo_optionalTyped _ root (agree _ (by decide))).bind fun storyMeta => ?_
  refine (sameUpTo_optionalString root (agree _ (by decide))).bind fun customCss => ?_
  refine (sameUpTo_optionalTyped _ root (agree _ (by decide))).bind fun analytics => ?_
  refine (sameUpTo_optionalString root (agree _ (by decide))).bind fun bookend => ?_
  rw [agree "ads" (by decide)]
  exact .ok _

end Story

end WebStory
