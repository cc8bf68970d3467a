import Mathlib.Data.List.Forall2
import Mathlib.Logic.Relation
import WebStory.Proofs.Story.Readers
import WebStory.Proofs.Story.Sources
/-
  Members that are null.

  Null is meant to count as absent, so a member that is null may be left out of a story, a page, a
  layer or an element (`LosesNull`).

  1. **What is present** — for the readers the objects with and without the member agree on what is
     present under each key (`present?_without`), and readers look at nothing else.  Almost.

  2. **The exception** — there is one place where more is looked at than what is present: a layer
     with a type is taken for an element unless it has the key `template`, with whatever under it.
     So a layer with a type and a null template is refused, and without the template it is an
     element.  This one case has a name of its own (`RevealsElement`).

  3. **Parts inside parts** — the member may be lost at any depth.  Two objects agree as parts of a
     kind on their own properties and on the parts listed inside (`AgreeAs`), and then they are read
     alike.  One induction on what is lost carries this from the object with the member up to the
     story (`readAlike_of_losesNull`); the kind of part tells under which keys to look.

  4. **Refusals** — a layer that becomes an element was refused before, and so was every part around
     it (`refused_of_losesNull`).

  So apart from this one case the story is the same with and without the member, and there is none
  with it if there is none without it.  The same holds of many such members lost one after another
  (`parseStory_of_losesNull`).
-/

namespace WebStory

open Json

/-! ## Members left out -/

/-- The parts that a story is made of. -/
inductive Part where
  | story
  | page
  | layer
  | element
deriving DecidableEq

/-- The key under which the parts inside are listed. -/
def Part.listKey : Part → String
  | .story => "pages"
  | .page => "layers"
  | .layer => "elements"
  | .element => "elements"

/-- What the parts inside are. -/
def Part.inner : Part → Part
  | .story => .page
  | .page => .layer
  | .layer => .element
  | .element => .element

/-- The members with other keys. -/
def without (key : String) (members : Members) : Members := members.filter fun e => e.1 != key

/-- A part and the same part without one of the members that are null, its own or one of a part
    inside it, where it is allowed to leave this member out. -/
inductive LosesNull (allowed : Part → Members → String → Prop) : Part → Value → Value → Prop where
  | member {part : Part} {members : Members} {key : String}
      (null : Entries.get? members key = some .null) (ok : allowed part members key) :
      LosesNull allowed part (.object members) (.object (without key members))
  | item {part : Part} {members : Members} {items : List Value} {i : Nat} {v w : Value}
      (list : Entries.get? members part.listKey = some (.array items)) (item : items[i]? = some v)
      (inside : LosesNull allowed part.inner v w) : LosesNull allowed part (.object members)
        (.object (Entries.set members part.listKey (.array (items.set i w))))
  | filling {members : Members} {v w : Value} (here : Entries.get? members "element" = some v)
      (inside : LosesNull allowed .element v w) :
      LosesNull allowed .layer (.object members) (.object (Entries.set members "element" w))

/-- Without its template the layer is taken for an element. -/
def RevealsElement (part : Part) (members : Members) (key : String) : Prop :=
  part = .layer ∧ key = "template" ∧ ∃ v, present? members "type" = some v

/-! ## What is present -/

section Present

variable {members : Members} {key : String}

/-- Without a member that is null the same is present. -/
theorem present?_without (null : Entries.get? members key = some .null) (other : String) :
    present? (without key members) other = present? members other := by
  unfold present? without
  by_cases h : other = key
  · subst h
    rw [Entries.get?_filter_self, null]
    rfl
  · rw [Entries.get?_filter_ne members h]

theorem hasKey_without {other : String} (h : other ≠ key) :
    hasKey (without key members) other = hasKey members other := by
  unfold hasKey without
  rw [Entries.get?_filter_ne members h]

theorem hasKey_set_ne {other : String} (v : Value) (h : other ≠ key) :
    hasKey (Entries.set members key v) other = hasKey members other := by
  unfold hasKey
  rw [Entries.get?_set_ne members v h]

theorem hasKey_of_present? {v : Value} (h : present? members key = some v) :
    hasKey members key = true := by
  rw [hasKey, (present?_eq_some_iff.1 h).1]
  rfl

/-- One item of a list is exchanged. -/
theorem itemwise_set {R : Nat → Value → Value → Prop} (hself : ∀ i v, R i v v) {items : List Value}
    (hlist : Entries.get? members key = some (.array items)) {i : Nat} {v w : Value}
    (hitem : items[i]? = some v) (h : R i v w) :
    Itemwise R (present? members key)
      (present? (Entries.set members key (.array (items.set i w))) key) := by
  have hold : present? members key = some (.array items) := present?_eq_some_iff.2 ⟨hlist, nofun⟩
  have hnew : present? (Entries.set members key (.array (items.set i w))) key =
      some (.array (items.set i w)) := present?_set_self members key nofun
  rw [hold, hnew]
  refine .array List.length_set fun j a b ha hb => ?_
  by_cases hj : i = j
  · subst hj
    obtain rfl := Option.some.inj (hitem.symm.trans ha)
    rw [List.getElem?_set_self (List.getElem?_eq_some_iff.1 hitem).1] at hb
    obtain rfl := Option.some.inj hb
    exact h
  · rw [List.getElem?_set_ne hj, ha] at hb
    obtain rfl := Option.some.inj hb
    exact hself j _

end Present

/-! ## Parts that are read alike -/

/-- The same result, or errors on both sides. -/
abbrev SameResult {α : Type} (x y : Parsed α) : Prop := SameUpTo (fun _ _ => True) x y

theorem sameResult_self {α : Type} (x : Parsed α) : SameResult x x :=
  sameUpTo_self fun _ _ => trivial

theorem sameResult_of_no_result {α : Type} {x y : Parsed α} (hx : ∀ a, x ≠ .ok a)
    (hy : ∀ a, y ≠ .ok a) : SameResult x y := by
  cases x with
  | ok a => exact absurd rfl (hx a)
  | error e =>
    cases y with
    | ok a => exact absurd rfl (hy a)
    | error e' => exact .error trivial

/-- The reader of a part makes the same of two values, wherever they stand. -/
def ReadAlike : Part → Value → Value → Prop
  | .story, v, w => SameResult (parseStory v) (parseStory w)
  | .page, v, w => ∀ path index, SameResult (parsePage path index v) (parsePage path index w)
  | .layer, v, w => ∀ path, SameResult (parseLayer path v) (parseLayer path w)
  | .element, v, w => ∀ path, SameResult (parseElement path v) (parseElement path w)

theorem readAlike_self (part : Part) (v : Value) : ReadAlike part v v := by
  cases part with
  | story => exact sameResult_self _
  | page => exact fun _ _ => sameResult_self _
  | layer => exact fun _ => sameResult_self _
  | element => exact fun _ => sameResult_self _

theorem sameFaults_any (place other : Path) : SameFaults (fun _ _ => True) place other :=
  fun _ _ => trivial

/-- The keys under which a part has its own properties. -/
def Part.ownKeys : Part → List String
  | .story => storyKeys
  | .page => ["id", "autoAdvanceAfter"]
  | .layer => "template" :: elementKeys
  | .element => elementKeys

/-- Two objects agree as parts of a kind: on their own properties, and on the parts listed inside,
    as far as these are read. -/
structure AgreeAs (part : Part) (members others : Members) : Prop where
  own : AgreeOn part.ownKeys members others
  inside : Itemwise (fun _ => ReadAlike part.inner) (present? members part.listKey)
    (present? others part.listKey)

section Agree

variable {members others : Members}

theorem readAlike_element (agree : AgreeAs .element members others) :
    ReadAlike .element (.object members) (.object others) := fun path =>
  sameUpTo_parseElement (sameFaults_any path path) agree.own
    (sameUpTo_parseMember (sameFaults_any path path) (agree.inside.imp fun _ _ _ h => h _))

/-- For layers it counts as well whether they are elements, and what fills them. -/
theorem readAlike_layer (agree : AgreeAs .layer members others)
    (bare : isBareElement others = isBareElement members)
    (filling : Option.Rel (ReadAlike .element) (present? members "element")
      (present? others "element")) :
    ReadAlike .layer (.object members) (.object others) := by
  intro path
  have hmember : SameResult (parseMember path "elements" members)
      (parseMember path "elements" others) :=
    sameUpTo_parseMember (sameFaults_any path path) (agree.inside.imp fun _ _ _ h => h _)
  have hfilling : SameResult (parseLayerElements .fill members path)
      (parseLayerElements .fill others path) := by
    unfold parseLayerElements
    generalize present? members "element" = v? at filling ⊢
    generalize present? others "element" = w? at filling ⊢
    cases filling with
    | none => exact .error trivial
    | some h => exact (h _).map ([·])
  rw [parseLayer_object, parseLayer_object, bare]
  split
  · have hown : AgreeOn elementKeys members others :=
      fun key hkey => agree.own key (List.mem_cons_of_mem _ hkey)
    exact (sameUpTo_parseElement (sameFaults_any path path) hown hmember).map filledLayer
  · have hown : AgreeOn ["template", "styles"] members others := by
      have hkeys : ∀ key ∈ ["template", "styles"], key ∈ Part.ownKeys .layer := by decide
      exact fun key hkey => agree.own key (hkeys key hkey)
    refine sameUpTo_parseTemplateLayer (sameFaults_any path path) hown fun template => ?_
    cases template with
    | fill => exact hfilling
    | _ => exact hmember

theorem readAlike_page (agree : AgreeAs .page members others) :
    ReadAlike .page (.object members) (.object others) := fun path index =>
  sameUpTo_parsePage index (sameFaults_any path path) agree.own
    (agree.inside.imp fun _ _ _ h => h _)

theorem readAlike_story (agree : AgreeAs .story members others) :
    ReadAlike .story (.object members) (.object others) :=
  sameUpTo_parseStory (sameFaults_any _ _) (fun _ => sameFaults_any _ _) agree.own
    (agree.inside.imp fun i _ _ h => h (pagePath i) i)

end Agree

/-! ## Without members that are null -/

section Without

variable {members : Members} {key : String}

theorem agreeAs_without (part : Part) (null : Entries.get? members key = some .null) :
    AgreeAs part members (without key members) where
  own := fun other _ => present?_without null other
  inside := by
    rw [present?_without null]
    exact itemwise_self fun _ _ _ v _ => readAlike_self part.inner v

theorem agreeAs_set {part : Part} {items : List Value}
    (list : Entries.get? members part.listKey = some (.array items)) {i : Nat} {v w : Value}
    (item : items[i]? = some v) (inside : ReadAlike part.inner v w) :
    AgreeAs part members (Entries.set members part.listKey (.array (items.set i w))) where
  own := agreeOn_set members _ (by cases part <;> decide)
  inside := itemwise_set (fun _ => readAlike_self part.inner) list item inside

theorem rel_self {R : Value → Value → Prop} (h : ∀ v, R v v) (v? : Option Value) :
    Option.Rel R v? v? := by
  cases v? with
  | none => exact .none
  | some v => exact .some (h v)

/-- A layer without a template is read only if it has a type and not even the key. -/
theorem parseLayer_ne_ok {members : Members} (htemplate : present? members "template" = none)
    (hother : hasKey members "template" = true ∨ present? members "type" = none) (path : Path)
    (l : Layer) : parseLayer path (.object members) ≠ .ok l := by
  intro h
  rw [parseLayer_object] at h
  split at h
  · next hbare =>
    obtain ⟨hkey, -⟩ := Bool.and_eq_true_iff.1 hbare
    rcases hother with hhas | htype
    · rw [hhas] at hkey
      cases hkey
    · -- as an element it needs a type
      obtain ⟨e, he, -⟩ := map_eq_ok_iff.1 h
      rw [parseElement_object] at he
      obtain ⟨name, hname, -⟩ := exists_of_bind_eq_ok he
      have hpresent : present? members "type" = some (.string name) :=
        present?_eq_some_iff.2 ⟨requiredString_eq_ok_iff.1 hname, nofun⟩
      rw [htype] at hpresent
      cases hpresent
  · obtain ⟨template, ht, -⟩ := exists_of_bind_eq_ok h
    obtain ⟨name, hname, -⟩ := exists_of_bind_eq_ok ht
    have hpresent : present? members "template" = some (.string name) :=
      present?_eq_some_iff.2 ⟨requiredString_eq_ok_iff.1 hname, nofun⟩
    rw [htemplate] at hpresent
    cases hpresent

/-- A layer is read alike without a member that is null, except where this was its template and it
    has a type. -/
theorem readAlike_layer_without (null : Entries.get? members key = some .null)
    (hsafe : ¬ RevealsElement .layer members key) :
    ReadAlike .layer (.object members) (.object (without key members)) := by
  by_cases hnone : present? members "template" = none ∧ present? members "type" = none
  · -- neither a layer nor an element
    obtain ⟨htemplate, htype⟩ := hnone
    intro path
    refine sameResult_of_no_result (parseLayer_ne_ok htemplate (.inr htype) path)
      (parseLayer_ne_ok ?_ (.inr ?_) path)
    · rw [present?_without null, htemplate]
    · rw [present?_without null, htype]
  have hnull : present? members key = none := present?_eq_none_iff.2 (.inr null)
  refine readAlike_layer (agreeAs_without .layer null) ?_ ?_
  · rw [isBareElement, isBareElement]
    by_cases htemplate : key = "template"
    · subst htemplate
      refine absurd ⟨hnull, ?_⟩ hnone
      rw [Option.eq_none_iff_forall_ne_some]
      exact fun v hv => hsafe ⟨rfl, rfl, v, hv⟩
    rw [hasKey_without (Ne.symm htemplate)]
    by_cases htype : key = "type"
    · -- the type was null, so there is a template, and with it no element
      subst htype
      obtain ⟨v, hv⟩ := Option.ne_none_iff_exists'.1 fun h => hnone ⟨h, hnull⟩
      rw [hasKey_of_present? hv]
      rfl
    · rw [hasKey_without (Ne.symm htype)]
  · rw [present?_without null]
    exact rel_self (readAlike_self .element) _

end Without

/-- Only objects have members to lose. -/
theorem LosesNull.ne_null {allowed : Part → Members → String → Prop} {part : Part} {v w : Value}
    (h : LosesNull allowed part v w) : v ≠ .null ∧ w ≠ .null := by
  cases h <;> exact ⟨nofun, nofun⟩

/-- A part is read alike without a member that is null, unless this makes an element of a layer. -/
theorem readAlike_of_losesNull {part : Part} {v w : Value}
    (h : LosesNull (fun part members key => ¬ RevealsElement part members key) part v w) :
    ReadAlike part v w := by
  induction h with
  | @member part members key null safe =>
    have agree := agreeAs_without part null
    cases part with
    | story => exact readAlike_story agree
    | page => exact readAlike_page agree
    | layer => exact readAlike_layer_without null safe
    | element => exact readAlike_element agree
  | @item part members items i v w list item _ ih =>
    have agree := agreeAs_set list item ih
    cases part with
    | story => exact readAlike_story agree
    | page => exact readAlike_page agree
    | layer =>
      refine readAlike_layer agree ?_ ?_
      · rw [isBareElement, isBareElement, hasKey_set_ne _ (by decide), hasKey_set_ne _ (by decide)]
      · rw [present?_set_ne members _ (by decide)]
        exact rel_self (readAlike_self .element) _
    | element => exact readAlike_element agree
  | @filling members v w here inside ih =>
    refine readAlike_layer ⟨agreeOn_set members w (by decide), ?_⟩ ?_ ?_
    · rw [present?_set_ne members w (by decide)]
      exact itemwise_self fun _ _ _ v _ => readAlike_self .element v
    · rw [isBareElement, isBareElement, hasKey_set_ne w (by decide), hasKey_set_ne w (by decide)]
    · obtain ⟨hv, hw⟩ := inside.ne_null
      rw [present?_eq_some_iff.2 ⟨here, hv⟩, present?_set_self members "element" hw]
      exact .some ih

/-! ## A layer that becomes an element -/

/-- The reader of a part makes nothing of a value. -/
def Refused : Part → Value → Prop
  | .story, v => ∀ s, parseStory v ≠ .ok s
  | .page, v => ∀ path index p, parsePage path index v ≠ .ok p
  | .layer, v => ∀ path l, parseLayer path v ≠ .ok l
  | .element, _ => False

theorem exists_of_forall₂ {α β : Type} {R : α → β → Prop} {as : List α} {bs : List β}
    (h : List.Forall₂ R as bs) {i : Nat} {a : α} (ha : as[i]? = some a) : ∃ b, R a b := by
  obtain ⟨b, -, hab⟩ := exists_getElem?_of_forall₂ (R := flip R) h.flip ha
  exact ⟨b, hab⟩

/-- A part is refused if a layer in it has a type and a template that is null. -/
theorem refused_of_losesNull {part : Part} {v w : Value} (h : LosesNull RevealsElement part v w) :
    Refused part v := by
  induction h with
  | @member part members key null reveals =>
    obtain ⟨rfl, rfl, -⟩ := reveals
    have hhas : hasKey members "template" = true := by rw [hasKey, null]; rfl
    exact parseLayer_ne_ok (present?_eq_none_iff.2 (.inr null)) (.inl hhas)
  | @item part members items i v w list item _ ih =>
    cases part with
    | story =>
      intro s hs
      have hpages := items_parseStory members s hs
      have hlist : listUnder members "pages" = items := listUnder_eq list
      rw [hlist] at hpages
      obtain ⟨p, path, index, hp⟩ := exists_of_forall₂ hpages item
      exact ih path index p hp
    | page =>
      intro path index p hp
      have hlayers := items_parsePage members path index p hp
      have hlist : listUnder members "layers" = items := listUnder_eq list
      rw [hlist] at hlayers
      obtain ⟨l, path, hl⟩ := exists_of_forall₂ hlayers item
      exact ih path l hl
    | layer => exact ih.elim
    | element => exact ih.elim
  | filling _ _ ih => exact ih.elim

/-! ## The story -/

/-- Either this makes an element of a layer or it does not. -/
theorem LosesNull.cases_reveals {part : Part} {v w : Value}
    (h : LosesNull (fun _ _ _ => True) part v w) :
    LosesNull (fun part members key => ¬ RevealsElement part members key) part v w ∨
      LosesNull RevealsElement part v w := by
  induction h with
  | @member part members key null =>
    by_cases hreveals : RevealsElement part members key
    · exact .inr (.member null hreveals)
    · exact .inl (.member null hreveals)
  | item list item _ ih => exact ih.imp (.item list item) (.item list item)
  | filling here _ ih => exact ih.imp (.filling here) (.filling here)

/-- A story with a single layer. -/
def storyWithLayer (layer : Value) : Value :=
  .object [("pages", .array [.object [("layers", .array [layer])]])]

/-- What its layer loses a story loses. -/
theorem LosesNull.storyWithLayer {allowed : Part → Members → String → Prop} {v w : Value}
    (h : LosesNull allowed .layer v w) :
    LosesNull allowed .story (storyWithLayer v) (storyWithLayer w) := by
  have hpage : LosesNull allowed .page (.object [("layers", .array [v])])
      (.object [("layers", .array [w])]) := @item allowed .page _ [v] 0 v w rfl rfl h
  exact @item allowed .story _ [_] 0 _ _ rfl rfl hpage

/-- What is lost one after another changes nothing if no layer becomes an element; if one does,
    there was no story before.  So a story that can be read stays the same in any case. -/
theorem parseStory_of_losesNull (v w : Value) :
    (Relation.ReflTransGen
        (LosesNull (fun part members key => ¬ RevealsElement part members key) .story) v w →
      (parseStory w).toOption = (parseStory v).toOption) ∧
    (LosesNull RevealsElement .story v w → ∀ s, parseStory v ≠ .ok s) ∧
    (Relation.ReflTransGen (LosesNull (fun _ _ _ => True) .story) v w →
      ∀ s, parseStory v = .ok s → parseStory w = .ok s) := by
  have hsame {v w : Value}
      (h : LosesNull (fun part members key => ¬ RevealsElement part members key) .story v w) :
      (parseStory w).toOption = (parseStory v).toOption :=
    sameUpTo_any_iff.1 (readAlike_of_losesNull h)
  refine ⟨fun h => ?_, fun h => refused_of_losesNull h, fun h s hs => ?_⟩
  · induction h with
    | refl => rfl
    | tail _ hstep ih => rw [hsame hstep, ih]
  · induction h with
    | refl => exact hs
    | tail _ hstep ih =>
      rcases hstep.cases_reveals with hsafe | hreveals
      · refine eq_ok_of_toOption ?_
        rw [hsame hsafe, ih]
        rfl
      · exact absurd ih (refused_of_losesNull hreveals s)

/-- A layer loses its styles and the id of its paragraph, both null; and another layer, with a type,
    the template. -/
theorem styles_and_id_lost_and_template_lost :
    let text (own : Members) : Value :=
      .object (own ++ [("type", .string "paragraph"), ("text", .string "x")])
    let layer (own id : Members) : Members :=
      own ++ [("template", .string "vertical"), ("elements", .array [text id])]
    let v := storyWithLayer (.object (layer [("styles", .null)] [("id", .null)]))
    let w := storyWithLayer (.object (layer [] []))
    (parseStory w).toOption = (parseStory v).toOption ∧
      (∃ s, parseStory v = .ok s ∧ parseStory w = .ok s) ∧
      ∀ s, parseStory (storyWithLayer (text [("template", .null)])) ≠ .ok s := by
  intro text layer v w
  have hlost {allowed : Part → Members → String → Prop}
      (hstyles : allowed .layer (layer [("styles", .null)] [("id", .null)]) "styles")
      (hid : allowed .element [("id", .null), ("type", .string "paragraph"), ("text", .string "x")]
        "id") : Relation.ReflTransGen (LosesNull allowed .story) v w := by
    have hfirst : LosesNull allowed .layer (.object (layer [("styles", .null)] [("id", .null)]))
        (.object (layer [] [("id", .null)])) := .member rfl hstyles
    have htext : LosesNull allowed .element (text [("id", .null)]) (text []) := .member rfl hid
    have hsecond : LosesNull allowed .layer (.object (layer [] [("id", .null)]))
        (.object (layer [] [])) := @LosesNull.item allowed .layer _ [_] 0 _ _ rfl rfl htext
    exact (Relation.ReflTransGen.single hfirst.storyWithLayer).tail hsecond.storyWithLayer
  have htemplate : LosesNull RevealsElement .layer (text [("template", .null)]) (text []) :=
    @LosesNull.member RevealsElement .layer _ "template" rfl ⟨rfl, rfl, _, rfl⟩
  obtain ⟨hsame, -, hkept⟩ := parseStory_of_losesNull v w
  have hstyles : ¬ RevealsElement .layer (layer [("styles", .null)] [("id", .null)]) "styles" :=
    fun h => absurd h.2.1 (by decide)
  refine ⟨hsame (hlost hstyles fun h => absurd h.1 (by decide)), ?_, ?_⟩
  · exact ⟨_, rfl, hkept (hlost trivial trivial) _ rfl⟩
  · exact (parseStory_of_losesNull _ _).2.1 htemplate.storyWithLayer

/-- A layer with a type and a template that is null is refused, and without the template it is an
    element. -/
theorem null_template_hides_element :
    let layer (own : Members) : Value :=
      .object (own ++ [("type", .string "paragraph"), ("text", .string "x")])
    let v := storyWithLayer (layer [("template", .null)])
    let w := storyWithLayer (layer [])
    LosesNull (fun _ _ _ => True) .story v w ∧
      parseStory v = .error (.missingProperty "template" ((pagePath 0).keyItem "layers" 0)) ∧
      ∃ s, parseStory w = .ok s := by
  intro layer v w
  have hlost : LosesNull (fun _ _ _ => True) .layer (layer [("template", .null)]) (layer []) :=
    @LosesNull.member _ .layer _ "template" rfl trivial
  exact ⟨hlost.storyWithLayer, rfl, _, rfl⟩

end WebStory
