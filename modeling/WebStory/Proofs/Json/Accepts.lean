import WebStory.Proofs.Json.Decode
import WebStory.Proofs.Json.Ensures
/-
  Which values can be read as typed data.

  1. **Grammars** — a grammar says of values which of them are numbers, lists or records, without
     reading anything.  A record is written by names or as a list; an object may have further
     members, and a list may not (`IsRecord`).  Both forms ask the same of each of its fields: that
     what is found in its place is of its kind, or that it may be left out (`FieldShape.Given`).

  2. **Decoders** — a decoder accepts a grammar if it succeeds on just the values of the grammar
     (`Accepts`).  Every way to build a decoder has its way to build the grammar that it accepts:
     lists of something, one kind or another, null for nothing.

  3. **What is asked for** — what is read may be asked for more than to be there, so that a list
     that is not empty, or a record with such a list, has a grammar too.  The decoder and what is
     asked of its answer then come together (`Accepts.someOf`).

  4. **Fields** — the reader of a record asks for one field after another and builds the record at
     the end, so a record that is read in part is a function that waits for the other fields.  The
     invariant is about such a function: that it is there, and is of a certain sort, exactly if the
     fields so far are given (`ReadsFields`).  One further field keeps it (`ReadsFields.further`),
     and with the last one the record is accepted (`ReadsFields.accepts`).
-/

namespace WebStory.Json

/-! ## Grammars -/

def IsString (v : Value) : Prop := ∃ s, v = .string s

def IsNumber (v : Value) : Prop := ∃ n, v = .number n

/-- Null stands for nothing. -/
def OrNull (P : Value → Prop) (v : Value) : Prop := v = .null ∨ P v

/-- A list of values of one kind. -/
def IsListOf (P : Value → Prop) (v : Value) : Prop := ∃ items, v = .array items ∧ ∀ w ∈ items, P w

/-- A list of values of one kind, with at least one of them. -/
def IsSomeOf (P : Value → Prop) (v : Value) : Prop :=
  ∃ items, v = .array items ∧ items ≠ [] ∧ ∀ w ∈ items, P w

/-- A field of a record: what it is called, whether it may be left out, and what it holds. -/
structure FieldShape where
  name : String
  optional : Bool
  kind : Value → Prop

/-- What stands in the place of the field is of its kind; if nothing does, it may be left out. -/
def FieldShape.Given (f : FieldShape) : Option Value → Prop
  | some v => f.kind v
  | none => f.optional = true

/-- A record with these fields: an object that has them by their names, and perhaps other members, or
    a list that has them in their order and nothing else. -/
def IsRecord (fields : List FieldShape) : Value → Prop
  | .object members => ∀ f ∈ fields, f.Given (Entries.get? members f.name)
  | .array items =>
    items.length ≤ fields.length ∧ ∀ place ∈ fields.zipIdx, place.1.Given items[place.2]?
  | _ => False

/-! ## Decoders -/

/-- The decoder reads something of a certain sort from just the values of the grammar. -/
def Accepts {α : Type} (decode : Value → Decoded α) (Q : α → Prop) (P : Value → Prop) : Prop :=
  ∀ v, (∃ a, decode v = .ok a ∧ Q a) ↔ P v

/-- Nothing is asked of what is read. -/
abbrev Anything {α : Type} : α → Prop := fun _ => True

section Decoders

variable {α β : Type} {decode second : Value → Decoded α} {Q : α → Prop} {P P' : Value → Prop}

/-- What the decoder accepts it reads. -/
theorem Accepts.exists_ok_iff (h : Accepts decode Anything P) (v : Value) :
    (∃ a, decode v = .ok a) ↔ P v := by
  rw [← h v]
  exact ⟨fun ⟨a, ha⟩ => ⟨a, ha, trivial⟩, fun ⟨a, ha, _⟩ => ⟨a, ha⟩⟩

theorem accepts_string : Accepts decodeString Anything IsString := by
  intro v
  cases v with
  | string s => exact ⟨fun _ => ⟨s, rfl⟩, fun _ => ⟨s, rfl, trivial⟩⟩
  | _ => exact ⟨nofun, nofun⟩

theorem accepts_binary64 : Accepts decodeBinary64 Anything IsNumber := by
  intro v
  cases v with
  | number n => exact ⟨fun _ => ⟨n, rfl⟩, fun _ => ⟨n.toBinary64, rfl, trivial⟩⟩
  | _ =>
    constructor
    · rintro ⟨x, hx, -⟩
      cases hx
    · rintro ⟨n, hn⟩
      cases hn

theorem Accepts.map (h : Accepts decode Anything P) {f : α → β} {R : β → Prop}
    (hR : ∀ a, R (f a)) : Accepts (fun v => (decode v).map f) R P := by
  intro v
  show (∃ b, (decode v).map f = .ok b ∧ R b) ↔ P v
  rw [← h.exists_ok_iff v]
  cases decode v with
  | error e =>
    constructor
    · rintro ⟨b, hb, -⟩
      cases hb
    · rintro ⟨a, ha⟩
      cases ha
  | ok a => exact ⟨fun _ => ⟨a, rfl⟩, fun _ => ⟨f a, rfl, hR a⟩⟩

theorem Accepts.option (h : Accepts decode Anything P) :
    Accepts (decodeOption decode) Anything (OrNull P) := by
  intro v
  by_cases hnull : v = .null
  · subst hnull
    exact ⟨fun _ => Or.inl rfl, fun _ => ⟨none, rfl, trivial⟩⟩
  · have hread : decodeOption decode v = (decode v).map some := by
      cases v with
      | null => exact absurd rfl hnull
      | _ => rfl
    have hsome := h.map (f := some) (R := Anything) (fun _ => trivial) v
    rw [hread, hsome, OrNull, or_iff_right hnull]

/-- All items of a list are read, and as asked for, exactly if each of them is. -/
theorem exists_decodeItems_forall_iff (h : Accepts decode Q P) (items : List Value) :
    (∃ as, decodeItems decode items = .ok as ∧ ∀ a ∈ as, Q a) ↔ ∀ v ∈ items, P v := by
  induction items with
  | nil => exact ⟨fun _ => nofun, fun _ => ⟨[], rfl, nofun⟩⟩
  | cons v rest ih =>
    rw [List.forall_mem_cons, ← h v, ← ih, decodeItems]
    constructor
    · rintro ⟨as, has, hall⟩
      obtain ⟨a, ha, hrest⟩ := exists_of_bind_eq_ok has
      obtain ⟨bs, hbs, hcons⟩ := exists_of_bind_eq_ok hrest
      obtain rfl := Except.ok.inj hcons
      obtain ⟨hhead, htail⟩ := List.forall_mem_cons.1 hall
      exact ⟨⟨a, ha, hhead⟩, bs, hbs, htail⟩
    · rintro ⟨⟨a, ha, hhead⟩, bs, hbs, htail⟩
      exact ⟨a :: bs, by rw [ha, hbs]; rfl, List.forall_mem_cons.2 ⟨hhead, htail⟩⟩

/-- The same where nothing is asked of what is read. -/
theorem exists_decodeItems_iff (h : Accepts decode Anything P) (items : List Value) :
    (∃ as, decodeItems decode items = .ok as) ↔ ∀ v ∈ items, P v := by
  rw [← exists_decodeItems_forall_iff h items]
  constructor
  · rintro ⟨as, has⟩
    exact ⟨as, has, fun _ _ => trivial⟩
  · rintro ⟨as, has, -⟩
    exact ⟨as, has⟩

/-- As many things are read as there are items. -/
theorem length_of_decodeItems {items : List Value} :
    Ensures (fun as => as.length = items.length) (decodeItems decode items) := by
  induction items with
  | nil => exact ensures_ok rfl
  | cons v rest ih =>
    refine (ensures_true (decode v)).bind fun a _ => ih.bind fun as has => ensures_ok ?_
    rw [List.length_cons, List.length_cons, has]

/-- A list of things of which something is asked. -/
theorem Accepts.listOf (h : Accepts decode Q P) :
    Accepts (decodeList decode) (fun as => ∀ a ∈ as, Q a) (IsListOf P) := by
  intro v
  cases v with
  | array items =>
    constructor
    · rintro ⟨as, has, hall⟩
      exact ⟨items, rfl, (exists_decodeItems_forall_iff h items).1 ⟨as, has, hall⟩⟩
    · rintro ⟨_, ⟨⟩, hitems⟩
      exact (exists_decodeItems_forall_iff h items).2 hitems
  | _ =>
    constructor
    · rintro ⟨as, has, -⟩
      cases has
    · rintro ⟨items, hitems, -⟩
      cases hitems

theorem Accepts.list (h : Accepts decode Anything P) :
    Accepts (decodeList decode) Anything (IsListOf P) := by
  intro v
  rw [← h.listOf v]
  constructor
  · rintro ⟨as, has, -⟩
    exact ⟨as, has, fun _ _ => trivial⟩
  · rintro ⟨as, has, -⟩
    exact ⟨as, has, trivial⟩

/-- A list that is not empty. -/
theorem Accepts.someOf (h : Accepts decode Anything P) :
    Accepts (decodeList decode) (· ≠ []) (IsSomeOf P) := by
  intro v
  cases v with
  | array items =>
    have hempty {as : List α} (has : decodeItems decode items = .ok as) : as ≠ [] ↔ items ≠ [] := by
      rw [← List.length_pos_iff, ← List.length_pos_iff, length_of_decodeItems as has]
    constructor
    · rintro ⟨as, has, hne⟩
      exact ⟨items, rfl, (hempty has).1 hne, (exists_decodeItems_iff h items).1 ⟨as, has⟩⟩
    · rintro ⟨_, ⟨⟩, hne, hitems⟩
      obtain ⟨as, has⟩ := (exists_decodeItems_iff h items).2 hitems
      exact ⟨as, has, (hempty has).2 hne⟩
  | _ => exact ⟨nofun, nofun⟩

/-- The second of two decoders is asked only where the first fails. -/
theorem exists_decodeEither_iff (type : String) (v : Value) :
    (∃ a, decodeEither type decode second v = .ok a ∧ Q a) ↔
      (∃ a, decode v = .ok a ∧ Q a) ∨
        (∀ a, decode v ≠ .ok a) ∧ ∃ a, second v = .ok a ∧ Q a := by
  unfold decodeEither
  cases decode v with
  | ok a =>
    exact ⟨Or.inl, fun h => h.resolve_right fun hsecond => hsecond.1 a rfl⟩
  | error e =>
    cases second v with
    | ok a => exact ⟨fun h => Or.inr ⟨nofun, h⟩, fun h => (h.resolve_left nofun).2⟩
    | error e' =>
      constructor
      · rintro ⟨a, ha, -⟩
        cases ha
      · rintro (⟨a, ha, -⟩ | ⟨-, a, ha, -⟩) <;> cases ha

theorem Accepts.either (h : Accepts decode Anything P) (h' : Accepts second Anything P')
    (type : String) : Accepts (decodeEither type decode second) Anything fun v => P v ∨ P' v := by
  intro v
  rw [exists_decodeEither_iff, h v, h' v]
  constructor
  · exact Or.imp_right And.right
  · rintro (hv | hv)
    · exact Or.inl hv
    · by_cases hfirst : P v
      · exact Or.inl hfirst
      · exact Or.inr ⟨fun a ha => hfirst ((h.exists_ok_iff v).1 ⟨a, ha⟩), hv⟩

end Decoders

/-! ## Records -/

/-- The value in the place of a field. -/
def RecordSource.find? (s : RecordSource) (index : Nat) (name : String) : Option Value :=
  match s with
  | .members entries => Entries.get? entries name
  | .items values => values[index]?

/-- Each of the fields is given in its place. -/
def RecordSource.Gives (s : RecordSource) (fields : List FieldShape) : Prop :=
  ∀ place ∈ fields.zipIdx, place.1.Given (s.find? place.2 place.1.name)

/-- What is read of a record is of a certain sort exactly if these fields are given. -/
def ReadsFields {α : Type} (read : RecordSource → Fields α) (Q : α → Prop)
    (fields : List FieldShape) : Prop :=
  ∀ s, (∃ a, (read s).toDecoded = .ok a ∧ Q a) ↔ s.Gives fields

section Records

variable {α β : Type} {P : Value → Prop} {Q : β → Prop} {R : α → Prop} {fields : List FieldShape}

/-- Before any field is read. -/
theorem readsFields_start (f : α) : ReadsFields (fun _ => Fields.read f) Anything [] :=
  fun _ => ⟨fun _ => nofun, fun _ => ⟨f, rfl, trivial⟩⟩

/-- A field is read exactly if it is given. -/
theorem exists_readField_iff (shape : RecordShape) {decode : Value → Decoded β}
    (h : Accepts decode Q P) (s : RecordSource) (index : Nat) (name : String) (fallback : Option β)
    {optional : Bool}
    (hoptional : optional = true ↔ ∃ b, fallback = some b ∧ Q b) :
    (∃ b, (readField shape s index name fallback decode).toDecoded = .ok b ∧ Q b) ↔
      (FieldShape.mk name optional P).Given (s.find? index name) := by
  -- where the value was found does not matter, and what is missing goes into the failure only
  have hread (place : Nat) (v : Value) :
      (∃ b, (Fields.ofDecoded place (decode v)).toDecoded = .ok b ∧ Q b) ↔ P v := by
    rw [← h v]
    cases decode v <;> exact Iff.rfl
  have habsent (place : Nat) (e : DecodeError) :
      (∃ b, (fallback.elim (Fields.failed place e) Fields.read).toDecoded = .ok b ∧ Q b) ↔
        optional = true := by
    rw [hoptional]
    cases fallback with
    | none =>
      constructor
      · rintro ⟨_, ⟨⟩, -⟩
      · rintro ⟨_, ⟨⟩, -⟩
    | some b =>
      constructor
      · rintro ⟨_, ⟨⟩, hb⟩
        exact ⟨b, rfl, hb⟩
      · rintro ⟨_, ⟨⟩, hb⟩
        exact ⟨b, rfl, hb⟩
  cases s with
  | members members =>
    simp only [readField, RecordSource.find?]
    cases Entries.get? members name with
    | some v => exact hread _ v
    | none =>
      have hread := habsent (members.length + index) (.missingField name)
      cases fallback <;> exact hread
  | items items =>
    simp only [readField, RecordSource.find?]
    cases items[index]? with
    | some v => exact hread _ v
    | none =>
      have hread := habsent index (.missingItem index shape.name shape.size)
      cases fallback <;> exact hread

/-- A further field is read exactly if those before it are, and what it then makes of them is of a
    certain sort. -/
theorem exists_both_iff {f : Fields (β → α)} {x : Fields β} :
    (∃ a, (f.both x).toDecoded = .ok a ∧ R a) ↔
      ∃ g, f.toDecoded = .ok g ∧ ∃ b, x.toDecoded = .ok b ∧ R (g b) := by
  cases f with
  | read g =>
    cases x with
    | read b =>
      constructor
      · rintro ⟨_, ⟨⟩, hR⟩
        exact ⟨g, rfl, b, rfl, hR⟩
      · rintro ⟨_, ⟨⟩, _, ⟨⟩, hR⟩
        exact ⟨g b, rfl, hR⟩
    | failed place e =>
      constructor
      · rintro ⟨a, ha, -⟩
        cases ha
      · rintro ⟨g, -, b, hb, -⟩
        cases hb
  | failed place e =>
    obtain ⟨e', he'⟩ : ∃ e', ((Fields.failed place e : Fields (β → α)).both x).toDecoded = .error e' :=
      failed_both place e x
    rw [he']
    constructor
    · rintro ⟨a, ha, -⟩
      cases ha
    · rintro ⟨g, hg, -⟩
      cases hg

/-- A further field.  What is asked of the whole is asked of the fields before it and of this field,
    given what is known of those before it. -/
theorem ReadsFields.further (shape : RecordShape) {read : RecordSource → Fields (β → α)}
    {S T : (β → α) → Prop} (h : ReadsFields read S fields)
    (hT : ∀ s, Ensures T (read s).toDecoded) (hR : ∀ g, T g → ∀ b, R (g b) ↔ S g ∧ Q b)
    {decode : Value → Decoded β} (hdecode : Accepts decode Q P) (name : String)
    (fallback : Option β) {optional : Bool}
    (hoptional : optional = true ↔ ∃ b, fallback = some b ∧ Q b) :
    ReadsFields (fun s => (read s).both (readField shape s fields.length name fallback decode)) R
      (fields ++ [⟨name, optional, P⟩]) := by
  intro s
  have hfield := exists_readField_iff shape hdecode s fields.length name fallback hoptional
  have hgives : s.Gives (fields ++ [⟨name, optional, P⟩]) ↔ s.Gives fields ∧
      (FieldShape.mk name optional P).Given (s.find? fields.length name) := by
    rw [RecordSource.Gives, RecordSource.Gives, List.zipIdx_append, List.forall_mem_append]
    simp
  rw [exists_both_iff, hgives, ← h s, ← hfield]
  constructor
  · rintro ⟨g, hg, b, hb, hgb⟩
    obtain ⟨hS, hQ⟩ := (hR g (hT s g hg) b).1 hgb
    exact ⟨⟨g, hg, hS⟩, b, hb, hQ⟩
  · rintro ⟨⟨g, hg, hS⟩, b, hb, hQ⟩
    exact ⟨g, hg, b, hb, (hR g (hT s g hg) b).2 ⟨hS, hQ⟩⟩

/-- A further field where nothing is asked of those before it. -/
theorem ReadsFields.field (shape : RecordShape) {read : RecordSource → Fields (β → α)}
    (h : ReadsFields read Anything fields) {T : (β → α) → Prop}
    (hT : ∀ s, Ensures T (read s).toDecoded) (hR : ∀ g, T g → ∀ b, R (g b) ↔ Q b)
    {decode : Value → Decoded β} (hdecode : Accepts decode Q P) (name : String)
    (fallback : Option β) {optional : Bool}
    (hoptional : optional = true ↔ ∃ b, fallback = some b ∧ Q b) :
    ReadsFields (fun s => (read s).both (readField shape s fields.length name fallback decode)) R
      (fields ++ [⟨name, optional, P⟩]) :=
  h.further shape hT (fun g hg b => (hR g hg b).trans (iff_of_eq (true_and (Q b))).symm) hdecode name fallback
    hoptional

/-- A field that must be there. -/
theorem ReadsFields.required (shape : RecordShape) {read : RecordSource → Fields (β → α)}
    (h : ReadsFields read Anything fields) {decode : Value → Decoded β}
    (hdecode : Accepts decode Anything P) (name : String) :
    ReadsFields (fun s => (read s).both (readField shape s fields.length name none decode)) Anything
      (fields ++ [⟨name, false, P⟩]) :=
  h.field shape (fun s => ensures_true (read s).toDecoded) (fun _ _ _ => Iff.rfl) hdecode name none
    (by simp)

/-- A field that may be left out. -/
theorem ReadsFields.optional (shape : RecordShape) {read : RecordSource → Fields (β → α)}
    (h : ReadsFields read Anything fields) {decode : Value → Decoded β}
    (hdecode : Accepts decode Anything P) (name : String) (fallback : β) :
    ReadsFields (fun s => (read s).both (readField shape s fields.length name (some fallback) decode))
      Anything (fields ++ [⟨name, true, P⟩]) :=
  h.field shape (fun s => ensures_true (read s).toDecoded) (fun _ _ _ => Iff.rfl) hdecode name
    (some fallback) (by simp)

/-- A record is accepted if its fields are given. -/
theorem ReadsFields.accepts {shape : RecordShape} {read : RecordSource → Fields α}
    (h : ReadsFields read R fields) (hsize : shape.size = fields.length) :
    Accepts (decodeRecord shape read) R (IsRecord fields) := by
  intro v
  cases v with
  | object members =>
    show (∃ a, (read (.members members)).toDecoded = .ok a ∧ R a) ↔ _
    rw [h (.members members), IsRecord, RecordSource.Gives]
    constructor
    · intro hgiven f hf
      obtain ⟨i, hi⟩ := List.getElem?_of_mem hf
      exact hgiven (f, i) (List.mem_zipIdx_iff_getElem?.2 hi)
    · intro hgiven place hplace
      exact hgiven _ (List.mem_of_getElem? (List.mem_zipIdx_iff_getElem?.1 hplace))
  | array items =>
    have hfields := h (.items items)
    -- a list with too many items is refused only after its fields were read
    have hread : decodeRecord shape read (.array items) =
        (read (.items items)).toDecoded.bind fun a =>
          if shape.size < items.length then .error (.extraItems items.length) else .ok a := rfl
    rw [IsRecord, ← hsize, ← Nat.not_lt, hread]
    constructor
    · rintro ⟨a, ha, hR⟩
      cases hdecoded : (read (.items items)).toDecoded with
      | error e =>
        rw [hdecoded] at ha
        cases ha
      | ok b =>
        rw [hdecoded, Except.bind] at ha
        split at ha
        · cases ha
        · next hlength =>
          obtain rfl := Except.ok.inj ha
          exact ⟨hlength, hfields.1 ⟨b, hdecoded, hR⟩⟩
    · rintro ⟨hlength, hgiven⟩
      obtain ⟨a, ha, hR⟩ := hfields.2 hgiven
      refine ⟨a, ?_, hR⟩
      rw [ha, Except.bind, if_neg hlength]
  | _ => exact ⟨nofun, nofun⟩

end Records

end WebStory.Json
