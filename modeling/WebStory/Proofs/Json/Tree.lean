import WebStory.Json.Canonical
import WebStory.Proofs.Entries
/-
  Values as trees.

  A value holds further values in two ways, as the items of an array and as the members of an
  object.  What is defined on values recurses over both, and what is proved of values has to as
  well.

  1. **Induction** — a statement about all values is proved for both ways from the values inside
     (`Value.induct`).  Where a value is read through arrays under its keys, the step goes from the
     items of these arrays to the object (`Value.induct_listed`).

  2. **Lists** — the functions that recurse over a value recurse over its two lists with functions
     of their own.  Here these become maps and conditions on members of the lists, so that what is
     known of `List.map` and `List.Mem` applies.

  3. **Parts** — the numbers and the strings that occur in a value, keys included, as lists.  A
     condition on all of them passes to the values inside.
-/

namespace WebStory.Json

/-- A statement about values holds of all of them if it passes from the values inside arrays and
    objects to the array or the object. -/
@[elab_as_elim]
theorem Value.induct {P : Value → Prop} (null : P .null) (bool : ∀ b, P (.bool b))
    (number : ∀ n, P (.number n)) (string : ∀ s, P (.string s))
    (array : ∀ items, (∀ v ∈ items, P v) → P (.array items))
    (object : ∀ members, (∀ e ∈ members, P e.2) → P (.object members)) (v : Value) : P v := by
  refine @Value.rec P (fun items => ∀ v ∈ items, P v) (fun members => ∀ e ∈ members, P e.2)
    (fun e => P e.2) null bool number string array object ?_ ?_ ?_ ?_ ?_ v
  · exact fun v hv => absurd hv List.not_mem_nil
  · intro v rest hv hrest w hw
    rcases List.mem_cons.1 hw with rfl | hw
    · exact hv
    · exact hrest w hw
  · exact fun e he => absurd he List.not_mem_nil
  · intro e rest he hrest f hf
    rcases List.mem_cons.1 hf with rfl | hf
    · exact he
    · exact hrest f hf
  · exact fun _ _ hv => hv

/-- The same where a value is read through the arrays under its keys: a statement passes from the
    items of these arrays to the object. -/
theorem Value.induct_listed {P : Value → Prop}
    (other : ∀ v, (∀ members, v ≠ .object members) → P v)
    (object : ∀ members, (∀ key items, Entries.get? members key = some (.array items) →
      ∀ w ∈ items, P w) → P (.object members)) (v : Value) : P v := by
  -- an array is passed on the way, so what holds of its items is kept with it
  suffices h : P v ∧ ∀ items, v = .array items → ∀ w ∈ items, P w from h.1
  induction v using Value.induct with
  | array items ih =>
    refine ⟨other _ nofun, ?_⟩
    rintro _ ⟨⟩ w hw
    exact (ih w hw).1
  | object members ih =>
    refine ⟨object members fun key items hget => ?_, nofun⟩
    exact (ih _ (Entries.mem_of_get? hget)).2 items rfl
  | _ => exact ⟨other _ nofun, nofun⟩

/-! ## Members that are there and not null -/

theorem present?_eq_some_iff {members : Members} {key : String} {v : Value} :
    present? members key = some v ↔ Entries.get? members key = some v ∧ v ≠ .null := by
  unfold present?
  cases Entries.get? members key with
  | none => simp
  | some w => cases w <;> simp [Value.isNull] <;> rintro rfl <;> simp

theorem present?_eq_none_iff {members : Members} {key : String} :
    present? members key = none ↔
      Entries.get? members key = none ∨ Entries.get? members key = some .null := by
  unfold present?
  cases Entries.get? members key with
  | none => simp
  | some w => cases w <;> simp [Value.isNull]

/-! ## Canonical forms -/

theorem canonicalItems_eq_map (items : List Value) :
    canonicalItems items = items.map Value.canonical := by
  induction items with
  | nil => rfl
  | cons v rest ih => rw [canonicalItems, ih, List.map_cons]

/-- A member with its value in canonical form. -/
def canonicalMember (e : String × Value) : String × Value := (e.1, e.2.canonical)

theorem canonicalMembers_eq_map (members : Members) :
    canonicalMembers members = members.map canonicalMember := by
  induction members with
  | nil => rfl
  | cons e rest ih => rw [canonicalMembers, ih, List.map_cons, canonicalMember]

theorem Value.canonical_array (items : List Value) :
    (Value.array items).canonical = .array (items.map Value.canonical) := by
  rw [Value.canonical, canonicalItems_eq_map]

theorem Value.canonical_object (members : Members) :
    (Value.object members).canonical = .object (sortMembers (members.map canonicalMember)) := by
  rw [Value.canonical, canonicalMembers_eq_map]

/-! ## One key once -/

theorem Value.itemsOnce_iff (items : List Value) :
    Value.ItemsOnce items ↔ ∀ v ∈ items, v.KeysOnce := by
  induction items with
  | nil => simp [Value.ItemsOnce]
  | cons v rest ih => rw [Value.ItemsOnce, ih, List.forall_mem_cons]

theorem Value.membersOnce_iff (members : Members) :
    Value.MembersOnce members ↔ ∀ e ∈ members, e.2.KeysOnce := by
  induction members with
  | nil => simp [Value.MembersOnce]
  | cons e rest ih => rw [Value.MembersOnce, ih, List.forall_mem_cons]

theorem Value.keysOnce_array (items : List Value) :
    (Value.array items).KeysOnce ↔ ∀ v ∈ items, v.KeysOnce := by
  rw [Value.KeysOnce, Value.itemsOnce_iff]

theorem Value.keysOnce_object (members : Members) : (Value.object members).KeysOnce ↔
    (Entries.names members).Nodup ∧ ∀ e ∈ members, e.2.KeysOnce := by
  rw [Value.KeysOnce, Value.membersOnce_iff]

/-! ## Numbers inside a value -/

mutual

/-- The numbers that occur in a value, at any depth. -/
def Value.numbers : Value → List Number
  | .number n => [n]
  | .array items => itemNumbers items
  | .object members => memberNumbers members
  | _ => []

def itemNumbers : List Value → List Number
  | [] => []
  | v :: rest => v.numbers ++ itemNumbers rest

def memberNumbers : List (String × Value) → List Number
  | [] => []
  | (_, v) :: rest => v.numbers ++ memberNumbers rest

end

theorem Value.mem_numbers_array {items : List Value} {n : Number} :
    n ∈ (Value.array items).numbers ↔ ∃ v ∈ items, n ∈ v.numbers := by
  rw [Value.numbers]
  induction items with
  | nil => simp [itemNumbers]
  | cons v rest ih => simp [itemNumbers, ih]

theorem Value.mem_numbers_object {members : Members} {n : Number} :
    n ∈ (Value.object members).numbers ↔ ∃ e ∈ members, n ∈ e.2.numbers := by
  rw [Value.numbers]
  induction members with
  | nil => simp [memberNumbers]
  | cons e rest ih => 
    obtain ⟨k, v⟩ := e
    rw [memberNumbers, List.mem_append, ih]
    simp

/-! ## Strings inside a value -/

mutual

/-- The strings that occur in a value, at any depth: those that are values and those that are keys. -/
def Value.strings : Value → List String
  | .string s => [s]
  | .array items => itemStrings items
  | .object members => memberStrings members
  | _ => []

def itemStrings : List Value → List String
  | [] => []
  | v :: rest => v.strings ++ itemStrings rest

def memberStrings : List (String × Value) → List String
  | [] => []
  | (k, v) :: rest => k :: v.strings ++ memberStrings rest

end

theorem Value.strings_array (items : List Value) :
    (Value.array items).strings = items.flatMap Value.strings := by
  rw [Value.strings]
  induction items with
  | nil => rfl
  | cons v rest ih => rw [itemStrings, ih, List.flatMap_cons]

theorem Value.strings_object (members : Members) :
    (Value.object members).strings = members.flatMap fun e => e.1 :: e.2.strings := by
  rw [Value.strings]
  induction members with
  | nil => rfl
  | cons e rest ih =>
    obtain ⟨k, v⟩ := e
    rw [memberStrings, ih, List.flatMap_cons]

/-! ## Text -/

/-- The texts of several things with commas between them. -/
def separated {α : Type} (chars : α → List Char) : List α → List Char
  | [] => []
  | [a] => chars a
  | a :: rest => chars a ++ ',' :: separated chars rest

/-- A key, a colon and a value. -/
def memberText (e : String × Value) : List Char := quote e.1 ++ ':' :: e.2.chars

theorem itemChars_eq (items : List Value) : itemChars items = separated Value.chars items := by
  induction items with
  | nil => rfl
  | cons v rest ih =>
    cases rest with
    | nil => rfl
    | cons w rest =>
      show v.chars ++ ',' :: itemChars (w :: rest) =
        v.chars ++ ',' :: separated Value.chars (w :: rest)
      rw [ih]

theorem memberChars_eq (members : Members) :
    memberChars members = separated memberText members := by
  induction members with
  | nil => rfl
  | cons e rest ih =>
    cases rest with
    | nil => rfl
    | cons f rest =>
      show quote e.1 ++ ':' :: (e.2.chars ++ ',' :: memberChars (f :: rest)) =
        (quote e.1 ++ ':' :: e.2.chars) ++ ',' :: separated memberText (f :: rest)
      rw [ih, List.append_assoc, List.cons_append]

theorem Value.chars_array (items : List Value) :
    (Value.array items).chars = '[' :: (separated Value.chars items ++ [']']) := by
  rw [Value.chars, itemChars_eq]

theorem Value.chars_object (members : Members) :
    (Value.object members).chars = '\x7b' :: (separated memberText members ++ ['\x7d']) := by
  rw [Value.chars, memberChars_eq]

end WebStory.Json
