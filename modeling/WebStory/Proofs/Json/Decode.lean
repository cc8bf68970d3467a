import WebStory.Json.Decode
import WebStory.Proofs.Json.Canonical
import WebStory.Proofs.Number.Whole
/-
  Typed data read from a value and from its canonical form.

  1. **Agreement** — the two readings agree: both fail, or both succeed (`Agree`).  Where the order
     of keys and the spelling of numbers cannot be seen in what is read, they also give the same;
     this needs that no number is negative zero, whose canonical form is a zero without sign.

  2. **One proof for both** — whether equal results are asked for is a parameter `strict` (`Alike`).
     With it the two facts have one proof, and the conditions under which the stronger one holds
     stand in the hypotheses that use the parameter, not in a second copy of every lemma.

  3. **Decoders** — a decoder that agrees in this way respects canonical forms (`Respects`), and the
     ways to build decoders build respectful ones from such.

  4. **Records** — an object in canonical form has its keys in another order.  Fields are looked up
     by name, so each is read alike (`agree_readField`).  But of several failures the first is
     reported, and which one that is may depend on the form; all that can be said is that both fail
     (`agree_both`).
-/

namespace WebStory.Json

/-! ## Agreement -/

section Agree

variable {ε ε' δ δ' α α' β β' : Type}

/-- Two outcomes agree: both are failures, or both are results that belong together. -/
def Agree (R : α → β → Prop) : Except ε α → Except δ β → Prop
  | .ok a, .ok b => R a b
  | .error _, .error _ => True
  | _, _ => False

/-- Equal, where that is asked for. -/
def Alike (strict : Prop) (a b : α) : Prop := strict → a = b

variable {R : α → β → Prop} {S : α' → β' → Prop} {x : Except ε α} {y : Except δ β}

/-- What succeeds on one side succeeds on the other. -/
theorem Agree.exists_ok_iff (h : Agree R x y) : (∃ a, x = .ok a) ↔ ∃ b, y = .ok b := by
  cases x <;> cases y
  · exact ⟨nofun, nofun⟩
  · exact h.elim
  · exact h.elim
  · exact ⟨fun _ => ⟨_, rfl⟩, fun _ => ⟨_, rfl⟩⟩

/-- It is enough that both succeed or neither does, and to compare what they succeed with. -/
theorem Agree.of_exists_ok_iff (h : (∃ a, x = .ok a) ↔ ∃ b, y = .ok b)
    (hR : ∀ a b, x = .ok a → y = .ok b → R a b) : Agree R x y := by
  cases x with
  | error e =>
    cases y with
    | error e' => trivial
    | ok b => exact absurd (h.2 ⟨b, rfl⟩) nofun
  | ok a =>
    cases y with
    | error e' => exact absurd (h.1 ⟨a, rfl⟩) nofun
    | ok b => exact hR a b rfl rfl

theorem Agree.mapError (h : Agree R x y) (f : ε → ε') (g : δ → δ') :
    Agree R (x.mapError f) (y.mapError g) := by
  cases x <;> cases y
  · trivial
  · exact h.elim
  · exact h.elim
  · exact h

theorem Agree.bind {f : α → Except ε α'} {g : β → Except δ β'} (h : Agree R x y)
    (hfg : ∀ a b, R a b → Agree S (f a) (g b)) : Agree S (x >>= f) (y >>= g) := by
  cases x <;> cases y
  · trivial
  · exact h.elim
  · exact h.elim
  · exact hfg _ _ h

theorem Agree.map {f : α → α'} {g : β → β'} (h : Agree R x y)
    (hfg : ∀ a b, R a b → S (f a) (g b)) : Agree S (x.map f) (y.map g) := by
  cases x <;> cases y
  · trivial
  · exact h.elim
  · exact h.elim
  · exact hfg _ _ h

end Agree

/-! ## Values in which nothing gets lost -/

/-- Every number in the value, at any depth, is shown as it was written. -/
def Value.Exact (v : Value) : Prop := ∀ n ∈ v.numbers, n.Exact

instance (v : Value) : Decidable v.Exact := inferInstanceAs (Decidable (∀ n ∈ v.numbers, n.Exact))

theorem Value.Exact.item {items : List Value} (h : (Value.array items).Exact) {v : Value}
    (hv : v ∈ items) : v.Exact := fun n hn => h n (Value.mem_numbers_array.2 ⟨v, hv, hn⟩)

theorem Value.Exact.member {members : Members} (h : (Value.object members).Exact)
    {e : String × Value} (he : e ∈ members) : e.2.Exact :=
  fun n hn => h n (Value.mem_numbers_object.2 ⟨e, he, hn⟩)

/-! ## Plain data -/

section Respects

variable {strict : Prop} {α β : Type} {R : α → α → Prop} {S : β → β → Prop}
  {decode : Value → Decoded α}

/-- The decoder reads canonical forms as it reads the values. -/
def Respects (strict : Prop) (R : α → α → Prop) (decode : Value → Decoded α) : Prop :=
  ∀ v : Value, (strict → v.Exact) → Agree R (decode v) (decode v.canonical)

theorem respects_string : Respects strict (Alike strict) decodeString := by
  intro v _
  cases v with
  | string s => exact fun _ => rfl
  | _ => trivial

theorem respects_binary64 : Respects strict (Alike strict) decodeBinary64 := by
  intro v hexact
  cases v with
  | number n =>
    intro hstrict
    have hn : n.Exact := hexact hstrict n (List.mem_singleton.2 rfl)
    exact (Number.toBinary64_canonical hn.1).symm
  | _ => trivial

theorem Respects.map {f : α → β} (h : Respects strict R decode)
    (hf : ∀ a b, R a b → S (f a) (f b)) : Respects strict S fun v => (decode v).map f :=
  fun v hexact => (h v hexact).map hf

theorem Respects.either {type : String} {second : Value → Decoded α} (h : Respects strict R decode)
    (h' : Respects strict R second) : Respects strict R (decodeEither type decode second) := by
  intro v hexact
  have hfirst := h v hexact
  have hsecond := h' v hexact
  unfold decodeEither
  generalize decode v = a at *
  generalize decode v.canonical = a' at *
  generalize second v = b at *
  generalize second v.canonical = b' at *
  cases a <;> cases a' <;> cases b <;> cases b' <;>
    first | exact hfirst.elim | exact hsecond.elim | exact hfirst | exact hsecond

/-- Lists of one length, and equal where that is asked for. -/
def AlikeList (strict : Prop) (as bs : List α) : Prop := as.length = bs.length ∧ Alike strict as bs

theorem Respects.items (h : Respects strict (Alike strict) decode) (items : List Value)
    (hexact : strict → ∀ v ∈ items, v.Exact) :
    Agree (AlikeList strict) (decodeItems decode items)
      (decodeItems decode (items.map Value.canonical)) := by
  induction items with
  | nil => exact ⟨rfl, fun _ => rfl⟩
  | cons v rest ih =>
    have hrest := ih fun hs w hw => hexact hs w (List.mem_cons_of_mem _ hw)
    have hhead := h v fun hs => hexact hs v List.mem_cons_self
    refine hhead.bind fun a b hab => hrest.bind fun as bs habs => ?_
    refine ⟨by rw [List.length_cons, List.length_cons, habs.1], fun hs => ?_⟩
    rw [hab hs, habs.2 hs]

theorem Respects.list (h : Respects strict (Alike strict) decode) :
    Respects strict (AlikeList strict) (decodeList decode) := by
  intro v hexact
  cases v with
  | array items =>
    rw [Value.canonical_array]
    exact h.items items fun hs w hw => (hexact hs).item hw
  | _ => trivial

theorem Respects.option (h : Respects strict (Alike strict) decode) :
    Respects strict (Alike strict) (decodeOption decode) := by
  intro v hexact
  have hsome (a b : α) (hab : Alike strict a b) : Alike strict (some a) (some b) :=
    fun hs => congrArg some (hab hs)
  cases v with
  | null => exact fun _ => rfl
  | _ => exact (h _ hexact).map hsome

end Respects

/-! ## Records -/

/-- The fields of the canonical form. -/
def RecordSource.canonical : RecordSource → RecordSource
  | .members entries => .members (sortMembers (entries.map canonicalMember))
  | .items values => .items (values.map Value.canonical)

/-- Every value among the fields is shown as it was written. -/
def RecordSource.Exact : RecordSource → Prop
  | .members entries => ∀ e ∈ entries, e.2.Exact
  | .items values => ∀ v ∈ values, v.Exact

/-- A key has the canonical form of its value in the canonical form of an object. -/
theorem get?_canonical (members : Members) (key : String) :
    Entries.get? (sortMembers (members.map canonicalMember)) key =
      (Entries.get? members key).map Value.canonical := by
  rw [get?_sortMembers]
  exact Entries.get?_map Value.canonical members key

section Records

variable {strict : Prop} {α β : Type} {R : α → α → Prop} {S : β → β → Prop}

theorem agree_ofDecoded {x y : Decoded α} (place place' : Nat) (h : Agree R x y) :
    Agree R (Fields.ofDecoded place x).toDecoded (Fields.ofDecoded place' y).toDecoded := by
  cases x <;> cases y
  · trivial
  · exact h.elim
  · exact h.elim
  · exact h

/-- Of two failures the place decides which one stands, but not that there is one. -/
theorem failed_both (place : Nat) (e : DecodeError) (x : Fields α) :
    ∃ e', ((Fields.failed place e : Fields (α → β)).both x).toDecoded = .error e' := by
  cases x with
  | read a => exact ⟨e, rfl⟩
  | failed place' e' =>
    unfold Fields.both
    simp only
    split
    · exact ⟨e, rfl⟩
    · exact ⟨e', rfl⟩

theorem agree_both {f f' : Fields (α → β)} {x x' : Fields α}
    (hf : Agree (fun g g' => ∀ a b, R a b → S (g a) (g' b)) f.toDecoded f'.toDecoded)
    (hx : Agree R x.toDecoded x'.toDecoded) :
    Agree S (f.both x).toDecoded (f'.both x').toDecoded := by
  cases f <;> cases f'
  · cases x <;> cases x'
    · exact hf _ _ hx
    · exact hx.elim
    · exact hx.elim
    · trivial
  · exact hf.elim
  · exact hf.elim
  · next place e place' e' =>
    obtain ⟨_, hfail⟩ := failed_both place e x
    obtain ⟨_, hfail'⟩ := failed_both place' e' x'
    rw [hfail, hfail']
    trivial

/-- Further fields of a record of which equal fields make equal records. -/
theorem agree_both_alike {f f' : Fields (α → β)} {x x' : Fields α}
    (hf : Agree (Alike strict) f.toDecoded f'.toDecoded)
    (hx : Agree (Alike strict) x.toDecoded x'.toDecoded) :
    Agree (Alike strict) (f.both x).toDecoded (f'.both x').toDecoded := by
  refine agree_both (R := Alike strict) ?_ hx
  cases hfd : f.toDecoded <;> cases hfd' : f'.toDecoded <;> rw [hfd, hfd'] at hf
  · trivial
  · exact hf
  · exact hf
  · intro a b hab hs
    rw [hf hs, hab hs]

/-- A field is read alike in both forms, wherever it stands in them. -/
theorem agree_readField {shape : RecordShape} {decode : Value → Decoded α}
    (h : Respects strict R decode) {s : RecordSource} (hexact : strict → s.Exact) (index : Nat)
    (name : String) {fallback : Option α} (hfallback : ∀ a ∈ fallback, R a a) :
    Agree R (readField shape s index name fallback decode).toDecoded
      (readField shape s.canonical index name fallback decode).toDecoded := by
  -- the place where the value was found goes into the failure only
  cases s with
  | members members =>
    simp only [readField, RecordSource.canonical, get?_canonical]
    cases hget : Entries.get? members name with
    | some v =>
      exact agree_ofDecoded _ _ (h v fun hs => hexact hs _ (Entries.mem_of_get? hget))
    | none =>
      cases fallback with
      | some a => exact hfallback a rfl
      | none => trivial
  | items items =>
    simp only [readField, RecordSource.canonical, List.getElem?_map]
    cases hget : items[index]? with
    | some v =>
      exact agree_ofDecoded _ _ (h v fun hs => hexact hs _ (List.mem_of_getElem? hget))
    | none =>
      cases fallback with
      | some a => exact hfallback a rfl
      | none => trivial

/-- A record whose fields are read alike is read alike. -/
theorem respects_record {shape : RecordShape} {fields : RecordSource → Fields α}
    (h : ∀ s : RecordSource, (strict → s.Exact) →
      Agree R (fields s).toDecoded (fields s.canonical).toDecoded) :
    Respects strict R (decodeRecord shape fields) := by
  intro v hexact
  cases v with
  | object members =>
    rw [Value.canonical_object]
    exact h (.members members) fun hs e he => (hexact hs).member he
  | array items =>
    have hfields := h (.items items) fun hs v hv => (hexact hs).item hv
    rw [Value.canonical_array]
    refine hfields.bind fun a b hab => ?_
    rw [List.length_map]
    split
    · trivial
    · exact hab
  | _ => trivial

end Records

end WebStory.Json
