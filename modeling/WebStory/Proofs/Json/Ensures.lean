import WebStory.Json.Decode
import WebStory.Proofs.Entries
import WebStory.Proofs.Outcome
/-
  What is known of typed data from how its parts are read.

  A list is read item by item, a record field by field.  So if every part that can be read is of a
  certain kind, the whole is of the kind that such parts make.  Which values the parts are read from
  is said by `RecordSource.values`; what is known of these values is for the caller to say.
-/

namespace WebStory.Json

variable {α β : Type} {P : α → Prop} {Q : β → Prop} {decode : Value → Decoded α}

/-! ## Lists and choices -/

theorem ensures_decodeItems {items : List Value} (h : ∀ v ∈ items, Ensures P (decode v)) :
    Ensures (fun as => ∀ a ∈ as, P a) (decodeItems decode items) := by
  induction items with
  | nil => exact ensures_ok nofun
  | cons v rest ih =>
    rw [List.forall_mem_cons] at h
    exact h.1.bind fun a ha => (ih h.2).bind fun as has =>
      ensures_ok (List.forall_mem_cons.2 ⟨ha, has⟩)

theorem ensures_decodeList {v : Value}
    (h : ∀ items, v = .array items → ∀ w ∈ items, Ensures P (decode w)) :
    Ensures (fun as => ∀ a ∈ as, P a) (decodeList decode v) := by
  cases v with
  | array items => exact ensures_decodeItems (h items rfl)
  | _ => exact ensures_error _

theorem ensures_decodeOption {v : Value} (h : Ensures P (decode v)) :
    Ensures (fun a? => ∀ a ∈ a?, P a) (decodeOption decode v) := by
  cases v with
  | null => exact ensures_ok nofun
  | _ => exact h.map fun a ha b hb => Option.some.inj hb ▸ ha

theorem ensures_decodeEither {type : String} {second : Value → Decoded α} {v : Value}
    (h : Ensures P (decode v)) (h' : Ensures P (second v)) :
    Ensures P (decodeEither type decode second v) := by
  unfold decodeEither
  split
  · next a ha => exact ensures_ok (h a ha)
  · split
    · next a ha => exact ensures_ok (h' a ha)
    · exact ensures_error _

/-! ## Records -/

/-- The value that the fields are read from. -/
def RecordSource.value : RecordSource → Value
  | .members entries => .object entries
  | .items values => .array values

/-- The values that fields may have. -/
def RecordSource.values : RecordSource → List Value
  | .members entries => entries.map (·.2)
  | .items values => values

/-- A further field of a record. -/
theorem ensures_both {f : Fields (β → α)} {x : Fields β}
    (hf : Ensures (fun g => ∀ b, Q b → P (g b)) f.toDecoded) (hx : Ensures Q x.toDecoded) :
    Ensures P (f.both x).toDecoded := by
  cases f with
  | read g =>
    cases x with
    | read b => exact ensures_ok (hf g rfl b (hx b rfl))
    | failed place e => exact ensures_error e
  | failed place e =>
    cases x with
    | read b => exact ensures_error e
    | failed place' e' =>
      unfold Fields.both
      simp only
      split <;> exact ensures_error _

/-- A field is read from one of the values, or it is the one that stands for an absent field. -/
theorem ensures_readField {shape : RecordShape} {s : RecordSource}
    (h : ∀ v ∈ s.values, Ensures P (decode v)) (index : Nat) (name : String) {fallback : Option α}
    (hfallback : ∀ a ∈ fallback, P a) :
    Ensures P (readField shape s index name fallback decode).toDecoded := by
  have hdecoded (place : Nat) {v : Value} (hv : v ∈ s.values) :
      Ensures P (Fields.ofDecoded place (decode v)).toDecoded := by
    have hread := h v hv
    generalize decode v = x at hread
    cases x with
    | error e => exact ensures_error e
    | ok a => exact hread
  cases s with
  | members members =>
    simp only [readField]
    cases hget : Entries.get? members name with
    | some v => exact hdecoded _ (List.mem_map_of_mem (Entries.mem_of_get? hget))
    | none =>
      cases fallback with
      | some a => exact ensures_ok (hfallback a rfl)
      | none => exact ensures_error _
  | items items =>
    simp only [readField]
    cases hget : items[index]? with
    | some v => exact hdecoded _ (List.mem_of_getElem? hget)
    | none =>
      cases fallback with
      | some a => exact ensures_ok (hfallback a rfl)
      | none => exact ensures_error _

theorem ensures_decodeRecord {shape : RecordShape} {fields : RecordSource → Fields α} {v : Value}
    (h : ∀ s : RecordSource, s.value = v → Ensures P (fields s).toDecoded) :
    Ensures P (decodeRecord shape fields v) := by
  cases v with
  | object members => exact h (.members members) rfl
  | array items =>
    refine (h (.items items) rfl).bind fun a ha => ?_
    split
    · exact ensures_error _
    · exact ensures_ok ha
  | _ => exact ensures_error _

end WebStory.Json
