import WebStory.Proofs.Entries
import WebStory.Json.Decode
/-
  Typed data is read back from what it is written as.

  A decoder inverts an encoder if it reads from each encoded datum this datum (`Inverts`).  Every way
  to build a decoder has an encoder beside it, and inverts it if its parts do.  An optional value is
  null or left out when it is absent, so a value that is there must not be written as null.

  A record is written as an object and read from it name by name (`Fields.Reads`).  The members of its
  optional fields may be missing, and a missing one hides none of the others (`get?_optionalMember`).
-/

namespace WebStory

namespace Json

/-! ## Plain data -/

/-- What is written is read back. -/
def Inverts {α : Type} (decode : Value → Decoded α) (encode : α → Value) : Prop :=
  ∀ a, decode (encode a) = .ok a

section Data

variable {α β : Type} {decode first second : Value → Decoded α} {encode : α → Value}

theorem inverts_string : Inverts decodeString .string := fun _ => rfl

theorem inverts_binary64 : Inverts decodeBinary64 encodeBinary64 := fun _ => rfl

theorem inverts_object : Inverts decodeObject .object := fun _ => rfl

theorem inverts_size : Inverts decodeSize encodeSize := by
  intro n
  have hlt : n.toNat < 18446744073709551616 := n.toNat_lt
  have hrange : InRange n.toNat := by
    constructor
    · omega
    · omega
  have hnonneg : ¬(n.toNat : Int) < 0 := by omega
  rw [encodeSize, Number.ofNat, dif_pos hrange, decodeSize, if_neg hnonneg, Int.toNat_natCast,
    UInt64.ofNat_toNat]

theorem Inverts.list (h : Inverts decode encode) :
    Inverts (decodeList decode) fun as => .array (as.map encode) := by
  intro as
  show decodeItems decode (as.map encode) = .ok as
  induction as with
  | nil => rfl
  | cons a rest ih =>
    rw [List.map_cons, decodeItems, h a, ih]
    rfl

theorem decodeOption_of_ne_null {v : Value} (hv : v ≠ .null) :
    decodeOption decode v = (decode v).map some := by
  cases v with
  | null => exact absurd rfl hv
  | _ => rfl

theorem Inverts.option (h : Inverts decode encode) (hnull : ∀ a, encode a ≠ .null) :
    Inverts (decodeOption decode) (encodeOption encode) := by
  intro o
  cases o with
  | none => rfl
  | some a =>
    show decodeOption decode (encode a) = _
    rw [decodeOption_of_ne_null (hnull a), h a]
    rfl

/-- What the first reading takes is read by it. -/
theorem decodeEither_first {type : String} {v : Value} {a : α} (h : first v = .ok a) :
    decodeEither type first second v = .ok a := by
  rw [decodeEither, h]

/-- What the first reading refuses is read by the second. -/
theorem decodeEither_second {type : String} {v : Value} {a : α} {e : DecodeError}
    (hfirst : first v = .error e) (h : second v = .ok a) :
    decodeEither type first second v = .ok a := by
  rw [decodeEither, hfirst, h]

end Data

/-! ## Records -/

section Records

variable {α : Type} {decode : Value → Decoded α} {encode : α → Value} {members : Members}
  {name : String} (shape : RecordShape) (index : Nat)

/-- A member that is there is read, whatever an absent one would stand for. -/
theorem readField_of_get? {v : Value} {a : α} (hget : Entries.get? members name = some v)
    (h : decode v = .ok a) (fallback : Option α) :
    readField shape (.members members) index name fallback decode = .read a := by
  unfold readField
  simp only [hget, h]
  rfl

/-- An optional member is read as what it was written for, or as its absence. -/
theorem readField_optional (h : Inverts decode encode) (hnull : ∀ a, encode a ≠ .null)
    {o : Option α} (hget : Entries.get? members name = o.map encode) :
    readField shape (.members members) index name (some none) (decodeOption decode) = .read o := by
  cases o with
  | none =>
    unfold readField
    simp only [hget, Option.map_none]
  | some a => exact readField_of_get? shape index hget (h.option hnull (some a)) _

/-- An optional member is found under its own name only. -/
theorem get?_optionalMember (encode : α → Value) (o : Option α) (name other : String) :
    Entries.get? (optionalMember name encode o) other =
      if name = other then o.map encode else none := by
  cases o with
  | none =>
    split
    · rfl
    · rfl
  | some a => rfl

end Records

end Json

end WebStory
