import WebStory.Story.Codec
import WebStory.Style.Shapes
import WebStory.Proofs.Json.Accepts
import WebStory.Proofs.Json.Encode
import WebStory.Proofs.Outcome
/-
  The typed parts of a story are read back from what they are written as.

  1. **One form** — however a part was given, by names or as a list, with nulls or without, with
     integers or with floating-point numbers, it is written in one form, and this form is read as
     the same part.  So writing and reading once more changes nothing (`RoundTrips`).  That alone
     would hold of a reader that reads nothing, so it is also said which values are read.

  2. **Fields** — a record is written field by field, and fields that are left out are not written.
     Each field is found again by its name, so a record comes back if its fields do.

  3. **Options** — almost every part comes back, whether or not it was ever read.  Only an analytics
     entry must not have an option called `type`: it is written among the options and would be read
     as the service.  What is read never has such an option (`AnalyticsConfig.separate_of_decode`).

  4. **Shadows** — these are a list or one shadow alone, and are written as they were given;
     `decodeShadows` forgets which it was (`decodeShadows_eq`).  An array may be a
     list of shadows or one shadow in array form, and the reader takes it for a list if it can.
-/

namespace WebStory

open Json

/-- Reading, writing and reading again gives the same, and so does writing after that.  What can be
    read is known, so that there is something that comes back. -/
structure RoundTrips {α : Type} (decode : Value → Decoded α) (encode : α → Value) (Q : α → Prop) :
    Prop where
  read_iff : ∀ a, (∃ v, decode v = .ok a) ↔ Q a
  again : ∀ v a, decode v = .ok a → decode (encode a) = .ok a
  fixed : ∀ v a, decode v = .ok a → (decode (encode a)).map encode = .ok (encode a)

section RoundTrips

variable {α : Type} {decode : Value → Decoded α} {encode : α → Value} {Q : α → Prop}

/-- It is enough that what can be read is read back. -/
theorem RoundTrips.of_back (hread : ∀ v a, decode v = .ok a → Q a)
    (hback : ∀ a, Q a → decode (encode a) = .ok a) : RoundTrips decode encode Q := by
  constructor
  · intro a
    constructor
    · rintro ⟨v, hv⟩
      exact hread v a hv
    · exact fun h => ⟨encode a, hback a h⟩
  · exact fun v a h => hback a (hread v a h)
  · intro v a h
    rw [hback a (hread v a h)]
    rfl

theorem RoundTrips.of_inverts (h : Inverts decode encode) : RoundTrips decode encode Anything :=
  of_back (fun _ _ _ => trivial) fun a _ => h a

end RoundTrips

/-- A text is not null. -/
theorem string_ne_null (s : String) : Value.string s ≠ .null := nofun

theorem encodeBinary64_ne_null (x : Binary64) : encodeBinary64 x ≠ .null := nofun

/-! ## Texts and metadata -/

theorem InlineStyle.inverts : Inverts decode encode := by
  intro s
  show (fields _).toDecoded = _
  unfold fields
  rw [readField_of_get? shape 0 rfl (inverts_size s.start),
    readField_of_get? shape 1 rfl (inverts_size s.length),
    readField_of_get? shape 2 (v := s.styles.toValue) (a := s.styles) rfl rfl]
  rfl

theorem Preview.inverts : Inverts decode encode := by
  intro p
  show (fields _).toDecoded = _
  unfold fields
  rw [readField_optional shape 0 inverts_string string_ne_null (o := p.publisher),
    readField_optional shape 1 inverts_string string_ne_null (o := p.publisherLogoSrc),
    readField_optional shape 2 inverts_string string_ne_null (o := p.posterPortraitSrc),
    readField_optional shape 3 inverts_string string_ne_null (o := p.posterSquareSrc),
    readField_optional shape 4 inverts_string string_ne_null (o := p.posterLandscapeSrc)]
  · rfl
  all_goals simp [Entries.get?_append, get?_optionalMember]

theorem MetaPublisher.inverts : Inverts decode encode := by
  intro p
  show (fields _).toDecoded = _
  unfold fields
  rw [readField_of_get? shape 0 rfl (inverts_string p.name),
    readField_of_get? shape 1 rfl (inverts_object.option nofun p.logo)]
  rfl

theorem MetaData.inverts : Inverts decode encode := by
  intro m
  have hstring := inverts_string.option string_ne_null
  have hpublisher := MetaPublisher.inverts.option nofun
  show (fields _).toDecoded = _
  unfold fields
  rw [readField_of_get? shape 0 rfl (hstring m.title),
    readField_of_get? shape 1 rfl (hstring m.canonicalUrl),
    readField_of_get? shape 2 rfl (inverts_string.list m.images),
    readField_of_get? shape 3 rfl (hstring m.datePublished),
    readField_of_get? shape 4 rfl (hstring m.dateModified),
    readField_of_get? shape 5 rfl (hstring m.author),
    readField_of_get? shape 6 rfl (hstring m.authorType),
    readField_of_get? shape 7 rfl (hpublisher m.publisher),
    readField_of_get? shape 8 rfl (hstring m.description)]
  rfl

theorem StoryMeta.inverts : Inverts decode encode := by
  intro m
  cases m with
  | raw markup => rfl
  | structured data =>
    refine decodeEither_second (e := .wrongKind .map .string) rfl ?_
    show (MetaData.decode data.encode).map _ = _
    rw [MetaData.inverts data]
    rfl

/-! ## Analytics -/

/-- None of the options is called as the service is. -/
def AnalyticsConfig.Separate (a : AnalyticsConfig) : Prop := ∀ e ∈ a.options, e.1 ≠ "type"

/-- The service is read from its member, and all other members are the options. -/
theorem AnalyticsConfig.decode_object (members : Members) : decode (.object members) =
    ((Entries.get? members "type").elim (.ok none) (decodeOption decodeString)).map fun service =>
      ⟨service, members.filter fun e => e.1 != "type"⟩ := by
  rw [decode]
  cases Entries.get? members "type" with
  | none => rfl
  | some v =>
    show decodeOption decodeString v >>= _ = (decodeOption decodeString v).map _
    cases decodeOption decodeString v with
    | error e => rfl
    | ok service => rfl

theorem AnalyticsConfig.separate_of_decode {v : Value} {a : AnalyticsConfig}
    (h : decode v = .ok a) : a.Separate := by
  cases v with
  | object members =>
    rw [decode_object, map_eq_ok_iff] at h
    obtain ⟨service, -, rfl⟩ := h
    intro e he
    exact bne_iff_ne.1 (List.mem_filter.1 he).2
  | _ => cases h

/-- An entry whose options are separate from its service is read back. -/
theorem AnalyticsConfig.decode_encode {a : AnalyticsConfig} (h : a.Separate) :
    decode a.encode = .ok a := by
  have hnone : Entries.get? a.options "type" = none := by
    rw [Entries.get?_eq_none_iff, Entries.names, List.mem_map]
    rintro ⟨e, he, hname⟩
    exact h e he hname
  have hoptions : (a.options.filter fun e => e.1 != "type") = a.options :=
    List.filter_eq_self.2 fun e he => bne_iff_ne.2 (h e he)
  rw [encode, decode_object, Entries.get?_append, get?_optionalMember, if_pos rfl, hnone,
    Option.or_none, List.filter_append, hoptions]
  obtain ⟨service, options⟩ := a
  cases service with
  | none => rfl
  | some service => rfl

/-! ## Style values -/

theorem Distance.inverts : Inverts decode encode := by
  intro d
  cases d with
  | pixels length => rfl
  | raw text => rfl

theorem Distance.encode_ne_null (d : Distance) : d.encode ≠ .null := by
  cases d with
  | pixels length => exact nofun
  | raw text => exact nofun

theorem ShadowOffset.inverts : Inverts decode encode := fun _ => rfl

theorem Shadow.inverts : Inverts decode encode := by
  intro s
  show (fields _).toDecoded = _
  unfold fields
  rw [readField_of_get? shape 0 rfl (ShadowOffset.inverts s.offset),
    readField_of_get? shape 1 rfl (inverts_string s.color),
    readField_optional shape 2 inverts_binary64 encodeBinary64_ne_null (o := s.blurRadius),
    readField_optional shape 3 inverts_binary64 encodeBinary64_ne_null (o := s.spread)]
  · rfl
  all_goals simp [Entries.get?_append, get?_optionalMember, Entries.get?]

theorem GradientStop.inverts : Inverts decode encode := by
  intro s
  show (fields _).toDecoded = _
  unfold fields
  rw [readField_of_get? shape 0 rfl (inverts_string s.color),
    readField_optional shape 1 Distance.inverts Distance.encode_ne_null (o := s.distance)]
  · rfl
  · simp [get?_optionalMember, Entries.get?]

theorem LinearGradient.inverts : Inverts decode encode := by
  intro g
  show (fields _).toDecoded = _
  unfold fields
  rw [readField_of_get? shape 0 rfl (inverts_string g.direction),
    readField_of_get? shape 1 rfl (GradientStop.inverts.list g.stops)]
  rfl

theorem Border.inverts : Inverts decode encode := fun _ => rfl

/-! ## Shadows -/

/-- Shadows as they are given. -/
inductive ShadowList where
  | many (shadows : List Shadow)
  | one (shadow : Shadow)

namespace ShadowList

def decode : Value → Decoded ShadowList :=
  decodeEither "ShadowList" (fun v => (decodeList Shadow.decode v).map .many)
    (fun v => (Shadow.decode v).map .one)

def encode : ShadowList → Value
  | many shadows => encodeShadows shadows
  | one shadow => shadow.encode

/-- The shadows in order. -/
def toList : ShadowList → List Shadow
  | many shadows => shadows
  | one shadow => [shadow]

theorem inverts : Inverts decode encode := by
  intro l
  cases l with
  | many shadows =>
    refine decodeEither_first ?_
    show (decodeList Shadow.decode (.array (shadows.map Shadow.encode))).map _ = _
    rw [Shadow.inverts.list shadows]
    rfl
  | one shadow =>
    refine decodeEither_second (e := .wrongKind .map .sequence) rfl ?_
    show (Shadow.decode shadow.encode).map _ = _
    rw [Shadow.inverts shadow]
    rfl

end ShadowList

/-- The list of shadows is what was given, without its form. -/
theorem decodeShadows_eq (v : Value) : decodeShadows v = (ShadowList.decode v).map (·.toList) := by
  unfold decodeShadows ShadowList.decode decodeEither
  dsimp only
  cases decodeList Shadow.decode v with
  | ok shadows => rfl
  | error e =>
    cases Shadow.decode v with
    | ok shadow => rfl
    | error e => rfl

theorem inverts_shadows : Inverts decodeShadows encodeShadows := by
  intro shadows
  rw [decodeShadows_eq, ← ShadowList.encode.eq_1, ShadowList.inverts (.many shadows)]
  rfl

/-! ## All typed parts -/

/-- Everything that is read comes back after it is written, and is written the same once more. -/
theorem typedParts_roundTrip :
    RoundTrips Preview.decode Preview.encode Anything ∧
    RoundTrips StoryMeta.decode StoryMeta.encode Anything ∧
    RoundTrips MetaPublisher.decode MetaPublisher.encode Anything ∧
    RoundTrips AnalyticsConfig.decode AnalyticsConfig.encode AnalyticsConfig.Separate ∧
    RoundTrips InlineStyle.decode InlineStyle.encode Anything ∧
    RoundTrips LinearGradient.decode LinearGradient.encode Anything ∧
    RoundTrips Border.decode Border.encode Anything ∧
    RoundTrips ShadowList.decode ShadowList.encode Anything ∧
    RoundTrips decodeShadows encodeShadows Anything ∧
    ∀ v, decodeShadows v = (ShadowList.decode v).map (·.toList) :=
  ⟨.of_inverts Preview.inverts, .of_inverts StoryMeta.inverts, .of_inverts MetaPublisher.inverts,
    .of_back (fun _ _ => AnalyticsConfig.separate_of_decode) fun _ => AnalyticsConfig.decode_encode,
    .of_inverts InlineStyle.inverts, .of_inverts LinearGradient.inverts,
    .of_inverts Border.inverts, .of_inverts ShadowList.inverts, .of_inverts inverts_shadows,
    decodeShadows_eq⟩

end WebStory
