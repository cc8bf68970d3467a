import WebStory.Story.Basic
/-
  The typed parts of a story as JSON: reading them, and writing them back.

  A part that is read, written and read again is the same.  Absent fields are left out where the
  format leaves them out, and null where it keeps them.
-/

namespace WebStory

open Json

/-! ## Text styles -/

def InlineStyle.shape : RecordShape := ⟨"InlineTextStyle", 3⟩

def InlineStyle.fields (s : RecordSource) : Fields InlineStyle :=
  Fields.read InlineStyle.mk
    |>.both (readField shape s 0 "start" none decodeSize)
    |>.both (readField shape s 1 "length" none decodeSize)
    |>.both (readField shape s 2 "styles" (some .empty) (fun v => (decodeObject v).map StyleRecord.mk))

def InlineStyle.decode : Value → Decoded InlineStyle := decodeRecord shape fields

def InlineStyle.encode (s : InlineStyle) : Value :=
  .object [("start", encodeSize s.start), ("length", encodeSize s.length),
    ("styles", s.styles.toValue)]

/-! ## Media -/

def VideoSource.shape : RecordShape := ⟨"VideoSource", 2⟩

def VideoSource.fields (s : RecordSource) : Fields VideoSource :=
  Fields.read VideoSource.mk
    |>.both (readField shape s 0 "source" none decodeString)
    |>.both (readField shape s 1 "type" none decodeString)

def VideoSource.decode : Value → Decoded VideoSource := decodeRecord shape fields

def MediaLayout.ofName (name : String) : Decoded MediaLayout :=
  match MediaLayout.all.find? (·.name = name) with
  | some layout => .ok layout
  | none => .error (.unknownVariant name (MediaLayout.all.map (·.name)))

/-- A layout by its name, or by an object with the name as its key and null as its content. -/
def MediaLayout.decode : Value → Decoded MediaLayout
  | .string name => ofName name
  | .object [(name, content)] => do
    let layout ← ofName name
    match content with
    | .null => .ok layout
    | v => wrongKind v .unit
  | .object _ => .error .notSingleKey
  | v => wrongKind v .nameOrMap

def AutoAdvance.decode : Value → Decoded AutoAdvance
  | .number n => .ok (.seconds n)
  | .string id => .ok (.media id)
  | _ => .error (.noVariant "AutoAdvance")

/-! ## Preview -/

def Preview.shape : RecordShape := ⟨"Preview", 5⟩

def Preview.fields (s : RecordSource) : Fields Preview :=
  Fields.read Preview.mk
    |>.both (readField shape s 0 "publisher" (some none) (decodeOption decodeString))
    |>.both (readField shape s 1 "publisherLogoSrc" (some none) (decodeOption decodeString))
    |>.both (readField shape s 2 "posterPortraitSrc" (some none) (decodeOption decodeString))
    |>.both (readField shape s 3 "posterSquareSrc" (some none) (decodeOption decodeString))
    |>.both (readField shape s 4 "posterLandscapeSrc" (some none) (decodeOption decodeString))

def Preview.decode : Value → Decoded Preview := decodeRecord shape fields

def Preview.encode (p : Preview) : Value :=
  .object (optionalMember "publisher" .string p.publisher ++
    optionalMember "publisherLogoSrc" .string p.publisherLogoSrc ++
    optionalMember "posterPortraitSrc" .string p.posterPortraitSrc ++
    optionalMember "posterSquareSrc" .string p.posterSquareSrc ++
    optionalMember "posterLandscapeSrc" .string p.posterLandscapeSrc)

/-! ## Metadata -/

def MetaPublisher.shape : RecordShape := ⟨"MetaPublisher", 2⟩

def MetaPublisher.fields (s : RecordSource) : Fields MetaPublisher :=
  Fields.read MetaPublisher.mk
    |>.both (readField shape s 0 "name" none decodeString)
    |>.both (readField shape s 1 "logo" (some none) (decodeOption decodeObject))

def MetaPublisher.decode : Value → Decoded MetaPublisher := decodeRecord shape fields

def MetaPublisher.encode (p : MetaPublisher) : Value :=
  .object [("name", .string p.name), ("logo", encodeOption .object p.logo)]

def MetaData.shape : RecordShape := ⟨"MetaData", 9⟩

def MetaData.fields (s : RecordSource) : Fields MetaData :=
  Fields.read MetaData.mk
    |>.both (readField shape s 0 "title" (some none) (decodeOption decodeString))
    |>.both (readField shape s 1 "canonicalUrl" (some none) (decodeOption decodeString))
    |>.both (readField shape s 2 "images" (some []) (decodeList decodeString))
    |>.both (readField shape s 3 "datePublished" (some none) (decodeOption decodeString))
    |>.both (readField shape s 4 "dateModified" (some none) (decodeOption decodeString))
    |>.both (readField shape s 5 "author" (some none) (decodeOption decodeString))
    |>.both (readField shape s 6 "authorType" (some none) (decodeOption decodeString))
    |>.both (readField shape s 7 "publisher" (some none) (decodeOption MetaPublisher.decode))
    |>.both (readField shape s 8 "description" (some none) (decodeOption decodeString))

def MetaData.decode : Value → Decoded MetaData := decodeRecord shape fields

def MetaData.encode (m : MetaData) : Value :=
  .object [("title", encodeOption .string m.title),
    ("canonicalUrl", encodeOption .string m.canonicalUrl),
    ("images", .array (m.images.map .string)),
    ("datePublished", encodeOption .string m.datePublished),
    ("dateModified", encodeOption .string m.dateModified),
    ("author", encodeOption .string m.author),
    ("authorType", encodeOption .string m.authorType),
    ("publisher", encodeOption MetaPublisher.encode m.publisher),
    ("description", encodeOption .string m.description)]

def StoryMeta.decode : Value → Decoded StoryMeta :=
  decodeEither "StoryMeta" (fun v => (decodeString v).map .raw)
    (fun v => (MetaData.decode v).map .structured)

def StoryMeta.encode : StoryMeta → Value
  | .raw markup => .string markup
  | .structured data => data.encode

/-! ## Analytics -/

/-- An object; its `type` names the service, all other members are the configuration. -/
def AnalyticsConfig.decode : Value → Decoded AnalyticsConfig
  | .object members => do
    let service ← match Entries.get? members "type" with
      | some v => decodeOption decodeString v
      | none => .ok none
    .ok ⟨service, members.filter fun e => e.1 != "type"⟩
  | v => wrongKind v (.record "AnalyticsConfig")

def AnalyticsConfig.encode (a : AnalyticsConfig) : Value :=
  .object (optionalMember "type" .string a.service ++ a.options)

end WebStory
