import WebStory.Json.Decode
/-
  The structured style values: distances, shadows, gradients and borders.

  Each can be read from JSON and written back.  All numbers are floating-point once read.
-/

namespace WebStory

open Json

/-! ## Distances -/

/-- A length: a number of pixels, or a text that carries its unit. -/
inductive Distance where
  | pixels (length : Binary64)
  | raw (text : String)
deriving DecidableEq

def Distance.decode : Value → Decoded Distance :=
  decodeEither "Distance" (fun v => (decodeBinary64 v).map .pixels)
    (fun v => (decodeString v).map .raw)

def Distance.encode : Distance → Value
  | .pixels length => encodeBinary64 length
  | .raw text => .string text

/-- The text of a number of pixels. -/
def pixelText (x : Binary64) : String := x.text .cssNumber ++ "px"

def Distance.cssText : Distance → String
  | .pixels length => pixelText length
  | .raw text => text

/-! ## Shadows -/

structure ShadowOffset where
  x : Binary64
  y : Binary64
deriving DecidableEq

/-- One shadow of a box or a text. -/
structure Shadow where
  offset : ShadowOffset
  color : String
  blurRadius : Option Binary64
  spread : Option Binary64
deriving DecidableEq

def ShadowOffset.shape : RecordShape := ⟨"ShadowOffset", 2⟩

def ShadowOffset.fields (s : RecordSource) : Fields ShadowOffset :=
  Fields.read ShadowOffset.mk
    |>.both (readField shape s 0 "x" none decodeBinary64)
    |>.both (readField shape s 1 "y" none decodeBinary64)

def ShadowOffset.decode : Value → Decoded ShadowOffset := decodeRecord shape fields

def ShadowOffset.encode (o : ShadowOffset) : Value :=
  .object [("x", encodeBinary64 o.x), ("y", encodeBinary64 o.y)]

def Shadow.shape : RecordShape := ⟨"Shadow", 4⟩

def Shadow.fields (s : RecordSource) : Fields Shadow :=
  Fields.read Shadow.mk
    |>.both (readField shape s 0 "offset" none ShadowOffset.decode)
    |>.both (readField shape s 1 "color" none decodeString)
    |>.both (readField shape s 2 "blurRadius" (some none) (decodeOption decodeBinary64))
    |>.both (readField shape s 3 "spread" (some none) (decodeOption decodeBinary64))

def Shadow.decode : Value → Decoded Shadow := decodeRecord shape fields

def Shadow.encode (s : Shadow) : Value :=
  .object ([("offset", s.offset.encode), ("color", .string s.color)] ++
    optionalMember "blurRadius" encodeBinary64 s.blurRadius ++
    optionalMember "spread" encodeBinary64 s.spread)

/-- A list of shadows, or one shadow alone. -/
def decodeShadows : Value → Decoded (List Shadow) :=
  decodeEither "ShadowList" (decodeList Shadow.decode) (fun v => (Shadow.decode v).map ([·]))

def encodeShadows (shadows : List Shadow) : Value := .array (shadows.map Shadow.encode)

/-! ## Gradients -/

/-- A color of a gradient, and where along it the color stands. -/
structure GradientStop where
  color : String
  distance : Option Distance
deriving DecidableEq

/-- A linear gradient. -/
structure LinearGradient where
  direction : String
  stops : List GradientStop
deriving DecidableEq

def GradientStop.shape : RecordShape := ⟨"GradientStop", 2⟩

def GradientStop.fields (s : RecordSource) : Fields GradientStop :=
  Fields.read GradientStop.mk
    |>.both (readField shape s 0 "color" none decodeString)
    |>.both (readField shape s 1 "distance" (some none) (decodeOption Distance.decode))

def GradientStop.decode : Value → Decoded GradientStop := decodeRecord shape fields

def GradientStop.encode (s : GradientStop) : Value :=
  .object ([("color", .string s.color)] ++ optionalMember "distance" Distance.encode s.distance)

def LinearGradient.shape : RecordShape := ⟨"LinearGradient", 2⟩

def LinearGradient.fields (s : RecordSource) : Fields LinearGradient :=
  Fields.read LinearGradient.mk
    |>.both (readField shape s 0 "direction" none decodeString)
    |>.both (readField shape s 1 "stops" none (decodeList GradientStop.decode))

def LinearGradient.decode : Value → Decoded LinearGradient := decodeRecord shape fields

def LinearGradient.encode (g : LinearGradient) : Value :=
  .object [("direction", .string g.direction), ("stops", .array (g.stops.map GradientStop.encode))]

/-! ## Borders -/

structure Border where
  width : Binary64
  style : String
  color : String
deriving DecidableEq

def Border.shape : RecordShape := ⟨"Border", 3⟩

def Border.fields (s : RecordSource) : Fields Border :=
  Fields.read Border.mk
    |>.both (readField shape s 0 "width" none decodeBinary64)
    |>.both (readField shape s 1 "style" none decodeString)
    |>.both (readField shape s 2 "color" none decodeString)

def Border.decode : Value → Decoded Border := decodeRecord shape fields

def Border.encode (b : Border) : Value :=
  .object [("width", encodeBinary64 b.width), ("style", .string b.style), ("color", .string b.color)]

end WebStory
