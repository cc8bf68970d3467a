import WebStory.Style.Record
import WebStory.Style.Shapes
import WebStory.Style.Declarations
import WebStory.Error
/-
  From style records to declarations.

  Each key belongs to one of five kinds (`KeyKind`), and its value becomes the text of one
  declaration.  Keys are taken in record order; null stands for an absent entry.  A gradient
  becomes the `background`, after all other keys; the flex aliases follow, and `grid-gap` is
  reset last.  As setting a property again keeps its place, the order of the properties is that
  of their first occurrences.

  The result does not depend on where the record stands: a failure names the key and the fault,
  and `convertStyle` adds the path.
-/

namespace WebStory

open Json

/-! ## Kinds of keys -/

/-- Keys whose numbers are lengths in pixels. -/
def distanceKeys : List String :=
  ["top", "left", "bottom", "right", "width", "height", "minWidth", "maxWidth", "minHeight",
    "maxHeight", "margin", "marginTop", "marginBottom", "marginRight", "marginLeft", "padding",
    "paddingTop", "paddingBottom", "paddingRight", "paddingLeft", "fontSize", "letterSpacing",
    "borderRadius", "borderTopLeftRadius", "borderTopRightRadius", "borderBottomLeftRadius",
    "borderBottomRightRadius"]

def borderKeys : List String := ["border", "borderTop", "borderBottom", "borderRight", "borderLeft"]

/-- The key of the gradient, which declares no property of its own name. -/
def gradientKey : String := "backgroundLinearGradient"

/-- The two families of functions a list value can hold. -/
inductive FunctionFamily where
  | transform
  | filter
deriving DecidableEq, Repr

/-- What the value of a key means. -/
inductive KeyKind where
  | distance
  | border
  /-- Shadows; `spread` where a fourth length is allowed. -/
  | shadow (spread : Bool)
  | functions (family : FunctionFamily)
  | plain
deriving DecidableEq, Repr

def KeyKind.ofKey (key : String) : KeyKind :=
  if distanceKeys.contains key then .distance
  else if borderKeys.contains key then .border
  else if key = "boxShadow" then .shadow true
  else if key = "textShadow" then .shadow false
  else if key = "transform" then .functions .transform
  else if key = "filter" ∨ key = "backdropFilter" then .functions .filter
  else .plain

/-! ## Values -/

/-- The text of a value without any unit. -/
def plainText : Value → String
  | .string s => s
  | .number n => n.cssText
  | .bool b => toString b
  | .null => ""
  | .array items => (Value.array items).text
  | .object members => (Value.object members).text

/-- A number is a length in pixels; all else is taken as it is. -/
def distanceText : Value → String
  | .number n => n.cssText ++ "px"
  | v => plainText v

/-- Reads a structured value. -/
def structured {α : Type} (decode : Value → Decoded α) (v : Value) : Except StyleFault α :=
  (decode v).mapError .undecodable

def Border.cssText (b : Border) : String := pixelText b.width ++ " " ++ b.style ++ " " ++ b.color

def borderText : Value → Except StyleFault String
  | .string s => .ok s
  | v => do
    let b ← structured Border.decode v
    .ok b.cssText

/-- The lengths of a shadow, in positional order.  A blur of zero is left out unless a spread
    follows it; a spread of zero, or one that is not allowed, is left out. -/
def Shadow.lengths (s : Shadow) (allowSpread : Bool) : List Binary64 :=
  let spread := if allowSpread then s.spread.filter (!·.isZero) else none
  let blur := (s.blurRadius.filter (!·.isZero)).or (spread.map fun _ => Binary64.zero false)
  [s.offset.x, s.offset.y] ++ blur.toList ++ spread.toList

def Shadow.cssText (s : Shadow) (allowSpread : Bool) : String :=
  " ".intercalate ((s.lengths allowSpread).map pixelText ++ [s.color])

def shadowsText (allowSpread : Bool) : Value → Except StyleFault String
  | .string s => .ok s
  | v => do
    let shadows ← structured decodeShadows v
    if shadows.isEmpty then .error .noShadow
    else .ok (", ".intercalate (shadows.map (·.cssText allowSpread)))

def GradientStop.cssText (s : GradientStop) : String :=
  match s.distance with
  | some d => s.color ++ " " ++ d.cssText
  | none => s.color

def gradientText (v : Value) : Except StyleFault String := do
  let g ← structured LinearGradient.decode v
  if g.stops.isEmpty then .error .noColorStop
  else .ok ("linear-gradient(" ++ ", ".intercalate (g.direction :: g.stops.map (·.cssText)) ++ ")")

/-- The unit of a function's numbers. -/
def FunctionFamily.unit : FunctionFamily → String → String
  | .transform, function =>
    if function.startsWith "scale" then ""
    else if function.startsWith "rotate" || function.startsWith "skew" then "deg"
    else "px"
  | .filter, function =>
    if ["grayscale", "brightness", "contrast", "invert", "opacity", "saturate", "sepia"].contains
        function then ""
    else if function = "hueRotate" then "deg"
    else "px"

/-- The name of a function in a style sheet. -/
def FunctionFamily.cssName : FunctionFamily → String → String
  | .transform, function => function
  | .filter, function => dasherize function

/-- One function with its argument, the `index`-th of its list. -/
def functionText (family : FunctionFamily) (index : Nat) : Value → Except StyleFault String
  | .object [(function, argument)] =>
    match argument with
    | .number n =>
      .ok (family.cssName function ++ "(" ++ n.cssText ++ family.unit function ++ ")")
    | .string s => .ok (family.cssName function ++ "(" ++ s ++ ")")
    | _ => .error (.badArgument function)
  | _ => .error (.notSingleKey index)

/-- The functions of a list in order, the first of them the `index`-th. -/
def functionTexts (family : FunctionFamily) : Nat → List Value → Except StyleFault (List String)
  | _, [] => .ok []
  | index, v :: rest => do
    let text ← functionText family index v
    let texts ← functionTexts family (index + 1) rest
    .ok (text :: texts)

def functionsText (family : FunctionFamily) : Value → Except StyleFault String
  | .string s => .ok s
  | .array items => do
    let texts ← functionTexts family 0 items
    .ok (" ".intercalate texts)
  | _ => .error .notFunctionList

/-- The text that a value of this kind becomes. -/
def KeyKind.valueText : KeyKind → Value → Except StyleFault String
  | .distance, v => .ok (distanceText v)
  | .border, v => borderText v
  | .shadow spread, v => shadowsText spread v
  | .functions family, v => functionsText family v
  | .plain, v => .ok (plainText v)

/-! ## Records -/

/-- The entry declares a property under its own name. -/
def declares (entry : String × Value) : Bool := !entry.2.isNull && entry.1 != gradientKey

/-- Names the key at fault. -/
def atKey {α : Type} (key : String) (r : Except StyleFault α) : Except StyleError α :=
  r.mapError (⟨key, ·⟩)

/-- Declares the entries that declare something, one after another. -/
def declareEntries : Members → Declarations → Except StyleError Declarations
  | [], done => .ok done
  | (key, value) :: rest, done =>
    if declares (key, value) then do
      let text ← atKey key ((KeyKind.ofKey key).valueText value)
      declareEntries rest (done.set (dasherize key) text)
    else declareEntries rest done

/-- Declares the gradient as the background. -/
def declareGradient (r : StyleRecord) (done : Declarations) : Except StyleError Declarations :=
  match present? r.entries gradientKey with
  | none => .ok done
  | some v => do
    let text ← atKey gradientKey (gradientText v)
    .ok (done.set "background" text)

/-- Declares under `property` the plain text of the value of `key`. -/
def declareAlias (r : StyleRecord) (key property : String) (done : Declarations) : Declarations :=
  match present? r.entries key with
  | none => done
  | some v => done.set property (plainText v)

/-- The declarations of a style record. -/
def StyleRecord.convert (r : StyleRecord) : Except StyleError Declarations := do
  let own ← declareEntries r.entries .empty
  let withGradient ← declareGradient r own
  let withFlex := declareAlias r "alignItems" "justify-items"
    (declareAlias r "justifyContent" "align-content" withGradient)
  .ok (withFlex.set "grid-gap" "0")

/-- The declarations of a style record that stands at a path. -/
def convertStyle (r : StyleRecord) (path : Path) : Except Error Declarations :=
  r.convert.mapError (.malformedStyle path)

end WebStory
