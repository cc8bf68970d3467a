import WebStory.Path
import WebStory.Json.SyntaxError
import WebStory.Json.Decode
/-
  Everything that can be wrong with a story, its styles or the compile options.

  Errors are data: the cause, and where it applies the path.  All wording is in the `message`
  functions.
-/

namespace WebStory

/-- Why the value of a style key is malformed. -/
inductive StyleFault where
  | undecodable (cause : Json.DecodeError)
  | noShadow
  | noColorStop
  | notFunctionList
  | notSingleKey (index : Nat)
  | badArgument (function : String)

def StyleFault.message : StyleFault → String
  | .undecodable cause => cause.message
  | .noShadow => "expected at least one shadow"
  | .noColorStop => "expected at least one color stop"
  | .notFunctionList => "expected a list of single-key objects"
  | .notSingleKey index => "entry " ++ toString index ++ " must be an object with exactly one key"
  | .badArgument function => "'" ++ function ++ "' needs a number or string argument"

/-- A style key whose value is malformed. -/
structure StyleError where
  key : String
  fault : StyleFault

/-- Why a property of a story is invalid. -/
inductive PropertyFault where
  | notObject
  | notArray
  | notStyleTable
  | notString
  | notDimension
  | notPositive
  | noSource
  | undecodable (cause : Json.DecodeError)

def PropertyFault.message : PropertyFault → String
  | .notObject => "expected an object"
  | .notArray => "expected an array"
  | .notStyleTable => "expected an object keyed by element type"
  | .notString => "expected a string"
  | .notDimension => "expected a number or string"
  | .notPositive => "must be positive"
  | .noSource => "a video needs at least one source"
  | .undecodable cause => cause.message

/-- Why a story cannot be compiled. -/
inductive Error where
  | malformedStyle (path : Path) (cause : StyleError)
  | unknownElementType (name : String) (path : Path)
  | unknownLayerTemplate (name : String) (path : Path)
  | invalidThirdsArity (path : Path) (count : Nat)
  | missingProperty (property : String) (path : Path)
  | invalidProperty (property : String) (path : Path) (fault : PropertyFault)
  /-- The text is not JSON. -/
  | unreadableJson (cause : Json.SyntaxError)
  /-- The text is not YAML, or not of a kind that stands for a JSON value. -/
  | unreadableYaml
  /-- An option that must not be blank is. -/
  | blankOption (option : String)
  /-- The text of the options is not YAML, or its values are not of the right kinds. -/
  | unreadableOptions

def Error.message : Error → String
  | .malformedStyle path cause =>
    "Malformed style '" ++ cause.key ++ "' at " ++ path.text ++ ": " ++ cause.fault.message
  | .unknownElementType name path => "Unknown element type '" ++ name ++ "' at " ++ path.text
  | .unknownLayerTemplate name path =>
    "Unknown layer template '" ++ name ++ "' at " ++ path.text ++
      ". Expected one of: fill, vertical, horizontal, thirds"
  | .invalidThirdsArity path count =>
    "Layer at " ++ path.text ++ " uses the 'thirds' template with " ++ toString count ++
      " elements; it needs exactly 3"
  | .missingProperty property path =>
    "Missing required property '" ++ property ++ "' at " ++ path.text
  | .invalidProperty property path fault =>
    "Invalid property '" ++ property ++ "' at " ++ path.text ++ ": " ++ fault.message
  | .unreadableJson cause => "Deserialization error: " ++ cause.message
  | .unreadableYaml => "Deserialization error: not a YAML document with JSON values"
  | .blankOption option => "Invalid compile options: " ++ option ++ " must not be empty"
  | .unreadableOptions => "Invalid compile options: not a YAML mapping of options"

end WebStory
