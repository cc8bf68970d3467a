import WebStory.Json.Decode
import WebStory.Error
import WebStory.Text.Blank
/-
  Options of a compilation.
-/

namespace WebStory

open Json

/-- What may be chosen for a compilation. -/
structure CompileOptions where
  /-- Where the runtime and its extensions are served. -/
  runtimeHost : String
  /-- The version of the story extension. -/
  storyVersion : String
  /-- The language of the document. -/
  lang : String
  /-- Put one tag on a line. -/
  pretty : Bool
deriving DecidableEq

namespace CompileOptions

def standard : CompileOptions := ⟨"https://cdn.ampproject.org", "1.0", "en", false⟩

def shape : RecordShape := ⟨"CompileOptions", 4⟩

def fields (s : RecordSource) : Fields CompileOptions :=
  Fields.read CompileOptions.mk
    |>.both (readField shape s 0 "runtimeHost" (some standard.runtimeHost) decodeString)
    |>.both (readField shape s 1 "storyVersion" (some standard.storyVersion) decodeString)
    |>.both (readField shape s 2 "lang" (some standard.lang) decodeString)
    |>.both (readField shape s 3 "pretty" (some standard.pretty) decodeBool)

/-- Options from a JSON value; what is absent takes its standard value. -/
def decode : Value → Decoded CompileOptions := decodeRecord shape fields

/-- The first option that is blank and must not be. -/
def blank? (o : CompileOptions) : Option String :=
  if Text.isAllBlank o.runtimeHost then some "runtimeHost"
  else if Text.isAllBlank o.storyVersion then some "storyVersion"
  else if Text.isAllBlank o.lang then some "lang"
  else none

/-- Refuses blank options. -/
def validate (o : CompileOptions) : Except Error Unit :=
  match o.blank? with
  | some option => .error (.blankOption option)
  | none => .ok ()

end CompileOptions

end WebStory
