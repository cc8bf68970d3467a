import WebStory.Json.Reader
import WebStory.Yaml.Resolve
import WebStory.Story.Parse
/-
  Stories in text.  JSON and YAML follow one schema, that of the JSON value they stand for.
-/

namespace WebStory

/-- The story in a JSON text. -/
def storyOfJson (text : String) : Except Error Story := do
  let v ← (Json.parse text).mapError .unreadableJson
  parseStory v

/-- The story in a YAML text. -/
def storyOfYaml (text : String) : Except Error Story :=
  match Yaml.parseValue? text with
  | some v => parseStory v
  | none => .error .unreadableYaml

end WebStory
