import WebStory.Yaml.Resolve
import WebStory.Options
/-
  Compile options from a YAML text.

  A text option takes the text of its scalar, whatever that would stand for elsewhere.  Keys that
  are no options are passed over with their values; an option must not be given twice.
-/

namespace WebStory

open Yaml

/-- A scalar that may be read as a boolean: a plain one, or a literal one with that tag. -/
def mayBeBool (p : Properties) (style : ScalarStyle) : Bool :=
  style == .plain || (style == .literal && p.tag == some (coreTag "bool"))

def optionBool (a : Anchors) (n : Node Nat) : Following Bool := do
  match ← follow a n with
  | .scalar p style text =>
    if mayBeBool p style then liftM (boolOfText? (String.ofList text)) else failure
  | _ => failure

/-- The options given so far: each at most once. -/
structure GivenOptions where
  runtimeHost : Option String
  storyVersion : Option String
  lang : Option String
  pretty : Option Bool

/-- What was given, completed by the standard options. -/
def GivenOptions.complete (g : GivenOptions) : CompileOptions :=
  ⟨g.runtimeHost.getD CompileOptions.standard.runtimeHost,
    g.storyVersion.getD CompileOptions.standard.storyVersion,
    g.lang.getD CompileOptions.standard.lang,
    g.pretty.getD CompileOptions.standard.pretty⟩

/-- The value of an option that is not given yet. -/
def giveOnce {α : Type} (given : Option α) (read : Following α) : Following (Option α) :=
  match given with
  | some _ => failure
  | none => some <$> read

def readOption (a : Anchors) (g : GivenOptions) (key : String) (value : Node Nat) :
    Following GivenOptions := do
  if key = "runtimeHost" then
    return { g with runtimeHost := ← giveOnce g.runtimeHost (keyText a value) }
  else if key = "storyVersion" then
    return { g with storyVersion := ← giveOnce g.storyVersion (keyText a value) }
  else if key = "lang" then return { g with lang := ← giveOnce g.lang (keyText a value) }
  else if key = "pretty" then return { g with pretty := ← giveOnce g.pretty (optionBool a value) }
  else return g

def readOptions (a : Anchors) : List (Node Nat × Node Nat) → GivenOptions → Following GivenOptions
  | [], g => pure g
  | (k, v) :: rest, g => do
    let key ← keyText a k
    readOptions a rest (← readOption a g key v)

/-- The options of a document, which is a mapping or empty. -/
def documentOptions (d : Document) : Following GivenOptions := do
  let nothing : GivenOptions := ⟨none, none, none, none⟩
  match d.root with
  | none => return nothing
  | some root =>
    match ← follow d.anchors root with
    | .mapping _ entries => readOptions d.anchors entries nothing
    | .scalar _ style text => if style = .plain ∧ text.isEmpty then return nothing else failure
    | _ => failure

/-- Valid options from a YAML text. -/
def optionsOfYaml (text : String) : Except Error CompileOptions :=
  match (Document.ofText? text).bind fun d => (documentOptions d).run d.aliasLimit with
  | none => .error .unreadableOptions
  | some (given, _) => do
    given.complete.validate
    .ok given.complete

end WebStory
