import WebStory.Document.Compile
import WebStory.Story.Source
import WebStory.Yaml.OptionText
/-
  The command line: a story file in, a document out.

  The program is written over any way to read and write files (`program`).  `FileTree` is one of
  them, a directory as data; the real one is the file system.
-/

namespace WebStory.CommandLine

/-! ## Arguments -/

/-- What is asked for. -/
structure Arguments where
  input : String
  output : Option String
  config : Option String
  pretty : Bool

/-- What is asked for so far. -/
structure Given where
  input : Option String
  output : Option String
  config : Option String
  pretty : Bool
  verbose : Bool

/-- The options that take a value. -/
inductive ValueOption where
  | output
  | config
deriving DecidableEq, Repr

/-- The options that take none. -/
inductive FlagOption where
  | pretty
  | verbose
deriving DecidableEq, Repr

namespace Given

def nothing : Given := ⟨none, none, none, false, false⟩

/-- The one story file; its name is not empty. -/
def setInput (g : Given) (name : String) : Option Given :=
  if g.input.isSome || name.isEmpty then none else some { g with input := some name }

/-- An option with a value that is not empty, given once. -/
def setValue (g : Given) (o : ValueOption) (value : String) : Option Given :=
  if value.isEmpty then none
  else
    match o with
    | .output => if g.output.isSome then none else some { g with output := some value }
    | .config => if g.config.isSome then none else some { g with config := some value }

/-- An option without a value, given once. -/
def setFlag (g : Given) (o : FlagOption) : Option Given :=
  match o with
  | .pretty => if g.pretty then none else some { g with pretty := true }
  | .verbose => if g.verbose then none else some { g with verbose := true }

/-- Complete once there is a story file. -/
def complete (g : Given) : Option Arguments :=
  g.input.map fun input => ⟨input, g.output, g.config, g.pretty⟩

end Given

/-- What a single argument does: it sets something, or it asks for the value that follows. -/
inductive ArgumentStep where
  | set (g : Given)
  | wantsValue (g : Given) (o : ValueOption)

/-- An option by its long name, with the value written to it. -/
def longOption (g : Given) (name : String) (attached : Option String) : Option ArgumentStep :=
  let valued (o : ValueOption) : Option ArgumentStep :=
    match attached with
    | some value => (g.setValue o value).map .set
    | none => some (.wantsValue g o)
  let bare (o : FlagOption) : Option ArgumentStep :=
    if attached.isSome then none else (g.setFlag o).map .set
  if name = "output" then valued .output
  else if name = "config" then valued .config
  else if name = "pretty" then bare .pretty
  else if name = "verbose" then bare .verbose
  else none

/-- Options by their letters.  Letters after one that takes a value are its value. -/
def shortOptions (g : Given) : List Char → Option ArgumentStep
  | [] => some (.set g)
  | c :: rest =>
    let valued (o : ValueOption) : Option ArgumentStep :=
      match rest with
      | [] => some (.wantsValue g o)
      | '=' :: value => (g.setValue o (String.ofList value)).map .set
      | value => (g.setValue o (String.ofList value)).map .set
    if c = 'o' then valued .output
    else if c = 'c' then valued .config
    else if c = 'v' then (g.setFlag .verbose).bind fun g => shortOptions g rest
    else none

/-- The argument looks like an option; a single hyphen does not. -/
def isOption (argument : List Char) : Bool := argument.head? == some '-' && argument != ['-']

/-- Splits a long option at its first equals sign. -/
def splitAttached (cs : List Char) : String × Option String :=
  let name := cs.takeWhile (· != '=')
  match cs.dropWhile (· != '=') with
  | [] => (String.ofList name, none)
  | _ :: value => (String.ofList name, some (String.ofList value))

/-- One argument. -/
def readArgument (g : Given) (argument : String) : Option ArgumentStep :=
  match argument.toList with
  | '-' :: '-' :: long =>
    let (name, attached) := splitAttached long
    longOption g name attached
  | '-' :: c :: rest => shortOptions g (c :: rest)
  | _ => (g.setInput argument).map .set

/-- All arguments.  After two hyphens nothing is an option. -/
def readArguments (g : Given) : List String → Option Given
  | [] => some g
  | "--" :: rest => rest.foldlM Given.setInput g
  | argument :: rest =>
    match readArgument g argument with
    | none => none
    | some (.set g) => readArguments g rest
    | some (.wantsValue g o) =>
      match rest with
      | [] => none
      | value :: rest =>
        if isOption value.toList then none
        else (g.setValue o value).bind fun g => readArguments g rest

/-- The arguments, if they are used as they should be. -/
def Arguments.ofList? (arguments : List String) : Option Arguments :=
  (readArguments .nothing arguments).bind Given.complete

/-! ## Paths -/

/-- The last name of a path. -/
def fileName (path : String) : List Char :=
  let names := ((path.toList.splitOn '/').filter fun n => !n.isEmpty && n != ['.'])
  names.getLast?.getD []

/-- What follows the last point of a file name, unless the name has no other point than a
    leading one. -/
def extension? (path : String) : Option String :=
  let name := fileName path
  let reversed := name.reverse
  let after := reversed.takeWhile (· != '.')
  if after.length + 1 < name.length then some (String.ofList after.reverse) else none

/-- The file holds YAML by its name. -/
def isYamlFile (path : String) : Bool :=
  extension? path == some "yaml" || extension? path == some "yml"

/-! ## The program -/

/-- What went wrong, and with which file. -/
inductive Failure where
  | unreadableConfig (path : String)
  | invalidConfig (path : String)
  | unreadableStory (path : String)
  | invalidStory (path : String)
  | notCompiled (path : String)
  | unwritable (path : String)
deriving DecidableEq, Repr

def Failure.message : Failure → String
  | .unreadableConfig path => "Unable to read config " ++ path
  | .invalidConfig path => "Invalid config " ++ path
  | .unreadableStory path => "Unable to load story " ++ path
  | .invalidStory path => "Unable to parse story " ++ path
  | .notCompiled path => "Unable to compile " ++ path
  | .unwritable path => "There was an error writing file " ++ path

/-- How the program ends. -/
inductive Result where
  /-- The arguments are misused. -/
  | usage
  | failed (failure : Failure)
  /-- All went well; this is written to the standard output. -/
  | done (stdout : String)
deriving DecidableEq, Repr

/-- A way to read and to write files.  Reading gives nothing, and writing false, if it fails. -/
structure FileAccess (m : Type → Type) where
  read : String → m (Option String)
  write : String → String → m Bool

section

variable {m : Type → Type} [Monad m]

/-- The options of a config file, or the standard ones. -/
def loadOptions (files : FileAccess m) (config : Option String) :
    ExceptT Failure m CompileOptions := do
  match config with
  | none => return .standard
  | some path =>
    match ← (files.read path : m _) with
    | none => throw (.unreadableConfig path)
    | some text =>
      match optionsOfYaml text with
      | .ok options => return options
      | .error _ => throw (.invalidConfig path)

def loadStory (files : FileAccess m) (path : String) : ExceptT Failure m Story := do
  match ← (files.read path : m _) with
  | none => throw (.unreadableStory path)
  | some text =>
    match if isYamlFile path then storyOfYaml text else storyOfJson text with
    | .ok story => return story
    | .error _ => throw (.invalidStory path)

/-- Compiles one story file; the answer is what goes to the standard output. -/
def compileFile (files : FileAccess m) (a : Arguments) : ExceptT Failure m String := do
  let options ← loadOptions files a.config
  let options := if a.pretty then { options with pretty := true } else options
  let story ← loadStory files a.input
  match compile story options with
  | .error _ => throw (.notCompiled a.input)
  | .ok html =>
    match a.output with
    | none => return html ++ "\n"
    | some path => if ← (files.write path html : m _) then return "" else throw (.unwritable path)

/-- The whole program. -/
def program (files : FileAccess m) (arguments : List String) : m Result := do
  match Arguments.ofList? arguments with
  | none => return .usage
  | some a =>
    match ← (compileFile files a).run with
    | .ok stdout => return .done stdout
    | .error failure => return .failed failure

end

/-! ## A directory as data -/

/-- Files by the names on their path, in the order in which they came to be. -/
abbrev FileTree := List (List String × String)

namespace FileTree

/-- There is a directory at a path: the root, or one with a file in it. -/
def isDirectory (t : FileTree) (path : List String) : Bool :=
  path.isEmpty || t.any fun f => path.isPrefixOf f.1 && path != f.1

/-- Follows the names of a path from a directory; all but the last must be directories. -/
def resolveFrom (t : FileTree) (directory : List String) : List String → Option (List String)
  | [] => some directory
  | name :: rest =>
    if !t.isDirectory directory then none
    else if name = "" ∨ name = "." then resolveFrom t directory rest
    else if name = ".." then
      if directory.isEmpty then none else resolveFrom t directory.dropLast rest
    else resolveFrom t (directory ++ [name]) rest

/-- The path of a file, relative to the root. -/
def resolve (t : FileTree) (path : String) : Option (List String) :=
  if path.toList.head? = some '/' then none
  else t.resolveFrom [] ((path.toList.splitOn '/').map String.ofList)

def read? (t : FileTree) (path : String) : Option String :=
  (t.resolve path).bind fun p => t.lookup p

/-- The tree with a file written; its directory must exist, and it must not be one itself. -/
def write? (t : FileTree) (path content : String) : Option FileTree :=
  match t.resolve path with
  | none => none
  | some p =>
    if t.isDirectory p || path.toList.getLast? == some '/' then none
    else if t.any (·.1 == p) then
      some (t.map fun f => if f.1 == p then (p, content) else f)
    else some (t ++ [(p, content)])

/-- Reading and writing in a tree. -/
def fileAccess : FileAccess (StateM FileTree) where
  read path := do return (← get).read? path
  write path content := do
    match (← get).write? path content with
    | some t => set t; return true
    | none => return false

/-- Files of the second tree that are new or differ from the first. -/
def changes (before after : FileTree) : List (String × String) :=
  (after.filter fun f => before.lookup f.1 != some f.2).map fun f => ("/".intercalate f.1, f.2)

end FileTree

/-- How the program ended, and the files it wrote. -/
structure Outcome where
  result : Result
  written : List (String × String)

/-- Runs the program in a directory with the given files. -/
def run (files : List (String × String)) (arguments : List String) : Outcome :=
  let before : FileTree := files.map fun f => ((f.1.toList.splitOn '/').map String.ofList, f.2)
  let (result, after) := Id.run ((program FileTree.fileAccess arguments).run before)
  ⟨result, before.changes after⟩

end WebStory.CommandLine
