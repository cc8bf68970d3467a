import WebStory.Yaml.Cursor
/-
  The tokens of a YAML text.

  A token is an indicator, a property of a node, or a scalar.  In block style the structure is
  in the indentation; there the tokens that open and close a block have no characters of their
  own.
-/

namespace WebStory.Yaml

/-- How a scalar is written. -/
inductive ScalarStyle where
  | plain
  | quoted
  | literal
  | folded
deriving DecidableEq, Repr

/-- The parts of tags: octets, as escapes may spell any. -/
abbrev Octets := List Nat

/-- A tag as it is written: a handle and what follows it. -/
structure WrittenTag where
  handle : Octets
  suffix : Octets
deriving DecidableEq, Repr

inductive Token where
  | versionDirective (major minor : Nat)
  | tagDirective (handle start : Octets)
  | documentStart
  | documentEnd
  | blockSequenceStart
  | blockMappingStart
  | blockEnd
  | flowSequenceStart
  | flowSequenceEnd
  | flowMappingStart
  | flowMappingEnd
  | blockEntry
  | flowEntry
  | key
  | value
  | anchor (name : List Char)
  | alias (name : List Char)
  | tag (tag : WrittenTag)
  | scalar (style : ScalarStyle) (text : List Char)
deriving DecidableEq, Repr

end WebStory.Yaml
