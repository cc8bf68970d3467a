/-
  What can be wrong with a JSON text, and where.

  A fault is met at a byte of the text, or at its end.  `Position.ofOffset` turns the number of
  bytes read into the line and the column of a message: lines count from one, a column counts
  the bytes since the last line feed.
-/

namespace WebStory.Json

/-- Why a text is not JSON. -/
inductive SyntaxFault where
  | endInValue
  | endInString
  | endInList
  | endInObject
  | expectedValue
  | expectedIdent
  | expectedColon
  | expectedCommaOrBracket
  | expectedCommaOrBrace
  | trailingComma
  | keyNotString
  | trailingCharacters
  | invalidNumber
  | numberOutOfRange
  | invalidEscape
  | endOfHexEscape
  | loneSurrogate
  | controlCharacter
  | tooDeep
deriving DecidableEq, Repr

def SyntaxFault.message : SyntaxFault → String
  | .endInValue => "EOF while parsing a value"
  | .endInString => "EOF while parsing a string"
  | .endInList => "EOF while parsing a list"
  | .endInObject => "EOF while parsing an object"
  | .expectedValue => "expected value"
  | .expectedIdent => "expected ident"
  | .expectedColon => "expected `:`"
  | .expectedCommaOrBracket => "expected `,` or `]`"
  | .expectedCommaOrBrace => "expected `,` or `\x7d`"
  | .trailingComma => "trailing comma"
  | .keyNotString => "key must be a string"
  | .trailingCharacters => "trailing characters"
  | .invalidNumber => "invalid number"
  | .numberOutOfRange => "number out of range"
  | .invalidEscape => "invalid escape"
  | .endOfHexEscape => "unexpected end of hex escape"
  | .loneSurrogate => "lone leading surrogate in hex escape"
  | .controlCharacter => "control character (\\u0000-\\u001F) found while parsing a string"
  | .tooDeep => "recursion limit exceeded"

/-- A place in a text. -/
structure Position where
  line : Nat
  column : Nat
deriving DecidableEq, Repr

/-- The position reached after `left` bytes of a text.  An offset inside a character counts the
    bytes of that character before it. -/
def Position.advance : List Char → Nat → Position → Position
  | [], left, here => ⟨here.line, here.column + left⟩
  | c :: rest, left, here =>
    if c.utf8Size ≤ left then
      advance rest (left - c.utf8Size)
        (if c = '\n' then ⟨here.line + 1, 0⟩ else ⟨here.line, here.column + c.utf8Size⟩)
    else ⟨here.line, here.column + left⟩

/-- The position after the first `offset` bytes of a text. -/
def Position.ofOffset (text : List Char) (offset : Nat) : Position :=
  Position.advance text offset ⟨1, 0⟩

/-- A fault and its place. -/
structure SyntaxError where
  fault : SyntaxFault
  position : Position
deriving DecidableEq, Repr

def SyntaxError.message (e : SyntaxError) : String :=
  e.fault.message ++ " at line " ++ toString e.position.line ++ " column " ++ toString e.position.column

end WebStory.Json
