/-
  Positions in a YAML text.

  Before a text is read its line ends are unified: each becomes one character, which is also what
  it stands for in the text of a scalar.  The scanner then goes through the characters with
  a cursor, which knows the line and the column; both decide what indentation means.
-/

namespace WebStory.Yaml

/-! ## Characters -/

/-- The character may occur in a YAML text. -/
def isAllowed (c : Char) : Bool :=
  let n := c.toNat
  n == 0x09 || n == 0x0A || n == 0x0D || (0x20 ≤ n && n ≤ 0x7E) || n == 0x85 ||
    (0xA0 ≤ n && n ≤ 0xD7FF) || (0xE000 ≤ n && n ≤ 0xFFFD) || 0x10000 ≤ n

/-- Each line end as one character.  A carriage return with a line feed, either alone, and a
    next-line character are all a line feed; line and paragraph separators stand for themselves. -/
def unifyLineEnds : List Char → List Char
  | [] => []
  | '\r' :: '\n' :: rest => '\n' :: unifyLineEnds rest
  | c :: rest => (if c = '\r' ∨ c = '\u0085' then '\n' else c) :: unifyLineEnds rest

def isLineEnd (c : Char) : Bool := c == '\n' || c == '\u2028' || c == '\u2029'

def isBlank (c : Char) : Bool := c == ' ' || c == '\t'

def isDigit (c : Char) : Bool := '0' ≤ c && c ≤ '9'

/-- Letters, digits, the hyphen and the underscore, in ASCII. -/
def isWordChar (c : Char) : Bool :=
  isDigit c || ('a' ≤ c && c ≤ 'z') || ('A' ≤ c && c ≤ 'Z') || c == '-' || c == '_'

def hexValue? (c : Char) : Option Nat :=
  if isDigit c then some (c.toNat - '0'.toNat)
  else if 'a' ≤ c ∧ c ≤ 'f' then some (c.toNat - 'a'.toNat + 10)
  else if 'A' ≤ c ∧ c ≤ 'F' then some (c.toNat - 'A'.toNat + 10)
  else none

/-- The value of hexadecimal digits, read from the left. -/
def hexNumber? : List Char → Nat → Option Nat
  | [], n => some n
  | c :: rest, n => (hexValue? c).bind fun d => hexNumber? rest (n * 16 + d)

/-- Nothing follows, or a blank or a line end does. -/
def atGap : List Char → Bool
  | [] => true
  | c :: _ => isBlank c || isLineEnd c

/-- Nothing follows, or a line end does. -/
def atLineEnd : List Char → Bool
  | [] => true
  | c :: _ => isLineEnd c

/-- The mark between documents stands here: three equal characters, then a gap. -/
def atDocumentMark (mark : Char) : List Char → Bool
  | a :: b :: c :: rest => a == mark && b == mark && c == mark && atGap rest
  | _ => false

/-- Either mark between documents stands here. -/
def atAnyDocumentMark (cs : List Char) : Bool := atDocumentMark '-' cs || atDocumentMark '.' cs

/-! ## Cursors -/

/-- A place in a text: the number of bytes before it, its line, and the characters before it on
    that line. -/
structure Mark where
  offset : Nat
  line : Nat
  column : Nat

/-- The place after a character. -/
def Mark.after (m : Mark) (c : Char) : Mark :=
  if isLineEnd c then ⟨m.offset + c.utf8Size, m.line + 1, 0⟩
  else ⟨m.offset + c.utf8Size, m.line, m.column + 1⟩

/-- What is left of a text, and the place reached. -/
structure Cursor where
  rest : List Char
  mark : Mark

namespace Cursor

def ofText (cs : List Char) : Cursor := ⟨cs, ⟨0, 0, 0⟩⟩

def column (c : Cursor) : Nat := c.mark.column

def peek? (c : Cursor) : Option Char := c.rest.head?

/-- Past the next character. -/
def skip (c : Cursor) : Cursor :=
  match c.rest with
  | [] => c
  | ch :: rest => ⟨rest, c.mark.after ch⟩

/-- Past the next `n` characters. -/
def skipMany : Nat → Cursor → Cursor
  | 0, c => c
  | n + 1, c => skipMany n c.skip

/-- The characters that satisfy a test, and the place after them. -/
def span (p : Char → Bool) (c : Cursor) : List Char × Cursor :=
  let taken := c.rest.takeWhile p
  (taken, c.skipMany taken.length)

def skipWhile (p : Char → Bool) (c : Cursor) : Cursor := (c.span p).2

/-- To the end of the line. -/
def skipLine (c : Cursor) : Cursor := c.skipWhile (!isLineEnd ·)

/-- Past blanks and a comment, to the end of the line; there must be nothing else on it. -/
def skipToLineEnd? (c : Cursor) : Option Cursor :=
  let c := c.skipWhile isBlank
  let c := if c.peek? == some '#' then c.skipLine else c
  if atLineEnd c.rest then some c.skip else none

end Cursor

end WebStory.Yaml
