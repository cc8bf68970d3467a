import WebStory.Yaml.Token
/-
  Scalars of a YAML text.

  In plain and quoted scalars white space is a gap: blanks inside a line stay, a single line end
  becomes a space, and of several line ends the first is dropped.  In block scalars the lines
  are taken as they stand, or folded by a rule of their own.  All functions here go through the
  characters once, from left to right, and gather the text last character first.
-/

namespace WebStory.Yaml

/-- A scalar's text, and the place after it. -/
structure Scanned where
  text : List Char
  cursor : Cursor

/-! ## Gaps -/

/-- White space inside a scalar: the blanks on the first line, then the line ends.  `broken` says
    that a line has ended; the first line end is missing where it was escaped. -/
structure Gap where
  blanks : List Char
  broken : Bool
  first : Option Char
  others : List Char

namespace Gap

def empty : Gap := ⟨[], false, none, []⟩

/-- A line end that was escaped. -/
def escapedLineEnd : Gap := ⟨[], true, none, []⟩

/-- A blank counts only before the first line end. -/
def blank (g : Gap) (c : Char) : Gap := if g.broken then g else { g with blanks := c :: g.blanks }

def lineEnd (g : Gap) (c : Char) : Gap :=
  if g.broken then { g with others := c :: g.others }
  else ⟨[], true, some c, []⟩

def add (g : Gap) (c : Char) : Gap := if isBlank c then g.blank c else g.lineEnd c

/-- The text of a gap, last character first. -/
def text (g : Gap) : List Char :=
  if g.broken then
    if g.first = some '\n' then (if g.others.isEmpty then [' '] else g.others)
    else g.others ++ g.first.toList
  else g.blanks

end Gap

/-- The gap that is open, if any, goes into the text. -/
def joinGap (text : List Char) : Option Gap → List Char
  | some g => g.text ++ text
  | none => text

/-! ## Quoted scalars -/

/-- The character of a code point that an escape gives; surrogates have none. -/
def charOfCode? (n : Nat) : Option Char :=
  if (n < 0xD800 ∨ 0xDFFF < n) ∧ n ≤ 0x10FFFF then some (Char.ofNat n) else none

/-- The character of a one-letter escape. -/
def escapeChar? (c : Char) : Option Char :=
  match c with
  | '0' => some '\x00'
  | 'a' => some '\x07'
  | 'b' => some '\x08'
  | 't' | '\t' => some '\t'
  | 'n' => some '\n'
  | 'v' => some '\x0b'
  | 'f' => some '\x0c'
  | 'r' => some '\r'
  | 'e' => some '\x1b'
  | ' ' => some ' '
  | '"' => some '"'
  | '/' => some '/'
  | '\\' => some '\\'
  | 'N' => some '\u0085'
  | '_' => some '\u00a0'
  | 'L' => some '\u2028'
  | 'P' => some '\u2029'
  | _ => none

/-- How many hexadecimal digits follow the letter of an escape. -/
def escapeDigits? (c : Char) : Option Nat :=
  match c with
  | 'x' => some 2
  | 'u' => some 4
  | 'U' => some 8
  | _ => none

/-- Where the reader of a quoted scalar stands. -/
inductive QuotedPhase where
  | content
  | gap (g : Gap)
  /-- After a backslash. -/
  | escape
  /-- In the digits of an escape. -/
  | digits (left : Nat) (value : Nat)
  /-- After a single quote, which another one makes part of the text. -/
  | quote

/-- The rest of a scalar in double quotes. -/
def scanDouble : List Char → Mark → List Char → QuotedPhase → Option Scanned
  | [], _, _, _ => none
  | c :: rest, m, text, .escape =>
    if isLineEnd c then scanDouble rest (m.after c) text (.gap .escapedLineEnd)
    else
      match escapeDigits? c with
      | some n => scanDouble rest (m.after c) text (.digits n 0)
      | none => (escapeChar? c).bind fun d => scanDouble rest (m.after c) (d :: text) .content
  | c :: rest, m, text, .digits left value =>
    (hexValue? c).bind fun d =>
      if left ≤ 1 then
        (charOfCode? (value * 16 + d)).bind fun ch => scanDouble rest (m.after c) (ch :: text) .content
      else scanDouble rest (m.after c) text (.digits (left - 1) (value * 16 + d))
  | c :: rest, m, text, phase =>
    let gap := match phase with
      | .gap g => some g
      | _ => none
    if isBlank c || isLineEnd c then
      scanDouble rest (m.after c) text (.gap ((gap.getD .empty).add c))
    else
      let text := joinGap text gap
      if m.column == 0 && atAnyDocumentMark (c :: rest) then none
      else if c = '"' then some ⟨text.reverse, ⟨rest, m.after c⟩⟩
      else if c = '\\' then scanDouble rest (m.after c) text .escape
      else scanDouble rest (m.after c) (c :: text) .content

/-- The rest of a scalar in single quotes. -/
def scanSingle : List Char → Mark → List Char → QuotedPhase → Option Scanned
  | [], m, text, .quote => some ⟨text.reverse, ⟨[], m⟩⟩
  | [], _, _, _ => none
  | c :: rest, m, text, .quote =>
    if c = '\'' then scanSingle rest (m.after c) ('\'' :: text) .content
    else some ⟨text.reverse, ⟨c :: rest, m⟩⟩
  | c :: rest, m, text, phase =>
    let gap := match phase with
      | .gap g => some g
      | _ => none
    if isBlank c || isLineEnd c then
      scanSingle rest (m.after c) text (.gap ((gap.getD .empty).add c))
    else
      let text := joinGap text gap
      if m.column == 0 && atAnyDocumentMark (c :: rest) then none
      else if c = '\'' then scanSingle rest (m.after c) text .quote
      else scanSingle rest (m.after c) (c :: text) .content

/-- A quoted scalar, from the quote that opens it. -/
def scanQuoted (c : Cursor) : Option Scanned :=
  let inside := c.skip
  if c.peek? = some '\'' then scanSingle inside.rest inside.mark [] .content
  else scanDouble inside.rest inside.mark [] .content

/-! ## Plain scalars -/

/-- Characters that separate items in flow style. -/
def isFlowIndicator (c : Char) : Bool :=
  c == ',' || c == '[' || c == ']' || c == '\x7b' || c == '\x7d'

/-- A plain scalar ends before these characters. -/
def endsPlain (inFlow : Bool) : List Char → Bool
  | [] => true
  | c :: rest => (c == ':' && atGap rest) || (inFlow && isFlowIndicator c)

/-- A colon that a plain scalar in flow style must not hold. -/
def misplacedColon (inFlow : Bool) : List Char → Bool
  | ':' :: c :: _ => inFlow && (isFlowIndicator c || c == '?')
  | _ => false

/-- A plain scalar: its text, the place after it and after the white space that follows, and
    whether a line ended there. -/
structure ScannedPlain where
  text : List Char
  cursor : Cursor
  broken : Bool

/-- The rest of a plain scalar, whose further lines are indented by `indent` at least in block
    style. -/
def scanPlain (inFlow : Bool) (indent : Nat) :
    List Char → Mark → List Char → Option Gap → Option ScannedPlain
  | [], m, text, gap => some ⟨text.reverse, ⟨[], m⟩, (gap.map (·.broken)).getD false⟩
  | c :: rest, m, text, gap =>
    if isBlank c || isLineEnd c then
      let g := gap.getD .empty
      if g.broken && m.column < indent && c == '\t' then none
      else scanPlain inFlow indent rest (m.after c) text (some (g.add c))
    else
      let ends := gap.isSome && ((!inFlow && m.column < indent) || c == '#' ||
        (m.column == 0 && atAnyDocumentMark (c :: rest)))
      if !ends && misplacedColon inFlow (c :: rest) then none
      else if ends || endsPlain inFlow (c :: rest) then
        some ⟨text.reverse, ⟨c :: rest, m⟩, (gap.map (·.broken)).getD false⟩
      else scanPlain inFlow indent rest (m.after c) (c :: joinGap text gap) none

/-! ## Block scalars -/

/-- What becomes of the line ends after the last line. -/
inductive Chomping where
  | strip
  | clip
  | keep
deriving DecidableEq, Repr

/-- The header of a block scalar. -/
structure BlockHeader where
  literal : Bool
  chomping : Chomping
  /-- The indentation relative to the parent, where it is given. -/
  increment : Option Nat

def chompingOf? (c : Char) : Option Chomping :=
  if c = '+' then some .keep else if c = '-' then some .strip else none

/-- The chomping and the increment of a header, in either order, and what follows. -/
def headerParts : List Char → Option (Chomping × Option Nat × Nat)
  | a :: b :: _ =>
    match chompingOf? a with
    | some k =>
      if isDigit b then (if b = '0' then none else some (k, some (b.toNat - '0'.toNat), 2))
      else some (k, none, 1)
    | none =>
      if isDigit a then
        if a = '0' then none
        else
          match chompingOf? b with
          | some k => some (k, some (a.toNat - '0'.toNat), 2)
          | none => some (.clip, some (a.toNat - '0'.toNat), 1)
      else some (.clip, none, 0)
  | [a] =>
    match chompingOf? a with
    | some k => some (k, none, 1)
    | none =>
      if isDigit a then (if a = '0' then none else some (.clip, some (a.toNat - '0'.toNat), 1))
      else some (.clip, none, 0)
  | [] => some (.clip, none, 0)

/-- The content of a block scalar while it is read. -/
structure BlockText where
  text : List Char
  /-- The line end after the last line. -/
  lineEnd : Option Char
  /-- The empty lines after it. -/
  emptyLines : List Char
  /-- The last line began with a blank. -/
  blankStart : Bool

/-- A further line begins: what stands between it and the line before goes into the text.  A
    single line end between lines that do not begin with blanks is folded into a space. -/
def BlockText.newLine (b : BlockText) (literal blankStart : Bool) : BlockText :=
  let between :=
    if !literal && b.lineEnd == some '\n' && !b.blankStart && !blankStart then
      if b.emptyLines.isEmpty then [' '] else b.emptyLines
    else b.emptyLines ++ b.lineEnd.toList
  ⟨between ++ b.text, none, [], blankStart⟩

/-- The whole text, with its end chomped. -/
def BlockText.finish (b : BlockText) (chomping : Chomping) : List Char :=
  let ending := match chomping with
    | .strip => []
    | .clip => b.lineEnd.toList
    | .keep => b.emptyLines ++ b.lineEnd.toList
  (ending ++ b.text).reverse

/-- Where the reader of a block scalar stands. -/
inductive BlockPhase where
  /-- In the indentation of a line.  Until the first line with content `indent` may be open; the
      deepest column seen so far then settles it. -/
  | margin (indent : Option Nat) (deepest : Nat)
  | line (indent : Nat)

/-- The rest of a block scalar inside a block indented by `parent` columns. -/
def scanBlock (h : BlockHeader) (parent : Nat) :
    List Char → Mark → BlockText → BlockPhase → Option Scanned
  | [], m, b, _ => some ⟨b.finish h.chomping, ⟨[], m⟩⟩
  | c :: rest, m, b, .line indent =>
    if isLineEnd c then
      scanBlock h parent rest (m.after c) { b with lineEnd := some c }
        (.margin (some indent) 0)
    else scanBlock h parent rest (m.after c) { b with text := c :: b.text } (.line indent)
  | c :: rest, m, b, .margin indent deepest =>
    let deepest := max deepest m.column
    let inMargin := match indent with
      | some i => m.column < i
      | none => true
    if inMargin && c == ' ' then scanBlock h parent rest (m.after c) b (.margin indent deepest)
    else if inMargin && c == '\t' then none
    else if isLineEnd c then
      scanBlock h parent rest (m.after c) { b with emptyLines := c :: b.emptyLines }
        (.margin indent deepest)
    else
      let settled := indent.getD (max deepest (max parent 1))
      if m.column = settled then
        let b := b.newLine h.literal (isBlank c)
        scanBlock h parent rest (m.after c) { b with text := c :: b.text } (.line settled)
      else some ⟨b.finish h.chomping, ⟨c :: rest, m⟩⟩

/-- A block scalar, from its indicator.  `parent` is the column from which its lines may begin. -/
def scanBlockScalar (c : Cursor) (parent : Nat) : Option Scanned := do
  let (chomping, increment, length) ← headerParts c.skip.rest
  let start ← (c.skip.skipMany length).skipToLineEnd?
  let h : BlockHeader := ⟨c.peek? == some '|', chomping, increment⟩
  let indent := increment.map fun n => if parent = 0 then n else parent - 1 + n
  scanBlock h parent start.rest start.mark ⟨[], none, [], false⟩ (.margin indent 0)

end WebStory.Yaml
