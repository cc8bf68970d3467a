import WebStory.Yaml.Scalar
import WebStory.Yaml.Property
/-
  From a YAML text to its tokens.

  Two things make this more than a split into words.  In block style indentation opens and closes
  collections: a deeper column opens one (`Scanner.roll`), a lesser column closes all that are
  deeper (`Scanner.unroll`).  And a key need not be announced: what turns out to be a key when
  its colon is met gets its `key` token afterwards.  For this the scanner remembers, for each
  flow collection that is open and for the block around them, where such a simple key may have
  begun.
-/

namespace WebStory.Yaml

/-- Where a simple key may have begun. -/
structure SimpleKey where
  /-- Without a colon to it the text is wrong. -/
  required : Bool
  /-- The number of tokens before it. -/
  position : Nat
  mark : Mark

/-- The state of the scanner. -/
structure Scanner where
  cursor : Cursor
  /-- The tokens found, last first. -/
  tokens : List Token
  /-- The column of the innermost open block, if there is one, and those of the blocks around it. -/
  indents : List Nat
  /-- A simple key may begin here. -/
  keyAllowed : Bool
  /-- The possible simple key of the innermost open flow collection, or of the block. -/
  key : Option SimpleKey
  /-- The possible simple keys outside each open flow collection, innermost first. -/
  outerKeys : List (Option SimpleKey)

namespace Scanner

/-- The scanner before the first character. -/
def start (cs : List Char) : Scanner := ⟨.ofText cs, [], [], true, none, []⟩

def inFlow (s : Scanner) : Bool := !s.outerKeys.isEmpty

/-- The column from which the content of the innermost block may begin. -/
def contentColumn (s : Scanner) : Nat :=
  match s.indents with
  | [] => 0
  | column :: _ => column + 1

def emit (s : Scanner) (t : Token) : Scanner := { s with tokens := t :: s.tokens }

/-- Puts a token behind the first `position` ones. -/
def emitAt (s : Scanner) (position : Nat) (t : Token) : Scanner :=
  { s with tokens := s.tokens.insertIdx (s.tokens.length - position) t }

def allowKey (s : Scanner) (allowed : Bool) : Scanner := { s with keyAllowed := allowed }

def moveTo (s : Scanner) (c : Cursor) : Scanner := { s with cursor := c }

/-! ## Blocks -/

/-- The column lies deeper than the innermost block. -/
def deeper (s : Scanner) (column : Nat) : Bool :=
  match s.indents with
  | [] => true
  | top :: _ => top < column

/-- Opens a block at a column deeper than the innermost one; its token goes where `put` says. -/
def roll (s : Scanner) (column : Nat) (put : Scanner → Token → Scanner) (t : Token) : Scanner :=
  if !s.inFlow && s.deeper column then put { s with indents := column :: s.indents } t else s

/-- Closes the blocks of the list that are deeper than a column; without a column, all. -/
def closeBlocks (column : Option Nat) : List Nat → List Token → List Nat × List Token
  | [], tokens => ([], tokens)
  | top :: rest, tokens =>
    match column with
    | none => closeBlocks column rest (.blockEnd :: tokens)
    | some c => if c < top then closeBlocks column rest (.blockEnd :: tokens) else (top :: rest, tokens)

def unroll (s : Scanner) (column : Option Nat) : Scanner :=
  if s.inFlow then s
  else
    let (indents, tokens) := closeBlocks column s.indents s.tokens
    { s with indents, tokens }

/-! ## Simple keys -/

/-- A simple key lies on one line, within 1024 bytes. -/
def isStale (k : SimpleKey) (m : Mark) : Bool :=
  k.mark.line < m.line || k.mark.offset + 1024 < m.offset

/-- Forgets the possible key; it must not be a required one. -/
def dropKey (s : Scanner) : Option Scanner :=
  match s.key with
  | some k => if k.required then none else some { s with key := none }
  | none => some s

def dropIfStale (m : Mark) : Option SimpleKey → Option (Option SimpleKey)
  | some k => if isStale k m then (if k.required then none else some none) else some (some k)
  | none => some none

/-- Forgets keys that cannot get their colon any more. -/
def dropStaleKeys (s : Scanner) : Option Scanner := do
  let key ← dropIfStale s.cursor.mark s.key
  let outerKeys ← s.outerKeys.mapM (dropIfStale s.cursor.mark)
  some { s with key, outerKeys }

/-- A simple key may begin with the next token.  In block style the first thing at the column of
    the block must be one. -/
def saveKey (s : Scanner) : Option Scanner :=
  if s.keyAllowed then do
    let s ← s.dropKey
    let required := !s.inFlow && s.indents.head? == some s.cursor.column
    some { s with key := some ⟨required, s.tokens.length, s.cursor.mark⟩ }
  else some s

/-! ## Tokens -/

/-- A mark between documents, or a directive, ends all blocks. -/
def endBlocks (s : Scanner) : Option Scanner :=
  return { ← (s.unroll none).dropKey with keyAllowed := false }

def skip (s : Scanner) : Scanner := { s with cursor := s.cursor.skip }

def documentMark (s : Scanner) (t : Token) : Option Scanner :=
  s.endBlocks.map fun s => (s.moveTo (s.cursor.skipMany 3)).emit t

def directive (s : Scanner) : Option Scanner := do
  let s ← s.endBlocks
  let (t, after) ← scanDirective s.cursor
  some ((s.moveTo after).emit t)

def flowStart (s : Scanner) (t : Token) : Option Scanner := do
  let s ← s.saveKey
  some ({ s with key := none, outerKeys := s.key :: s.outerKeys, keyAllowed := true }.skip.emit t)

def flowEnd (s : Scanner) (t : Token) : Option Scanner := do
  let s ← s.dropKey
  let s := match s.outerKeys with
    | [] => s
    | k :: rest => { s with key := k, outerKeys := rest }
  some ((s.allowKey false).skip.emit t)

def flowEntry (s : Scanner) : Option Scanner := do
  some (((← s.dropKey).allowKey true).skip.emit .flowEntry)

/-- In block style, opens a block at this column where the token may stand. -/
def openBlock (s : Scanner) (t : Token) : Option Scanner :=
  if s.inFlow then some s
  else if s.keyAllowed then some (s.roll s.cursor.column emit t)
  else none

def blockEntry (s : Scanner) : Option Scanner := do
  let s ← s.openBlock .blockSequenceStart
  some (((← s.dropKey).allowKey true).skip.emit .blockEntry)

def explicitKey (s : Scanner) : Option Scanner := do
  let s ← s.openBlock .blockMappingStart
  some (((← s.dropKey).allowKey (!s.inFlow)).skip.emit .key)

/-- A colon.  The simple key before it, if one may have begun, gets its tokens now. -/
def value (s : Scanner) : Option Scanner :=
  match s.key with
  | some k =>
    let s := (s.emitAt k.position .key).roll k.mark.column (fun s t => s.emitAt k.position t)
      .blockMappingStart
    some ({ s with key := none, keyAllowed := false }.skip.emit .value)
  | none => do
    let s ← s.openBlock .blockMappingStart
    some ((s.allowKey (!s.inFlow)).skip.emit .value)

/-- A part of a node, which may begin a simple key. -/
def nodePart (s : Scanner) (scan : Cursor → Option (Token × Cursor)) : Option Scanner := do
  let s ← s.saveKey
  let (t, after) ← scan s.cursor
  some (((s.allowKey false).moveTo after).emit t)

def blockScalar (s : Scanner) : Option Scanner := do
  let s ← s.dropKey
  let style := if s.cursor.peek? == some '|' then ScalarStyle.literal else .folded
  let scanned ← scanBlockScalar s.cursor s.contentColumn
  some (((s.allowKey true).moveTo scanned.cursor).emit (.scalar style scanned.text))

def plainScalar (s : Scanner) : Option Scanner := do
  let s ← s.saveKey
  let scanned ← scanPlain s.inFlow s.contentColumn s.cursor.rest s.cursor.mark [] none
  some (((s.allowKey scanned.broken).moveTo scanned.cursor).emit (.scalar .plain scanned.text))

/-! ## The whole text -/

/-- The place of the next token, past blanks, comments and line ends, and whether a simple key may
    begin there.  A line end in block style allows one.  A byte order mark at the start of a line
    is passed over; so are tabs, except where they would count as indentation. -/
def skipToToken (inFlow : Bool) : List Char → Mark → Bool → Bool → Cursor × Bool
  | [], m, allowed, _ => (⟨[], m⟩, allowed)
  | c :: rest, m, allowed, inComment =>
    if isLineEnd c then skipToToken inFlow rest (m.after c) (allowed || !inFlow) false
    else if inComment then skipToToken inFlow rest (m.after c) allowed true
    else if c == '\uFEFF' && m.column == 0 then skipToToken inFlow rest (m.after c) allowed false
    else if c == ' ' || (c == '\t' && (inFlow || !allowed)) then
      skipToToken inFlow rest (m.after c) allowed false
    else if c == '#' then skipToToken inFlow rest (m.after c) allowed true
    else (⟨c :: rest, m⟩, allowed)

/-- A plain scalar may begin here. -/
def beginsPlain (inFlow : Bool) : List Char → Bool
  | [] => false
  | c :: rest =>
    if c == '-' then
      match rest with
      | [] => true
      | d :: _ => !isBlank d
    else if c == '?' || c == ':' then !inFlow && !atGap rest
    else
      !isBlank c && !isLineEnd c && !isFlowIndicator c &&
        !(['#', '&', '*', '!', '|', '>', '\'', '"', '%', '@', '`'].contains c)

/-- The next token, from its first character. -/
def token (s : Scanner) (c : Char) (rest : List Char) : Option Scanner :=
  let indicator := s.inFlow || atGap rest
  if s.cursor.column == 0 && c == '%' then s.directive
  else if s.cursor.column == 0 && atDocumentMark '-' (c :: rest) then s.documentMark .documentStart
  else if s.cursor.column == 0 && atDocumentMark '.' (c :: rest) then s.documentMark .documentEnd
  else if c == '[' then s.flowStart .flowSequenceStart
  else if c == '\x7b' then s.flowStart .flowMappingStart
  else if c == ']' then s.flowEnd .flowSequenceEnd
  else if c == '\x7d' then s.flowEnd .flowMappingEnd
  else if c == ',' then s.flowEntry
  else if c == '-' && atGap rest then s.blockEntry
  else if c == '?' && indicator then s.explicitKey
  else if c == ':' && indicator then s.value
  else if c == '*' then s.nodePart fun c => (scanName c).map fun (n, after) => (.alias n, after)
  else if c == '&' then s.nodePart fun c => (scanName c).map fun (n, after) => (.anchor n, after)
  else if c == '!' then s.nodePart fun c => (scanTag s.inFlow c).map fun (t, after) => (.tag t, after)
  else if (c == '|' || c == '>') && !s.inFlow then s.blockScalar
  else if c == '\'' || c == '"' then
    s.nodePart fun c => (scanQuoted c).map fun r => (.scalar .quoted r.text, r.cursor)
  else if beginsPlain s.inFlow (c :: rest) then s.plainScalar
  else none

/-- To the next token: what lies between is passed over, and blocks that end are closed. -/
def advance (s : Scanner) : Option Scanner := do
  let (cursor, keyAllowed) := skipToToken s.inFlow s.cursor.rest s.cursor.mark s.keyAllowed false
  let s ← { s with cursor, keyAllowed }.dropStaleKeys
  some (s.unroll (some s.cursor.column))

/-- All tokens.  Every round takes a token of at least one character, so as many rounds as there
    are characters, and one for the end, are enough. -/
def scanAll : Nat → Scanner → Option (List Token)
  | 0, _ => none
  | fuel + 1, s => do
    let s ← s.advance
    match s.cursor.rest with
    | [] => (s.unroll none).dropKey.map (·.tokens.reverse)
    | c :: rest => scanAll fuel (← s.token c rest)

end Scanner

/-- The tokens of a text; `none` if it is not YAML. -/
def scan (text : String) : Option (List Token) :=
  if text.toList.all isAllowed then
    let cs := unifyLineEnds text.toList
    Scanner.scanAll (cs.length + 1) (.start cs)
  else none

end WebStory.Yaml
