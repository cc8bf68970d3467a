import WebStory.Json.Value
import WebStory.Json.SyntaxError
import WebStory.Number.Scale
/-
  Reading JSON text.

  The reader takes the text one character at a time.  Its state is what the innermost open
  container is waiting for (`Phase`), and the containers around that one (`Context`).  So the
  reader is a fold over the text.

  A repeated key keeps its first place and takes the last value.  A value nested in more than
  127 containers is refused, as is a number beyond the finite range.

  Of the digits of a number so many are taken as fit into 64 bits, those of the whole part and then
  those behind the point.  An integer that fits is an integer; all other numbers are floating-point,
  made of the digits taken and a power of ten, in two roundings (`Binary64.ofScaled?`).
-/

namespace WebStory.Json

/-! ## The parts of a value that is being read -/

/-- Where the reader stands inside an escape of a string. -/
inductive Escape where
  /-- Not in an escape. -/
  | none
  /-- After a backslash. -/
  | begun
  /-- In the four bytes after `\u`: the bytes read, their value, whether all were digits, and the
      offset where the four bytes end.  `high` is the surrogate of the escape before. -/
  | digits (high : Option Nat) (value : Nat) (sound : Bool) (stop : Nat)
  /-- After a leading surrogate, when a backslash is due. -/
  | backslashDue (high : Nat)
  /-- After a leading surrogate and a backslash, when `u` is due. -/
  | letterDue (high : Nat)

/-- A string that is being read: its characters, last first. -/
structure OpenString where
  chars : List Char
  escape : Escape

/-- The part of a number that was read last. -/
inductive NumberPart where
  | sign
  | zero
  | whole
  | point
  | fraction
  | mark
  | markSign
  | exponent
deriving DecidableEq

/-- A number that is being read. -/
structure OpenNumber where
  part : NumberPart
  negative : Bool
  /-- The digits that were taken as one natural number. -/
  significand : Nat
  /-- The power of ten it counts, as far as that is known from where the digits stand. -/
  scale : Int
  /-- A digit of this part did not fit. -/
  full : Bool
  /-- A point or an exponent was seen. -/
  fractional : Bool
  exponentNegative : Bool
  exponent : Nat
  /-- The exponent left the 32-bit range, and the number is zero. -/
  vanished : Bool

/-- What the reader is waiting for. -/
inductive Phase where
  /-- A value that stands alone or after a colon. -/
  | value
  /-- An item of a list; `first` when the list was just opened. -/
  | item (done : List Value) (first : Bool)
  | afterItem (done : List Value)
  /-- A key of an object; `first` when the object was just opened. -/
  | key (done : Members) (first : Bool)
  | keyText (done : Members) (text : OpenString)
  | colon (done : Members) (key : String)
  | afterMember (done : Members)
  | string (text : OpenString)
  | number (n : OpenNumber)
  /-- The rest of `true`, `false` or `null`. -/
  | literal (rest : List Char) (value : Value)
  | finished (value : Value)

/-- A container around the value that is being read. -/
inductive Context where
  | list (done : List Value)
  | member (done : Members) (key : String)

/-- The state of the reader. -/
structure ReaderState where
  phase : Phase
  around : List Context

/-- A fault, with the number of bytes read when it is known. -/
structure FaultAt where
  fault : SyntaxFault
  offset : Nat

/-! ## Steps -/

/-- A value is complete: it goes into the container around it. -/
def complete (v : Value) : List Context → ReaderState
  | [] => ⟨.finished v, []⟩
  | .list done :: around => ⟨.afterItem (v :: done), around⟩
  | .member done key :: around => ⟨.afterMember (Entries.set done key v), around⟩

/-- The deepest nesting of containers. -/
def depthLimit : Nat := 127

def isSpace (c : Char) : Bool := c == ' ' || c == '\n' || c == '\t' || c == '\r'

/-- The value of a hexadecimal digit. -/
def hexValue? (c : Char) : Option Nat :=
  if '0' ≤ c ∧ c ≤ '9' then some (c.toNat - '0'.toNat)
  else if 'a' ≤ c ∧ c ≤ 'f' then some (c.toNat - 'a'.toNat + 10)
  else if 'A' ≤ c ∧ c ≤ 'F' then some (c.toNat - 'A'.toNat + 10)
  else none

def digitValue? (c : Char) : Option Nat :=
  if '0' ≤ c ∧ c ≤ '9' then some (c.toNat - '0'.toNat) else none

/-- A number begins. -/
def OpenNumber.start (part : NumberPart) (negative : Bool) (digit : Nat) : OpenNumber :=
  ⟨part, negative, digit, 0, false, false, false, 0, false⟩

/-- The largest significand. -/
def significandLimit : Nat := 18446744073709551615

/-- A digit before the point.  The first one that does not fit and all behind it are left out, and
    count as zeros. -/
def OpenNumber.takeWhole (n : OpenNumber) (d : Nat) : OpenNumber :=
  if n.full ∨ significandLimit < n.significand * 10 + d then
    { n with full := true, scale := n.scale + 1 }
  else { n with significand := n.significand * 10 + d }

/-- A digit behind the point.  The first one that does not fit and all behind it are left out. -/
def OpenNumber.takePlace (n : OpenNumber) (d : Nat) : OpenNumber :=
  if n.full ∨ significandLimit < n.significand * 10 + d then { n with full := true }
  else { n with significand := n.significand * 10 + d, scale := n.scale - 1 }

/-- The power of ten that the significand counts. -/
def OpenNumber.power (n : OpenNumber) : Int :=
  (if n.exponentNegative then -(n.exponent : Int) else n.exponent) + n.scale

/-- The value of a number whose text is complete: an integer where it has neither point nor
    exponent and fits, else a floating-point number.  Minus zero is floating-point, as no integer has
    a sign at zero. -/
def OpenNumber.value? (n : OpenNumber) : Option Number :=
  let asFloat := (Binary64.ofScaled? n.negative n.significand n.power).map Number.float
  if n.vanished then some (.float (Binary64.zero n.negative))
  else if n.fractional ∨ n.full then asFloat
  else
    let value : Int := if n.negative then -(n.significand : Int) else n.significand
    if h : InRange value then
      if n.negative ∧ n.significand = 0 then asFloat else some (.int value h)
    else asFloat

/-- The number can end here. -/
def OpenNumber.mayEnd (n : OpenNumber) : Bool :=
  match n.part with
  | .zero | .whole | .fraction | .exponent => true
  | _ => false

/-- What a character does to a number: extends it, ends it, or is wrong there. -/
inductive NumberStep where
  | extended (n : OpenNumber)
  | ended
  | wrong (fault : SyntaxFault)

/-- The largest exponent whose digits are still added up. -/
def exponentLimit : Nat := 2147483647

def OpenNumber.step (n : OpenNumber) (c : Char) : NumberStep :=
  match n.part, digitValue? c with
  | .sign, some d =>
    .extended { n with part := if d = 0 then .zero else .whole, significand := d }
  | .zero, some _ => .wrong .invalidNumber
  | .whole, some d => .extended (n.takeWhole d)
  | .point, some d | .fraction, some d => .extended { n.takePlace d with part := .fraction }
  | .mark, some d | .markSign, some d => .extended { n with part := .exponent, exponent := d }
  | .exponent, some d =>
    if n.vanished then .extended n
    else if exponentLimit < n.exponent * 10 + d then
      if n.significand ≠ 0 ∧ !n.exponentNegative then .wrong .numberOutOfRange
      else .extended { n with vanished := true }
    else .extended { n with exponent := n.exponent * 10 + d }
  | part, none =>
    match part with
    | .sign | .point | .markSign => .wrong .invalidNumber
    | .mark =>
      if c = '+' then .extended { n with part := .markSign }
      else if c = '-' then .extended { n with part := .markSign, exponentNegative := true }
      else .wrong .invalidNumber
    | .zero | .whole =>
      if c = '.' then .extended { n with part := .point, fractional := true, full := false }
      else if c = 'e' ∨ c = 'E' then .extended { n with part := .mark, fractional := true }
      else .ended
    | .fraction => if c = 'e' ∨ c = 'E' then .extended { n with part := .mark } else .ended
    | .exponent => .ended

/-- Begins the value that `c` is the first character of, inside `around`. -/
def beginValue (around : List Context) (offset : Nat) (c : Char) : Except FaultAt ReaderState :=
  if c = '[' then
    if around.length < depthLimit then .ok ⟨.item [] true, around⟩ else .error ⟨.tooDeep, offset + 1⟩
  else if c = '\x7b' then
    if around.length < depthLimit then .ok ⟨.key [] true, around⟩ else .error ⟨.tooDeep, offset + 1⟩
  else if c = '"' then .ok ⟨.string ⟨[], .none⟩, around⟩
  else if c = '-' then .ok ⟨.number (.start .sign true 0), around⟩
  else if c = 't' then .ok ⟨.literal ['r', 'u', 'e'] (.bool true), around⟩
  else if c = 'f' then .ok ⟨.literal ['a', 'l', 's', 'e'] (.bool false), around⟩
  else if c = 'n' then .ok ⟨.literal ['u', 'l', 'l'] .null, around⟩
  else
    match digitValue? c with
    | some d => .ok ⟨.number (.start (if d = 0 then .zero else .whole) false d), around⟩
    | none => .error ⟨.expectedValue, offset + 1⟩

/-- What a character does to a string: it goes on, or the string is closed. -/
inductive StringStep where
  | more (s : OpenString)
  | closed (text : String)

/-- The character of a one-letter escape. -/
def unescape? (c : Char) : Option Char :=
  if c = '"' then some '"'
  else if c = '\\' then some '\\'
  else if c = '/' then some '/'
  else if c = 'b' then some '\x08'
  else if c = 'f' then some '\x0c'
  else if c = 'n' then some '\n'
  else if c = 'r' then some '\r'
  else if c = 't' then some '\t'
  else none

def isLeadingSurrogate (n : Nat) : Bool := 0xD800 ≤ n && n ≤ 0xDBFF
def isTrailingSurrogate (n : Nat) : Bool := 0xDC00 ≤ n && n ≤ 0xDFFF

/-- The four bytes after `\u` are complete, at a character that starts at `offset`. -/
def OpenString.closeEscape (s : OpenString) (high : Option Nat) (value offset : Nat) :
    Except FaultAt OpenString :=
  match high with
  | none =>
    if isLeadingSurrogate value then .ok { s with escape := .backslashDue value }
    else if isTrailingSurrogate value then .error ⟨.loneSurrogate, offset + 1⟩
    else .ok ⟨Char.ofNat value :: s.chars, .none⟩
  | some h =>
    if isTrailingSurrogate value then
      .ok ⟨Char.ofNat (0x10000 + (h - 0xD800) * 0x400 + (value - 0xDC00)) :: s.chars, .none⟩
    else .error ⟨.loneSurrogate, offset + 1⟩

def OpenString.step (s : OpenString) (offset : Nat) (c : Char) : Except FaultAt StringStep :=
  match s.escape with
  | .none =>
    if c = '"' then .ok (.closed (String.ofList s.chars.reverse))
    else if c = '\\' then .ok (.more { s with escape := .begun })
    else if c.toNat < 32 then .error ⟨.controlCharacter, offset + 1⟩
    else .ok (.more ⟨c :: s.chars, .none⟩)
  | .begun =>
    if c = 'u' then .ok (.more { s with escape := .digits none 0 true (offset + 5) })
    else
      match unescape? c with
      | some d => .ok (.more ⟨d :: s.chars, .none⟩)
      | none => .error ⟨.invalidEscape, offset + 1⟩
  | .digits high value sound stop =>
    let (value, sound) := match hexValue? c with
      | some d => (value * 16 + d, sound)
      | none => (value, false)
    if offset + c.utf8Size < stop then .ok (.more { s with escape := .digits high value sound stop })
    else if sound then (s.closeEscape high value offset).map .more
    else .error ⟨.invalidEscape, stop⟩
  | .backslashDue high =>
    if c = '\\' then .ok (.more { s with escape := .letterDue high })
    else .error ⟨.endOfHexEscape, offset + 1⟩
  | .letterDue high =>
    if c = 'u' then .ok (.more { s with escape := .digits (some high) 0 true (offset + 5) })
    else .error ⟨.endOfHexEscape, offset + 1⟩

/-- A character where no value is open: between the parts of a container, or at its ends. -/
def stepBetween (s : ReaderState) (offset : Nat) (c : Char) : Except FaultAt ReaderState :=
  if isSpace c then .ok s
  else
    match s.phase with
    | .item done first =>
      if c = ']' then
        if first then .ok (complete (.array done.reverse) s.around)
        else .error ⟨.trailingComma, offset + 1⟩
      else beginValue (.list done :: s.around) offset c
    | .afterItem done =>
      if c = ',' then .ok ⟨.item done false, s.around⟩
      else if c = ']' then .ok (complete (.array done.reverse) s.around)
      else .error ⟨.expectedCommaOrBracket, offset + 1⟩
    | .key done first =>
      if c = '"' then .ok ⟨.keyText done ⟨[], .none⟩, s.around⟩
      else if c = '\x7d' then
        if first then .ok (complete (.object done) s.around)
        else .error ⟨.trailingComma, offset + 1⟩
      else .error ⟨.keyNotString, offset + 1⟩
    | .colon done key =>
      if c = ':' then .ok ⟨.value, .member done key :: s.around⟩
      else .error ⟨.expectedColon, offset + 1⟩
    | .afterMember done =>
      if c = ',' then .ok ⟨.key done false, s.around⟩
      else if c = '\x7d' then .ok (complete (.object done) s.around)
      else .error ⟨.expectedCommaOrBrace, offset + 1⟩
    | .value => beginValue s.around offset c
    | _ => .error ⟨.trailingCharacters, offset + 1⟩

/-- One character, which starts `offset` bytes into the text. -/
def step (s : ReaderState) (offset : Nat) (c : Char) : Except FaultAt ReaderState :=
  match s.phase with
  | .keyText done text => do
    match ← text.step offset c with
    | .more text => .ok ⟨.keyText done text, s.around⟩
    | .closed key => .ok ⟨.colon done key, s.around⟩
  | .string text => do
    match ← text.step offset c with
    | .more text => .ok ⟨.string text, s.around⟩
    | .closed text => .ok (complete (.string text) s.around)
  | .number n =>
    match n.step c with
    | .extended n => .ok ⟨.number n, s.around⟩
    | .wrong fault => .error ⟨fault, offset + 1⟩
    | .ended =>
      match n.value? with
      | some value => stepBetween (complete (.number value) s.around) offset c
      | none => .error ⟨.numberOutOfRange, offset⟩
  | .literal rest value =>
    match rest with
    | [] => .error ⟨.expectedIdent, offset + 1⟩
    | [d] => if c = d then .ok (complete value s.around) else .error ⟨.expectedIdent, offset + 1⟩
    | d :: rest =>
      if c = d then .ok ⟨.literal rest value, s.around⟩ else .error ⟨.expectedIdent, offset + 1⟩
  | _ => stepBetween s offset c

/-- The text ends. -/
def ReaderState.atEnd (s : ReaderState) : Except SyntaxFault Value :=
  match s.phase with
  | .finished v => .ok v
  | .number n =>
    if n.mayEnd then
      match n.value?, s.around with
      | none, _ => .error .numberOutOfRange
      | some value, [] => .ok (.number value)
      | some _, .list _ :: _ => .error .endInList
      | some _, .member _ _ :: _ => .error .endInObject
    else .error .endInValue
  | .value | .literal _ _ => .error .endInValue
  | .item _ first => .error (if first then .endInList else .endInValue)
  | .afterItem _ => .error .endInList
  | .key _ first => .error (if first then .endInObject else .endInValue)
  | .colon _ _ | .afterMember _ => .error .endInObject
  | .keyText _ _ | .string _ => .error .endInString

/-! ## Whole texts -/

/-- Reads characters from a state, the first of them `offset` bytes into the text.  The answer
    is the state and the offset reached. -/
def run : List Char → Nat → ReaderState → Except FaultAt (ReaderState × Nat)
  | [], offset, s => .ok (s, offset)
  | c :: rest, offset, s =>
    match step s offset c with
    | .ok s => run rest (offset + c.utf8Size) s
    | .error e => .error e

/-- Reads a whole text. -/
def parse (text : String) : Except SyntaxError Value :=
  let chars := text.toList
  let failure (e : FaultAt) : SyntaxError := ⟨e.fault, .ofOffset chars e.offset⟩
  match run chars 0 ⟨.value, []⟩ with
  | .error e => .error (failure e)
  | .ok (s, offset) => s.atEnd.mapError fun fault => failure ⟨fault, offset⟩

end WebStory.Json
