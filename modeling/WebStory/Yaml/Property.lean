import WebStory.Yaml.Token
/-
  Anchors, tags and directives of a YAML text.
-/

namespace WebStory.Yaml

/-! ## Anchors and aliases -/

/-- What may stand right after the name of an anchor. -/
def endsName (cs : List Char) : Bool :=
  atGap cs || match cs with
    | c :: _ => ['?', ':', ',', ']', '\x7d', '%', '@', '`'].contains c
    | [] => true

/-- The name of an anchor or an alias, from its indicator. -/
def scanName (c : Cursor) : Option (List Char × Cursor) :=
  let (name, after) := c.skip.span isWordChar
  if name.isEmpty || !endsName after.rest then none else some (name, after)

/-! ## Tags -/

/-- Characters of a tag.  Where a tag stands between angle brackets, and in a directive, flow
    indicators are among them. -/
def isTagChar (delimited : Bool) (c : Char) : Bool :=
  isWordChar c || ";/?:@&=+$.!~*'()".toList.contains c || (delimited && [',', '[', ']'].contains c)

/-- How many octets a character has whose first octet this is. -/
def octetCount? (lead : Nat) : Option Nat :=
  if lead < 0x80 then some 1
  else if lead / 0x20 = 6 then some 2
  else if lead / 0x10 = 14 then some 3
  else if lead / 8 = 30 then some 4
  else none

/-- The octets of a tag's text and the characters after it.  An escape gives one octet; the
    octets of one character, which its first one counts, are all escaped.  `due` octets of a
    character are still to come. -/
def tagOctets (delimited : Bool) : Nat → Nat → List Char → Option (Octets × Nat)
  | due, read, '%' :: a :: b :: rest => do
    let octet ← hexNumber? [a, b] 0
    let due ← if due = 0 then (octetCount? octet).map (· - 1)
      else if octet / 0x40 = 2 then some (due - 1) else none
    let (octets, n) ← tagOctets delimited due (read + 3) rest
    some (octet :: octets, n)
  | due, read, c :: rest =>
    if 0 < due ∨ c = '%' then none
    else if isTagChar delimited c then do
      let (octets, n) ← tagOctets delimited 0 (read + 1) rest
      some (c.toNat :: octets, n)
    else some ([], read)
  | due, read, [] => if 0 < due then none else some ([], read)

/-- Octets up to the first null octet. -/
def untilNull (octets : Octets) : Octets := octets.takeWhile (· != 0)

def octetsOf (cs : List Char) : Octets := cs.map Char.toNat

/-- The text of a tag, which follows `start`; it is empty only after a start that is not. -/
def scanTagText (delimited : Bool) (start : Octets) (c : Cursor) : Option (Octets × Cursor) := do
  let (octets, n) ← tagOctets delimited 0 0 c.rest
  if start.isEmpty && n == 0 then none else some (untilNull (start.drop 1 ++ octets), c.skipMany n)

/-- The handle of a tag: `!`, and word characters closed by another `!` where there is one. -/
def scanTagHandle (c : Cursor) : Option (Octets × Cursor) :=
  if c.peek? == some '!' then
    let (word, after) := c.skip.span isWordChar
    if after.peek? == some '!' then some (octetsOf ('!' :: word ++ ['!']), after.skip)
    else some (octetsOf ('!' :: word), after)
  else none

/-- The handle of tags that have no handle of their own. -/
def primaryHandle : Octets := octetsOf ['!']

def secondaryHandle : Octets := octetsOf ['!', '!']

/-- A handle that is closed. -/
def isClosedHandle (handle : Octets) : Bool :=
  2 ≤ handle.length && handle.getLast? == some '!'.toNat

/-- A tag, from its indicator. -/
def scanTag (inFlow : Bool) (c : Cursor) : Option (WrittenTag × Cursor) := do
  let (tag, after) ← if c.skip.peek? == some '<' then do
      let (suffix, after) ← scanTagText true [] c.skip.skip
      if after.peek? == some '>' then some (⟨[], suffix⟩, after.skip) else none
    else do
      let (handle, after) ← scanTagHandle c
      if isClosedHandle handle then do
        let (suffix, after) ← scanTagText false [] after
        some (⟨handle, suffix⟩, after)
      else do
        let (suffix, after) ← scanTagText false handle after
        some (if suffix.isEmpty then ⟨[], primaryHandle⟩ else ⟨primaryHandle, suffix⟩, after)
  if atGap after.rest || (inFlow && after.peek? == some ',') then some (tag, after) else none

/-! ## Directives -/

/-- A number of at most nine digits. -/
def scanVersionNumber (c : Cursor) : Option (Nat × Cursor) :=
  let (digits, after) := c.span isDigit
  if digits.isEmpty || 9 < digits.length then none
  else some (digits.foldl (fun n d => n * 10 + (d.toNat - '0'.toNat)) 0, after)

def scanVersion (c : Cursor) : Option (Token × Cursor) := do
  let (major, after) ← scanVersionNumber (c.skipWhile isBlank)
  if after.peek? == some '.' then
    let (minor, after) ← scanVersionNumber after.skip
    some (.versionDirective major minor, after)
  else none

def scanTagDirective (c : Cursor) : Option (Token × Cursor) := do
  let (handle, after) ← scanTagHandle (c.skipWhile isBlank)
  if handle == primaryHandle || isClosedHandle handle then
    let blanks := after.rest.takeWhile isBlank
    if blanks.isEmpty then none
    else
      let (start, after) ← scanTagText true [] (after.skipMany blanks.length)
      if atGap after.rest then some (.tagDirective handle start, after) else none
  else none

/-- A directive, from its indicator to the end of its line. -/
def scanDirective (c : Cursor) : Option (Token × Cursor) := do
  let (name, after) := c.skip.span isWordChar
  if !atGap after.rest then none
  else
    let (token, after) ← if name = "YAML".toList then scanVersion after
      else if name = "TAG".toList then scanTagDirective after
      else none
    let after ← after.skipToLineEnd?
    some (token, after)

end WebStory.Yaml
