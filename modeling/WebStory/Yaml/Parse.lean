import WebStory.Yaml.Node
import WebStory.Yaml.Property
/-
  From tokens to the node tree of a document.

  The parser goes down the grammar, one function for each kind of collection.  A node may be
  missing in many places, as the value of a key or an item of a sequence; an empty scalar stands
  there.  Each function takes the tokens that are left and returns those it leaves.  The fuel is
  for recursion only: every call that is not the first in its chain comes after a token, so
  three times the number of tokens is enough.
-/

namespace WebStory.Yaml

/-- Tag handles and what they stand for. -/
abbrev Handles := List (Octets × Octets)

/-- The tag of the core types begins so. -/
def coreTagStart : Octets := octetsOf "tag:yaml.org,2002:".toList

def standardHandles : Handles :=
  [(primaryHandle, primaryHandle), (secondaryHandle, coreTagStart)]

/-- The whole tag; its handle must be known. -/
def WrittenTag.resolve (handles : Handles) (t : WrittenTag) : Option Octets :=
  if t.handle.isEmpty then some t.suffix
  else (handles.find? (·.1 == t.handle)).map fun h => untilNull h.2 ++ t.suffix

/-- An anchor and a tag, in either order and each at most once. -/
def parseProperties (handles : Handles) (tokens : List Token) : Option (Properties × List Token) :=
  let resolved (anchor : Option (List Char)) (t : WrittenTag) (rest : List Token) :=
    (t.resolve handles).map fun tag => ((⟨anchor, some tag⟩ : Properties), rest)
  match tokens with
  | .anchor a :: .tag t :: rest => resolved (some a) t rest
  | .anchor a :: rest => some (⟨some a, none⟩, rest)
  | .tag t :: .anchor a :: rest => resolved (some a) t rest
  | .tag t :: rest => resolved none t rest
  | _ => some (.none, tokens)

/-- A node, with the tokens that are left. -/
abbrev ParsedNode := Option (Node (List Char) × List Token)

/-- Items of a collection, with the tokens that are left. -/
abbrev ParsedItems := Option (List (Node (List Char)) × List Token)

abbrev ParsedEntries := Option (List (Node (List Char) × Node (List Char)) × List Token)

/-- No content follows the indicator of an item or a value of a block. -/
def endsBlockPart (withEntries : Bool) : List Token → Bool
  | .key :: _ | .value :: _ | .blockEnd :: _ => true
  | .blockEntry :: _ => withEntries
  | _ => false

mutual

/-- A node.  In block style collections may be blocks; `indentless` where a sequence may stand
    without being indented. -/
def parseNode (handles : Handles) (block indentless : Bool) : Nat → List Token → ParsedNode
  | 0, _ => none
  | _ + 1, .alias name :: rest => some (.alias name, rest)
  | fuel + 1, tokens => do
    let (p, tokens) ← parseProperties handles tokens
    match tokens with
    | .blockEntry :: _ =>
      if indentless then
        let (items, rest) ← parseIndentless handles fuel tokens
        some (.sequence p items, rest)
      else if p = .none then none
      else some (.empty p, tokens)
    | .scalar style text :: rest => some (.scalar p style text, rest)
    | .flowSequenceStart :: rest => do
      let (items, rest) ← parseFlowItems handles true fuel rest
      some (.sequence p items, rest)
    | .flowMappingStart :: rest => do
      let (entries, rest) ← parseFlowEntries handles true fuel rest
      some (.mapping p entries, rest)
    | .blockSequenceStart :: rest =>
      if block then do
        let (items, rest) ← parseBlockItems handles fuel rest
        some (.sequence p items, rest)
      else if p = .none then none
      else some (.empty p, tokens)
    | .blockMappingStart :: rest =>
      if block then do
        let (entries, rest) ← parseBlockEntries handles fuel rest
        some (.mapping p entries, rest)
      else if p = .none then none
      else some (.empty p, tokens)
    | _ => if p = .none then none else some (.empty p, tokens)

/-- The items of a block sequence, and its end. -/
def parseBlockItems (handles : Handles) : Nat → List Token → ParsedItems
  | fuel + 1, .blockEntry :: rest => do
    let (item, rest) ← match rest with
      | .blockEntry :: _ | .blockEnd :: _ => some (.empty .none, rest)
      | _ => parseNode handles true false fuel rest
    let (items, rest) ← parseBlockItems handles fuel rest
    some (item :: items, rest)
  | _ + 1, .blockEnd :: rest => some ([], rest)
  | _, _ => none

/-- The items of a sequence that stands at the column of the mapping around it. -/
def parseIndentless (handles : Handles) : Nat → List Token → ParsedItems
  | fuel + 1, .blockEntry :: rest => do
    let (item, rest) ← if endsBlockPart true rest then some (.empty .none, rest)
      else parseNode handles true false fuel rest
    let (items, rest) ← parseIndentless handles fuel rest
    some (item :: items, rest)
  | _ + 1, tokens => some ([], tokens)
  | 0, _ => none

/-- The entries of a block mapping, and its end.  Each begins with a key indicator. -/
def parseBlockEntries (handles : Handles) : Nat → List Token → ParsedEntries
  | fuel + 1, .key :: rest => do
    let (key, rest) ← if endsBlockPart false rest then some (.empty .none, rest)
      else parseNode handles true true fuel rest
    let (value, rest) ← parseBlockValue handles fuel rest
    let (entries, rest) ← parseBlockEntries handles fuel rest
    some ((key, value) :: entries, rest)
  | _ + 1, .blockEnd :: rest => some ([], rest)
  | _, _ => none

/-- The value of a block mapping's key. -/
def parseBlockValue (handles : Handles) : Nat → List Token → ParsedNode
  | fuel + 1, .value :: rest =>
    if endsBlockPart false rest then some (.empty .none, rest)
    else parseNode handles true true fuel rest
  | _ + 1, tokens => some (.empty .none, tokens)
  | 0, _ => none

/-- The items of a flow sequence, and its end.  An item with a key, or just a colon, is a mapping
    of one entry. -/
def parseFlowItems (handles : Handles) (first : Bool) : Nat → List Token → ParsedItems
  | _ + 1, .flowSequenceEnd :: rest => some ([], rest)
  | fuel + 1, tokens => do
    let tokens ← if first then some tokens else match tokens with
      | .flowEntry :: rest => some rest
      | _ => none
    match tokens with
    | .flowSequenceEnd :: rest => some ([], rest)
    | .key :: rest => do
      let (entry, rest) ← parsePair handles fuel rest
      let (items, rest) ← parseFlowItems handles false fuel rest
      some (.mapping .none [entry] :: items, rest)
    | tokens => do
      let (item, rest) ← parseNode handles false false fuel tokens
      let (items, rest) ← parseFlowItems handles false fuel rest
      some (item :: items, rest)
  | 0, _ => none

/-- An entry inside a flow sequence, after its key indicator.  Where the key is missing the token
    in its place is passed over. -/
def parsePair (handles : Handles) :
    Nat → List Token → Option ((Node (List Char) × Node (List Char)) × List Token)
  | fuel + 1, tokens => do
    let (key, rest) ← match tokens with
      | .value :: rest | .flowEntry :: rest | .flowSequenceEnd :: rest =>
        some (.empty .none, rest)
      | _ => parseNode handles false false fuel tokens
    let (value, rest) ← match rest with
      | .value :: rest =>
        match rest with
        | .flowEntry :: _ | .flowSequenceEnd :: _ => some (.empty .none, rest)
        | _ => parseNode handles false false fuel rest
      | _ => some (.empty .none, rest)
    some ((key, value), rest)
  | 0, _ => none

/-- The entries of a flow mapping, and its end.  A node without a key indicator is a key whose
    value is missing. -/
def parseFlowEntries (handles : Handles) (first : Bool) : Nat → List Token → ParsedEntries
  | _ + 1, .flowMappingEnd :: rest => some ([], rest)
  | fuel + 1, tokens => do
    let tokens ← if first then some tokens else match tokens with
      | .flowEntry :: rest => some rest
      | _ => none
    match tokens with
    | .flowMappingEnd :: rest => some ([], rest)
    | .key :: rest => do
      let (key, rest) ← match rest with
        | .value :: _ | .flowEntry :: _ | .flowMappingEnd :: _ => some (.empty .none, rest)
        | _ => parseNode handles false false fuel rest
      let (value, rest) ← match rest with
        | .value :: rest =>
          match rest with
          | .flowEntry :: _ | .flowMappingEnd :: _ => some (.empty .none, rest)
          | _ => parseNode handles false false fuel rest
        | _ => some (.empty .none, rest)
      let (entries, rest) ← parseFlowEntries handles false fuel rest
      some ((key, value) :: entries, rest)
    | tokens => do
      let (key, rest) ← parseNode handles false false fuel tokens
      let (entries, rest) ← parseFlowEntries handles false fuel rest
      some ((key, .empty .none) :: entries, rest)
  | 0, _ => none

end

/-! ## Documents -/

/-- The directives before a document: the handles they define, whether there is any, and what
    follows.  A version counts only once, as does a handle. -/
def parseDirectives : Bool → Handles → List Token → Option (Handles × List Token)
  | version, handles, .versionDirective major minor :: rest =>
    if version || major != 1 || (minor != 1 && minor != 2) then none
    else parseDirectives true handles rest
  | version, handles, .tagDirective handle start :: rest =>
    if handles.any (·.1 == handle) then none
    else parseDirectives version ((handle, start) :: handles) rest
  | _, handles, tokens => some (handles, tokens)

/-- The content of a document; an empty scalar where it has none. -/
def parseContent (handles : Handles) (tokens : List Token) : ParsedNode :=
  match tokens with
  | [] | .versionDirective _ _ :: _ | .tagDirective _ _ :: _ | .documentStart :: _
  | .documentEnd :: _ => some (.empty .none, tokens)
  | _ => parseNode handles true false (3 * tokens.length + 3) tokens

/-- The only document of a text: `none` where the text is not one document, and no node where it
    has no document at all.  A document begins with directives and a mark, or with its content. -/
def parseDocument (tokens : List Token) : Option (Option (Node (List Char))) :=
  match tokens with
  | [] => some none
  | .versionDirective _ _ :: _ | .tagDirective _ _ :: _ | .documentStart :: _ => do
    let (defined, tokens) ← parseDirectives false [] tokens
    match tokens with
    | .documentStart :: rest => do
      let (node, rest) ← parseContent (defined ++ standardHandles) rest
      if rest.all (· == .documentEnd) then some (some node) else none
    | _ => none
  | tokens => do
    let (node, rest) ← parseNode standardHandles true false (3 * tokens.length + 3) tokens
    if rest.all (· == .documentEnd) then some (some node) else none

end WebStory.Yaml
