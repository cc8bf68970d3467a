import WebStory.Markup.Indent
import WebStory.Proofs.Markup.Escape
/-
  Which elements a list of tokens describes.

  1. **Outlines** — the tokens are read from the left with a stack of open elements
     (`Token.outline?`).  An element without content stands by itself; any other is open up to the
     closing tag of its name.  A closing tag that does not belong to the innermost open element, or
     an element left open, is no outline: nothing is repaired here, as a browser would.

  2. **Tags** — a tag that was written from a name and attributes is read back as this tag, if
     nothing in the attributes ends it early.  That is a matter of quotes: a `>` inside a quoted
     value ends nothing (`closed_quoted`), and texts that leave no quote open can stand one behind
     the other (`Closed.append`).

  3. **Pieces** — markup is written piece by piece, and each piece is read by itself: it adds
     elements behind those that are done and leaves the stack as it was, whatever follows (`Reads`).
     That it is said for any stack and any rest is what makes it compose.  Pieces one after another
     are read one after another (`Reads.append`), and a tag around a piece is an element around the
     elements of the piece (`reads_element`).

  4. **Raw text** — a script and a style sheet are read differently: their text is looked through
     for the end of the element and is never markup.  So their content may be any text without that
     end (`reads_rawText`), which for a script is what the guard of its payload provides
     (`reads_script`).

  Where it is enough that a piece is well nested, whatever its elements, it is called a piece and no
  more (`Piece`).
-/

namespace WebStory

/-- An element and the elements inside it. -/
inductive Outline where
  | node (name : String) (inside : List Outline)

namespace Token

/-- The elements that tokens describe, if they are well nested.  On the stack are the open elements,
    the innermost first, each with the elements that stand before it. -/
def outline? : List (List Char × List Outline) → List Outline → List Token → Option (List Outline)
  | [], done, [] => some done
  | _ :: _, _, [] => none
  | around, done, .openTag name _ :: rest =>
    if voidNames.contains name then outline? around (done ++ [.node (String.ofList name) []]) rest
    else outline? ((name, done) :: around) [] rest
  | [], _, .closeTag _ _ :: _ => none
  | (opened, before) :: around, done, .closeTag name _ :: rest =>
    if opened = name then outline? around (before ++ [.node (String.ofList name) done]) rest else none
  | around, done, .text _ :: rest => outline? around done rest
  | around, done, .declaration _ :: rest => outline? around done rest

example : outline? [] [] [.openTag ['p'] [], .openTag ['b', 'r'] [], .closeTag ['p'] []] =
    some [.node "p" [.node "br" []]] := by rfl

example : outline? [] [] [.openTag ['p'] [], .openTag ['b'] [], .closeTag ['p'] []] = none := rfl

/-! ## Tags -/

/-- A name that is read back from a tag as it was written. -/
def isElementName (name : List Char) : Bool :=
  !name.isEmpty && name.all fun c =>
    !Text.isBlank c && !(['<', '>', '/', '!', '"', '\''].contains c) && c.toLower == c

/-- The source of an open tag: its attributes stand behind its name. -/
def opening (name attributes : List Char) : List Char := '<' :: (name ++ attributes) ++ ['>']

/-- The source of a closing tag. -/
def closing (name : List Char) : List Char := '<' :: ('/' :: name) ++ ['>']

/-- Text inside a tag that does not end the tag, whatever follows. -/
def Closed (cs : List Char) : Prop :=
  ∀ rest, splitTag none (cs ++ rest) = (cs ++ (splitTag none rest).1, (splitTag none rest).2)

theorem closed_nil : Closed [] := fun _ => rfl

theorem Closed.append {cs ds : List Char} (hcs : Closed cs) (hds : Closed ds) : Closed (cs ++ ds) := by
  intro rest
  rw [List.append_assoc, hcs, hds, List.append_assoc]

/-- Text without quotes and without `>`. -/
theorem closed_of_forall_ne {cs : List Char} (h : ∀ c ∈ cs, c ≠ '>' ∧ c ≠ '"' ∧ c ≠ '\'') :
    Closed cs := by
  intro rest
  induction cs with
  | nil => rfl
  | cons c cs ih =>
    rw [List.forall_mem_cons] at h
    have hquote : ¬(c = '"' ∨ c = '\'') := not_or.2 h.1.2
    rw [List.cons_append, splitTag, if_neg h.1.1, if_neg hquote, ih h.2]
    rfl

/-- A value in double quotes. -/
theorem closed_quoted {cs : List Char} (h : ∀ c ∈ cs, c ≠ '"') : Closed ('"' :: cs ++ ['"']) := by
  intro rest
  have hinside : splitTag (some '"') (cs ++ '"' :: rest) =
      (cs ++ '"' :: (splitTag none rest).1, (splitTag none rest).2) := by
    induction cs with
    | nil => rfl
    | cons c cs ih =>
      rw [List.forall_mem_cons] at h
      rw [List.cons_append, splitTag, if_neg h.1, ih h.2]
      rfl
  have hopen : splitTag none ('"' :: (cs ++ '"' :: rest)) =
      ('"' :: (splitTag (some '"') (cs ++ '"' :: rest)).1,
        (splitTag (some '"') (cs ++ '"' :: rest)).2) := rfl
  simp only [List.cons_append, List.append_assoc, List.nil_append]
  rw [hopen, hinside]

/-- A tag ends at its last character. -/
theorem splitTag_tag {cs : List Char} (h : Closed cs) (rest : List Char) :
    splitTag none ('<' :: cs ++ ['>'] ++ rest) = ('<' :: cs ++ ['>'], rest) := by
  have hopen (ds : List Char) :
      splitTag none ('<' :: ds) = ('<' :: (splitTag none ds).1, (splitTag none ds).2) := rfl
  rw [List.append_assoc, List.cons_append, hopen, h]
  rfl

section Name

variable {name : List Char} (h : isElementName name = true)
include h

theorem ne_of_mem_name {c : Char} (hc : c ∈ name) :
    Text.isBlank c = false ∧ c ≠ '<' ∧ c ≠ '>' ∧ c ≠ '/' ∧ c ≠ '!' ∧ c ≠ '"' ∧ c ≠ '\'' ∧
      c.toLower = c := by
  rw [isElementName, Bool.and_eq_true, List.all_eq_true] at h
  simpa [and_assoc] using h.2 c hc

theorem exists_cons_of_name : ∃ c rest, name = c :: rest := by
  cases name with
  | nil => exact absurd h (by decide)
  | cons c rest => exact ⟨c, rest, rfl⟩

/-- The name stands behind `<` and slashes, and in front of a blank or `>`. -/
theorem nameOf_eq (before tail : List Char) (hbefore : ∀ c ∈ before, c = '<' ∨ c = '/') {d : Char}
    (hd : d = ' ' ∨ d = '>') : nameOf (before ++ (name ++ d :: tail)) = name := by
  obtain ⟨c, rest, hname⟩ := exists_cons_of_name h
  have hc := ne_of_mem_name h (hname ▸ List.mem_cons_self : c ∈ name)
  have hdrop : (before ++ (name ++ d :: tail)).dropWhile (fun c => c == '<' || c == '/') =
      name ++ d :: tail := by
    rw [List.dropWhile_append_of_pos (by simpa using hbefore), hname, List.cons_append,
      List.dropWhile_cons_of_neg (by simp [hc])]
  have hstop : (d :: tail).takeWhile (fun c => !Text.isBlank c && c != '>' && c != '/') = [] := by
    rcases hd with rfl | rfl <;> rfl
  have hinside : ∀ c ∈ name, (!Text.isBlank c && c != '>' && c != '/') = true := by
    intro c hc
    have hc := ne_of_mem_name h hc
    simp [hc]
  have hlower : name.map Char.toLower = name :=
    (List.map_congr_left fun c hc => (ne_of_mem_name h hc).2.2.2.2.2.2.2).trans (List.map_id name)
  rw [nameOf, hdrop, List.takeWhile_append_of_pos hinside, hstop, List.append_nil, hlower]

theorem ofTag_opening {attributes : List Char} (hattributes : ∀ c ∈ attributes.head?, c = ' ') :
    ofTag (opening name attributes) = .openTag name (opening name attributes) := by
  have hname : nameOf (opening name attributes) = name := by
    cases attributes with
    | nil => simpa [opening] using nameOf_eq h ['<'] [] (by simp) (.inr rfl)
    | cons d ds =>
      simpa [opening] using nameOf_eq h ['<'] (ds ++ ['>']) (by simp) (.inl (hattributes d rfl))
  obtain ⟨c, rest, hcons⟩ := exists_cons_of_name h
  have hc := ne_of_mem_name h (hcons ▸ List.mem_cons_self : c ∈ name)
  have hmark (d : Char) (hd : c ≠ d) : ['<', d].isPrefixOf (opening name attributes) = false := by
    simp [opening, hcons, List.isPrefixOf, Ne.symm hd]
  rw [ofTag, hmark '!' hc.2.2.2.2.1, hmark '/' hc.2.2.2.1, hname]
  rfl

theorem ofTag_closing : ofTag (closing name) = .closeTag name (closing name) := by
  have hname : nameOf (closing name) = name := by
    simpa [closing] using nameOf_eq h ['<', '/'] [] (by simp) (.inr rfl)
  rw [ofTag, hname]
  rfl

theorem closed_name : Closed name :=
  closed_of_forall_ne fun _ hc =>
    have hc := ne_of_mem_name h hc
    ⟨hc.2.2.1, hc.2.2.2.2.2.1, hc.2.2.2.2.2.2.1⟩

theorem splitTag_opening {attributes : List Char} (hclosed : Closed attributes) (rest : List Char) :
    splitTag none (opening name attributes ++ rest) = (opening name attributes, rest) :=
  splitTag_tag ((closed_name h).append hclosed) rest

theorem splitTag_closing (rest : List Char) :
    splitTag none (closing name ++ rest) = (closing name, rest) := by
  have hslash : Closed ['/'] := closed_of_forall_ne (by simp)
  exact splitTag_tag (hslash.append (closed_name h)) rest

end Name

section Scan

variable {raw rest : List Char} {token : Token} (hhead : raw.head? = some '<')
  (hsplit : splitTag none (raw ++ rest) = (raw, rest)) (htoken : ofTag raw = token)
include hhead hsplit htoken

/-- A tag is the first token of markup that begins with it. -/
theorem scan_tag (hmark : rawTextEnd? token = none) : scan (raw ++ rest) = token :: scan rest := by
  obtain ⟨raw, rfl⟩ := List.head?_eq_some_iff.1 hhead
  rw [List.cons_append] at hsplit ⊢
  rw [scan, if_pos rfl, hsplit]
  simp only [htoken, hmark]

/-- Behind some tags stands text up to a mark. -/
theorem scan_rawTag {mark : List Char} (hmark : rawTextEnd? token = some mark) :
    scan (raw ++ rest) =
      token :: (textOf (splitBefore mark rest).1 ++ scan (splitBefore mark rest).2) := by
  obtain ⟨raw, rfl⟩ := List.head?_eq_some_iff.1 hhead
  rw [List.cons_append] at hsplit ⊢
  rw [scan, if_pos rfl, hsplit]
  simp only [htoken, hmark]

end Scan

/-! ## Pieces of markup -/

/-- A piece of markup is read by itself, as certain elements. -/
def Reads (cs : List Char) (elements : List Outline) : Prop :=
  ∀ around done rest, outline? around done (scan (cs ++ rest)) =
    outline? around (done ++ elements) (scan rest)

theorem reads_nil : Reads [] [] := by
  intro around done rest
  rw [List.append_nil, List.nil_append]

theorem Reads.append {cs ds : List Char} {elements more : List Outline} (hcs : Reads cs elements)
    (hds : Reads ds more) : Reads (cs ++ ds) (elements ++ more) := by
  intro around done rest
  rw [List.append_assoc, hcs, hds, List.append_assoc]

/-- A text token is passed over. -/
theorem outline?_text (around : List (List Char × List Outline)) (done : List Outline)
    (raw : List Char) (rest : List Token) :
    outline? around done (.text raw :: rest) = outline? around done rest := by
  rw [outline?]

/-- One more character of text. -/
theorem reads_char {c : Char} (h : c ≠ '<') : Reads [c] [] := by
  intro around done rest
  rw [List.singleton_append, List.append_nil, scan, if_neg h, outline?_text]
  cases rest with
  | nil => rfl
  | cons d rest =>
    -- the text that begins here ends where the text behind it ends
    by_cases hd : d = '<'
    · rw [List.dropWhile_cons_of_neg (by simp [hd])]
    · have hscan : scan (d :: rest) =
          .text (d :: rest.takeWhile (· != '<')) :: scan (rest.dropWhile (· != '<')) := by
        rw [scan, if_neg hd]
      rw [List.dropWhile_cons_of_pos (by simpa using hd), hscan, outline?_text]

/-! ## Elements -/

/-- A closing tag ends the element of its name, if this is the innermost. -/
theorem outline?_closing {name : String} (h : isElementName name.toList = true)
    (around : List (List Char × List Outline)) (before inside : List Outline) (rest : List Char) :
    outline? ((name.toList, before) :: around) inside (scan (closing name.toList ++ rest)) =
      outline? around (before ++ [.node name inside]) (scan rest) := by
  rw [scan_tag rfl (splitTag_closing h rest) (ofTag_closing h) rfl, outline?, if_pos rfl,
    String.ofList_toList]

/-- Raw text is passed over, whether there is any or not. -/
theorem outline?_textOf (around : List (List Char × List Outline)) (done : List Outline)
    (raw : List Char) (rest : List Token) :
    outline? around done (textOf raw ++ rest) = outline? around done rest := by
  unfold textOf
  split
  · rfl
  · exact outline?_text around done raw rest

section Element

variable {name : String} (h : isElementName name.toList = true) {attributes : List Char}
  (hattributes : ∀ c ∈ attributes.head?, c = ' ') (hclosed : Closed attributes)
include h hattributes hclosed

/-- An open tag is one token. -/
theorem scan_opening (hraw : rawTextNames.contains name.toList = false) (rest : List Char) :
    scan (opening name.toList attributes ++ rest) =
      .openTag name.toList (opening name.toList attributes) :: scan rest := by
  refine scan_tag rfl (splitTag_opening h hclosed rest) (ofTag_opening h hattributes) ?_
  rw [rawTextEnd?, hraw, if_neg Bool.false_ne_true]

/-- A tag without content. -/
theorem reads_void (hvoid : voidNames.contains name.toList = true) :
    Reads (opening name.toList attributes) [.node name []] := by
  intro around done rest
  have hraw : rawTextNames.contains name.toList = false :=
    (by decide : ∀ n ∈ voidNames, rawTextNames.contains n = false) _ (List.contains_iff_mem.1 hvoid)
  rw [scan_opening h hattributes hclosed hraw, outline?, if_pos hvoid, String.ofList_toList]

/-- A tag around a piece of markup. -/
theorem reads_element (hvoid : voidNames.contains name.toList = false)
    (hraw : rawTextNames.contains name.toList = false) {content : List Char} {inside : List Outline}
    (hcontent : Reads content inside) :
    Reads (opening name.toList attributes ++ content ++ closing name.toList) [.node name inside] := by
  intro around done rest
  have hvoid : ¬voidNames.contains name.toList = true := by rw [hvoid]; exact Bool.false_ne_true
  rw [List.append_assoc, List.append_assoc, scan_opening h hattributes hclosed hraw, outline?,
    if_neg hvoid, hcontent, List.nil_append, outline?_closing h]

end Element

/-- A tag around a text that is not read as markup, but looked through for the end of the element. -/
theorem reads_rawText {name : String} (h : isElementName name.toList = true)
    (hraw : rawTextNames.contains name.toList = true) {attributes : List Char}
    (hattributes : ∀ c ∈ attributes.head?, c = ' ') (hclosed : Closed attributes) {body : List Char}
    (hbody : ∀ rest, splitBefore ('<' :: '/' :: name.toList)
      (body ++ ('<' :: '/' :: name.toList ++ rest)) = (body, '<' :: '/' :: name.toList ++ rest)) :
    Reads (opening name.toList attributes ++ body ++ closing name.toList) [.node name []] := by
  intro around done rest
  have hmark : rawTextEnd? (.openTag name.toList (opening name.toList attributes)) =
      some ('<' :: '/' :: name.toList) := if_pos hraw
  have hvoid : voidNames.contains name.toList = false :=
    (by decide : ∀ n ∈ rawTextNames, voidNames.contains n = false) _ (List.contains_iff_mem.1 hraw)
  have hclosing : closing name.toList ++ rest = '<' :: '/' :: name.toList ++ ('>' :: rest) := by
    rw [closing, List.append_assoc]
    rfl
  rw [List.append_assoc, List.append_assoc,
    scan_rawTag rfl (splitTag_opening h hclosed _) (ofTag_opening h hattributes) hmark, hclosing,
    hbody, ← hclosing, outline?, if_neg (Bool.eq_false_iff.1 hvoid), outline?_textOf,
    outline?_closing h]

/-- A script around a text without `</`. -/
theorem reads_script {attributes : List Char} (hattributes : ∀ c ∈ attributes.head?, c = ' ')
    (hclosed : Closed attributes) (json : String) :
    Reads (opening "script".toList attributes ++ (escapeScript json).toList ++
      closing "script".toList) [.node "script" []] := by
  rw [toList_escapeScript]
  exact reads_rawText (by decide) rfl hattributes hclosed (splitBefore_guardClosing json.toList _)

/-! ## Pieces whatever is in them -/

/-- Markup that is read by itself, whatever the elements in it. -/
def Piece (cs : List Char) : Prop := ∃ elements, Reads cs elements

theorem piece_nil : Piece [] := ⟨[], reads_nil⟩

theorem Piece.append {cs ds : List Char} (hcs : Piece cs) (hds : Piece ds) : Piece (cs ++ ds) := by
  obtain ⟨elements, hcs⟩ := hcs
  obtain ⟨more, hds⟩ := hds
  exact ⟨elements ++ more, hcs.append hds⟩

/-- The same of texts that are put together. -/
theorem Piece.concat {s t : String} (hs : Piece s.toList) (ht : Piece t.toList) :
    Piece (s ++ t).toList := by
  rw [String.toList_append]
  exact hs.append ht

theorem piece_text {cs : List Char} (h : ∀ c ∈ cs, c ≠ '<') : Piece cs := by
  induction cs with
  | nil => exact piece_nil
  | cons c cs ih =>
    rw [List.forall_mem_cons] at h
    exact Piece.append ⟨[], reads_char h.1⟩ (ih h.2)

theorem piece_join {β : Type} {text : β → String} {parts : List β}
    (h : ∀ b ∈ parts, Piece (text b).toList) : Piece (String.join (parts.map text)).toList := by
  induction parts with
  | nil => exact piece_nil
  | cons b rest ih =>
    rw [List.forall_mem_cons] at h
    rw [List.map_cons, String.join_cons]
    exact h.1.concat (ih h.2)

theorem scan_declaration {cs : List Char} (h : Closed cs) (rest : List Char) :
    scan ('<' :: ('!' :: cs) ++ ['>'] ++ rest) =
      .declaration ('<' :: ('!' :: cs) ++ ['>']) :: scan rest := by
  have hmark : Closed ['!'] := closed_of_forall_ne (by simp)
  exact scan_tag rfl (splitTag_tag (hmark.append h) rest) rfl rfl

theorem piece_declaration {cs : List Char} (h : Closed cs) : Piece ('<' :: ('!' :: cs) ++ ['>']) := by
  refine ⟨[], fun around done rest => ?_⟩
  rw [scan_declaration h, outline?, List.append_nil]

section Element

variable {name : String} (h : isElementName name.toList = true) {attributes : List Char}
  (hattributes : ∀ c ∈ attributes.head?, c = ' ') (hclosed : Closed attributes)
include h hattributes hclosed

theorem piece_void (hvoid : voidNames.contains name.toList = true) :
    Piece (opening name.toList attributes) := ⟨_, reads_void h hattributes hclosed hvoid⟩

theorem piece_element (hvoid : voidNames.contains name.toList = false)
    (hraw : rawTextNames.contains name.toList = false) {content : List Char} (hcontent : Piece content) :
    Piece (opening name.toList attributes ++ content ++ closing name.toList) := by
  obtain ⟨inside, hcontent⟩ := hcontent
  exact ⟨_, reads_element h hattributes hclosed hvoid hraw hcontent⟩

end Element

end Token

end WebStory
