import WebStory.Proofs.Markup.Element
import WebStory.Proofs.Markup.Pieces
/-
  Reading an open tag back.

  1. **Entities** — an escaped text is undone from the left.  That the four entities never run into
     one another is seen from their first character, the ampersand, which is itself written as one
     (`unescapeMarkup_escapeMarkup`).

  2. **The reader** — it takes a tag apart without knowing how it was written: a name goes up to a
     blank, an equals sign or the end of the tag, and a value stands in double quotes (`readTag?`).
     It goes from character to character (`Reading.step`), so it is a fold, with the attributes as
     what comes out on the way.

  3. **Pieces of a tag** — over a piece of the tag it finds some attributes and leads from one point
     to another, whatever follows (`Passes`).  So attributes written one after another are found one
     after another.  One piece does not fit: the name of a flag ends only with what stands behind
     it.  This is a blank or the end of the tag, and it has to be known before the flag is complete
     (`readAttributes?_name`).

  4. **Tags** — with names that are names (`IsName`), a tag is read as what it was built from,
     whatever its values hold (`readTag?_openText`).  It also ends where it was written to end, so
     it is the first thing that is found in its element (`splitTag_wrap`).

  5. **Collecting** — of a whole markup the tags with some names can be collected, piece by piece as
     everything else (`tagsNamed`).  This is how statements about a written document come back to
     the values it was made of.
-/

namespace WebStory

open Token

/-! ## Entities -/

/-- Undoes the four entities of an escaped text, from the left. -/
def unescapeMarkup : List Char → List Char
  | '&' :: 'a' :: 'm' :: 'p' :: ';' :: rest => '&' :: unescapeMarkup rest
  | '&' :: 'l' :: 't' :: ';' :: rest => '<' :: unescapeMarkup rest
  | '&' :: 'g' :: 't' :: ';' :: rest => '>' :: unescapeMarkup rest
  | '&' :: 'q' :: 'u' :: 'o' :: 't' :: ';' :: rest => '"' :: unescapeMarkup rest
  | c :: rest => c :: unescapeMarkup rest
  | [] => []

theorem unescapeMarkup_cons {c : Char} (h : c ≠ '&') (rest : List Char) :
    unescapeMarkup (c :: rest) = c :: unescapeMarkup rest := by
  rw [unescapeMarkup]
  all_goals
    intros
    simp_all

/-- An escaped text is read as it was, entities that it already held included. -/
theorem unescapeMarkup_escapeMarkup (s : String) :
    unescapeMarkup (escapeMarkup s).toList = s.toList := by
  rw [escapeMarkup, String.toList_ofList]
  induction s.toList with
  | nil => rfl
  | cons c cs ih =>
    rw [List.flatMap_cons]
    by_cases hamp : c = '&'
    · subst hamp
      exact congrArg _ ih
    by_cases hless : c = '<'
    · subst hless
      exact congrArg _ ih
    by_cases hgreater : c = '>'
    · subst hgreater
      exact congrArg _ ih
    by_cases hquote : c = '"'
    · subst hquote
      exact congrArg _ ih
    have hother : c ∉ ['&', '<', '>', '"'] := by simp [hamp, hless, hgreater, hquote]
    rw [escapeMarkupChar_of_not_mem hother, List.singleton_append, unescapeMarkup_cons hamp, ih]

/-! ## The reader -/

/-- A character that a name can be made of. -/
def isNameChar (c : Char) : Bool :=
  !Text.isBlank c && !(['"', '\'', '<', '>', '=', '/'].contains c)

/-- A name that a reader of tags knows from what stands around it. -/
def IsName (name : String) : Prop := name ≠ "" ∧ name.toList.all isNameChar = true
deriving Decidable

theorem IsName.isNameChar {name : String} (h : IsName name) :
    ∀ c ∈ name.toList, isNameChar c = true := List.all_eq_true.1 h.2

/-- How far a tag is read. -/
inductive Reading where
  | between
  /-- Inside a name, or right behind it. -/
  | name (read : List Char)
  /-- Behind the equals sign of an attribute. -/
  | equals (called : List Char)
  /-- Inside the quotes. -/
  | value (called read : List Char)
  /-- Behind the tag. -/
  | done

/-- One character: the attributes that are complete with it, and how far the tag is read then. -/
def Reading.step : Reading → Char → Option (List Attribute × Reading)
  | .between, c =>
    if isNameChar c then some ([], .name [c])
    else if c = '>' then some ([], .done)
    else if Text.isBlank c then some ([], .between)
    else none
  | .name read, c =>
    if isNameChar c then some ([], .name (read ++ [c]))
    else if c = '=' then some ([], .equals read)
    else if c = '>' then some ([.flag (String.ofList read)], .done)
    else if Text.isBlank c then some ([.flag (String.ofList read)], .between)
    else none
  | .equals called, c => if c = '"' then some ([], .value called []) else none
  | .value called read, c =>
    if c = '"' then
      some ([.text (String.ofList called) (String.ofList (unescapeMarkup read))], .between)
    else some ([], .value called (read ++ [c]))
  | .done, _ => none

/-- The attributes in the rest of a tag, if it is the rest of one tag. -/
def readAttributes? : Reading → List Char → Option (List Attribute)
  | .done, [] => some []
  | _, [] => none
  | r, c :: rest => do
    let (found, next) ← r.step c
    let more ← readAttributes? next rest
    return found ++ more

/-- The name of a tag and its attributes, in order. -/
def readTag? : List Char → Option (String × List Attribute)
  | '<' :: rest =>
    let name := rest.takeWhile isNameChar
    if name.isEmpty then none
    else (readAttributes? .between (rest.dropWhile isNameChar)).map (String.ofList name, ·)
  | _ => none

/-! ## Pieces of a tag -/

/-- A piece of a tag holds some attributes, and leads from one point to another. -/
def Passes (r : Reading) (cs : List Char) (found : List Attribute) (next : Reading) : Prop :=
  ∀ rest, readAttributes? r (cs ++ rest) = (readAttributes? next rest).map (found ++ ·)

section Passes

variable {r next last : Reading} {cs ds : List Char} {found more : List Attribute}

theorem passes_nil (r : Reading) : Passes r [] [] r := by
  intro rest
  exact Option.map_id'.symm

theorem Passes.append (h : Passes r cs found next) (h' : Passes next ds more last) :
    Passes r (cs ++ ds) (found ++ more) last := by
  intro rest
  rw [List.append_assoc, h, h', Option.map_map]
  simp only [Function.comp_def, List.append_assoc]

/-- What one step does. -/
theorem passes_step {c : Char} (h : r.step c = some (found, next)) : Passes r [c] found next := by
  intro rest
  have hread : readAttributes? r (c :: rest) = (do
      let (found, next) ← r.step c
      let more ← readAttributes? next rest
      return found ++ more) := by
    cases r <;> rfl
  rw [List.singleton_append, hread, h]
  exact Option.map_eq_bind.symm

/-- The rest of a name. -/
theorem passes_name (h : ∀ c ∈ cs, isNameChar c = true) (read : List Char) :
    Passes (.name read) cs [] (.name (read ++ cs)) := by
  induction cs generalizing read with
  | nil =>
    rw [List.append_nil]
    exact passes_nil _
  | cons c cs ih =>
    obtain ⟨hc, hcs⟩ := List.forall_mem_cons.1 h
    have hstep : (Reading.name read).step c = some ([], .name (read ++ [c])) := if_pos hc
    have hrest := ih hcs (read ++ [c])
    rw [List.append_assoc] at hrest
    exact (passes_step hstep).append hrest

/-- The rest of a value, without the quote behind it. -/
theorem passes_value (h : ∀ c ∈ cs, c ≠ '"') (name read : List Char) :
    Passes (.value name read) cs [] (.value name (read ++ cs)) := by
  induction cs generalizing read with
  | nil =>
    rw [List.append_nil]
    exact passes_nil _
  | cons c cs ih =>
    obtain ⟨hc, hcs⟩ := List.forall_mem_cons.1 h
    have hstep : (Reading.value name read).step c = some ([], .value name (read ++ [c])) := if_neg hc
    have hrest := ih hcs (read ++ [c])
    rw [List.append_assoc] at hrest
    exact (passes_step hstep).append hrest

end Passes

/-! ## Attributes -/

section Name

variable {name : String} (h : IsName name)
include h

theorem passes_blank_name : Passes .between (' ' :: name.toList) [] (.name name.toList) := by
  obtain ⟨c, cs, hname⟩ : ∃ c cs, name.toList = c :: cs :=
    List.exists_cons_of_ne_nil fun hnil => h.1 (String.toList_eq_nil_iff.1 hnil)
  obtain ⟨hc, hcs⟩ := List.forall_mem_cons.1 (hname ▸ h.isNameChar)
  have hblank : Reading.between.step ' ' = some ([], .between) := rfl
  have hstart : Reading.between.step c = some ([], .name [c]) := if_pos hc
  rw [hname]
  exact (passes_step hblank).append ((passes_step hstart).append (passes_name hcs [c]))

/-- An attribute with its value. -/
theorem passes_attributeText (value : String) :
    Passes .between (Tag.attributeText name value).toList [.text name value] .between := by
  have hequals : (Reading.name name.toList).step '=' = some ([], .equals name.toList) := rfl
  have hopen : (Reading.equals name.toList).step '"' = some ([], .value name.toList []) := rfl
  have hclose : (Reading.value name.toList (escapeMarkup value).toList).step '"' =
      some ([.text name value], .between) := by
    rw [Reading.step, if_pos rfl, unescapeMarkup_escapeMarkup, String.ofList_toList,
      String.ofList_toList]
  have hinside : ∀ c ∈ (escapeMarkup value).toList, c ≠ '"' := fun _ hc =>
    (ne_of_mem_escapeMarkup hc).2.2
  have htext : (Tag.attributeText name value).toList = (' ' :: name.toList) ++
      (['='] ++ (['"'] ++ ((escapeMarkup value).toList ++ ['"']))) := by
    simp [Tag.attributeText]
  rw [htext]
  exact (passes_blank_name h).append ((passes_step hequals).append ((passes_step hopen).append
    ((passes_value hinside name.toList []).append (passes_step hclose))))

theorem closed_isName : Closed name.toList := by
  refine closed_of_forall_ne fun c hc => ?_
  have hchar := h.isNameChar c hc
  simp only [WebStory.isNameChar, Bool.and_eq_true, Bool.not_eq_true'] at hchar
  have hother := hchar.2
  simp only [List.contains_cons, Bool.or_eq_false_iff, beq_eq_false_iff_ne] at hother
  exact ⟨hother.2.2.2.1, hother.1, hother.2.1⟩

end Name

/-- Behind an attribute stands another one, or the end of the tag. -/
theorem head?_attributes_end (attributes : List Attribute) :
    let tail := (String.join (attributes.map Tag.Attribute.text)).toList ++ ['>']
    tail.head? = some ' ' ∨ tail.head? = some '>' := by
  cases attributes with
  | nil => exact Or.inr rfl
  | cons a rest =>
    refine Or.inl ?_
    rw [List.map_cons, String.join_cons, String.toList_append, List.append_assoc, List.head?_append,
      Tag.head?_attribute, Option.some_or]

/-- A flag is complete where its name ends. -/
theorem readAttributes?_name {read tail : List Char}
    (h : tail.head? = some ' ' ∨ tail.head? = some '>') :
    readAttributes? (.name read) tail =
      (readAttributes? .between tail).map (.flag (String.ofList read) :: ·) := by
  obtain ⟨tail, rfl⟩ | ⟨tail, rfl⟩ := h.imp List.head?_eq_some_iff.1 List.head?_eq_some_iff.1
  · have hflag : (Reading.name read).step ' ' =
        some ([.flag (String.ofList read)], .between) := rfl
    have hblank : Reading.between.step ' ' = some ([], .between) := rfl
    rw [← List.singleton_append, passes_step hflag, passes_step hblank, Option.map_map]
    rfl
  · have hflag : (Reading.name read).step '>' = some ([.flag (String.ofList read)], .done) := rfl
    have hend : Reading.between.step '>' = some ([], .done) := rfl
    rw [← List.singleton_append, passes_step hflag, passes_step hend, Option.map_map]
    rfl

/-- Attributes written one after another are read one after another. -/
theorem readAttributes?_attributes {attributes : List Attribute}
    (h : ∀ a ∈ attributes, IsName a.name) :
    readAttributes? .between ((String.join (attributes.map Tag.Attribute.text)).toList ++ ['>']) =
      some attributes := by
  induction attributes with
  | nil => rfl
  | cons a rest ih =>
    obtain ⟨ha, hrest⟩ := List.forall_mem_cons.1 h
    rw [List.map_cons, String.join_cons, String.toList_append, List.append_assoc]
    cases a with
    | text name value =>
      change IsName name at ha
      rw [Tag.Attribute.text, passes_attributeText ha, ih hrest]
      rfl
    | flag name =>
      change IsName name at ha
      have hflag : (Tag.Attribute.text (.flag name)).toList = ' ' :: name.toList := by
        simp [Tag.Attribute.text]
      rw [hflag, passes_blank_name ha, readAttributes?_name (head?_attributes_end rest), ih hrest,
        String.ofList_toList]
      rfl

/-! ## Tags -/

namespace Tag

variable {t : Tag} {classes : Option String}

/-- A tag is read as what it was built from. -/
theorem readTag?_openText (hname : IsName t.name)
    (h : ∀ a ∈ t.allAttributes classes, IsName a.name) :
    readTag? (t.openText classes).toList = some (t.name, t.allAttributes classes) := by
  have hchars := hname.isNameChar
  -- the name ends where the attributes begin, or the tag ends
  obtain ⟨c, tail, htail⟩ : ∃ c tail,
      (String.join ((t.allAttributes classes).map Attribute.text)).toList ++ ['>'] = c :: tail :=
    List.exists_cons_of_ne_nil (by simp)
  have hc : isNameChar c = false := by
    have hhead := head?_attributes_end (t.allAttributes classes)
    simp only [htail, List.head?_cons, Option.some.injEq] at hhead
    rcases hhead with rfl | rfl <;> rfl
  have hstop : ¬isNameChar c = true := Bool.eq_false_iff.1 hc
  have hempty : t.name.toList.isEmpty = false := by
    rw [List.isEmpty_eq_false_iff]
    exact fun hnil => hname.1 (String.toList_eq_nil_iff.1 hnil)
  have htext : (t.openText classes).toList = '<' :: (t.name.toList ++ (c :: tail)) := by
    rw [toList_openText, opening, ← htail, List.cons_append, List.append_assoc]
  rw [htext]
  simp only [readTag?]
  rw [List.takeWhile_append_of_pos hchars, List.dropWhile_append_of_pos hchars,
    List.takeWhile_cons_of_neg hstop, List.dropWhile_cons_of_neg hstop, List.append_nil, hempty,
    if_neg Bool.false_ne_true, ← htail, readAttributes?_attributes h, String.ofList_toList]
  rfl

/-- A tag ends where it was written to end. -/
theorem splitTag_openText (hname : IsName t.name)
    (h : ∀ a ∈ t.allAttributes classes, IsName a.name) (rest : List Char) :
    splitTag none ((t.openText classes).toList ++ rest) = ((t.openText classes).toList, rest) := by
  have hattributes : ∀ a ∈ t.allAttributes classes, Closed a.name.toList := fun a ha =>
    closed_isName (h a ha)
  rw [toList_openText, opening]
  exact splitTag_tag ((closed_isName hname).append (closed_attributes hattributes)) rest

/-- The first tag of an element is its open tag. -/
theorem splitTag_wrap (hname : IsName t.name) (h : ∀ a ∈ t.allAttributes classes, IsName a.name)
    (content : String) : splitTag none (t.wrap classes content).toList =
      ((t.openText classes).toList,
        if isVoid t.name then [] else content.toList ++ ("</" ++ t.name ++ ">").toList) := by
  rw [toList_wrap, splitTag_openText hname h]
  rfl

end Tag

/-! ## The tags of some names -/

/-- An open tag with one of some names, as it is read. -/
def tagsNamed (names : List String) : Token → List (Option (String × List Attribute))
  | .openTag name raw => if String.ofList name ∈ names then [readTag? raw] else []
  | _ => []

section TagsNamed

variable {names : List String}

theorem tagsNamed_of_not_mem {name : String} (h : name ∉ names) (raw : List Char) :
    tagsNamed names (.openTag name.toList raw) = [] := by
  rw [tagsNamed, String.ofList_toList, if_neg h]

theorem tagsNamed_closeTag (name raw : List Char) : tagsNamed names (.closeTag name raw) = [] := rfl

theorem tagsNamed_text (raw : List Char) : tagsNamed names (.text raw) = [] := rfl

variable {t : Tag} {classes : Option String} {content : String}
  {out : List (Option (String × List Attribute))}

/-- A tag that is among those looked for is the first of what is found in its element. -/
theorem gathers_wrap_of_mem (hnamed : t.AllNames IsName) (hname : IsName t.name)
    (hblock : Tag.isBlock t.name = true) (hmem : t.name ∈ names)
    (hcontent : Gathers (tagsNamed names) content.toList out) :
    Gathers (tagsNamed names) (t.wrap classes content).toList
      (some (t.name, t.allAttributes classes) :: out) := by
  simp only [Tag.isBlock, Bool.and_eq_true, Bool.not_eq_true'] at hblock
  obtain ⟨⟨⟨helement, hvoid⟩, -⟩, hraw⟩ := hblock
  have hnames : ∀ a ∈ t.allAttributes classes, IsName a.name :=
    hnamed.allAttributes (by decide) classes
  have hwrap := Tag.gathers_element helement hraw (fun a ha => closed_isName (hnames a ha)) hcontent
  rw [tagsNamed, String.ofList_toList, if_pos hmem, Tag.readTag?_openText hname hnames, hvoid,
    if_neg Bool.false_ne_true, tagsNamed_closeTag, List.append_nil] at hwrap
  exact hwrap

/-- Any other tag is passed over. -/
theorem gathers_wrap_of_not_mem (hclean : t.Clean) (hblock : Tag.isBlock t.name = true)
    (hmem : t.name ∉ names) (hcontent : Gathers (tagsNamed names) content.toList out) :
    Gathers (tagsNamed names) (t.wrap classes content).toList out := by
  simp only [Tag.isBlock, Bool.and_eq_true, Bool.not_eq_true'] at hblock
  obtain ⟨⟨⟨helement, hvoid⟩, -⟩, hraw⟩ := hblock
  have hwrap := Tag.gathers_element helement hraw (hclean.closed_allAttributes classes) hcontent
  rw [tagsNamed_of_not_mem hmem, List.nil_append, hvoid, if_neg Bool.false_ne_true,
    tagsNamed_closeTag, List.append_nil] at hwrap
  exact hwrap

/-- So is a tag without content. -/
theorem gathers_wrap_void (hclean : t.Clean) (helement : isElementName t.name.toList = true)
    (hraw : rawTextNames.contains t.name.toList = false) (hvoid : Tag.isVoid t.name = true)
    (hmem : t.name ∉ names) : Gathers (tagsNamed names) (t.wrap classes "").toList [] := by
  have hnothing : Gathers (tagsNamed names) "".toList [] := by
    rw [String.toList_empty]
    exact gathers_nil
  have hwrap := Tag.gathers_element helement hraw (hclean.closed_allAttributes classes) hnothing
  rw [tagsNamed_of_not_mem hmem, List.nil_append, if_pos hvoid] at hwrap
  exact hwrap

end TagsNamed

end WebStory
