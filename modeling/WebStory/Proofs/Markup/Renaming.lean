import Mathlib.Data.List.Forall2
import Mathlib.Logic.Function.Basic
import WebStory.Proofs.Markup.Element
import WebStory.Proofs.Markup.Spans
/-
  Renaming the classes in markup.

  Two runs that met different tables give one and the same style different classes.  To say that
  they write the same markup otherwise takes a renaming of classes inside markup, which is a text.

  1. **The renaming** — classes stand as words in the values of class attributes, and these are
     found by reading the markup: its open tags, and in a tag the pieces between double quotes
     (`renameTag`).  Only words that look like generated classes are renamed; texts, other
     attributes and the author's own classes stay (`renameClasses`).

  2. **Tags** — a tag is cut at its quotes, and what stands in front of a value says whose value it
     is.  As values are escaped there are no quotes but those around them, so the attributes of a
     tag are renamed one by one (`renameTag_attributes`).  A flag has no value and goes with what
     stands before the next one; this is why the induction carries the text that was passed over.

  3. **Pieces** — markup that is written piece by piece is renamed piece by piece, so a tag with
     renamed classes is the tag, renamed (`gathers_wrap`).

  4. **Texts** — the spans of a text are told apart by their classes, and an injective renaming
     keeps apart what was apart.  So the boundaries of spans do not depend on how classes are called
     (`spansFrom_rename`), and the markup of a text is renamed as its spans are
     (`gathers_textMarkup`).
-/

namespace WebStory

open Token ClassTable

/-! ## Renamed classes -/

section Rename

variable (p : Nat → Nat)

/-- The index of a generated class. -/
def classIndex? (word : List Char) : Option Nat :=
  let index := Nat.ofDigitChars 10 (word.drop 2) 0 - 1
  if word = (className index).toList then some index else none

/-- A generated class gets another index; any other word stays. -/
def renameWord (word : List Char) : List Char :=
  match classIndex? word with
  | some index => (className (p index)).toList
  | none => word

/-- The words of a class attribute. -/
def renameWords (value : List Char) : List Char :=
  [' '].intercalate ((value.splitOn ' ').map (renameWord p))

/-- A tag that is cut at its double quotes: every second piece is a value, and it is that of a class
    attribute if the piece before it says so. -/
def renameValues : List (List Char) → List (List Char)
  | before :: value :: rest =>
    before :: (if " class=".toList.isSuffixOf before then renameWords p value else value) ::
      renameValues rest
  | pieces => pieces

/-- A tag with the words of its class attribute renamed. -/
def renameTag (raw : List Char) : List Char := ['"'].intercalate (renameValues p (raw.splitOn '"'))

/-- The source of a token, renamed if it is an open tag. -/
def Token.renamed : Token → List Char
  | .openTag _ raw => renameTag p raw
  | t => t.raw

/-- Markup with the generated classes in its class attributes renamed. -/
def renameClasses (markup : String) : String :=
  String.ofList ((scan markup.toList).flatMap (renamed p))

end Rename

example : renameClasses (· + 2) "<p id=\"s-1\" class=\"s-2 s-1\">s-1</p>" =
    "<p id=\"s-1\" class=\"s-4 s-3\">s-1</p>" := by decide +kernel

variable {p : Nat → Nat}

/-! ## Words -/

theorem toList_className (index : Nat) :
    (className index).toList = 's' :: '-' :: Nat.toDigits 10 (index + 1) := by
  have hdigits : (toString (index + 1)).toList = Nat.toDigits 10 (index + 1) := by
    rw [Nat.toString_eq_ofList_toDigits, String.toList_ofList]
  rw [className, String.toList_append, hdigits]
  rfl

theorem mem_className {c : Char} {index : Nat} (h : c ∈ (className index).toList) :
    c = 's' ∨ c = '-' ∨ c.isDigit = true := by
  rw [toList_className, List.mem_cons, List.mem_cons] at h
  exact h.imp_right (Or.imp_right (Nat.isDigit_of_mem_toDigits (by decide) (by decide)))

theorem blank_not_mem_className (index : Nat) : ' ' ∉ (className index).toList :=
  fun h => absurd (mem_className h) (by decide)

/-- Nothing in the name of a class is escaped. -/
theorem escapeMarkup_className (index : Nat) :
    (escapeMarkup (className index)).toList = (className index).toList := by
  have hchar : ∀ c ∈ (className index).toList, escapeMarkupChar c = [c] := by
    intro c hc
    refine escapeMarkupChar_of_not_mem fun hmem => ?_
    have hnone : ∀ c ∈ ['&', '<', '>', '"'], ¬(c = 's' ∨ c = '-' ∨ c.isDigit = true) := by simp
    exact hnone c hmem (mem_className hc)
  rw [escapeMarkup, String.toList_ofList, List.flatMap_congr hchar, List.flatMap_singleton']

theorem classIndex?_eq_some_iff {word : List Char} {index : Nat} :
    classIndex? word = some index ↔ word = (className index).toList := by
  constructor
  · intro h
    rw [classIndex?] at h
    split at h
    · next hword =>
      rw [← Option.some.inj h]
      exact hword
    · cases h
  · rintro rfl
    have hindex : Nat.ofDigitChars 10 ((className index).toList.drop 2) 0 - 1 = index := by
      rw [toList_className, List.drop_succ_cons, List.drop_succ_cons, List.drop_zero,
        Nat.ofDigitChars_ten_toDigits, Nat.add_sub_cancel]
    rw [classIndex?, hindex, if_pos rfl]

@[simp] theorem renameWord_className (index : Nat) :
    renameWord p (className index).toList = (className (p index)).toList := by
  rw [renameWord, classIndex?_eq_some_iff.2 rfl]

/-- Different words stay different if different indices do. -/
theorem renameWord_injective (h : Function.Injective p) : Function.Injective (renameWord p) := by
  intro word word' heq
  have hclass {word word' : List Char} {index : Nat} (hword : word = (className index).toList)
      (heq : renameWord p word = renameWord p word') : word = word' := by
    rw [hword, renameWord_className] at heq
    rw [renameWord] at heq
    split at heq
    · next index' hword' =>
      rw [hword, classIndex?_eq_some_iff.1 hword', h (className_injective (String.toList_inj.1 heq))]
    · -- a word that is no class is not the renamed one
      next hnone =>
      rw [← heq, classIndex?_eq_some_iff.2 rfl] at hnone
      cases hnone
  cases hword : classIndex? word with
  | some index => exact hclass (classIndex?_eq_some_iff.1 hword) heq
  | none =>
    cases hword' : classIndex? word' with
    | some index => exact (hclass (classIndex?_eq_some_iff.1 hword') heq.symm).symm
    | none => rwa [renameWord, renameWord, hword, hword'] at heq

/-! ## Values -/

/-- Text without quotes holds no values. -/
theorem renameTag_of_not_mem {raw : List Char} (h : '"' ∉ raw) : renameTag p raw = raw := by
  have hpieces : renameValues p [raw] = [raw] := renameValues.eq_2 p [raw] nofun
  rw [renameTag, List.splitOn_eq_singleton h, hpieces, List.intercalate_singleton]

/-- Up to the first value nothing is renamed. -/
theorem renameTag_value {before value : List Char} (hbefore : '"' ∉ before) (hvalue : '"' ∉ value)
    (rest : List Char) :
    renameTag p (before ++ '"' :: (value ++ '"' :: rest)) =
      before ++ '"' :: ((if " class=".toList.isSuffixOf before then renameWords p value else value) ++
        '"' :: renameTag p rest) := by
  have hne : renameValues p (rest.splitOn '"') ≠ [] := by
    have hsplit := List.splitOn_ne_nil '"' rest
    generalize rest.splitOn '"' = pieces at hsplit
    match pieces with
    | [] => exact absurd rfl hsplit
    | [_] => exact List.cons_ne_nil _ _
    | _ :: _ :: _ => exact List.cons_ne_nil _ _
  rw [renameTag, List.splitOn_append_cons_self_of_not_mem hbefore,
    List.splitOn_append_cons_self_of_not_mem hvalue, renameValues, List.intercalate_cons_cons,
    List.intercalate_cons_of_ne_nil hne, renameTag]
  simp only [List.append_assoc, List.singleton_append]

/-- A value is that of a class attribute if its own name says so. -/
theorem isSuffixOf_name {name : String} (h : isElementName name.toList = true) (before : List Char) :
    " class=".toList.isSuffixOf (before ++ (' ' :: name.toList ++ ['='])) = true ↔
      name = "class" := by
  have hblank {name : String} (h : isElementName name.toList = true) : ' ' ∉ name.toList ++ ['='] := by
    rw [List.mem_append, List.mem_singleton]
    rintro (hmem | heq)
    · exact absurd (ne_of_mem_name h hmem).1 (by decide)
    · exact absurd heq (by decide)
  have hclass : " class=".toList = ' ' :: ("class".toList ++ ['=']) := by decide
  rw [List.isSuffixOf_iff_suffix, hclass]
  constructor
  · -- the name is what stands behind the last blank
    rintro ⟨front, hfront⟩
    have hpieces := congrArg (List.splitOn ' ') hfront
    rw [List.cons_append, List.splitOn_append_cons_self, List.splitOn_append_cons_self,
      List.splitOn_eq_singleton (hblank (by decide)), List.splitOn_eq_singleton (hblank h)] at hpieces
    have hlast := List.singleton_inj.1 (List.append_inj_right' hpieces rfl)
    exact (String.toList_inj.1 (List.append_cancel_right hlast)).symm
  · rintro rfl
    exact List.suffix_append _ _

/-! ## Attributes -/

/-- The second attribute is the first one, renamed. -/
inductive Attribute.Renames (p : Nat → Nat) : Attribute → Attribute → Prop where
  | other {a : Attribute} (hname : isElementName a.name.toList = true) (h : a.name ≠ "class") :
      Attribute.Renames p a a
  | generated (index : Nat) :
      Attribute.Renames p (.text "class" (className index)) (.text "class" (className (p index)))

theorem not_quote_mem_name {name : String} (h : isElementName name.toList = true) :
    '"' ∉ name.toList :=
  fun hmem => (ne_of_mem_name h hmem).2.2.2.2.2.1 rfl

theorem renameWords_className (index : Nat) :
    renameWords p (className index).toList = (className (p index)).toList := by
  rw [renameWords, List.splitOn_eq_singleton (blank_not_mem_className index), List.map_singleton,
    renameWord_className, List.intercalate_singleton]

/-- What stands in front of the value of an attribute. -/
def beforeValue (name : String) : List Char := ' ' :: name.toList ++ ['=']

theorem toList_attributeText (name value : String) :
    (Tag.attributeText name value).toList =
      beforeValue name ++ '"' :: ((escapeMarkup value).toList ++ ['"']) := by
  simp [Tag.attributeText, beforeValue]

/-- An attribute in a tag, behind text without quotes. -/
theorem renameTag_attribute {name : String} (hname : isElementName name.toList = true)
    {before : List Char} (hbefore : '"' ∉ before) (value : String) (rest : List Char) :
    renameTag p (before ++ ((Tag.attributeText name value).toList ++ rest)) =
      before ++ (beforeValue name ++ '"' :: ((if name = "class" then
        renameWords p (escapeMarkup value).toList else (escapeMarkup value).toList) ++
          '"' :: renameTag p rest)) := by
  have hquote : '"' ∉ before ++ beforeValue name := by
    have hmem := not_quote_mem_name hname
    simp [beforeValue, hbefore, hmem]
  have hvalue : '"' ∉ (escapeMarkup value).toList := fun hc => (ne_of_mem_escapeMarkup hc).2.2 rfl
  have htext : before ++ ((Tag.attributeText name value).toList ++ rest) =
      (before ++ beforeValue name) ++ '"' :: ((escapeMarkup value).toList ++ '"' :: rest) := by
    simp [toList_attributeText]
  rw [htext, renameTag_value hquote hvalue, List.append_assoc]
  simp only [beforeValue, isSuffixOf_name hname]

/-- Attributes in a tag are renamed one by one.  A flag has no value, so it goes with what stands
    before the next value. -/
theorem renameTag_attributes {attributes renamed : List Attribute}
    (h : List.Forall₂ (Attribute.Renames p) attributes renamed) {before : List Char}
    (hbefore : '"' ∉ before) :
    renameTag p (before ++ ((String.join (attributes.map Tag.Attribute.text)).toList ++ ['>'])) =
      before ++ ((String.join (renamed.map Tag.Attribute.text)).toList ++ ['>']) := by
  induction h generalizing before with
  | nil =>
    refine renameTag_of_not_mem ?_
    rw [List.map_nil, String.join_nil]
    simpa using hbefore
  | @cons a a' rest rest' ha _ ih =>
    have hempty := @ih [] List.not_mem_nil
    rw [List.nil_append, List.nil_append] at hempty
    rw [List.map_cons, List.map_cons, String.join_cons, String.join_cons, String.toList_append,
      String.toList_append]
    rw [List.append_assoc, List.append_assoc]
    cases ha with
    | generated index =>
      -- a class that was given is one word of its attribute, and has nothing to escape
      have hname : isElementName "class".toList = true := by decide
      rw [Tag.Attribute.text, Tag.Attribute.text, renameTag_attribute hname hbefore, if_pos rfl,
        escapeMarkup_className, renameWords_className, hempty, toList_attributeText,
        escapeMarkup_className]
      simp only [List.append_assoc, List.cons_append, List.nil_append]
    | other hname hne =>
      cases a with
      | text name value =>
        replace hname : isElementName name.toList = true := hname
        replace hne : name ≠ "class" := hne
        rw [Tag.Attribute.text, renameTag_attribute hname hbefore, if_neg hne, hempty,
          toList_attributeText]
        simp only [List.append_assoc, List.cons_append, List.nil_append]
      | flag name =>
        -- it is put to what stands before the next value
        have hflag : '"' ∉ before ++ (Tag.Attribute.text (.flag name)).toList := by
          have hmem := not_quote_mem_name hname
          simp [Tag.Attribute.text, Attribute.name] at hmem ⊢
          exact ⟨hbefore, hmem⟩
        rw [← List.append_assoc, ih hflag, List.append_assoc]

/-! ## Tags -/

/-- The names that attributes given one by one may have. -/
def IsPlainAttribute (name : String) : Prop := isElementName name.toList = true ∧ name ≠ "class"

section Wrap

variable {t : Tag} (h : t.AllNames IsPlainAttribute) (generated : Option Nat)
include h

/-- All attributes of a tag stay but its class. -/
theorem renames_allAttributes :
    List.Forall₂ (Attribute.Renames p) (t.allAttributes (generated.map className))
      (t.allAttributes (generated.map fun index => className (p index))) := by
  have hown : List.Forall₂ (Attribute.Renames p) t.attributes t.attributes :=
    List.forall₂_same.2 fun a ha => .other (h a ha).1 (h a ha).2
  have hnamed {name : String} (hname : isElementName name.toList = true ∧ name ≠ "class")
      (value : Option String) : List.Forall₂ (Attribute.Renames p)
        (value.map (WebStory.Attribute.text name)).toList
        (value.map (WebStory.Attribute.text name)).toList := by
    cases value with
    | none => exact .nil
    | some value => exact .cons (.other hname.1 hname.2) .nil
  have hclass : List.Forall₂ (Attribute.Renames p)
      ((generated.map className).map (WebStory.Attribute.text "class")).toList
      ((generated.map fun index => className (p index)).map
        (WebStory.Attribute.text "class")).toList := by
    cases generated with
    | none => exact .nil
    | some index => exact .cons (.generated index) .nil
  unfold Tag.allAttributes
  refine List.rel_append (List.rel_append (List.rel_append (List.rel_append (List.rel_append hown ?_)
    ?_) ?_) hclass) ?_
  all_goals exact hnamed (by decide) _

variable (hname : isElementName t.name.toList = true)
include hname

/-- An open tag is renamed in its class. -/
theorem renamed_openTag :
    renamed p (.openTag t.name.toList (t.openText (generated.map className)).toList) =
      (t.openText (generated.map fun index => className (p index))).toList := by
  have hquote : '"' ∉ '<' :: t.name.toList := by
    have hmem := not_quote_mem_name hname
    simpa using hmem
  rw [Tag.toList_openText, Tag.toList_openText]
  simpa [Token.renamed, opening] using
    renameTag_attributes (renames_allAttributes (p := p) h generated) hquote

/-- A tag around its content is renamed as its content is, and in its class. -/
theorem gathers_wrap (hraw : rawTextNames.contains t.name.toList = false) {content content' : String}
    (hcontent : Gathers (renamed p) content.toList content'.toList) :
    Gathers (renamed p) (t.wrap (generated.map className) content).toList
      (t.wrap (generated.map fun index => className (p index)) content').toList := by
  have hclean : t.Clean := Tag.clean_iff_allNames.2 (h.imp fun _ hplain => hplain.1)
  have helement := Tag.gathers_element hname hraw
    (hclean.closed_allAttributes (generated.map className)) hcontent
  rw [renamed_openTag h generated hname] at helement
  rw [Tag.toList_wrap _ _ content']
  exact helement

end Wrap

/-! ## Spans -/

def renameName (p : Nat → Nat) (name : String) : String := String.ofList (renameWord p name.toList)

theorem renameName_className (index : Nat) : renameName p (className index) = className (p index) := by
  rw [renameName, renameWord_className, String.ofList_toList]

theorem renameName_injective (h : Function.Injective p) : Function.Injective (renameName p) := by
  intro name name' heq
  exact String.toList_inj.1 (renameWord_injective h (String.ofList_injective heq))

namespace Span

def rename (p : Nat → Nat) (s : Span) : Span := ⟨s.text, s.classes.map (renameName p)⟩

/-- All classes of the span are generated ones. -/
def Generated (s : Span) : Prop := ∀ k ∈ s.classes, ∃ index, k = className index

theorem Generated.plain {s : Span} (h : s.Generated) : s.Plain := by
  intro k hk
  obtain ⟨index, rfl⟩ := h k hk
  exact isClassChar_className index

theorem renameTag_openTag {s : Span} (h : s.Generated) (hne : s.classes ≠ []) :
    renameTag p s.openTag = (s.rename p).openTag := by
  have hopening (classes : List Char) : opening "span".toList (classAttribute classes) =
      "<span class=".toList ++ '"' :: (classes ++ ['"', '>']) := by
    have hname : "<span class=".toList = '<' :: ("span".toList ++ " class=".toList) := by
      decide +kernel
    unfold opening classAttribute
    rw [hname]
    generalize "span".toList = name
    generalize " class=".toList = before
    simp
  have hquote : '"' ∉ [' '].intercalate (s.classes.map String.toList) := by
    have hclasses := isClassChar_intercalate h.plain
    rw [String.toList_intercalate] at hclasses
    exact fun hmem => (hclasses _ hmem).1 rfl
  have hwords : renameWords p ([' '].intercalate (s.classes.map String.toList)) =
      [' '].intercalate ((s.classes.map (renameName p)).map String.toList) := by
    have hblank : ∀ word ∈ s.classes.map String.toList, ' ' ∉ word := by
      intro word hword
      obtain ⟨k, hk, rfl⟩ := List.mem_map.1 hword
      obtain ⟨index, rfl⟩ := h k hk
      exact blank_not_mem_className index
    rw [renameWords, List.splitOn_intercalate ' ' hblank (by simpa using hne), List.map_map,
      List.map_map]
    simp only [Function.comp_def, renameName, String.toList_ofList]
  have hblank : " ".toList = [' '] := by decide
  rw [openTag, hopening, String.toList_intercalate, hblank,
    renameTag_value (by decide) hquote ['>'], if_pos (by decide), hwords,
    renameTag_of_not_mem (by decide), openTag, hopening, String.toList_intercalate, hblank, rename]

/-- A span is renamed in its classes. -/
theorem gathers_piece {s : Span} (h : s.Generated) :
    Gathers (renamed p) s.piece (s.rename p).piece := by
  have hbreak : renamed p (.openTag "br".toList lineBreak) = lineBreak :=
    renameTag_of_not_mem (by decide)
  have hspan := gathers_span (g := renamed p) (fun cs => (List.flatMap_singleton' cs).symm)
    (hbreak.trans (List.flatMap_singleton' lineBreak).symm) h.plain
  rw [List.flatMap_singleton'] at hspan
  have hempty : (s.rename p).classes.isEmpty = s.classes.isEmpty := List.isEmpty_map
  have hpiece : (s.rename p).piece = if s.classes.isEmpty then s.lines
      else (s.rename p).openTag ++ (s.lines ++ closing "span".toList) := by
    rw [piece, hempty]
    rfl
  rw [hpiece]
  by_cases hclasses : s.classes.isEmpty = true
  · rw [if_pos hclasses] at hspan ⊢
    exact hspan
  · have hne : s.classes ≠ [] := fun heq => hclasses (List.isEmpty_iff.2 heq)
    rw [if_neg hclasses] at hspan ⊢
    rw [← renameTag_openTag h hne]
    exact hspan

end Span

theorem consSpan_rename (hp : Function.Injective p) (c : Char) (classes : List String)
    (spans : List Span) : consSpan c (classes.map (renameName p)) (spans.map (Span.rename p)) =
      (consSpan c classes spans).map (Span.rename p) := by
  cases spans with
  | nil => rfl
  | cons s rest =>
    have hiff : (s.rename p).classes = classes.map (renameName p) ↔ s.classes = classes :=
      (List.map_injective_iff.2 (renameName_injective hp)).eq_iff
    rw [List.map_cons, consSpan, consSpan]
    by_cases h : s.classes = classes
    · rw [if_pos h, if_pos (hiff.2 h)]
      rfl
    · rw [if_neg h, if_neg (hiff.not.2 h)]
      rfl

/-- The boundaries of spans do not depend on how classes are called. -/
theorem spansFrom_rename (hp : Function.Injective p) {ranges ranges' : List (InlineStyle × String)}
    (h : ∀ index, activeClasses ranges' index = (activeClasses ranges index).map (renameName p))
    (index : Nat) (cs : List Char) :
    spansFrom ranges' index cs = (spansFrom ranges index cs).map (Span.rename p) := by
  induction cs generalizing index with
  | nil => rfl
  | cons c rest ih => rw [spansFrom, spansFrom, ih, h, consSpan_rename hp]

/-! ## Texts -/

/-- The class of each key, where the keys have indices. -/
def indexed (index : String → Nat) : Naming := fun key => className (index key)

section Texts

variable (hp : Function.Injective p) (index : String → Nat) (text : String)
  (ranges : List InlineStyle)

theorem generated_textSpans : ∀ s ∈ textSpans (indexed index) text ranges, s.Generated := by
  intro s hs k hk
  unfold textSpans at hs
  split at hs
  · obtain rfl := List.mem_singleton.1 hs
    exact absurd hk List.not_mem_nil
  · obtain ⟨⟨r, k'⟩, hr, rfl⟩ := List.mem_map.1 (mem_classes_of_mem_spansFrom hs hk)
    obtain ⟨r', -, rfl⟩ := List.mem_map.1 (List.of_mem_zip hr).2
    exact ⟨_, rfl⟩

include hp

theorem textSpans_rename : textSpans (indexed fun key => p (index key)) text ranges =
    (textSpans (indexed index) text ranges).map (Span.rename p) := by
  unfold textSpans
  by_cases hempty : ranges.isEmpty = true
  · rw [if_pos hempty, if_pos hempty]
    rfl
  · rw [if_neg hempty, if_neg hempty]
    refine spansFrom_rename hp (fun i => ?_) 0 text.toList
    rw [activeClasses_zip, activeClasses_zip, List.map_map]
    refine List.map_congr_left fun key _ => ?_
    exact (renameName_className (index key)).symm

theorem gathers_textMarkup : Gathers (renamed p) (textMarkup (indexed index) text ranges).toList
    (textMarkup (indexed fun key => p (index key)) text ranges).toList := by
  have hplain (index : String → Nat) : (indexed index).Plain := fun _ => isClassChar_className _
  rw [toList_textMarkup text ranges (hplain _), toList_textMarkup text ranges (hplain _),
    textSpans_rename hp, List.flatMap_map]
  exact gathers_flatMap fun s hs => Span.gathers_piece (generated_textSpans index text ranges s hs)

end Texts

end WebStory
