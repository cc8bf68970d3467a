import WebStory.Json.Value
import WebStory.Proofs.Markup.Escape
/-
  A guarded JSON text is read as the text itself.

  The guard puts a backslash into each `</` of a text, without a look at where it stands.  That this
  changes nothing for a reader follows from a few laws of what prints the text and reads it
  (`ScriptLaws`), and from nothing else about either.

  1. **Places** — a character of a JSON text stands outside the string literals, inside one, or behind
     the backslash of an escape (`Place`).  Quotes and backslashes alone decide about it.

  2. **Laws** — in a printed text `<` stands inside a literal: never outside of one, and never behind
     a backslash.  So the slash of a `</` stands inside the literal too, unescaped as well, and there
     a reader takes an escaped slash for a slash.

  3. **Crux** — the guard works from the left, so what stands in front of the next `</` is no printed
     text any more, but a guarded one.  Only the place behind it counts, and that is the one behind
     the printed text: `\/` leads from inside a literal to inside it, as `/` does.  So the induction is
     over the rest of a text, behind any beginning (`read_guardClosing`).
-/

namespace WebStory.Json

/-! ## Places -/

/-- Where the characters of a JSON text stand. -/
inductive Place where
  /-- Outside the string literals. -/
  | outside
  /-- Inside a string literal. -/
  | inside
  /-- Behind the backslash of an escape. -/
  | escaped
deriving DecidableEq

namespace Place

/-- The place behind a character. -/
def next : Place → Char → Place
  | outside, c => if c = '"' then inside else outside
  | inside, c => if c = '"' then outside else if c = '\\' then escaped else inside
  | escaped, _ => inside

theorem next_outside {c : Char} (hquote : c ≠ '"') : outside.next c = outside := if_neg hquote

theorem next_inside {c : Char} (hquote : c ≠ '"') (hslash : c ≠ '\\') : inside.next c = inside :=
  (if_neg hquote).trans (if_neg hslash)

/-- The place behind several characters. -/
def after (p : Place) (chars : List Char) : Place := chars.foldl next p

theorem after_append (p : Place) (cs ds : List Char) : p.after (cs ++ ds) = (p.after cs).after ds :=
  List.foldl_append

/-- Each `<` of the characters stands inside a literal. -/
def Keeps : Place → List Char → Prop
  | _, [] => True
  | p, c :: cs => (c = '<' → p = inside) ∧ (p.next c).Keeps cs

theorem keeps_append {p : Place} {cs ds : List Char} :
    p.Keeps (cs ++ ds) ↔ p.Keeps cs ∧ (p.after cs).Keeps ds := by
  induction cs generalizing p with
  | nil => simp only [List.nil_append, Keeps, after, List.foldl_nil, true_and]
  | cons c cs ih =>
    rw [List.cons_append, Keeps, Keeps, ih, and_assoc]
    rfl

theorem keeps_iff {p : Place} {cs : List Char} :
    p.Keeps cs ↔ ∀ before rest, cs = before ++ '<' :: rest → p.after before = inside := by
  constructor
  · rintro h before rest rfl
    exact (keeps_append.1 h).2.1 rfl
  · intro h
    induction cs generalizing p with
    | nil => trivial
    | cons c cs ih =>
      refine ⟨?_, ih fun before rest hcs => h (c :: before) rest (congrArg (c :: ·) hcs)⟩
      rintro rfl
      exact h [] cs rfl

end Place

/-- The character stands at the place, somewhere in the text. -/
def StandsAt (c : Char) (p : Place) (text : String) : Prop :=
  ∃ before rest, text.toList = before ++ c :: rest ∧ Place.outside.after before = p

/-! ## Laws -/

/-- What scripts rely on in the printing and the reading of JSON. -/
structure ScriptLaws (print : Value → String) (read : String → Option Value) : Prop where
  /-- No `<` stands outside the string literals of a printed text. -/
  angleInLiteral : ∀ v, ¬StandsAt '<' .outside (print v)
  /-- No `<` stands behind the backslash of an escape there. -/
  angleNotEscaped : ∀ v, ¬StandsAt '<' .escaped (print v)
  /-- Inside a string literal an escaped slash is read like a slash. -/
  escapedSlash : ∀ before rest, Place.outside.after before = .inside →
    read (String.ofList (before ++ '\\' :: '/' :: rest)) =
      read (String.ofList (before ++ '/' :: rest))

section Laws

variable {print : Value → String} {read : String → Option Value} (laws : ScriptLaws print read)
include laws

theorem ScriptLaws.keeps_print (v : Value) : Place.outside.Keeps (print v).toList := by
  refine Place.keeps_iff.2 fun before rest hprint => ?_
  cases hplace : Place.outside.after before with
  | outside => exact absurd ⟨before, rest, hprint, hplace⟩ (laws.angleInLiteral v)
  | inside => rfl
  | escaped => exact absurd ⟨before, rest, hprint, hplace⟩ (laws.angleNotEscaped v)

/-- The rest of a text is read like what the guard makes of it, whatever stands before it. -/
theorem read_guardClosing (rest : List Char) (before : List Char)
    (h : (Place.outside.after before).Keeps rest) :
    read (String.ofList (before ++ guardClosing rest)) = read (String.ofList (before ++ rest)) := by
  fun_induction guardClosing rest generalizing before with
  | case1 => rfl
  | case2 rest ih =>
    obtain ⟨hangle, -, hrest⟩ := h
    have hplace := hangle rfl
    have hbehind : Place.outside.after (before ++ ['<', '\\', '/']) = .inside := by
      rw [Place.after_append, hplace]
      rfl
    rw [hplace] at hrest
    -- first the rest, behind what is guarded already, then the slash in front of it
    have hguarded := ih (before ++ ['<', '\\', '/']) (by rw [hbehind]; exact hrest)
    have hangled : Place.outside.after (before ++ ['<']) = .inside := by
      rw [Place.after_append, hplace]
      rfl
    have hslash := laws.escapedSlash (before ++ ['<']) rest hangled
    rw [List.append_assoc, List.append_assoc] at hguarded
    rw [List.append_assoc, List.append_assoc] at hslash
    exact hguarded.trans hslash
  | case3 c rest _ ih =>
    have hrest : (Place.outside.after (before ++ [c])).Keeps rest := by
      rw [Place.after_append]
      exact h.2
    have hguarded := ih (before ++ [c]) hrest
    rw [List.append_assoc, List.append_assoc] at hguarded
    exact hguarded

/-- The payload of a script is read as the text it was made of. -/
theorem read_escapeScript (v : Value) : read (escapeScript (print v)) = read (print v) := by
  have hguarded := read_guardClosing laws (print v).toList [] (laws.keeps_print v)
  rw [List.nil_append, List.nil_append, String.ofList_toList] at hguarded
  exact hguarded

end Laws

end WebStory.Json
