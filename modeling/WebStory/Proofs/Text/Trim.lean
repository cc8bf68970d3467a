import Mathlib.Data.List.DropRight
import WebStory.Text.Blank
/-
  Blanks at the two ends of a text.

  Trimming takes away blanks in front of the first character that can be seen and behind the last.  So
  blanks put around a text make no difference to what is left of it, and a text that is trimmed stays
  as it is.
-/

namespace WebStory.Text

def AllBlank (cs : List Char) : Prop := ∀ c ∈ cs, isBlank c = true

theorem allBlank_nil : AllBlank [] := nofun

theorem AllBlank.append {cs ds : List Char} (hcs : AllBlank cs) (hds : AllBlank ds) :
    AllBlank (cs ++ ds) := List.forall_mem_append.2 ⟨hcs, hds⟩

variable {blanks cs : List Char}

theorem trim_append_left (h : AllBlank blanks) (cs : List Char) : trim (blanks ++ cs) = trim cs := by
  rw [trim, List.dropWhile_append_of_pos h, trim]

theorem trim_append_right (h : AllBlank blanks) (cs : List Char) : trim (cs ++ blanks) = trim cs := by
  rw [trim, trim, List.dropWhile_append]
  split
  · next hempty =>
    rw [List.isEmpty_iff.1 hempty, List.dropWhile_eq_nil_iff.2 h]
  · rw [List.reverse_append, List.dropWhile_append_of_pos]
    intro c hc
    exact h c (List.mem_reverse.1 hc)

theorem trim_of_allBlank (h : AllBlank blanks) : trim blanks = [] := by
  have htrim := trim_append_left h []
  rwa [List.append_nil] at htrim

/-- Trimming takes blanks from the two ends. -/
theorem exists_eq_trim (cs : List Char) :
    ∃ before after, AllBlank before ∧ AllBlank after ∧ cs = before ++ trim cs ++ after := by
  have hfront := List.takeWhile_append_dropWhile (p := isBlank) (l := cs)
  have hback := List.takeWhile_append_dropWhile (p := isBlank) (l := (cs.dropWhile isBlank).reverse)
  refine ⟨cs.takeWhile isBlank, ((cs.dropWhile isBlank).reverse.takeWhile isBlank).reverse,
    fun c hc => List.mem_takeWhile_imp hc, fun c hc => ?_, ?_⟩
  · exact List.mem_takeWhile_imp (List.mem_reverse.1 hc)
  · rw [trim, List.append_assoc, ← List.reverse_append, hback, List.reverse_reverse, hfront]

theorem trim_trim (cs : List Char) : trim (trim cs) = trim cs := by
  have htrim : trim cs = (cs.dropWhile isBlank).rdropWhile isBlank := rfl
  have hfront : (trim cs).dropWhile isBlank = trim cs := by
    rw [htrim, List.dropWhile_eq_self_iff]
    intro hpos
    have hshorter := List.rdropWhile_prefix isBlank (cs.dropWhile isBlank)
    rw [hshorter.getElem hpos]
    exact List.dropWhile_eq_self_iff.1 (List.dropWhile_idempotent isBlank _) _
  have hback : (trim cs).rdropWhile isBlank = trim cs := by
    rw [htrim, List.rdropWhile_idempotent]
  rw [trim, hfront]
  exact hback

/-- The characters that can be seen. -/
def visible (cs : List Char) : List Char := cs.filter (!isBlank ·)

theorem visible_append (cs ds : List Char) : visible (cs ++ ds) = visible cs ++ visible ds :=
  List.filter_append _ _

theorem visible_of_allBlank (h : AllBlank blanks) : visible blanks = [] := by
  rw [visible, List.filter_eq_nil_iff]
  intro c hc
  rw [h c hc]
  decide

theorem visible_trim (cs : List Char) : visible (trim cs) = visible cs := by
  obtain ⟨before, after, hbefore, hafter, heq⟩ := exists_eq_trim cs
  conv_rhs => rw [heq]
  rw [visible_append, visible_append, visible_of_allBlank hbefore, visible_of_allBlank hafter,
    List.append_nil, List.nil_append]

end WebStory.Text
