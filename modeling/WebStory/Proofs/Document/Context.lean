import Mathlib.Logic.Equiv.Fintype
import Mathlib.Data.Set.Finite.List
import WebStory.Proofs.Document.Outline
import WebStory.Proofs.Markup.Renaming
/-
  What the context of an element decides.

  The state in which an element is rendered holds the classes and the extensions of what was
  rendered before.  It decides how the classes of the element are called, and nothing else
  (`renderElement_renamed`).

  1. **Failure** — whether the element can be rendered is settled by its own faults, and so is the
     error.

  2. **Two numberings** — if it can be rendered, then two tables number the keys differently.  Since
     each of them gives different keys different numbers, one numbering is the other behind a
     permutation.  The shared keys are finitely many, so what takes their places in one table to
     those in the other extends to a permutation of all numbers; a key of the other table alone is
     then numbered so that the permutation takes it to its place (`exists_numbering`).

  3. **Markup** — behind a permutation the markup of every element is the same but for the renamed
     classes (`gathers_element`).  Names are replaced in the text that was read, not in the element,
     so what has the look of a class in a text or in another attribute stays as it is.
-/

namespace WebStory

open Token ClassTable

/-! ## Elements with renamed classes -/

/-- Parts one after another, each of which becomes another text. -/
theorem gathers_join_text {g : Token → List Char} {β : Type} {parts : List β}
    {text text' : β → String} (h : ∀ b ∈ parts, Gathers g (text b).toList (text' b).toList) :
    Gathers g (String.join (parts.map text)).toList (String.join (parts.map text')).toList := by
  have htext : (String.join (parts.map text')).toList = parts.flatMap fun b => (text' b).toList := by
    rw [String.toList_join, List.flatMap_map]
  rw [htext]
  exact gathers_join h

section Renamed

variable {p : Nat → Nat} (index : String → Nat)

/-- A tag of an element around its content. -/
theorem gathers_markup {t : Tag} {tag : String} (hnamed : t.AllNames (· ∈ elementAttributes))
    (hclass : t.explicitClass = none) (htag : t.name = tag)
    (hname : isElementName tag.toList = true) (hraw : rawTextNames.contains tag.toList = false)
    {content content' : String} (hcontent : Gathers (renamed p) content.toList content'.toList) :
    Gathers (renamed p) (t.markup (indexed index) content).toList
      (t.markup (indexed fun key => p (index key)) content').toList := by
  subst htag
  have hplain : ∀ name ∈ elementAttributes, IsPlainAttribute name := by
    unfold IsPlainAttribute
    decide
  have hwrap := gathers_wrap (hnamed.imp hplain)
    ((Tag.effectiveStyles t.name t.styles).map fun r => index r.canonicalKey) hname hraw hcontent
  rw [Option.map_map, Option.map_map] at hwrap
  have hnone (classes : Option String) : Tag.joinClasses none classes = classes := by
    cases classes <;> rfl
  rw [Tag.markup, Tag.markup, hclass, hnone, hnone]
  exact hwrap

variable (hp : Function.Injective p)
include hp

/-- The markup of an element is the same but for the names of its classes. -/
theorem gathers_element (e : Element) (third : Option Nat) :
    Gathers (renamed p) (e.markup (indexed index) third).toList
      (e.markup (indexed fun key => p (index key)) third).toList := by
  induction e using Element.induct generalizing third with
  | container id styles elements ih =>
    have hchildren := gathers_join_text fun e he => ih e he none
    rw [← childMarkup_eq_join, ← childMarkup_eq_join] at hchildren
    rw [Element.markup, Element.markup]
    exact gathers_markup index (named_containerTag third id styles) (by simp [containerTag])
      (by simp [containerTag]) (by decide : isElementName "div".toList = true) (by decide) hchildren
  | text t =>
    have htext := gathers_textMarkup hp index t.text t.inlineStyles
    have hblock := isBlock_tagName t.kind
    simp only [Tag.isBlock, Bool.and_eq_true, Bool.not_eq_true'] at hblock
    rw [Element.markup, Element.markup]
    exact gathers_markup index (named_textTag third t) (by simp [textTag]) (by simp [textTag])
      hblock.1.1.1 hblock.2 htext
  | image i =>
    rw [Element.markup, Element.markup]
    exact gathers_markup index (named_imageTag third i) (by simp [imageTag]) (by simp [imageTag])
      (by decide : isElementName "amp-img".toList = true) (by decide) gathers_nil
  | video v =>
    have hsource (s : VideoSource) : Gathers (renamed p)
        ((sourceTag s).markup (indexed index) "").toList
        ((sourceTag s).markup (indexed fun key => p (index key)) "").toList :=
      gathers_markup index (named_sourceTag s) (by simp [sourceTag]) (by simp [sourceTag])
        (by decide : isElementName "source".toList = true) (by decide) gathers_nil
    have hsources := gathers_join_text fun s (_ : s ∈ v.sources) => hsource s
    rw [Element.markup, Element.markup]
    exact gathers_markup index (named_videoTag third v) (by simp [videoTag]) (by simp [videoTag])
      (by decide : isElementName "amp-video".toList = true) (by decide) hsources

theorem markup_indexed (e : Element) (third : Option Nat) :
    e.markup (indexed fun key => p (index key)) third =
      renameClasses p (e.markup (indexed index) third) := by
  rw [renameClasses, (gathers_element index hp e third).flatMap_scan, String.ofList_toList]

end Renamed

/-! ## Two tables -/

/-- The numbers of two tables are those of one numbering, and the same behind a permutation. -/
theorem exists_numbering {u u' : ClassTable} (h : u.Consistent) (h' : u'.Consistent) :
    ∃ (index : String → Nat) (p : Equiv.Perm Nat),
      u.Gives (indexed index) ∧ u'.Gives (indexed fun key => p (index key)) := by
  let keys := Entries.names u.cache
  let keys' := Entries.names u'.cache
  -- the permutation takes the places of shared keys to their places in the other table
  let Shared := { key // key ∈ keys.filter (· ∈ keys') }
  have hfinite : Finite Shared := (List.finite_toSet _).to_subtype
  have hmem (key : Shared) : key.1 ∈ keys ∧ key.1 ∈ keys' := by
    have hkey := List.mem_filter.1 key.2
    exact ⟨hkey.1, of_decide_eq_true hkey.2⟩
  have hinjective : Function.Injective fun key : Shared => keys.idxOf key.1 := fun key _ heq =>
    Subtype.ext ((List.idxOf_inj (hmem key).1).1 heq)
  have hinjective' : Function.Injective fun key : Shared => keys'.idxOf key.1 := fun key _ heq =>
    Subtype.ext ((List.idxOf_inj (hmem key).2).1 heq)
  obtain ⟨p, hp⟩ := Equiv.Perm.exists_extending_pair _ _ hinjective hinjective'
  -- a key of the other table alone is numbered so that the permutation takes it to its place
  let index (key : String) : Nat :=
    if key ∈ keys then keys.idxOf key else p.symm (keys'.idxOf key)
  refine ⟨index, p, fun key c hkey => ?_, fun key c hkey => ?_⟩
  · have hin : key ∈ keys := Entries.name_mem_of_mem (Entries.mem_of_get? hkey)
    have hindex : index key = keys.idxOf key := if_pos hin
    rw [indexed, hindex]
    exact h.gives_naming key c hkey
  · have hin' : key ∈ keys' := Entries.name_mem_of_mem (Entries.mem_of_get? hkey)
    have hindex : p (index key) = keys'.idxOf key := by
      by_cases hin : key ∈ keys
      · have hshared : key ∈ keys.filter (· ∈ keys') := List.mem_filter.2 ⟨hin, decide_eq_true hin'⟩
        rw [show index key = keys.idxOf key from if_pos hin]
        exact hp ⟨key, hshared⟩
      · rw [show index key = p.symm (keys'.idxOf key) from if_neg hin, Equiv.apply_symm_apply]
    rw [indexed, hindex]
    exact h'.gives_naming key c hkey

/-! ## Rendered elements -/

/-- In any two states the rendering of an element fails with the same error, or it succeeds in both,
    and a permutation of the numbers of classes makes one markup of the other. -/
theorem renderElement_renamed {state state' : BodyState} (ht : state.classes.Reachable)
    (ht' : state'.classes.Reachable) (path : Path) (third : Option Nat) (e : Element) :
    (∃ error, (renderElement path third e).run state = .error error ∧
      (renderElement path third e).run state' = .error error) ∨
    ∃ markup markup' last last', ∃ p : Equiv.Perm Nat,
      (renderElement path third e).run state = .ok (markup, last) ∧
      (renderElement path third e).run state' = .ok (markup', last') ∧
      markup' = renameClasses p markup ∧ markup = renameClasses p.symm markup' := by
  have hwalks := walks_element e path third
  cases hfault : firstFault (e.visits path) with
  | some error => exact .inl ⟨error, hwalks.fails ht hfault, hwalks.fails ht' hfault⟩
  | none =>
    obtain ⟨index, p, hgives, hgives'⟩ := exists_numbering (ht.after (e.visits path)).consistent
      (ht'.after (e.visits path)).consistent
    refine .inr ⟨_, _, _, _, p, hwalks.succeeds ht hfault hgives,
      hwalks.succeeds ht' hfault hgives', markup_indexed index p.injective e third, ?_⟩
    have hback := markup_indexed (fun key => p (index key)) p.symm.injective e third
    simp only [Equiv.symm_apply_apply] at hback
    exact hback

/-- A flex box around a styled text, rendered first and after a flex box. -/
theorem renderElement_after_box :
    let red : StyleRecord := ⟨[("color", .string "red")]⟩
    let text : Element := .text ⟨.paragraph, some "s-1", "s-1", [], some red⟩
    let box : Element := .container none none [text]
    let t : BodyState := ⟨(empty.assign ⟨[("display", .string "flex")]⟩ .story).2, []⟩
    ∃ u u', ∃ p : Equiv.Perm Nat,
      (renderElement .story none box).run .empty =
        .ok ("<div class=\"s-2\"><p id=\"s-1\" class=\"s-1\">s-1</p></div>", u) ∧
      (renderElement .story none box).run t =
        .ok ("<div class=\"s-1\"><p id=\"s-1\" class=\"s-2\">s-1</p></div>", u') ∧
      "<div class=\"s-1\"><p id=\"s-1\" class=\"s-2\">s-1</p></div>" =
        renameClasses p "<div class=\"s-2\"><p id=\"s-1\" class=\"s-1\">s-1</p></div>" := by
  intro red text box t
  have ht : t.classes.Reachable := ⟨[⟨⟨[("display", .string "flex")]⟩, .story⟩], rfl⟩
  have hmarkup : ((renderElement .story none box).run .empty).toOption.map (·.1) =
      some "<div class=\"s-2\"><p id=\"s-1\" class=\"s-1\">s-1</p></div>" := by decide +kernel
  have hmarkup' : ((renderElement .story none box).run t).toOption.map (·.1) =
      some "<div class=\"s-1\"><p id=\"s-1\" class=\"s-2\">s-1</p></div>" := by decide +kernel
  have hempty : BodyState.empty.classes.Reachable := reachable_empty
  rcases renderElement_renamed hempty ht .story none box with
    ⟨error, herror, -⟩ | ⟨markup, markup', u, u', p, hrun, hrun', heq, -⟩
  · rw [herror] at hmarkup
    cases hmarkup
  · rw [hrun] at hmarkup
    rw [hrun'] at hmarkup'
    obtain rfl : markup = _ := Option.some.inj hmarkup
    obtain rfl : markup' = _ := Option.some.inj hmarkup'
    exact ⟨u, u', p, hrun, hrun', heq⟩

end WebStory
