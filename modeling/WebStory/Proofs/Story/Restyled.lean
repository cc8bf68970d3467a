import Mathlib.Data.List.Forall2
import WebStory.Proofs.Story.Tree
/-
  Stories that differ only in their style records.

  Two stories are restyled (`Story.Restyled R`) if they are equal except for their style records, and
  each style record of the one is related by `R` to that in its place in the other.  Whether styles
  are there at all is the same for both.  What is asked of the records may be exchanged for
  something that follows from it (`Story.Restyled.mono`).
-/

namespace WebStory

variable (R : StyleRecord → StyleRecord → Prop)

/-! ## The relation -/

def InlineStyle.Restyled (s s' : InlineStyle) : Prop :=
  s' = { s with styles := s'.styles } ∧ R s.styles s'.styles

structure TextElement.Restyled (t t' : TextElement) : Prop where
  rest : t' = { t with inlineStyles := t'.inlineStyles, styles := t'.styles }
  ranges : List.Forall₂ (InlineStyle.Restyled R) t.inlineStyles t'.inlineStyles
  styles : Option.Rel R t.styles t'.styles

structure ImageElement.Restyled (i i' : ImageElement) : Prop where
  rest : i' = { i with styles := i'.styles }
  styles : Option.Rel R i.styles i'.styles

structure VideoElement.Restyled (v v' : VideoElement) : Prop where
  rest : v' = { v with styles := v'.styles }
  styles : Option.Rel R v.styles v'.styles

inductive Element.Restyled : Element → Element → Prop where
  | container (id : Option String) {styles styles' : Option StyleRecord}
      {elements elements' : List Element} (own : Option.Rel R styles styles')
      (inside : List.Forall₂ Element.Restyled elements elements') :
      Element.Restyled (.container id styles elements) (.container id styles' elements')
  | text {t t' : TextElement} (h : t.Restyled R t') : Element.Restyled (.text t) (.text t')
  | image {i i' : ImageElement} (h : i.Restyled R i') : Element.Restyled (.image i) (.image i')
  | video {v v' : VideoElement} (h : v.Restyled R v') : Element.Restyled (.video v) (.video v')

structure Layer.Restyled (l l' : Layer) : Prop where
  rest : l' = { l with styles := l'.styles, elements := l'.elements }
  styles : Option.Rel R l.styles l'.styles
  elements : List.Forall₂ (Element.Restyled R) l.elements l'.elements

structure Page.Restyled (p p' : Page) : Prop where
  rest : p' = { p with layers := p'.layers }
  layers : List.Forall₂ (Layer.Restyled R) p.layers p'.layers

/-- Stories that differ only inside style records. -/
structure Story.Restyled (s s' : Story) : Prop where
  rest : s' = { s with pages := s'.pages, defaultStyles := s'.defaultStyles }
  pages : List.Forall₂ (Page.Restyled R) s.pages s'.pages
  defaultStyles : List.Forall₂ (fun e e' => e.1 = e'.1 ∧ R e.2 e'.2) s.defaultStyles s'.defaultStyles

/-! ## Another relation -/

variable {R} {S : StyleRecord → StyleRecord → Prop}

/-- Lists related item by item are so by whatever follows for their items. -/
theorem forall₂_of_mem {α β : Type} {P Q : α → β → Prop} {as : List α} {bs : List β}
    (h : List.Forall₂ P as bs) (hPQ : ∀ a ∈ as, ∀ b, P a b → Q a b) : List.Forall₂ Q as bs := by
  induction h with
  | nil => exact .nil
  | cons hab _ ih =>
    exact .cons (hPQ _ List.mem_cons_self _ hab) (ih fun a ha => hPQ a (List.mem_cons_of_mem _ ha))

/-- Related items stand at one index. -/
theorem forall₂_zipIdx {α β : Type} {P : α → β → Prop} {as : List α} {bs : List β}
    (h : List.Forall₂ P as bs) (index : Nat) :
    List.Forall₂ (fun x y => P x.1 y.1 ∧ x.2 = y.2) (as.zipIdx index) (bs.zipIdx index) := by
  induction h generalizing index with
  | nil => exact .nil
  | cons hab _ ih => exact .cons ⟨hab, rfl⟩ (ih (index + 1))

theorem map_eq_of_forall₂ {α β γ : Type} {P : α → β → Prop} {f : α → γ} {g : β → γ} {as : List α}
    {bs : List β} (h : List.Forall₂ P as bs) (hfg : ∀ a ∈ as, ∀ b, P a b → f a = g b) :
    as.map f = bs.map g := by
  rw [← List.forall₂_eq_eq_eq, List.forall₂_map_left_iff, List.forall₂_map_right_iff]
  exact forall₂_of_mem h hfg

theorem rel_of_mem {styles styles' : Option StyleRecord} (h : Option.Rel R styles styles')
    (hRS : ∀ r ∈ styles.toList, ∀ r', R r r' → S r r') : Option.Rel S styles styles' := by
  cases h with
  | none => exact .none
  | some h => exact .some (hRS _ (List.mem_singleton.2 rfl) _ h)

theorem Element.Restyled.mono {e e' : Element} (h : e.Restyled R e')
    (hRS : ∀ r ∈ e.styleRecords, ∀ r', R r r' → S r r') : e.Restyled S e' := by
  induction e using Element.induct generalizing e' with
  | container id styles elements ih =>
    rw [Element.styleRecords, elementRecords_eq_flatMap, List.forall_mem_append,
      List.forall_mem_flatMap] at hRS
    cases h with
    | container _ own inside =>
      refine .container id (rel_of_mem own hRS.2) (forall₂_of_mem inside fun e he e' hee' => ?_)
      exact ih e he hee' (hRS.1 e he)
  | text t =>
    rw [Element.styleRecords, List.forall_mem_append, List.forall_mem_map] at hRS
    cases h with
    | text h =>
      refine .text ⟨h.rest, forall₂_of_mem h.ranges fun s hs s' hss' => ?_, rel_of_mem h.styles hRS.2⟩
      exact ⟨hss'.1, hRS.1 s hs _ hss'.2⟩
  | image i =>
    cases h with
    | image h => exact .image ⟨h.rest, rel_of_mem h.styles hRS⟩
  | video v =>
    cases h with
    | video h => exact .video ⟨h.rest, rel_of_mem h.styles hRS⟩

/-- What is asked of the records of a story may be exchanged for something that follows from it. -/
theorem Story.Restyled.mono {s s' : Story} (h : s.Restyled R s')
    (hRS : ∀ r ∈ s.styleRecords, ∀ r', R r r' → S r r') : s.Restyled S s' := by
  rw [Story.styleRecords, List.forall_mem_append, List.forall_mem_flatMap, List.forall_mem_map] at hRS
  refine ⟨h.rest, forall₂_of_mem h.pages fun p hp p' hpp' => ?_,
    forall₂_of_mem h.defaultStyles fun e he e' hee' => ⟨hee'.1, hRS.2 e he _ hee'.2⟩⟩
  have hpage := hRS.1 p hp
  rw [Page.styleRecords, List.forall_mem_flatMap] at hpage
  refine ⟨hpp'.rest, forall₂_of_mem hpp'.layers fun l hl l' hll' => ?_⟩
  have hlayer := hpage l hl
  rw [Layer.styleRecords, elementRecords_eq_flatMap, List.forall_mem_append,
    List.forall_mem_flatMap] at hlayer
  refine ⟨hll'.rest, rel_of_mem hll'.styles hlayer.2, ?_⟩
  exact forall₂_of_mem hll'.elements fun e he e' hee' => hee'.mono (hlayer.1 e he)

end WebStory
