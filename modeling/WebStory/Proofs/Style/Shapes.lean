import WebStory.Style.Shapes
import WebStory.Proofs.Json.Decode
/-
  Structured style values and their canonical forms.

  Each structured value is read alike from a value and from its canonical form: the names of its
  fields are looked up, the list form keeps its order, and the numbers are floating-point in both.
  Which shadows and which color stops there are does not show in a failure, but that there are any
  is asked for later; so of lists the length is kept even where negative zero may lose its sign.
-/

namespace WebStory

open Json

variable {strict : Prop}

/-- A field without a default needs nothing of it. -/
theorem fallback_none {α : Type} {R : α → α → Prop} : ∀ a ∈ (none : Option α), R a a := nofun

theorem fallback_alike {α : Type} {fallback : Option α} : ∀ a ∈ fallback, Alike strict a a :=
  fun _ _ _ => rfl

theorem Distance.respects_decode : Respects strict (Alike strict) Distance.decode := by
  refine Respects.either ?_ ?_
  · exact respects_binary64.map fun a b hab hs => congrArg _ (hab hs)
  · exact respects_string.map fun a b hab hs => congrArg _ (hab hs)

theorem ShadowOffset.respects_decode : Respects strict (Alike strict) ShadowOffset.decode := by
  refine respects_record fun s hs => ?_
  refine agree_both_alike (agree_both_alike (fun _ => rfl) ?_) ?_
  · exact agree_readField respects_binary64 hs _ _ fallback_alike
  · exact agree_readField respects_binary64 hs _ _ fallback_alike

theorem Shadow.respects_decode : Respects strict (Alike strict) Shadow.decode := by
  refine respects_record fun s hs => ?_
  refine agree_both_alike (agree_both_alike (agree_both_alike (agree_both_alike
    (fun _ => rfl) ?_) ?_) ?_) ?_
  · exact agree_readField ShadowOffset.respects_decode hs _ _ fallback_alike
  · exact agree_readField respects_string hs _ _ fallback_alike
  · exact agree_readField respects_binary64.option hs _ _ fallback_alike
  · exact agree_readField respects_binary64.option hs _ _ fallback_alike

theorem respects_decodeShadows : Respects strict (AlikeList strict) decodeShadows := by
  refine Respects.either Shadow.respects_decode.list ?_
  exact Shadow.respects_decode.map fun a b hab => ⟨rfl, fun hs => by rw [hab hs]⟩

theorem GradientStop.respects_decode : Respects strict (Alike strict) GradientStop.decode := by
  refine respects_record fun s hs => ?_
  refine agree_both_alike (agree_both_alike (fun _ => rfl) ?_) ?_
  · exact agree_readField respects_string hs _ _ fallback_alike
  · exact agree_readField Distance.respects_decode.option hs _ _ fallback_alike

/-- Gradients with as many stops, and equal where that is asked for. -/
def LinearGradient.AlikeStops (strict : Prop) (g h : LinearGradient) : Prop :=
  g.stops.length = h.stops.length ∧ Alike strict g h

theorem LinearGradient.respects_decode :
    Respects strict (LinearGradient.AlikeStops strict) LinearGradient.decode := by
  refine respects_record fun s hs => ?_
  refine agree_both (R := AlikeList strict) (agree_both (R := Alike strict) ?_ ?_) ?_
  · rintro direction direction' hdirection stops stops' ⟨hlength, hstops⟩
    exact ⟨hlength, fun hs => by rw [hdirection hs, hstops hs]⟩
  · exact agree_readField respects_string hs _ _ fallback_alike
  · exact agree_readField GradientStop.respects_decode.list hs _ _ fallback_none

theorem Border.respects_decode : Respects strict (Alike strict) Border.decode := by
  refine respects_record fun s hs => ?_
  refine agree_both_alike (agree_both_alike (agree_both_alike (fun _ => rfl) ?_) ?_) ?_
  · exact agree_readField respects_binary64 hs _ _ fallback_alike
  · exact agree_readField respects_string hs _ _ fallback_alike
  · exact agree_readField respects_string hs _ _ fallback_alike

end WebStory
