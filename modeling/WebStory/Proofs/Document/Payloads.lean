import WebStory.Document.Head
import WebStory.Story.Codec
import WebStory.Proofs.Json.Literals
import WebStory.Proofs.Markup.Legible
import WebStory.Proofs.Story.Codec
import WebStory.Proofs.Story.Sources
/-
  What the scripts of a document carry.

  Ads, analytics and metadata stand in a document as JSON inside script elements.  How JSON is printed
  and read is a library's affair: all that is asked of it here are the laws of scripts (`ScriptLaws`).
  Under these laws the payload of a script does three things (`Carries`).

  1. It ends nothing: whatever strings and keys are in the value, no `</` is left of them.

  2. It is read as the printed value is.  The crux is that the guard never gets out of the string
     literals, so that the backslashes it puts in are read as nothing (`read_escapeScript`).

  3. So where the printed value is read back as the value, the payload is too.  This is said of one
     value at a time.  A reader need not find every value again: it may bound the depth, and it may
     miss the last digit of a long decimal.

  The three kinds of scripts differ only in what they carry.  For ads it is the value that was given,
  for metadata the article made of its fields, and for an analytics entry the entry without its `type`,
  which stands in an attribute of the block instead (`CarriesEntry`).
-/

namespace WebStory

open Json

/-! ## Payloads -/

/-- The guard leaves no `</`. -/
theorem not_infix_escapeScript (json : String) : ¬"</".toList <:+: (escapeScript json).toList := by
  have hmark : Token.IsMark "</".toList :=
    ⟨['/'], rfl, List.forall_mem_singleton.2 (by decide)⟩
  have hinside := Token.not_infix_splitBefore hmark (guardClosing json.toList ++ "</".toList)
  have hsplit : Token.splitBefore "</".toList (guardClosing json.toList ++ "</".toList) =
      (guardClosing json.toList, "</".toList) := splitBefore_guardClosing json.toList [] []
  rw [hsplit] at hinside
  rw [toList_escapeScript]
  exact hinside

section Library

variable (print : Value → String) (read : String → Option Value)

/-- The text of a script element that stands for a value. -/
structure Carries (payload : String) (v : Value) : Prop where
  /-- Nothing in it can end the element. -/
  closesNothing : ¬"</".toList <:+: payload.toList
  /-- It is read as the printed value is, or like that text not at all. -/
  readAsText : read payload = read (print v)
  /-- It is read as the value, if the printed value is. -/
  readBack : read (print v) = some v → read payload = some v

/-! ## Script elements -/

/-- A script element around a text. -/
def scriptElement (mediaType payload : String) : String :=
  "<script type=\"" ++ mediaType ++ "\">" ++ payload ++ "</script>"

/-- The attribute that names an analytics service. -/
def serviceAttribute : Option String → String
  | some s => if s.isEmpty then "" else " type=\"" ++ escapeMarkup s ++ "\""
  | none => ""

/-- The block of an analytics service around a text. -/
def analyticsBlock (service : Option String) (payload : String) : String :=
  "<amp-analytics" ++ serviceAttribute service ++ ">" ++ scriptElement "application/json" payload ++
    "</amp-analytics>"

/-- A block carries an entry without its `type`. -/
def CarriesEntry (entry : Value) (block : String) : Prop :=
  ∃ members a payload, entry = .object members ∧ AnalyticsConfig.decode entry = .ok a ∧
    block = analyticsBlock a.service payload ∧
    Carries print read payload (.object (members.filter fun e => e.1 != "type"))

/-! ## Ads, analytics and metadata -/

variable {print read} (laws : ScriptLaws print read)
include laws

theorem carries_escapeScript (v : Value) : Carries print read (escapeScript (print v)) v where
  closesNothing := not_infix_escapeScript (print v)
  readAsText := read_escapeScript laws v
  readBack h := (read_escapeScript laws v).trans h

theorem exists_carries_jsonScript (mediaType : String) (v : Value) :
    ∃ payload, jsonScriptWith print mediaType v = scriptElement mediaType payload ∧
      Carries print read payload v :=
  ⟨escapeScript (print v), rfl, carries_escapeScript laws v⟩

theorem carriesEntry_markup {entry : Value} {a : AnalyticsConfig}
    (h : AnalyticsConfig.decode entry = .ok a) : CarriesEntry print read entry (a.markupWith print) := by
  cases entry with
  | object members =>
    obtain ⟨payload, hmarkup, hcarries⟩ :=
      exists_carries_jsonScript laws "application/json" (.object a.options)
    have hoptions : a.options = members.filter fun e => e.1 != "type" := by
      rw [AnalyticsConfig.decode_object, map_eq_ok_iff] at h
      obtain ⟨service, -, rfl⟩ := h
      rfl
    refine ⟨members, a, payload, rfl, h, ?_, hoptions ▸ hcarries⟩
    unfold AnalyticsConfig.markupWith analyticsBlock
    rw [hmarkup]
    cases a.service <;> rfl
  | _ => cases h

theorem exists_carries_renderAds (config : Value) :
    ∃ payload, renderAdsWith print config = "<amp-story-auto-ads>" ++
      scriptElement "application/json" payload ++ "</amp-story-auto-ads>" ∧
      Carries print read payload config := by
  obtain ⟨payload, hscript, hcarries⟩ := exists_carries_jsonScript laws "application/json" config
  refine ⟨payload, ?_, hcarries⟩
  unfold renderAdsWith
  rw [hscript]

theorem exists_carries_renderAnalytics {v : Value} {entries : List AnalyticsConfig}
    (h : decodeList AnalyticsConfig.decode v = .ok entries) :
    ∃ items blocks, v = .array items ∧ renderAnalyticsWith print entries = String.join blocks ∧
      List.Forall₂ (CarriesEntry print read) items blocks := by
  cases v with
  | array items =>
    have hitems : List.Forall₂ (fun v a => AnalyticsConfig.decode v = .ok a) items entries :=
      items_decodeItems entries h
    refine ⟨items, entries.map (AnalyticsConfig.markupWith print), rfl, rfl, ?_⟩
    exact List.forall₂_map_right_iff.2 (hitems.imp fun _ _ => carriesEntry_markup laws)
  | _ => cases h

end Library

/-- Each script of ads, of an analytics entry and of metadata carries what it is for, whatever prints
    and reads JSON under the laws of scripts. -/
theorem scripts_carry_values {print : Value → String} {read : String → Option Value}
    (laws : ScriptLaws print read) :
    (∀ config : Value, ∃ payload, renderAdsWith print config = "<amp-story-auto-ads>" ++
      scriptElement "application/json" payload ++ "</amp-story-auto-ads>" ∧
      Carries print read payload config) ∧
    (∀ v entries, decodeList AnalyticsConfig.decode v = .ok entries → ∃ items blocks,
      v = .array items ∧ renderAnalyticsWith print entries = String.join blocks ∧
      List.Forall₂ (CarriesEntry print read) items blocks) ∧
    ∀ data : MetaData, ∃ payload,
      renderMetadataWith print (.structured data) = scriptElement "application/ld+json" payload ∧
      Carries print read payload data.article := by
  constructor
  · exact exists_carries_renderAds laws
  constructor
  · exact fun v entries => exists_carries_renderAnalytics laws
  · exact fun data => exists_carries_jsonScript laws "application/ld+json" data.article

/-- A closing tag inside ads and inside an analytics entry, printed without spaces. -/
theorem scripts_carry_closing_tags :
    ScriptLaws Value.text (fun text => (parse text).toOption) ∧
    (∃ payload, renderAds (.object [("x", .string "</script>")]) = "<amp-story-auto-ads>" ++
      scriptElement "application/json" payload ++ "</amp-story-auto-ads>" ∧
      parse payload = .ok (.object [("x", .string "</script>")])) ∧
    ∃ payload, renderAnalytics [⟨some "gtag", [("</b>", .bool true)]⟩] =
      analyticsBlock (some "gtag") payload ∧
        parse payload = .ok (.object [("</b>", .bool true)]) := by
  obtain ⟨hads, hanalytics, -⟩ := scripts_carry_values scriptLaws
  have hback {key : String} {v : Value} {payload : String}
      (hcarries : Carries Value.text (fun text => (parse text).toOption) payload
        (.object [(key, v)])) (hv : v.KeysOnce) (hdepth : v.nesting = 0) (hnumbers : v.numbers = []) :
      parse payload = .ok (.object [(key, v)]) := by
    have honce : (Value.object [(key, v)]).KeysOnce := ⟨List.nodup_singleton key, hv, trivial⟩
    have hbound : (Value.object [(key, v)]).nesting ≤ depthLimit := by
      have hlimit : depthLimit = 127 := rfl
      rw [Value.nesting, membersNesting, membersNesting, hdepth]
      omega
    have hshort : ∀ n ∈ (Value.object [(key, v)]).numbers, n.Short := by
      rw [Value.numbers, memberNumbers, memberNumbers, hnumbers]
      exact fun n hn => absurd hn List.not_mem_nil
    have hread : parse (Value.object [(key, v)]).text = .ok (.object [(key, v)]) :=
      parse_text honce hbound hshort
    exact eq_ok_of_toOption (hcarries.readBack (congrArg Except.toOption hread))
  refine ⟨scriptLaws, ?_, ?_⟩
  · obtain ⟨payload, hmarkup, hcarries⟩ := hads (.object [("x", .string "</script>")])
    exact ⟨payload, hmarkup, hback hcarries trivial rfl rfl⟩
  · obtain ⟨items, blocks, hitems, hmarkup, hblocks⟩ := hanalytics
      (.array [.object [("type", .string "gtag"), ("</b>", .bool true)]])
      [⟨some "gtag", [("</b>", .bool true)]⟩] rfl
    cases hitems
    obtain ⟨block, _, hentry, hnone, rfl⟩ := List.forall₂_cons_left_iff.1 hblocks
    obtain rfl := List.forall₂_nil_left_iff.1 hnone
    obtain ⟨members, a, payload, hmembers, ha, rfl, hcarries⟩ := hentry
    cases hmembers
    cases ha
    refine ⟨payload, ?_, hback hcarries trivial rfl rfl⟩
    exact hmarkup.trans String.empty_append

end WebStory
