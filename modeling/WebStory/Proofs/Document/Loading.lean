import WebStory.Proofs.Document.Scripts
import WebStory.Proofs.Markup.Legible
/-
  What a reader sees of the scripts that are loaded.

  The host and the version are written into quoted attributes as they are.  This is harmless for
  most values and not for all, and the point is to say for which.

  1. **Quotes** — the reader follows the quotes of a tag (`quoteAfter`).  A value is read as it was
     written exactly if the double quotes around it are open behind its last character and the tag
     did not end on the way (`StaysQuoted`).  A value without double quotes is one of these, but so
     is one that closes the quotes and opens them again.  Characters that mean nothing in a tag,
     with quotes or without, make no difference behind a value (`staysQuoted_append_plain`), so the
     address of a script stays quoted exactly if the host does, or the version.

  2. **Enough** — if host and version are such values, the scripts are read as pairs of tags and
     nothing else (`gathers_runtimeTags`).  Each pair is read by itself.

  3. **Necessary** — if one of them is not, the first tag that holds it is read as another one.  For
     were it read as it is written, it would be read up to its end; then the quotes would be open
     behind the value, as a tag that ends earlier is shorter (`length_splitTag_of_quoteAfter`,
     `staysQuoted_host`, `staysQuoted_version`).
-/

namespace WebStory

namespace Token

/-! ## Open quotes -/

/-- The quote that is open behind some characters of a tag; nothing if the tag ends among them. -/
def quoteAfter : Option Char → List Char → Option (Option Char)
  | quote, [] => some quote
  | some q, c :: rest => quoteAfter (if c = q then none else some q) rest
  | none, c :: rest =>
    if c = '>' then none else quoteAfter (if c = '"' ∨ c = '\'' then some c else none) rest

/-- A value that leaves the double quotes around it open. -/
def StaysQuoted (value : List Char) : Prop := quoteAfter (some '"') value = some (some '"')

instance (value : List Char) : Decidable (StaysQuoted value) :=
  inferInstanceAs (Decidable (quoteAfter (some '"') value = some (some '"')))

/-- A tag that does not end goes on with the quote that is open. -/
theorem splitTag_of_quoteAfter {quote quote' : Option Char} {cs : List Char}
    (h : quoteAfter quote cs = some quote') (rest : List Char) :
    splitTag quote (cs ++ rest) =
      (cs ++ (splitTag quote' rest).1, (splitTag quote' rest).2) := by
  fun_induction quoteAfter quote cs with
  | case1 quote =>
    cases h
    rfl
  | case2 q c cs ih =>
    rw [List.cons_append, splitTag, ih h]
    rfl
  | case3 cs => cases h
  | case4 c cs hend ih =>
    rw [List.cons_append, splitTag, if_neg hend, ih h]
    rfl

/-- A tag that ends among some characters is no longer than these. -/
theorem length_splitTag_of_quoteAfter {quote : Option Char} {cs : List Char}
    (h : quoteAfter quote cs = none) (rest : List Char) :
    (splitTag quote (cs ++ rest)).1.length ≤ cs.length := by
  fun_induction quoteAfter quote cs with
  | case1 quote => cases h
  | case2 q c cs ih =>
    rw [List.cons_append, splitTag]
    exact Nat.succ_le_succ (ih h)
  | case3 cs =>
    rw [List.cons_append, splitTag, if_pos rfl]
    exact Nat.succ_le_succ (Nat.zero_le _)
  | case4 c cs hend ih =>
    rw [List.cons_append, splitTag, if_neg hend]
    exact Nat.succ_le_succ (ih h)

theorem quoteAfter_append (quote : Option Char) (cs ds : List Char) :
    quoteAfter quote (cs ++ ds) = (quoteAfter quote cs).bind (quoteAfter · ds) := by
  fun_induction quoteAfter quote cs with
  | case1 quote => rfl
  | case2 q c cs ih => rw [List.cons_append, quoteAfter, ih]
  | case3 cs => rfl
  | case4 c cs hend ih => rw [List.cons_append, quoteAfter, if_neg hend, ih]

/-- No quote, a single one or a double one. -/
def IsQuote (quote : Option Char) : Prop := quote = none ∨ quote = some '"' ∨ quote = some '\''

theorem isQuote_of_quoteAfter {quote quote' : Option Char} {cs : List Char} (hquote : IsQuote quote)
    (h : quoteAfter quote cs = some quote') : IsQuote quote' := by
  fun_induction quoteAfter quote cs with
  | case1 quote =>
    cases h
    exact hquote
  | case2 q c cs ih =>
    refine ih ?_ h
    split
    · exact Or.inl rfl
    · exact hquote
  | case3 cs => cases h
  | case4 c cs hend ih =>
    refine ih ?_ h
    split
    · next hc => exact Or.inr (hc.imp (fun hc => by rw [hc]) (fun hc => by rw [hc]))
    · exact Or.inl rfl

/-- Characters that have no meaning inside a tag, with quotes or without. -/
def Plain (cs : List Char) : Prop := ∀ c ∈ cs, c ≠ '>' ∧ c ≠ '"' ∧ c ≠ '\''

instance (cs : List Char) : Decidable (Plain cs) :=
  List.decidableBAll (fun c => c ≠ '>' ∧ c ≠ '"' ∧ c ≠ '\'') cs

theorem quoteAfter_plain {quote : Option Char} (hquote : IsQuote quote) {cs : List Char}
    (h : Plain cs) : quoteAfter quote cs = some quote := by
  induction cs with
  | nil => cases quote <;> rfl
  | cons c cs ih =>
    obtain ⟨⟨hend, hdouble, hsingle⟩, hrest⟩ := List.forall_mem_cons.1 h
    rcases hquote with rfl | rfl | rfl
    · rw [quoteAfter, if_neg hend, if_neg (not_or.2 ⟨hdouble, hsingle⟩), ih hrest]
    · rw [quoteAfter, if_neg hdouble, ih hrest]
    · rw [quoteAfter, if_neg hsingle, ih hrest]

/-! ## Values -/

/-- Plain characters behind a value make no difference. -/
theorem staysQuoted_append_plain {value more : List Char} (h : Plain more) :
    StaysQuoted (value ++ more) ↔ StaysQuoted value := by
  unfold StaysQuoted
  rw [quoteAfter_append]
  cases hvalue : quoteAfter (some '"') value with
  | none => rfl
  | some quote =>
    have hquote := isQuote_of_quoteAfter (Or.inr (Or.inl rfl)) hvalue
    rw [Option.bind_some, quoteAfter_plain hquote h]

theorem StaysQuoted.append_iff {value : List Char} (h : StaysQuoted value) (more : List Char) :
    StaysQuoted (value ++ more) ↔ StaysQuoted more := by
  unfold StaysQuoted at h ⊢
  rw [quoteAfter_append, h, Option.bind_some]

/-- Where there are no double quotes, those around the value stay open. -/
theorem staysQuoted_of_forall_ne {value : List Char} (h : ∀ c ∈ value, c ≠ '"') :
    StaysQuoted value := by
  induction value with
  | nil => rfl
  | cons c value ih =>
    obtain ⟨hc, hrest⟩ := List.forall_mem_cons.1 h
    rw [StaysQuoted, quoteAfter, if_neg hc]
    exact ih hrest

theorem StaysQuoted.closed {value : List Char} (h : StaysQuoted value) :
    Closed ('"' :: value ++ ['"']) := by
  have hquotes : quoteAfter none ('"' :: value ++ ['"']) = some none := by
    show quoteAfter (some '"') (value ++ ['"']) = some none
    rw [quoteAfter_append, h]
    rfl
  exact splitTag_of_quoteAfter hquotes

/-- A tag that ends in a quoted value, and is read up to its end, has a value that leaves the quotes
    open. -/
theorem staysQuoted_of_splitTag {before value rest : List Char}
    (hbefore : quoteAfter none before = some none) (hrest : rest ≠ [])
    (h : splitTag none (before ++ '"' :: (value ++ ['"', '>']) ++ rest) =
      (before ++ '"' :: (value ++ ['"', '>']), rest)) : StaysQuoted value := by
  -- what is left of the tag behind its value is the quote and the end
  have hinside : splitTag (some '"') (value ++ ['"', '>'] ++ rest) = (value ++ ['"', '>'], rest) := by
    rw [List.append_assoc, splitTag_of_quoteAfter hbefore] at h
    obtain ⟨htag, hafter⟩ := Prod.mk.inj h
    have htag := List.append_cancel_left htag
    exact Prod.ext (List.cons.inj htag).2 hafter
  cases hvalue : quoteAfter (some '"') value with
  | none =>
    have hlength := length_splitTag_of_quoteAfter hvalue (['"', '>'] ++ rest)
    rw [← List.append_assoc, hinside, List.length_append] at hlength
    exact absurd hlength (by simp)
  | some quote =>
    have hquote := isQuote_of_quoteAfter (Or.inr (Or.inl rfl)) hvalue
    rw [List.append_assoc, splitTag_of_quoteAfter hvalue] at hinside
    obtain ⟨htag, hafter⟩ := Prod.mk.inj hinside
    have htag := List.append_cancel_left htag
    obtain ⟨c, rest, rfl⟩ := List.exists_cons_of_ne_nil hrest
    -- behind any other quote the end of the tag would be part of a value
    rcases hquote with rfl | rfl | rfl
    · have htag : '"' :: '>' :: (splitTag (some '"') (c :: rest)).1 = ['"', '>'] := htag
      have hnil := (List.cons.inj (List.cons.inj htag).2).2
      exact absurd hnil (splitTag_cons_ne_nil _ c rest)
    · exact hvalue
    · have htag : '"' :: '>' :: (splitTag (some '\'') (c :: rest)).1 = ['"', '>'] := htag
      have hnil := (List.cons.inj (List.cons.inj htag).2).2
      exact absurd hnil (splitTag_cons_ne_nil _ c rest)

/-- A tag that is the first token of some markup is read up to its end. -/
theorem splitTag_of_scan {raw rest name : List Char} {more : List Token}
    (hhead : raw.head? = some '<') (h : scan (raw ++ rest) = .openTag name raw :: more) :
    splitTag none (raw ++ rest) = (raw, rest) := by
  obtain ⟨cs, rfl⟩ := List.head?_eq_some_iff.1 hhead
  rw [List.cons_append] at h ⊢
  have htoken : ofTag (splitTag none ('<' :: (cs ++ rest))).1 = .openTag name ('<' :: cs) := by
    rw [scan, if_pos rfl] at h
    dsimp only at h
    split at h
    · exact (List.cons.inj h).1
    · exact (List.cons.inj h).1
  have hraw : (splitTag none ('<' :: (cs ++ rest))).1 = '<' :: cs := by
    rw [← raw_ofTag (splitTag none _).1, htoken]
    rfl
  have happend := splitTag_append none ('<' :: (cs ++ rest))
  rw [hraw] at happend
  exact Prod.ext hraw (List.append_cancel_left happend)

/-- Markup that gives its tokens as they are is read by itself. -/
theorem scan_of_gathers {cs : List Char} {tokens : List Token} (h : Gathers ([·]) cs tokens)
    (rest : List Char) : scan (cs ++ rest) = tokens ++ scan rest := by
  have hgathers := h rest
  rwa [List.flatMap_singleton', List.flatMap_singleton'] at hgathers

end Token

/-! ## Loaded scripts -/

open Token

/-- The tokens of a script that is loaded. -/
def loadedScript (tag : String) : List Token :=
  [.openTag "script".toList tag.toList, .closeTag "script".toList "</script>".toList]

/-- A script is read by itself if the quotes in its tag are closed. -/
theorem gathers_script {attributes : String} (hclosed : Closed attributes.toList) :
    Gathers ([·]) ("<script" ++ (" async" ++ attributes) ++ ">" ++ "</script>").toList
      (loadedScript ("<script" ++ (" async" ++ attributes) ++ ">")) := by
  have hname : isElementName "script".toList = true := by decide
  have hclosing : "</script>".toList = closing "script".toList := by decide
  have hempty (rest : List Char) : splitBefore ('<' :: '/' :: "script".toList)
      (closing "script".toList ++ rest) = ([], closing "script".toList ++ rest) :=
    splitBefore_mark (List.cons_ne_nil _ _) ('>' :: rest)
  have hmark : rawTextEnd? (.openTag "script".toList
      (opening "script".toList (" async" ++ attributes).toList)) =
      some ('<' :: '/' :: "script".toList) := by
    rw [rawTextEnd?, if_pos (by decide)]
    rfl
  intro rest
  rw [String.toList_append, toList_scriptTag, hclosing, List.append_assoc,
    scan_rawTag rfl (splitTag_opening hname (closed_async hclosed) _)
      (ofTag_opening hname (head?_async attributes)) hmark, hempty,
    scan_tag rfl (splitTag_closing hname rest) (ofTag_closing hname) rfl, loadedScript, hclosing,
    toList_scriptTag]
  rfl

/-- The scripts are written tag by tag. -/
theorem runtimeScripts_eq_join (o : CompileOptions) (components : List RuntimeComponent) :
    runtimeScripts o components =
      String.join ((runtimeTags o components).map (· ++ "</script>")) := by
  have hstart := runtimeScript_eq (trimHost o.runtimeHost)
  have hextension (c : RuntimeComponent) :=
    extensionScript_eq (trimHost o.runtimeHost) c.elementName c.version
  unfold runtimeScripts runtimeTags
  simp only [hstart, hextension, extensionScript_eq _ "amp-story", List.map_cons, List.map_map,
    String.join_cons, String.append_assoc]
  rfl

theorem staysQuoted_trimHost_iff (host : String) :
    StaysQuoted (trimHost host).toList ↔ StaysQuoted host.toList := by
  have hslashes : Plain (host.toList.reverse.takeWhile (· == '/')).reverse := by
    intro c hc
    have hslash := List.mem_takeWhile_imp (List.mem_reverse.1 hc)
    rw [beq_iff_eq.1 hslash]
    decide
  have hhost : host.toList = (trimHost host).toList ++
      (host.toList.reverse.takeWhile (· == '/')).reverse := by
    rw [trimHost, String.toList_ofList, ← List.reverse_append, List.takeWhile_append_dropWhile,
      List.reverse_reverse]
  rw [hhost, staysQuoted_append_plain hslashes]

/-- The attribute of a value that stays quoted. -/
theorem closed_value {name value : String} (h : isElementName name.toList = true)
    (hvalue : StaysQuoted value.toList) : Closed (valueText name value).toList := by
  have htext : (valueText name value).toList =
      [' '] ++ name.toList ++ ['='] ++ ('"' :: value.toList ++ ['"']) := by
    simp [valueText]
  have hblank : Closed [' '] := closed_of_forall_ne (by simp)
  have hequals : Closed ['='] := closed_of_forall_ne (by simp)
  rw [htext]
  exact ((hblank.append (closed_name h)).append hequals).append hvalue.closed

section Values

variable {host version : String}

/-- The address of the runtime. -/
theorem staysQuoted_runtime_iff :
    StaysQuoted (host ++ "/v0.js").toList ↔ StaysQuoted host.toList := by
  have hplain : Plain "/v0.js".toList := by decide
  rw [String.toList_append, staysQuoted_append_plain hplain]

/-- The address of an extension. -/
theorem staysQuoted_extension_iff (hhost : StaysQuoted host.toList) {element : String}
    (helement : StaysQuoted element.toList) :
    StaysQuoted (host ++ "/v0/" ++ element ++ "-" ++ version ++ ".js").toList ↔
      StaysQuoted version.toList := by
  have hplain : Plain ".js".toList := by decide
  have hfolder : StaysQuoted "/v0/".toList := by decide
  have hdash : Plain "-".toList := by decide
  have hpath : StaysQuoted ("/v0/".toList ++ element.toList ++ "-".toList) := by
    rw [staysQuoted_append_plain hdash, hfolder.append_iff]
    exact helement
  have hregroup : (host ++ "/v0/" ++ element ++ "-" ++ version ++ ".js").toList =
      host.toList ++ (("/v0/".toList ++ element.toList ++ "-".toList) ++
        (version.toList ++ ".js".toList)) := by
    simp only [String.toList_append, List.append_assoc]
  rw [hregroup, hhost.append_iff, hpath.append_iff, staysQuoted_append_plain hplain]

theorem gathers_runtime (hhost : StaysQuoted host.toList) :
    Gathers ([·]) (runtimeTag host ++ "</script>").toList (loadedScript (runtimeTag host)) :=
  gathers_script (closed_value (by decide) (staysQuoted_runtime_iff.2 hhost))

theorem gathers_extension (hhost : StaysQuoted host.toList) (hversion : StaysQuoted version.toList)
    {element : String} (helement : StaysQuoted element.toList) :
    Gathers ([·]) (extensionTag host element version ++ "</script>").toList
      (loadedScript (extensionTag host element version)) := by
  have hsource := (staysQuoted_extension_iff hhost helement).2 hversion
  refine gathers_script ?_
  rw [String.toList_append]
  exact (closed_value (by decide) helement).append (closed_value (by decide) hsource)

/-- Only if the host stays quoted is the first tag read as it is written. -/
theorem staysQuoted_host {rest : List Char} {more : List Token}
    (h : scan ((runtimeTag host ++ "</script>").toList ++ rest) =
      loadedScript (runtimeTag host) ++ more) : StaysQuoted host.toList := by
  have htag : (runtimeTag host).toList =
      "<script async src=".toList ++ '"' :: ((host ++ "/v0.js").toList ++ ['"', '>']) := by
    simp [runtimeTag, valueText]
  have hhead : (runtimeTag host).toList.head? = some '<' := by
    rw [htag]
    rfl
  rw [String.toList_append, List.append_assoc] at h
  have hsplit := splitTag_of_scan hhead h
  rw [htag] at hsplit
  exact staysQuoted_runtime_iff.1
    (staysQuoted_of_splitTag (by decide) (List.append_ne_nil_of_left_ne_nil (by decide) _) hsplit)

/-- Only if the version stays quoted is the tag of the story read as it is written. -/
theorem staysQuoted_version (hhost : StaysQuoted host.toList) {rest : List Char} {more : List Token}
    (h : scan ((extensionTag host "amp-story" version ++ "</script>").toList ++ rest) =
      loadedScript (extensionTag host "amp-story" version) ++ more) :
    StaysQuoted version.toList := by
  have htag : (extensionTag host "amp-story" version).toList =
      "<script async custom-element=\"amp-story\" src=".toList ++
        '"' :: ((host ++ "/v0/" ++ "amp-story" ++ "-" ++ version ++ ".js").toList ++ ['"', '>']) := by
    simp [extensionTag, valueText]
  have hhead : (extensionTag host "amp-story" version).toList.head? = some '<' := by
    rw [htag]
    rfl
  rw [String.toList_append, List.append_assoc] at h
  have hsplit := splitTag_of_scan hhead h
  rw [htag] at hsplit
  exact (staysQuoted_extension_iff hhost (by decide)).1
    (staysQuoted_of_splitTag (by decide) (List.append_ne_nil_of_left_ne_nil (by decide) _) hsplit)

end Values

/-- The scripts are read as they are written if host and version stay quoted. -/
theorem gathers_runtimeTags {o : CompileOptions} (hhost : StaysQuoted o.runtimeHost.toList)
    (hversion : StaysQuoted o.storyVersion.toList) (components : List RuntimeComponent) :
    Gathers ([·]) (runtimeScripts o components).toList
      ((runtimeTags o components).flatMap loadedScript) := by
  have htrim := (staysQuoted_trimHost_iff o.runtimeHost).2 hhost
  rw [runtimeScripts_eq_join, String.toList_join, List.flatMap_map]
  refine gathers_flatMap fun tag htag => ?_
  rcases List.mem_cons.1 htag with rfl | htag
  · exact gathers_runtime htrim
  rcases List.mem_cons.1 htag with rfl | htag
  · exact gathers_extension htrim hversion (by decide)
  · obtain ⟨c, -, rfl⟩ := List.mem_map.1 htag
    have hname : StaysQuoted c.elementName.toList := by
      cases c <;> decide
    have hversion : StaysQuoted c.version.toList := by
      cases c <;> decide
    exact gathers_extension htrim hversion hname

/-- The scripts are read as one pair of tags for the runtime, one for the story and one for each
    extension, exactly if neither the host nor the version gets out of the quotes around it.  Values
    without double quotes do not. -/
theorem runtimeScripts_read_as_pairs (o : CompileOptions) (components : List RuntimeComponent) :
    (runtimeTags o components).length = 2 + components.length ∧
      (scan (runtimeScripts o components).toList = (runtimeTags o components).flatMap loadedScript ↔
        StaysQuoted o.runtimeHost.toList ∧ StaysQuoted o.storyVersion.toList) ∧
      ((∀ c ∈ o.runtimeHost.toList, c ≠ '"') → StaysQuoted o.runtimeHost.toList) ∧
      ((∀ c ∈ o.storyVersion.toList, c ≠ '"') → StaysQuoted o.storyVersion.toList) := by
  refine ⟨?_, ⟨fun h => ?_, fun h => ?_⟩, staysQuoted_of_forall_ne, staysQuoted_of_forall_ne⟩
  · rw [runtimeTags, List.length_cons, List.length_cons, List.length_map]
    omega
  · obtain ⟨rest, htext⟩ : ∃ rest, (runtimeScripts o components).toList =
        (runtimeTag (trimHost o.runtimeHost) ++ "</script>").toList ++
          ((extensionTag (trimHost o.runtimeHost) "amp-story" o.storyVersion ++ "</script>").toList ++
            rest) := by
      rw [runtimeScripts_eq_join, runtimeTags, List.map_cons, List.map_cons, String.join_cons,
        String.join_cons, String.toList_append]
      exact ⟨_, congrArg _ String.toList_append⟩
    rw [htext, runtimeTags, List.flatMap_cons, List.flatMap_cons] at h
    have hhost := staysQuoted_host h
    rw [scan_of_gathers (gathers_runtime hhost)] at h
    have hversion := staysQuoted_version hhost (List.append_cancel_left h)
    exact ⟨(staysQuoted_trimHost_iff o.runtimeHost).1 hhost, hversion⟩
  · have hread := scan_of_gathers (gathers_runtimeTags h.1 h.2 components) []
    rwa [List.append_nil, scan, List.append_nil] at hread

/-- Nothing in a host that is accepted keeps it from closing its attribute: a text is read between
    the first script and its end. -/
theorem runtimeHost_leaves_attribute :
    let o : CompileOptions := ⟨"https://cdn.example\"><b>", "1.0", "en", false⟩
    o.validate.toOption = some () ∧
      scan (runtimeScripts o []).toList =
        [.openTag "script".toList "<script async src=\"https://cdn.example\">".toList,
          .text "<b>/v0.js\">".toList,
          .closeTag "script".toList "</script>".toList,
          .openTag "script".toList
            "<script async custom-element=\"amp-story\" src=\"https://cdn.example\">".toList,
          .text "<b>/v0/amp-story-1.0.js\">".toList,
          .closeTag "script".toList "</script>".toList] := by
  exact ⟨rfl, by decide +kernel⟩

end WebStory
