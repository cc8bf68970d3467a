import WebStory.Proofs.Style.Convert
import WebStory.Proofs.Style.Numbering
/-
  Sharing a class is safe.

  A record that finds its key in the cache is not converted; it takes the class of another record
  with the same key.  What justifies this is an invariant of the table (`Backed`): every cached
  key is the key of a request that was converted, and the rule of its class is what that request
  was converted to.  Records with one key are both converted or both malformed
  (`convertStyle_isOk_iff`), so the cache never hides a malformed record.  And plain records with
  one key are converted to the same declarations (`perm_of_convert`), so each of them finds its own
  in the rule of its class.
-/

namespace WebStory.ClassTable

/-! ## The invariant -/

/-- Every cached key is that of a request, and its rule has the declarations of that request. -/
def Backed (requests : List ClassRequest) (t : ClassTable) : Prop :=
  ∀ (i : Nat) key, (Entries.names t.cache)[i]? = some key →
    ∃ q ∈ requests, q.key = key ∧ ∃ d, convertStyle q.record q.path = .ok d ∧
      t.rules[i]? = some (Rule.ofClass (className i) d)

theorem backed_empty (requests : List ClassRequest) : Backed requests empty := nofun

section Backed

variable {requests : List ClassRequest} {t : ClassTable}

/-- A request keeps the keys backed: what it enters is backed by itself. -/
theorem Backed.assign (h : Backed requests t) (hcons : t.Consistent) {q : ClassRequest}
    (hq : q ∈ requests) : Backed requests (t.assign q.record q.path).2 := by
  rcases t.assign_cases q.record q.path with ⟨_, _, heq⟩ | ⟨_, _, _, heq⟩ | ⟨d, _, hconv, heq⟩
  · rw [heq]
    exact h
  · rw [heq]
    exact h
  · rw [heq]
    intro i key hkey
    have hlength := hcons.length_eq
    rw [Entries.names, List.map_append, List.getElem?_append, List.length_map] at hkey
    rw [List.getElem?_append]
    -- the place decides whether the key was there or is the one that was entered
    split at hkey
    · next hi =>
      rw [if_pos (hlength ▸ hi)]
      exact h i key hkey
    · next hi =>
      rw [List.map_singleton, List.getElem?_singleton] at hkey
      split at hkey
      · next hlast =>
        obtain rfl : i = t.rules.length := by omega
        refine ⟨q, hq, Option.some.inj hkey, d, hconv, ?_⟩
        rw [if_neg (by omega), Nat.sub_self]
        rfl
      · exact absurd hkey (by simp)

theorem backed_assignAll (h : Backed requests t) (hcons : t.Consistent) {rest : List ClassRequest}
    (hrest : ∀ q ∈ rest, q ∈ requests) : Backed requests (t.assignAll rest).2 := by
  induction rest generalizing t with
  | nil => exact h
  | cons q rest ih =>
    have hq := hrest q List.mem_cons_self
    exact ih (h.assign hcons hq) (hcons.assign _ _) fun q hq => hrest q (List.mem_cons_of_mem _ hq)

/-- The class of a cached key belongs to a request with that key that was converted. -/
theorem Backed.of_classOf? (h : Backed requests t) (hcons : t.Consistent) {key name : String}
    (hkey : t.classOf? key = some name) :
    ∃ q ∈ requests, q.key = key ∧ ∃ d, convertStyle q.record q.path = .ok d ∧
      Rule.ofClass name d ∈ t.rules := by
  obtain ⟨i, hi, rfl⟩ := hcons.classOf?_iff.1 hkey
  obtain ⟨q, hq, hqkey, d, hconv, hrule⟩ := h i key hi
  exact ⟨q, hq, hqkey, d, hconv, List.mem_of_getElem? hrule⟩

end Backed

theorem backed_run (requests : List ClassRequest) :
    Backed requests (empty.assignAll requests).2 :=
  backed_assignAll (backed_empty requests) consistent_empty fun _ hq => hq

/-! ## Conversion at a path -/

/-- The path does not decide whether a record can be converted, nor to what. -/
theorem convertStyle_eq_ok_iff {r : StyleRecord} {path : Path} {d : Declarations} :
    convertStyle r path = .ok d ↔ r.convert = .ok d := by
  unfold convertStyle
  cases r.convert with
  | error e => exact ⟨nofun, nofun⟩
  | ok d' => exact ⟨fun h => congrArg _ (Except.ok.inj h), fun h => congrArg _ (Except.ok.inj h)⟩

/-- Records with one canonical key are both converted or both malformed. -/
theorem convertStyle_isOk_iff {r q : StyleRecord} (h : r.canonicalKey = q.canonicalKey)
    (path path' : Path) :
    (∃ d, convertStyle r path = .ok d) ↔ ∃ d, convertStyle q path' = .ok d := by
  simp only [convertStyle_eq_ok_iff]
  exact isOk_convert_iff (StyleRecord.canonical_eq_of_canonicalKey_eq h)

/-! ## The cache never hides a malformed record -/

/-- After any run on a fresh table a record gets a class exactly if it can be converted, and
    otherwise the failure of its conversion. -/
theorem assign_eq_convertStyle (requests : List ClassRequest) (r : StyleRecord) (path : Path) :
    let t := (empty.assignAll requests).2
    ((∃ name, (t.assign r path).1 = .ok name) ↔ ∃ d, convertStyle r path = .ok d) ∧
      ∀ e, (t.assign r path).1 = .error e ↔ convertStyle r path = .error e := by
  intro t
  have hbacked : Backed requests t := backed_run requests
  rcases t.assign_cases r path with ⟨name, hkey, heq⟩ | ⟨e, _, hconv, heq⟩ | ⟨d, _, hconv, heq⟩
  · -- the request with this key was converted, so this record can be
    obtain ⟨q, -, hqkey, d, hq, -⟩ := hbacked.of_classOf? (consistent_run requests) hkey
    obtain ⟨d', hd'⟩ := (convertStyle_isOk_iff hqkey q.path path).1 ⟨d, hq⟩
    rw [heq, hd']
    exact ⟨⟨fun _ => ⟨d', rfl⟩, fun _ => ⟨name, rfl⟩⟩, fun e => ⟨nofun, nofun⟩⟩
  · rw [heq, hconv]
    exact ⟨⟨nofun, nofun⟩, fun e' => by rw [Except.error.injEq, Except.error.injEq]⟩
  · rw [heq, hconv]
    exact ⟨⟨fun _ => ⟨d, rfl⟩, fun _ => ⟨_, rfl⟩⟩, fun e => ⟨nofun, nofun⟩⟩

/-! ## The rule of a class has the declarations of every record of the class -/

/-- In a run over plain records, a record that is given a class is converted to the declarations
    that the rule of the class has, up to their order; and that is the only rule of the class. -/
theorem rule_has_declarations (requests : List ClassRequest)
    (plain : ∀ q ∈ requests, q.record.Plain) {i : Nat} {q : ClassRequest} {name : String}
    (hq : requests[i]? = some q) (hanswer : (empty.assignAll requests).1[i]? = some (.ok name)) :
    ∃ d rule, convertStyle q.record q.path = .ok d ∧ rule ∈ (empty.assignAll requests).2.rules ∧
      rule.selector = "." ++ name ∧ rule.declarations.pairs.Perm d.pairs ∧
      ∀ other ∈ (empty.assignAll requests).2.rules,
        other.selector = "." ++ name → other = rule := by
  have hcons := consistent_run requests
  have hclass := classOf?_of_answer consistent_empty hq hanswer
  obtain ⟨q', hq', hkey, d', hconv', hrule⟩ := (backed_run requests).of_classOf? hcons hclass
  obtain ⟨d, hconv⟩ := (convertStyle_isOk_iff hkey q'.path q.path).1 ⟨d', hconv'⟩
  have hperm : d'.pairs.Perm d.pairs :=
    perm_of_convert (StyleRecord.canonical_eq_of_canonicalKey_eq hkey) (plain q' hq')
      (plain q (List.mem_of_getElem? hq)) (convertStyle_eq_ok_iff.1 hconv')
      (convertStyle_eq_ok_iff.1 hconv)
  refine ⟨d, Rule.ofClass name d', hconv, hrule, rfl, hperm, fun other hother hsel => ?_⟩
  exact List.inj_on_of_nodup_map hcons.selectors_nodup hother hrule hsel

/-- Two spellings of one style: the second finds its declarations in the rule of the first. -/
theorem rule_has_declarations_respelled :
    let one : Json.Number := .int 1 (by decide)
    let onePointZero : Json.Number := .float ((Binary64.ofInt? 1).getD default)
    let a : StyleRecord := ⟨[("fontSize", .number one), ("borderTop", .object
      [("width", .number one), ("style", .string "solid"), ("color", .string "red")])]⟩
    let b : StyleRecord := ⟨[("borderTop", .object
      [("color", .string "red"), ("style", .string "solid"), ("width", .number onePointZero)]),
      ("fontSize", .number onePointZero)]⟩
    let requests : List ClassRequest := [⟨a, .named "a"⟩, ⟨b, .named "b"⟩]
    (∀ q ∈ requests, q.record.Plain) ∧ (empty.assignAll requests).1[1]? = some (.ok "s-1") ∧
    ∃ d rule, convertStyle b (.named "b") = .ok d ∧ rule ∈ (empty.assignAll requests).2.rules ∧
      rule.selector = "." ++ "s-1" ∧ rule.declarations.pairs.Perm d.pairs := by
  intro one onePointZero a b requests
  have plain : ∀ q ∈ requests, q.record.Plain := by
    intro q hq
    rcases List.mem_pair.1 hq with rfl | rfl
    · exact ⟨by decide +kernel, by decide +kernel, by decide +kernel⟩
    · exact ⟨by decide +kernel, by decide +kernel, by decide +kernel⟩
  have hkey : a.canonicalKey = b.canonicalKey := by
    have hvalue : one.value = onePointZero.value := by
      rw [← Json.Number.canonical_eq_iff]
      decide +kernel
    have once : a.toValue.KeysOnce := by
      simp [a, StyleRecord.toValue, Json.Value.KeysOnce, Json.Value.MembersOnce, Entries.names]
    rw [StyleRecord.canonicalKey_eq_iff, Json.Value.canonical_eq_iff once]
    refine .object (List.reverse_perm _).symm (.cons ?_ (.cons (.number hvalue) .nil))
    refine .object (List.reverse_perm _).symm (.cons (.string _) (.cons (.string _) ?_))
    exact .cons (.number hvalue) .nil
  have hanswer : (empty.assignAll requests).1[1]? = some (.ok "s-1") := by
    have hisOk : (convertStyle a (.named "a")).isOk = true := by decide +kernel
    cases hconv : convertStyle a (.named "a") with
    | error e =>
      rw [hconv] at hisOk
      exact absurd hisOk Bool.false_ne_true
    | ok d =>
      simp [requests, assignAll, assign, classOf?, empty, Entries.get?, Entries.set, enter, hconv,
        hkey]
      rfl
  obtain ⟨d, rule, hconv, hrule, hsel, hperm, -⟩ :=
    rule_has_declarations requests plain (i := 1) rfl hanswer
  exact ⟨plain, hanswer, d, rule, hconv, hrule, hsel, hperm⟩

end WebStory.ClassTable
