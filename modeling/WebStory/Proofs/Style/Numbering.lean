import WebStory.Style.ClassTable
import WebStory.Proofs.Entries
import WebStory.Proofs.Number.Digits
/-
  Classes are numbered in the order of first use.

  The cache and the rules are two lists, and nothing but `assign` keeps them together.  All that is
  said about them is derived from what one request can do.

  1. **One request** — it does one of three things (`assign_cases`): it finds its key, it fails and
     changes nothing, or it adds one entry and one rule.

  2. **Invariant** — the `i`-th key of the cache has the class `s-(i+1)`, and the `i`-th rule is the
     rule of that class (`Consistent`).  Every one of the three outcomes keeps it, so a run does
     (`consistent_assignAll`).  It follows that no two keys have one class and no two rules one
     selector.

  3. **Runs** — entries and rules are only ever added at the end (`cache_kept`, `rules_kept`), so a
     class once given to a key stays with it.  This is what lets a request be followed to the table
     at the end of the run, where its class is looked up again (`classOf?_of_answer`).

  4. **Order** — the crux: the keys in the cache are those of the requests that were answered with a
     class, each where it was first answered (`names_assignAll`).  A request that fails leaves
     nothing behind, and one whose key is there already changes nothing, so in both cases the list
     without repetitions stays as it is.

  5. **Numbering** — after a run on a fresh table this says everything: which class a request got,
     when two requests got one class, and what one more request will do
     (`classes_follow_first_use`).
-/

namespace WebStory

/-- The key that decides the class of a request. -/
def ClassRequest.key (q : ClassRequest) : String := q.record.canonicalKey

namespace ClassTable

/-! ## What one request can do -/

/-- A request finds its key, or fails, or is entered as the last class. -/
theorem assign_cases (t : ClassTable) (r : StyleRecord) (path : Path) :
    (∃ name, t.classOf? r.canonicalKey = some name ∧ t.assign r path = (.ok name, t)) ∨
    (∃ e, t.classOf? r.canonicalKey = none ∧ convertStyle r path = .error e ∧
      t.assign r path = (.error e, t)) ∨
    (∃ d, t.classOf? r.canonicalKey = none ∧ convertStyle r path = .ok d ∧
      t.assign r path = (.ok (className t.rules.length),
        ⟨t.cache ++ [(r.canonicalKey, className t.rules.length)],
          t.rules ++ [Rule.ofClass (className t.rules.length) d]⟩)) := by
  cases hkey : t.classOf? r.canonicalKey with
  | some name => exact Or.inl ⟨name, rfl, by rw [assign, hkey]⟩
  | none =>
    have hnew : r.canonicalKey ∉ Entries.names t.cache := Entries.get?_eq_none_iff.1 hkey
    cases hconv : convertStyle r path with
    | error e => exact Or.inr (Or.inl ⟨e, rfl, rfl, by rw [assign, hkey]; simp only [hconv]⟩)
    | ok d =>
      refine Or.inr (Or.inr ⟨d, rfl, rfl, ?_⟩)
      rw [assign, hkey]
      simp only [hconv, enter]
      rw [Entries.set_of_not_mem _ hnew]

/-- A request that fails leaves the table as it was. -/
theorem assign_error {t : ClassTable} {r : StyleRecord} {path : Path} {e : Error}
    (h : (t.assign r path).1 = .error e) : (t.assign r path).2 = t := by
  rcases t.assign_cases r path with ⟨_, _, heq⟩ | ⟨_, _, _, heq⟩ | ⟨_, _, _, heq⟩
  · rw [heq]
  · rw [heq]
  · rw [heq] at h
    exact absurd h (by simp)

/-- A record that can be converted gets a class. -/
theorem assign_ok_of_convertStyle {t : ClassTable} {r : StyleRecord} {path : Path}
    {d : Declarations} (h : convertStyle r path = .ok d) :
    ∃ name, (t.assign r path).1 = .ok name := by
  rcases t.assign_cases r path with ⟨name, _, heq⟩ | ⟨e, _, herr, _⟩ | ⟨_, _, _, heq⟩
  · exact ⟨name, by rw [heq]⟩
  · rw [h] at herr
    exact absurd herr (by simp)
  · exact ⟨_, by rw [heq]⟩

/-- A request adds one rule at the end, or none. -/
theorem rules_assign (t : ClassTable) (r : StyleRecord) (path : Path) :
    ∃ new : List Rule, new.length ≤ 1 ∧ (t.assign r path).2.rules = t.rules ++ new := by
  rcases t.assign_cases r path with ⟨_, _, heq⟩ | ⟨_, _, _, heq⟩ | ⟨d, _, _, heq⟩
  · exact ⟨[], by simp, by rw [heq, List.append_nil]⟩
  · exact ⟨[], by simp, by rw [heq, List.append_nil]⟩
  · exact ⟨[Rule.ofClass (className t.rules.length) d], by simp, by rw [heq]⟩

/-- A request adds one entry of the cache at the end, or none. -/
theorem cache_assign (t : ClassTable) (r : StyleRecord) (path : Path) :
    t.cache <+: (t.assign r path).2.cache := by
  rcases t.assign_cases r path with ⟨_, _, heq⟩ | ⟨_, _, _, heq⟩ | ⟨_, _, _, heq⟩
  · exact ⟨[], by rw [heq, List.append_nil]⟩
  · exact ⟨[], by rw [heq, List.append_nil]⟩
  · exact ⟨[(r.canonicalKey, className t.rules.length)], by rw [heq]⟩

/-! ## The invariant -/

theorem className_injective {i j : Nat} (h : className i = className j) : i = j := by
  unfold className at h
  rw [String.append_right_inj] at h
  have := toString_injective h
  omega

/-- The cache and the rules belong together. -/
structure Consistent (t : ClassTable) : Prop where
  keys_nodup : (Entries.names t.cache).Nodup
  classes : t.cache.map (·.2) = (List.range t.rules.length).map className
  selectors : t.rules.map (·.selector) =
    (List.range t.rules.length).map fun i => "." ++ className i

theorem consistent_empty : Consistent empty := ⟨by simp [empty, Entries.names], rfl, rfl⟩

/-- One request keeps cache and rules together. -/
theorem Consistent.assign {t : ClassTable} (h : t.Consistent) (r : StyleRecord) (path : Path) :
    (t.assign r path).2.Consistent := by
  rcases t.assign_cases r path with ⟨_, _, heq⟩ | ⟨_, _, _, heq⟩ | ⟨d, hkey, _, heq⟩
  · rw [heq]; exact h
  · rw [heq]; exact h
  · rw [heq]
    have hnew : r.canonicalKey ∉ Entries.names t.cache := Entries.get?_eq_none_iff.1 hkey
    constructor
    · rw [← Entries.set_of_not_mem _ hnew]
      exact Entries.nodup_names_set _ _ h.keys_nodup
    · simp only [List.map_append, List.length_append, List.length_singleton, List.range_succ,
        h.classes, List.map_singleton]
    · simp only [List.map_append, List.length_append, List.length_singleton, List.range_succ,
        h.selectors, List.map_singleton, Rule.ofClass]

section Consistent

variable {t : ClassTable}

theorem Consistent.length_eq (h : t.Consistent) : t.cache.length = t.rules.length := by
  have := congrArg List.length h.classes
  simpa using this

/-- The class of a key is numbered by the key's place in the cache. -/
theorem Consistent.classOf?_iff (h : t.Consistent) {key name : String} :
    t.classOf? key = some name ↔
      ∃ i, (Entries.names t.cache)[i]? = some key ∧ name = className i := by
  have hentry (i : Nat) (e : String × String) (he : t.cache[i]? = some e) : e.2 = className i := by
    have hi : i < t.rules.length := by
      rw [← h.length_eq]
      exact (List.getElem?_eq_some_iff.1 he).1
    have hclass := congrArg (·[i]?) h.classes
    simp only [List.getElem?_map, he, Option.map_some, List.getElem?_range hi] at hclass
    exact Option.some.inj hclass
  rw [classOf?, Entries.get?_eq_some_iff h.keys_nodup, List.mem_iff_getElem?]
  constructor
  · rintro ⟨i, hi⟩
    exact ⟨i, by rw [Entries.names, List.getElem?_map, hi]; rfl, hentry i _ hi⟩
  · rintro ⟨i, hi, rfl⟩
    rw [Entries.names, List.getElem?_map, Option.map_eq_some_iff] at hi
    obtain ⟨e, he, rfl⟩ := hi
    exact ⟨i, by rw [he, ← hentry i e he]⟩

/-- Keys with one class are one key. -/
theorem Consistent.classOf?_injective (h : t.Consistent) {key key' name : String}
    (hk : t.classOf? key = some name) (hk' : t.classOf? key' = some name) : key = key' := by
  obtain ⟨i, hi, rfl⟩ := h.classOf?_iff.1 hk
  obtain ⟨j, hj, hij⟩ := h.classOf?_iff.1 hk'
  rw [className_injective hij] at hi
  exact Option.some.inj (hi.symm.trans hj)

theorem Consistent.selector_eq (h : t.Consistent) {i : Nat} {rule : Rule}
    (hi : t.rules[i]? = some rule) : rule.selector = "." ++ className i := by
  have hlt : i < t.rules.length := (List.getElem?_eq_some_iff.1 hi).1
  have hsel := congrArg (·[i]?) h.selectors
  simp only [List.getElem?_map, hi, Option.map_some, List.getElem?_range hlt] at hsel
  exact Option.some.inj hsel

/-- No two rules have one selector. -/
theorem Consistent.selectors_nodup (h : t.Consistent) : (t.rules.map (·.selector)).Nodup := by
  rw [h.selectors]
  refine List.Pairwise.map _ (fun i j hij heq => hij ?_) List.nodup_range
  rw [String.append_right_inj] at heq
  exact className_injective heq

end Consistent

/-! ## Runs -/

theorem assignAll_cons (t : ClassTable) (q : ClassRequest) (rest : List ClassRequest) :
    t.assignAll (q :: rest) =
      ((t.assign q.record q.path).1 :: ((t.assign q.record q.path).2.assignAll rest).1,
        ((t.assign q.record q.path).2.assignAll rest).2) := rfl

theorem consistent_assignAll {t : ClassTable} (h : t.Consistent) (requests : List ClassRequest) :
    (t.assignAll requests).2.Consistent := by
  induction requests generalizing t with
  | nil => exact h
  | cons q rest ih => exact ih (h.assign q.record q.path)

theorem length_assignAll (t : ClassTable) (requests : List ClassRequest) :
    (t.assignAll requests).1.length = requests.length := by
  induction requests generalizing t with
  | nil => rfl
  | cons q rest ih => rw [assignAll_cons, List.length_cons, List.length_cons, ih]

theorem cache_kept (t : ClassTable) (requests : List ClassRequest) :
    t.cache <+: (t.assignAll requests).2.cache := by
  induction requests generalizing t with
  | nil => exact List.prefix_refl _
  | cons q rest ih => exact (t.cache_assign q.record q.path).trans (ih _)

theorem rules_kept (t : ClassTable) (requests : List ClassRequest) :
    t.rules <+: (t.assignAll requests).2.rules := by
  induction requests generalizing t with
  | nil => exact List.prefix_refl _
  | cons q rest ih =>
    obtain ⟨new, _, hnew⟩ := t.rules_assign q.record q.path
    exact (hnew ▸ List.prefix_append _ _ : t.rules <+: _).trans (ih _)

/-- A class once given to a key stays with it. -/
theorem classOf?_assignAll {t : ClassTable} (h : t.Consistent) {key name : String}
    (hkey : t.classOf? key = some name) (requests : List ClassRequest) :
    (t.assignAll requests).2.classOf? key = some name := by
  have hlast := consistent_assignAll h requests
  rw [classOf?, Entries.get?_eq_some_iff hlast.keys_nodup]
  exact (t.cache_kept requests).subset (Entries.mem_of_get? hkey)

/-- A request that is answered with a class finds it in the table from then on. -/
theorem classOf?_assign {t : ClassTable} {r : StyleRecord} {path : Path} {name : String}
    (hok : (t.assign r path).1 = .ok name) :
    (t.assign r path).2.classOf? r.canonicalKey = some name := by
  rcases t.assign_cases r path with ⟨_, hkey, heq⟩ | ⟨_, _, _, heq⟩ | ⟨_, hkey, _, heq⟩
  · rw [heq] at hok ⊢
    rw [hkey]
    exact congrArg some (Except.ok.inj hok)
  · rw [heq] at hok
    cases hok
  · have hnew : r.canonicalKey ∉ Entries.names t.cache := Entries.get?_eq_none_iff.1 hkey
    rw [heq] at hok ⊢
    rw [classOf?, ← Entries.set_of_not_mem _ hnew, ← Except.ok.inj hok]
    exact Entries.get?_set_self _ _ _

/-- Every class given in a run is, at its end, the class of the key it was given to. -/
theorem classOf?_of_answer {t : ClassTable} (h : t.Consistent) {requests : List ClassRequest}
    {i : Nat} {q : ClassRequest} {name : String} (hq : requests[i]? = some q)
    (hanswer : (t.assignAll requests).1[i]? = some (.ok name)) :
    (t.assignAll requests).2.classOf? q.key = some name := by
  induction requests generalizing t i with
  | nil => simp at hq
  | cons first rest ih =>
    rw [assignAll_cons] at hanswer ⊢
    cases i with
    | zero =>
      simp only [List.getElem?_cons_zero, Option.some.injEq] at hq hanswer
      subst hq
      exact classOf?_assignAll (h.assign _ _) (classOf?_assign hanswer) rest
    | succ i =>
      simp only [List.getElem?_cons_succ] at hq hanswer
      exact ih (h.assign _ _) hq hanswer

/-! ## The order of the keys -/

/-- The keys of the requests that were answered with a class. -/
def answeredKeys (requests : List ClassRequest) (answers : List (Except Error String)) :
    List String :=
  (requests.zip answers).filterMap fun (q, answer) => if answer.isOk then some q.key else none

/-- A list without repetition has nothing to erase. -/
theorem eraseDups_of_nodup {keys : List String} (h : keys.Nodup) : keys.eraseDups = keys := by
  induction keys with
  | nil => rfl
  | cons k rest ih =>
    obtain ⟨hk, hrest⟩ := List.nodup_cons.1 h
    have hfilter : rest.filter (fun b => !b == k) = rest := by
      rw [List.filter_eq_self]
      intro b hb
      simpa using fun heq : b = k => hk (heq ▸ hb)
    rw [List.eraseDups_cons, hfilter, ih hrest]

/-- A key that was seen before changes nothing. -/
theorem eraseDups_append_cons {seen rest : List String} {key : String} (h : key ∈ seen) :
    (seen ++ key :: rest).eraseDups = (seen ++ rest).eraseDups := by
  have hdrop : (key :: rest).removeAll seen = rest.removeAll seen := by
    rw [List.cons_removeAll]
    simp [h]
  rw [List.eraseDups_append, List.eraseDups_append, hdrop]

/-- The cache holds the keys in the order in which they were first answered. -/
theorem names_assignAll {t : ClassTable} (h : t.Consistent) (requests : List ClassRequest) :
    Entries.names (t.assignAll requests).2.cache =
      (Entries.names t.cache ++ answeredKeys requests (t.assignAll requests).1).eraseDups := by
  induction requests generalizing t with
  | nil =>
    rw [assignAll, answeredKeys, List.zip_nil_left, List.filterMap_nil, List.append_nil,
      eraseDups_of_nodup h.keys_nodup]
  | cons q rest ih =>
    have hnext := ih (h.assign q.record q.path)
    rw [assignAll_cons]
    simp only [answeredKeys, List.zip_cons_cons, List.filterMap_cons] at hnext ⊢
    rw [hnext]
    rcases t.assign_cases q.record q.path with ⟨_, hkey, heq⟩ | ⟨_, _, _, heq⟩ | ⟨d, _, _, heq⟩
    · have hmem : q.key ∈ Entries.names t.cache :=
        Entries.name_mem_of_mem (Entries.mem_of_get? hkey)
      rw [heq]
      exact (eraseDups_append_cons hmem).symm
    · rw [heq]
      rfl
    · rw [heq, Entries.names, List.map_append, List.append_assoc]
      rfl

/-! ## The numbering -/

section Run

variable (requests : List ClassRequest)

/-- The table after a run on a fresh one. -/
theorem consistent_run : (empty.assignAll requests).2.Consistent :=
  consistent_assignAll consistent_empty requests

/-- The cache of a run holds the answered keys, each where it was first answered. -/
theorem names_run : Entries.names (empty.assignAll requests).2.cache =
    (answeredKeys requests (empty.assignAll requests).1).eraseDups :=
  names_assignAll consistent_empty requests

/-- A class given in a run is numbered by the place of its key among the keys of the run. -/
theorem answer_eq {i : Nat} {q : ClassRequest} {name : String} (hq : requests[i]? = some q)
    (hanswer : (empty.assignAll requests).1[i]? = some (.ok name)) :
    ∃ n : Nat, (answeredKeys requests (empty.assignAll requests).1).eraseDups[n]? = some q.key ∧
      name = className n := by
  have hclass := classOf?_of_answer consistent_empty hq hanswer
  rw [(consistent_run requests).classOf?_iff, names_run] at hclass
  exact hclass

/-- Two requests of a run get one class exactly if they have one key. -/
theorem answer_eq_iff {i j : Nat} {q q' : ClassRequest} {name name' : String}
    (hq : requests[i]? = some q) (hq' : requests[j]? = some q')
    (hanswer : (empty.assignAll requests).1[i]? = some (.ok name))
    (hanswer' : (empty.assignAll requests).1[j]? = some (.ok name')) :
    name = name' ↔ q.key = q'.key := by
  have hclass := classOf?_of_answer consistent_empty hq hanswer
  have hclass' := classOf?_of_answer consistent_empty hq' hanswer'
  constructor
  · rintro rfl
    exact (consistent_run requests).classOf?_injective hclass hclass'
  · intro hkey
    rw [hkey, hclass'] at hclass
    exact (Option.some.inj hclass).symm

/-- Every cached key has exactly one rule. -/
theorem count_selector {key name : String}
    (h : (empty.assignAll requests).2.classOf? key = some name) :
    ((empty.assignAll requests).2.rules.map (·.selector)).count ("." ++ name) = 1 := by
  have hrun := consistent_run requests
  obtain ⟨i, hi, rfl⟩ := hrun.classOf?_iff.1 h
  have hlt : i < (empty.assignAll requests).2.rules.length := by
    rw [← hrun.length_eq, ← List.length_map (f := (·.1))]
    exact (List.getElem?_eq_some_iff.1 hi).1
  have hmem : "." ++ className i ∈ (empty.assignAll requests).2.rules.map (·.selector) := by
    rw [hrun.selectors]
    exact List.mem_map.2 ⟨i, List.mem_range.2 hlt, rfl⟩
  rw [hrun.selectors_nodup.count, if_pos hmem]

end Run

/-- After every run of requests on a fresh table the cache and the rules match one to one, and the
    classes are numbered in the order in which their keys were first answered.  One more request
    is answered if its record can be converted; it adds one rule at the end or none, and changes
    nothing if it fails.  However many follow, what stands in the table stays. -/
theorem classes_follow_first_use (requests : List ClassRequest) :
    let answers := (empty.assignAll requests).1
    let t := (empty.assignAll requests).2
    -- the rules and the cache
    t.rules.length = t.cache.length ∧ (Entries.names t.cache).Nodup ∧
    (∀ key name, t.classOf? key = some name →
      (t.rules.map (·.selector)).count ("." ++ name) = 1) ∧
    (∀ (i : Nat) rule, t.rules[i]? = some rule → rule.selector = ".s-" ++ toString (i + 1)) ∧
    (∀ key key' name, t.classOf? key = some name → t.classOf? key' = some name → key = key') ∧
    -- further requests
    (∀ r path d, convertStyle r path = .ok d → ∃ name, (t.assign r path).1 = .ok name) ∧
    (∀ r path e, (t.assign r path).1 = .error e → (t.assign r path).2 = t) ∧
    (∀ r path, ∃ new : List Rule, new.length ≤ 1 ∧ (t.assign r path).2.rules = t.rules ++ new) ∧
    (∀ more, t.rules <+: (t.assignAll more).2.rules ∧ t.cache <+: (t.assignAll more).2.cache) ∧
    -- the answers
    answers.length = requests.length ∧
    (∀ (i j : Nat) q q' name name', requests[i]? = some q → requests[j]? = some q' →
      answers[i]? = some (.ok name) → answers[j]? = some (.ok name') →
      (name = name' ↔ q.record.canonicalKey = q'.record.canonicalKey)) ∧
    -- the order
    Entries.names t.cache = (answeredKeys requests answers).eraseDups ∧
    (∀ (i : Nat) q name, requests[i]? = some q → answers[i]? = some (.ok name) →
      ∃ n : Nat, (answeredKeys requests answers).eraseDups[n]? = some q.record.canonicalKey ∧
        name = "s-" ++ toString (n + 1)) := by
  have hrun := consistent_run requests
  refine ⟨hrun.length_eq.symm, hrun.keys_nodup, fun _ _ h => count_selector requests h, ?_,
    fun _ _ _ h h' => hrun.classOf?_injective h h', fun _ _ _ h => assign_ok_of_convertStyle h,
    fun _ _ _ h => assign_error h,
    fun r path => rules_assign _ r path, fun more => ⟨rules_kept _ more, cache_kept _ more⟩,
    length_assignAll _ _,
    fun _ _ _ _ _ _ hq hq' h h' => answer_eq_iff requests hq hq' h h', names_run requests,
    fun _ _ _ hq h => answer_eq requests hq h⟩
  intro i rule hi
  rw [hrun.selector_eq hi, className, ← String.append_assoc]
  rfl

example :
    let use (color : String) : ClassRequest := ⟨⟨[("color", .string color)]⟩, .named "p"⟩
    (empty.assignAll [use "red", use "blue", use "red", use "green"]).1.map (·.toOption) =
      [some "s-1", some "s-2", some "s-1", some "s-3"] := by
  decide +kernel

end ClassTable

end WebStory
