import WebStory.Proofs.Style.Faults
import WebStory.Proofs.Style.Sharing
/-
  The tables that rendering works with.

  A table is reachable if a run of requests leads to it from the empty one.  Of any other table
  little could be said, as its cache might hold keys whose records no conversion would take.

  1. **Failure** — in a reachable table the cache makes no difference to failure: a request is
     answered with a class if its record can be converted, and otherwise with its own fault
     (`Reachable.assign_of_fault?`).  For a key that is found, the record that brought it in was
     converted, and records with one key are both malformed or both not.

  2. **First occurrences** — if no request of a run fails, the requests of which no earlier one has
     the same key say all there is to know about the table (`firstOccurrences`).

  3. **Numbers** — the `i`-th of them has the `i`-th rule, and that is the conversion of its own
     record (`numbered_run`), and every key has the number of its first occurrence
     (`Numbered.number_eq`).  Classes can therefore be written down from a list of requests without
     running anything.
-/

namespace WebStory

/-- What is wrong with the record of a request. -/
def ClassRequest.fault? (q : ClassRequest) : Option Error := failure? (convertStyle q.record q.path)

namespace ClassTable

/-! ## Reachable tables -/

/-- A run of requests leads to the table. -/
def Reachable (t : ClassTable) : Prop := ∃ requests, (empty.assignAll requests).2 = t

theorem assignAll_append (t : ClassTable) (requests more : List ClassRequest) :
    (t.assignAll (requests ++ more)).2 = ((t.assignAll requests).2.assignAll more).2 := by
  induction requests generalizing t with
  | nil => rfl
  | cons q rest ih => exact ih _

theorem assignAll_singleton (t : ClassTable) (q : ClassRequest) :
    (t.assignAll [q]).2 = (t.assign q.record q.path).2 := rfl

theorem reachable_empty : Reachable empty := ⟨[], rfl⟩

section Reachable

variable {t : ClassTable} (h : t.Reachable)
include h

theorem Reachable.assignAll (more : List ClassRequest) : (t.assignAll more).2.Reachable := by
  obtain ⟨requests, rfl⟩ := h
  exact ⟨requests ++ more, assignAll_append empty requests more⟩

theorem Reachable.consistent : t.Consistent := by
  obtain ⟨requests, rfl⟩ := h
  exact consistent_run requests

/-- A record whose key is in the table can be converted. -/
theorem Reachable.fault?_of_classOf? {q : ClassRequest} {name : String}
    (hkey : t.classOf? q.key = some name) : q.fault? = none := by
  have hcons := h.consistent
  obtain ⟨requests, rfl⟩ := h
  obtain ⟨p, -, hpkey, d, hconv, -⟩ := (backed_run requests).of_classOf? hcons hkey
  exact failure?_eq_none_iff.2 ((convertStyle_isOk_iff hpkey p.path q.path).1 ⟨d, hconv⟩)

/-- A malformed record fails, and leaves the table as it was. -/
theorem Reachable.assign_of_fault? {q : ClassRequest} {e : Error} (hfault : q.fault? = some e) :
    t.assign q.record q.path = (.error e, t) := by
  have hconv : convertStyle q.record q.path = .error e := failure?_eq_some_iff.1 hfault
  rcases t.assign_cases q.record q.path with ⟨_, hkey, _⟩ | ⟨e', _, hconv', heq⟩ | ⟨_, _, hok, _⟩
  · rw [h.fault?_of_classOf? hkey] at hfault
    cases hfault
  · rw [hconv] at hconv'
    rw [heq, ← Except.error.inj hconv']
  · rw [hconv] at hok
    cases hok

end Reachable

/-- A record that can be converted gets a class, from any table. -/
theorem assign_of_fault?_none (t : ClassTable) {q : ClassRequest} (hfault : q.fault? = none) :
    ∃ name, t.assign q.record q.path = (.ok name, (t.assign q.record q.path).2) ∧
      (t.assign q.record q.path).2.classOf? q.key = some name := by
  obtain ⟨d, hconv⟩ := failure?_eq_none_iff.1 hfault
  obtain ⟨name, hname⟩ := assign_ok_of_convertStyle (t := t) hconv
  exact ⟨name, Prod.ext hname rfl, classOf?_assign hname⟩

/-- A key that no record of a run has is not in the table after it. -/
theorem classOf?_of_new {requests : List ClassRequest} {key : String}
    (h : ∀ p ∈ requests, p.key ≠ key) : (empty.assignAll requests).2.classOf? key = none := by
  cases hclass : (empty.assignAll requests).2.classOf? key with
  | none => rfl
  | some c =>
    obtain ⟨p, hp, hpkey, -⟩ := (backed_run requests).of_classOf? (consistent_run requests) hclass
    exact absurd hpkey (h p hp)

/-- After a run, the rule of a class is what the first record with the key of the class was
    converted to; and that is the only rule of the class. -/
theorem exists_first_of_classOf? {requests : List ClassRequest} {key name : String}
    (h : (empty.assignAll requests).2.classOf? key = some name) :
    ∃ q d, requests.find? (·.key == key) = some q ∧ convertStyle q.record q.path = .ok d ∧
      Rule.ofClass name d ∈ (empty.assignAll requests).2.rules ∧
      ∀ rule ∈ (empty.assignAll requests).2.rules,
        rule.selector = "." ++ name → rule = Rule.ofClass name d := by
  have hcons := consistent_run requests
  -- some record with the key was converted, so the first one can be
  obtain ⟨p, hp, hpkey, d', hconv', -⟩ := (backed_run requests).of_classOf? hcons h
  have hsome : (requests.find? (·.key == key)).isSome :=
    List.find?_isSome.2 ⟨p, hp, beq_iff_eq.2 hpkey⟩
  obtain ⟨q, hq⟩ := Option.isSome_iff_exists.1 hsome
  obtain ⟨hqkey, before, after, rfl, hbefore⟩ := List.find?_eq_some_iff_append.1 hq
  have hqkey : q.key = key := beq_iff_eq.1 hqkey
  obtain ⟨d, hconv⟩ := (convertStyle_isOk_iff (hpkey.trans hqkey.symm) p.path q.path).1 ⟨d', hconv'⟩
  have hnew : (empty.assignAll before).2.classOf? q.record.canonicalKey = none :=
    classOf?_of_new fun p hp hpkey => absurd (hpkey.trans hqkey) (by simpa using hbefore p hp)
  have hlast : (empty.assignAll (before ++ q :: after)).2 =
      (((empty.assignAll before).2.assign q.record q.path).2.assignAll after).2 := by
    rw [assignAll_append]
    rfl
  rcases (empty.assignAll before).2.assign_cases q.record q.path with
    ⟨_, hkey, -⟩ | ⟨_, -, herror, -⟩ | ⟨d₁, -, hconv₁, heq⟩
  · rw [hnew] at hkey
    cases hkey
  · rw [hconv] at herror
    cases herror
  · obtain rfl : d = d₁ := Except.ok.inj (hconv.symm.trans hconv₁)
    have hentered := (consistent_run before).assign q.record q.path
    have hclass := classOf?_assign (congrArg Prod.fst heq)
    have hkept := classOf?_assignAll hentered hclass after
    rw [← hlast, show q.record.canonicalKey = key from hqkey, h] at hkept
    have hrule : Rule.ofClass name d ∈ (empty.assignAll (before ++ q :: after)).2.rules := by
      rw [hlast]
      refine (rules_kept _ after).subset ?_
      rw [heq, Option.some.inj hkept]
      exact List.mem_append_right _ (List.mem_singleton.2 rfl)
    exact ⟨q, d, hq, hconv, hrule, fun rule hmem hsel =>
      List.inj_on_of_nodup_map hcons.selectors_nodup hmem hrule hsel⟩

/-! ## First occurrences -/

/-- The requests of which no earlier one has the same key, in order. -/
def firstOccurrences : List ClassRequest → List ClassRequest
  | [] => []
  | q :: rest => q :: (firstOccurrences rest).filter fun p => p.key != q.key

theorem key_mem_firstOccurrences {requests : List ClassRequest} {key : String} :
    key ∈ (firstOccurrences requests).map (·.key) ↔ key ∈ requests.map (·.key) := by
  induction requests with
  | nil => exact Iff.rfl
  | cons q rest ih =>
    rw [List.mem_map] at ih
    by_cases hq : key = q.key
    · simp [firstOccurrences, hq]
    · have hne (p : ClassRequest) (hp : p.key = key) : p.key ≠ q.key := fun h => hq (hp ▸ h)
      simp only [firstOccurrences, List.map_cons, List.mem_cons, hq, false_or, ← ih, List.mem_map,
        List.mem_filter, bne_iff_ne]
      exact ⟨fun ⟨p, hp, hk⟩ => ⟨p, hp.1, hk⟩, fun ⟨p, hp, hk⟩ => ⟨p, ⟨hp, hne p hk⟩, hk⟩⟩

/-- The first request with a key is the first occurrence of the key. -/
theorem find?_firstOccurrences (requests : List ClassRequest) (key : String) :
    (firstOccurrences requests).find? (·.key == key) = requests.find? (·.key == key) := by
  induction requests with
  | nil => rfl
  | cons q rest ih =>
    rw [firstOccurrences, List.find?_cons, List.find?_cons, List.find?_filter, ← ih]
    split
    · rfl
    · next hq =>
      refine List.find?_congr fun p _ => ?_
      have hne : q.key ≠ key := by simpa using hq
      by_cases hp : p.key = key <;> simp [hp, Ne.symm hne]

/-- One more request is a first occurrence if its key is new. -/
theorem firstOccurrences_append_singleton (requests : List ClassRequest) (q : ClassRequest) :
    firstOccurrences (requests ++ [q]) =
      if q.key ∈ requests.map (·.key) then firstOccurrences requests
      else firstOccurrences requests ++ [q] := by
  induction requests with
  | nil => rfl
  | cons p rest ih =>
    rw [List.cons_append, firstOccurrences, ih, firstOccurrences, List.map_cons]
    by_cases hrest : q.key ∈ rest.map (·.key)
    · rw [if_pos hrest, if_pos (List.mem_cons_of_mem _ hrest)]
    · rw [if_neg hrest, List.filter_append]
      by_cases hp : q.key = p.key
      · rw [if_pos (hp ▸ List.mem_cons_self), List.filter_cons_of_neg (by simp [hp]),
          List.filter_nil, List.append_nil]
      · rw [if_neg (by simp [hp, hrest]), List.filter_cons_of_pos (by simp [hp]), List.filter_nil,
          List.cons_append]

/-! ## Numbers -/

/-- The cache and the rules are those of first occurrences. -/
structure Numbered (first : List ClassRequest) (t : ClassTable) : Prop where
  names : Entries.names t.cache = first.map (·.key)
  rule : ∀ (i : Nat) q, first[i]? = some q → ∃ d, convertStyle q.record q.path = .ok d ∧
    t.rules[i]? = some (Rule.ofClass (className i) d)

theorem Numbered.length_eq {first : List ClassRequest} {t : ClassTable} (h : Numbered first t)
    (hcons : t.Consistent) : t.rules.length = first.length := by
  have hnames := congrArg List.length h.names
  rw [Entries.names, List.length_map, List.length_map] at hnames
  rw [← hcons.length_eq, hnames]

/-- One more request is numbered if its key is new. -/
theorem Numbered.assign {requests : List ClassRequest} {t : ClassTable} {q : ClassRequest}
    (h : Numbered (firstOccurrences requests) t) (hcons : t.Consistent) (hfault : q.fault? = none) :
    Numbered (firstOccurrences (requests ++ [q])) (t.assign q.record q.path).2 := by
  have hmem : q.key ∈ requests.map (·.key) ↔ q.key ∈ Entries.names t.cache := by
    rw [h.names, key_mem_firstOccurrences]
  rw [firstOccurrences_append_singleton]
  rcases t.assign_cases q.record q.path with ⟨_, hkey, heq⟩ | ⟨e, _, hconv, _⟩ | ⟨d, hkey, hconv, heq⟩
  · rw [heq, if_pos (hmem.2 (Entries.name_mem_of_mem (Entries.mem_of_get? hkey)))]
    exact h
  · rw [ClassRequest.fault?, hconv] at hfault
    cases hfault
  · have hnew : q.key ∉ Entries.names t.cache := Entries.get?_eq_none_iff.1 hkey
    rw [heq, if_neg fun hq => hnew (hmem.1 hq)]
    refine ⟨?_, fun i p hp => ?_⟩
    · rw [Entries.names, List.map_append, List.map_append, ← h.names]
      rfl
    · have hlength := h.length_eq hcons
      rw [List.getElem?_append] at hp ⊢
      -- the place decides whether the request was there or is the last
      split at hp
      · next hi =>
        rw [if_pos (hlength ▸ hi)]
        exact h.rule i p hp
      · next hi =>
        rw [List.getElem?_singleton] at hp
        split at hp
        · next hlast =>
          obtain rfl : i = t.rules.length := by omega
          obtain rfl : q = p := Option.some.inj hp
          refine ⟨d, hconv, ?_⟩
          rw [if_neg (by omega), Nat.sub_self]
          rfl
        · cases hp

/-- If all requests of a run can be converted, it numbers their first occurrences. -/
theorem numbered_run {requests : List ClassRequest} (h : ∀ q ∈ requests, q.fault? = none) :
    Numbered (firstOccurrences requests) (empty.assignAll requests).2 := by
  induction requests using List.reverseRecOn with
  | nil => exact ⟨rfl, nofun⟩
  | append_singleton requests q ih =>
    rw [assignAll_append, assignAll_singleton]
    refine (ih fun p hp => h p (List.mem_append_left _ hp)).assign (consistent_run requests) ?_
    exact h q (List.mem_append_right _ (List.mem_singleton.2 rfl))

/-- The class that is numbered by the place of a key among first occurrences. -/
def number (first : List ClassRequest) (key : String) : String :=
  className ((first.map (·.key)).idxOf key)

/-- The number of a key is the place of the first request with this key among first occurrences. -/
theorem exists_number {requests : List ClassRequest} {q : ClassRequest} (h : q ∈ requests) :
    ∃ (i : Nat) (p : ClassRequest), (firstOccurrences requests)[i]? = some p ∧
      requests.find? (·.key == q.key) = some p ∧
      number (firstOccurrences requests) q.key = className i := by
  have hsome : (requests.find? (·.key == q.key)).isSome :=
    List.find?_isSome.2 ⟨q, h, beq_self_eq_true q.key⟩
  obtain ⟨p, hp⟩ := Option.isSome_iff_exists.1 hsome
  have hfirst := hp
  rw [← find?_firstOccurrences, List.find?_eq_some_iff_getElem] at hfirst
  obtain ⟨hkey, i, hi, rfl, hbefore⟩ := hfirst
  refine ⟨i, _, List.getElem?_eq_getElem hi, hp, ?_⟩
  have hidx : (firstOccurrences requests).findIdx (·.key == q.key) = i :=
    (List.findIdx_eq hi).2 ⟨hkey, fun j hj => by simpa using hbefore j hj⟩
  rw [number, List.idxOf, List.findIdx_map, ← hidx]
  rfl

/-- Every key in the table has the class numbered by its first occurrence. -/
theorem Numbered.number_eq {first : List ClassRequest} {t : ClassTable} (h : Numbered first t)
    (hcons : t.Consistent) {key name : String} (hkey : t.classOf? key = some name) :
    number first key = name := by
  obtain ⟨i, hi, rfl⟩ := hcons.classOf?_iff.1 hkey
  obtain ⟨hlt, rfl⟩ := List.getElem?_eq_some_iff.1 hi
  have hidx := hcons.keys_nodup.idxOf_getElem i hlt
  rw [number, ← h.names, hidx]

end ClassTable

end WebStory
