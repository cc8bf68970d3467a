import Mathlib.Data.List.Perm.Basic
import WebStory.Proofs.Entries
import WebStory.Proofs.Json.Tree
import WebStory.Proofs.Number.Spelling
/-
  What a canonical form keeps.

  1. **The same value** — two values are the same (`Value.Same`) if they differ at most in the order
     of the keys of their objects, at any depth, and in the spelling of their numbers.  This is said
     by the rules of a relation, without any sorting.

  2. **Sorting** — to sort the members of an object forgets the order and nothing else: because no
     key occurs twice, the sorted list is one and the same for all orders
     (`sortMembers_eq_of_perm`).  With a key that occurs twice this would be false, as sorting is
     stable and keeps the two in their order (`filter_sortMembers`).

  3. **Numbers** — of these the canonical one keeps exactly the value.

  4. **Canonical forms** — together this makes the canonical forms of two values equal if and only
     if the values are the same (`Value.canonical_eq_iff`).  One direction goes along the rules of
     the relation.  The other has to find an order: sorted lists that are equal are images of lists
     that can be reordered into one another (`exists_perm_of_map_perm`).
-/

namespace WebStory.Json

/-! ## Sorting members -/

theorem sortMembers_perm (members : Members) : (sortMembers members).Perm members :=
  List.mergeSort_perm _ _

/-- The order that members are sorted by. -/
def keyLE (a b : String × Value) : Bool := decide (a.1 ≤ b.1)

theorem keyLE_trans (a b c : String × Value) (hab : keyLE a b = true) (hbc : keyLE b c = true) :
    keyLE a c = true :=
  decide_eq_true (String.le_trans (of_decide_eq_true hab) (of_decide_eq_true hbc))

theorem keyLE_total (a b : String × Value) : (keyLE a b || keyLE b a) = true := by
  unfold keyLE
  rw [Bool.or_eq_true, decide_eq_true_eq, decide_eq_true_eq]
  exact String.le_total a.1 b.1

/-- The keys of sorted members ascend. -/
theorem pairwise_sortMembers (members : Members) :
    (sortMembers members).Pairwise fun a b => keyLE a b = true :=
  List.pairwise_mergeSort keyLE_trans keyLE_total members

/-- Where no key occurs twice, the order of the members does not matter to the sorted list. -/
theorem sortMembers_eq_of_perm {a b : Members} (h : a.Perm b) (nodup : (Entries.names a).Nodup) :
    sortMembers a = sortMembers b := by
  have hperm : (sortMembers a).Perm (sortMembers b) :=
    (sortMembers_perm a).trans (h.trans (sortMembers_perm b).symm)
  refine hperm.eq_of_pairwise ?_ (pairwise_sortMembers a) (pairwise_sortMembers b)
  rintro ⟨k, v⟩ ⟨l, w⟩ hv hw hkl hlk
  obtain rfl : k = l := String.le_antisymm (of_decide_eq_true hkl) (of_decide_eq_true hlk)
  have hva : (k, v) ∈ a := (sortMembers_perm a).subset hv
  have hwa : (k, w) ∈ a := h.symm.subset ((sortMembers_perm b).subset hw)
  rw [Entries.value_unique nodup hva hwa]

/-- Sorting is stable: members with one key stay in order. -/
theorem filter_sortMembers (members : Members) (key : String) :
    (sortMembers members).filter (·.1 == key) = members.filter (·.1 == key) := by
  have hsame : (members.filter (·.1 == key)).Pairwise fun a b => keyLE a b = true := by
    refine List.pairwise_of_forall_mem_list fun a ha b hb => ?_
    have hkey (e : String × Value) (he : e ∈ members.filter (·.1 == key)) : e.1 = key :=
      beq_iff_eq.1 (List.mem_filter.1 he).2
    rw [keyLE, hkey a ha, hkey b hb]
    exact decide_eq_true (String.le_refl key)
  have hsub : members.filter (·.1 == key) |>.Sublist (sortMembers members) :=
    List.sublist_mergeSort keyLE_trans keyLE_total hsame List.filter_sublist
  have hfilter := hsub.filter (·.1 == key)
  simp only [List.filter_filter, Bool.and_self] at hfilter
  have hlen := ((sortMembers_perm members).filter (·.1 == key)).length_eq
  exact (hfilter.eq_of_length hlen.symm).symm

/-- So a reader finds the same value under a key. -/
theorem get?_sortMembers (members : Members) (key : String) :
    Entries.get? (sortMembers members) key = Entries.get? members key := by
  rw [Entries.get?_eq_head?, filter_sortMembers, ← Entries.get?_eq_head?]

/-! ## The same value -/

mutual

/-- One value, up to the order of keys at every depth and the spelling of numbers. -/
inductive Value.Same : Value → Value → Prop where
  | null : Value.Same .null .null
  | bool (b : Bool) : Value.Same (.bool b) (.bool b)
  | number {m n : Number} (value : m.value = n.value) : Value.Same (.number m) (.number n)
  | string (s : String) : Value.Same (.string s) (.string s)
  | array {vs ws : List Value} (items : ItemsSame vs ws) : Value.Same (.array vs) (.array ws)
  /-- The members can be put in an order in which they match one by one. -/
  | object {es es' fs : Members} (perm : es.Perm es') (members : MembersSame es' fs) :
      Value.Same (.object es) (.object fs)

/-- Lists whose items are the same, one by one. -/
inductive ItemsSame : List Value → List Value → Prop where
  | nil : ItemsSame [] []
  | cons {v w : Value} {vs ws : List Value} (head : Value.Same v w) (tail : ItemsSame vs ws) :
      ItemsSame (v :: vs) (w :: ws)

/-- Members with the same keys and values, one by one. -/
inductive MembersSame : Members → Members → Prop where
  | nil : MembersSame [] []
  | cons {key : String} {v w : Value} {es fs : Members} (head : Value.Same v w)
      (tail : MembersSame es fs) : MembersSame ((key, v) :: es) ((key, w) :: fs)

end

/-- Lists of values with the same canonical forms are the same lists. -/
theorem itemsSame_iff {vs : List Value} (ws : List Value)
    (h : ∀ v ∈ vs, ∀ w, v.canonical = w.canonical ↔ v.Same w) :
    ItemsSame vs ws ↔ vs.map Value.canonical = ws.map Value.canonical := by
  induction vs generalizing ws with
  | nil =>
    cases ws with
    | nil => exact ⟨fun _ => rfl, fun _ => .nil⟩
    | cons w ws => exact ⟨nofun, nofun⟩
  | cons v vs ih =>
    cases ws with
    | nil => exact ⟨nofun, nofun⟩
    | cons w ws =>
      have hrest := ih ws fun v hv => h v (List.mem_cons_of_mem _ hv)
      rw [List.map_cons, List.map_cons, List.cons.injEq, h v List.mem_cons_self w, ← hrest]
      constructor
      · rintro (_ | ⟨hhead, htail⟩)
        exact ⟨hhead, htail⟩
      · rintro ⟨hhead, htail⟩
        exact .cons hhead htail

theorem names_map_canonicalMember (members : Members) :
    Entries.names (members.map canonicalMember) = Entries.names members := by
  rw [Entries.names, List.map_map]
  rfl

theorem membersSame_iff {es : Members} (fs : Members)
    (h : ∀ e ∈ es, ∀ w, e.2.canonical = w.canonical ↔ e.2.Same w) :
    MembersSame es fs ↔ es.map canonicalMember = fs.map canonicalMember := by
  induction es generalizing fs with
  | nil =>
    cases fs with
    | nil => exact ⟨fun _ => rfl, fun _ => .nil⟩
    | cons f fs => exact ⟨nofun, nofun⟩
  | cons e es ih =>
    cases fs with
    | nil => exact ⟨nofun, nofun⟩
    | cons f fs =>
      obtain ⟨k, v⟩ := e
      obtain ⟨l, w⟩ := f
      have hrest := ih fs fun e he => h e (List.mem_cons_of_mem _ he)
      have hhead := h (k, v) List.mem_cons_self w
      rw [List.map_cons, List.map_cons, List.cons.injEq, canonicalMember, canonicalMember,
        Prod.mk.injEq, hhead, ← hrest]
      constructor
      · rintro (_ | ⟨hhead, htail⟩)
        exact ⟨⟨rfl, hhead⟩, htail⟩
      · rintro ⟨⟨rfl, hhead⟩, htail⟩
        exact .cons hhead htail

/-- A list whose images can be reordered can itself be reordered. -/
theorem exists_perm_of_map_perm {α β : Type} {f : α → β} {as : List α} {bs : List β}
    (h : (as.map f).Perm bs) : ∃ as', as.Perm as' ∧ as'.map f = bs := by
  -- each image stands beside what it is the image of
  have hforall : List.Forall₂ (fun b a => b = f a) (as.map f) as := by
    rw [List.forall₂_map_left_iff, List.forall₂_same]
    exact fun _ _ => rfl
  obtain ⟨as', hmap, hperm⟩ := List.perm_comp_forall₂ h.symm hforall
  exact ⟨as', hperm.symm, (List.forall₂_eq_eq_eq ▸ List.forall₂_map_right_iff.2 hmap).symm⟩

/-- The canonical forms of two values are equal exactly if the values are the same. -/
theorem Value.canonical_eq_iff {v : Value} (h : v.KeysOnce) (w : Value) :
    v.canonical = w.canonical ↔ v.Same w := by
  induction v using Value.induct generalizing w with
  | null =>
    constructor
    · intro hc
      cases w <;> simp only [Value.canonical, reduceCtorEq] at hc
      exact .null
    · rintro ⟨⟩
      rfl
  | bool b =>
    constructor
    · intro hc
      cases w <;> simp only [Value.canonical, reduceCtorEq, Value.bool.injEq] at hc
      subst hc
      exact .bool b
    · rintro ⟨⟩
      rfl
  | number n =>
    constructor
    · intro hc
      cases w <;> simp only [Value.canonical, reduceCtorEq, Value.number.injEq] at hc
      exact .number (Number.canonical_eq_iff.1 hc)
    · intro hsame
      cases hsame with
      | number value => rw [Value.canonical, Value.canonical, Number.canonical_eq_iff.2 value]
  | string s =>
    constructor
    · intro hc
      cases w <;> simp only [Value.canonical, reduceCtorEq, Value.string.injEq] at hc
      subst hc
      exact .string s
    · rintro ⟨⟩
      rfl
  | array vs ih =>
    have honce := (Value.keysOnce_array vs).1 h
    have hitems (ws : List Value) := itemsSame_iff ws fun v hv => ih v hv (honce v hv)
    rw [Value.canonical_array]
    constructor
    · intro hc
      cases w <;> simp only [Value.canonical, canonicalItems_eq_map, reduceCtorEq,
        Value.array.injEq] at hc
      exact .array ((hitems _).2 hc)
    · intro hsame
      cases hsame with
      | array items => rw [Value.canonical_array, (hitems _).1 items]
  | object es ih =>
    obtain ⟨hnodup, honce⟩ := (Value.keysOnce_object es).1 h
    rw [Value.canonical_object]
    -- the members are compared after they were put in another order
    have hmembers {es' : Members} (hperm : es.Perm es') (fs : Members) :
        MembersSame es' fs ↔ es'.map canonicalMember = fs.map canonicalMember :=
      membersSame_iff fs fun e he =>
        ih e (hperm.symm.subset he) (honce e (hperm.symm.subset he))
    constructor
    · intro hc
      cases w <;> simp only [Value.canonical, canonicalMembers_eq_map, reduceCtorEq,
        Value.object.injEq] at hc
      next fs =>
        -- one sorted list means one set of members
        have hperm : (es.map canonicalMember).Perm (fs.map canonicalMember) :=
          (sortMembers_perm _).symm.trans (hc ▸ sortMembers_perm _)
        obtain ⟨es', hperm', heq⟩ := exists_perm_of_map_perm hperm
        exact .object hperm' ((hmembers hperm' fs).2 heq)
    · intro hsame
      cases hsame with
      | object hperm members =>
        have hmap := (hmembers hperm _).1 members
        rw [Value.canonical_object, ← hmap, sortMembers_eq_of_perm (hperm.map _)]
        rwa [names_map_canonicalMember]

end WebStory.Json
