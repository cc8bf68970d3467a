import WebStory.Entries
/-
  Laws of ordered lists of named entries.

  A list without repeated names is a finite map: reading a name and finding the entry in the list
  are one thing (`get?_eq_some_iff`).  Writing keeps this view, so two lists with the same entries
  still have the same entries after the same write (`set_perm`).
-/

namespace WebStory.Entries

variable {α β : Type}

/-! ## Reading -/

theorem get?_eq_none_iff {entries : List (String × α)} {name : String} :
    get? entries name = none ↔ name ∉ names entries := by
  induction entries with
  | nil => simp [get?, names]
  | cons e rest ih =>
    obtain ⟨k, v⟩ := e
    by_cases h : k = name
    · simp [get?, names, h]
    · have h' : ¬ name = k := fun e => h e.symm
      simp only [get?, h, if_false, ih]
      simp [names, h']

theorem mem_of_get? {entries : List (String × α)} {name : String} {value : α}
    (h : get? entries name = some value) : (name, value) ∈ entries := by
  induction entries with
  | nil => simp [get?] at h
  | cons e rest ih =>
    obtain ⟨k, v⟩ := e
    by_cases hk : k = name
    · simp only [get?, hk, if_true, Option.some.injEq] at h
      subst hk h
      exact List.mem_cons_self
    · rw [get?, if_neg hk] at h
      exact List.mem_cons_of_mem _ (ih h)

theorem name_mem_of_mem {entries : List (String × α)} {name : String} {value : α}
    (h : (name, value) ∈ entries) : name ∈ names entries :=
  List.mem_map.2 ⟨(name, value), h, rfl⟩

/-- Where no name is repeated, reading a name is finding its entry. -/
theorem get?_eq_some_iff {entries : List (String × α)} (nodup : (names entries).Nodup)
    {name : String} {value : α} : get? entries name = some value ↔ (name, value) ∈ entries := by
  refine ⟨mem_of_get?, fun hmem => ?_⟩
  induction entries with
  | nil => simp at hmem
  | cons e rest ih =>
    obtain ⟨k, v⟩ := e
    obtain ⟨hk, hrest⟩ := List.nodup_cons.1 nodup
    rcases List.mem_cons.1 hmem with heq | hmem
    · obtain ⟨rfl, rfl⟩ := Prod.mk.injEq .. ▸ heq
      simp [get?]
    · have hne : k ≠ name := by
        rintro rfl
        exact hk (name_mem_of_mem hmem)
      rw [get?, if_neg hne]
      exact ih hrest hmem

/-- Where no name is repeated, one name has one value. -/
theorem value_unique {entries : List (String × α)} (nodup : (names entries).Nodup)
    {name : String} {v w : α} (hv : (name, v) ∈ entries) (hw : (name, w) ∈ entries) : v = w := by
  rw [← get?_eq_some_iff nodup] at hv hw
  exact Option.some.inj (hv.symm.trans hw)

/-- A reader takes the first of the entries with its name. -/
theorem get?_eq_head? (entries : List (String × α)) (name : String) :
    get? entries name = (entries.filter (·.1 == name)).head?.map (·.2) := by
  induction entries with
  | nil => rfl
  | cons e rest ih =>
    obtain ⟨k, v⟩ := e
    by_cases h : k = name <;> simp [get?, h, ih]

/-- A name whose entries are left out is not there. -/
theorem get?_filter_self (entries : List (String × α)) (name : String) :
    get? (entries.filter fun e => e.1 != name) name = none := by
  rw [get?_eq_none_iff, names, List.mem_map]
  rintro ⟨e, he, rfl⟩
  exact absurd (List.mem_filter.1 he).2 (by simp)

/-- Leaving out the entries of one name hides no other. -/
theorem get?_filter_ne (entries : List (String × α)) {name other : String} (h : other ≠ name) :
    get? (entries.filter fun e => e.1 != name) other = get? entries other := by
  rw [get?_eq_head?, get?_eq_head?, List.filter_filter]
  congr 2
  refine List.filter_congr fun e _ => ?_
  by_cases he : e.1 = other <;> simp [he, h]

/-- Where no name is repeated, the entry of a name is the only one. -/
theorem filter_eq_singleton {entries : List (String × α)} (nodup : (names entries).Nodup)
    {name : String} {value : α} (h : get? entries name = some value) :
    (entries.filter fun e => e.1 == name) = [(name, value)] := by
  induction entries with
  | nil => cases h
  | cons e rest ih =>
    obtain ⟨k, v⟩ := e
    obtain ⟨hk, hrest⟩ := List.nodup_cons.1 nodup
    by_cases hname : k = name
    · subst hname
      have hnone : (rest.filter fun e => e.1 == k) = [] := by
        rw [List.filter_eq_nil_iff]
        intro e he hkey
        have hname : e.1 = k := beq_iff_eq.1 hkey
        exact hk (hname ▸ name_mem_of_mem he)
      rw [get?, if_pos rfl] at h
      rw [List.filter_cons_of_pos (by simp), hnone, Option.some.inj h]
    · rw [get?, if_neg hname] at h
      rw [List.filter_cons_of_neg (by simpa using hname), ih hrest h]

/-- Reading after all values were mapped. -/
theorem get?_map (f : α → β) (entries : List (String × α)) (name : String) :
    get? (entries.map fun e => (e.1, f e.2)) name = (get? entries name).map f := by
  induction entries with
  | nil => rfl
  | cons e rest ih =>
    obtain ⟨k, v⟩ := e
    by_cases h : k = name <;> simp [get?, h, ih]

/-! ## One list after another -/

theorem names_append (l m : List (String × α)) : names (l ++ m) = names l ++ names m :=
  List.map_append

theorem get?_append (l m : List (String × α)) (name : String) :
    get? (l ++ m) name = (get? l name).or (get? m name) := by
  induction l with
  | nil => rfl
  | cons e rest ih =>
    obtain ⟨k, v⟩ := e
    rw [List.cons_append, get?, get?]
    split
    · rfl
    · exact ih

/-! ## Writing -/

/-- After a write there is the new entry besides old ones. -/
theorem mem_of_mem_set {entries : List (String × α)} {name : String} {value : α}
    {e : String × α} (h : e ∈ set entries name value) : e = (name, value) ∨ e ∈ entries := by
  induction entries with
  | nil => exact Or.inl (List.mem_singleton.1 h)
  | cons f rest ih =>
    obtain ⟨k, v⟩ := f
    rw [set] at h
    split at h
    · next hk =>
      rcases List.mem_cons.1 h with rfl | h
      · exact Or.inl (by rw [hk])
      · exact Or.inr (List.mem_cons_of_mem _ h)
    · rcases List.mem_cons.1 h with rfl | h
      · exact Or.inr List.mem_cons_self
      · exact (ih h).imp_right (List.mem_cons_of_mem _)

/-- A new name goes to the end. -/
theorem set_of_not_mem {entries : List (String × α)} {name : String} (value : α)
    (h : name ∉ names entries) : set entries name value = entries ++ [(name, value)] := by
  induction entries with
  | nil => rfl
  | cons e rest ih =>
    obtain ⟨k, v⟩ := e
    rw [names, List.map_cons, List.mem_cons, not_or] at h
    rw [set, if_neg (fun e => h.1 e.symm), ih h.2, List.cons_append]

/-- Where no name is repeated, writing takes out the entry of that name and puts in the new one. -/
theorem set_perm_cons {entries : List (String × α)} (nodup : (names entries).Nodup) (name : String)
    (value : α) :
    (set entries name value).Perm ((name, value) :: entries.filter fun e => e.1 != name) := by
  induction entries with
  | nil => exact List.Perm.refl _
  | cons e rest ih =>
    obtain ⟨k, v⟩ := e
    obtain ⟨hk, hrest⟩ := List.nodup_cons.1 nodup
    by_cases h : k = name
    · subst h
      have hother : rest.filter (fun e => e.1 != k) = rest := by
        rw [List.filter_eq_self]
        intro e he
        rw [bne_iff_ne]
        rintro rfl
        exact hk (name_mem_of_mem he)
      rw [set, if_pos rfl, List.filter_cons_of_neg (by simp), hother]
    · have hkeep : ((k, v) :: rest).filter (fun e => e.1 != name) =
          (k, v) :: rest.filter fun e => e.1 != name :=
        List.filter_cons_of_pos (by simpa using h)
      rw [set, if_neg h, hkeep]
      exact ((ih hrest).cons (k, v)).trans (List.Perm.swap _ _ _)

/-- Lists with the same entries have the same entries after the same write. -/
theorem set_perm {entries others : List (String × α)} (perm : entries.Perm others)
    (nodup : (names entries).Nodup) (name : String) (value : α) :
    (set entries name value).Perm (set others name value) := by
  have nodup' : (names others).Nodup := (perm.map _).nodup nodup
  have hfilter := perm.filter fun e => e.1 != name
  exact (set_perm_cons nodup name value).trans
    ((hfilter.cons (name, value)).trans (set_perm_cons nodup' name value).symm)

/-- Writing new names one after another adds them at the end. -/
theorem foldl_set_of_nodup (entries : List (String × α)) {new : List (String × α)}
    (nodup : (names (entries ++ new)).Nodup) :
    new.foldl (fun done e => set done e.1 e.2) entries = entries ++ new := by
  induction new generalizing entries with
  | nil => rw [List.foldl_nil, List.append_nil]
  | cons e rest ih =>
    have hassoc : entries ++ e :: rest = (entries ++ [e]) ++ rest := by simp
    have hnew : e.1 ∉ names entries := by
      rw [names, List.map_append, List.nodup_append] at nodup
      exact fun hmem => nodup.2.2 _ hmem e.1 List.mem_cons_self rfl
    rw [List.foldl_cons, set_of_not_mem _ hnew, hassoc]
    exact ih _ (hassoc ▸ nodup)

end WebStory.Entries
