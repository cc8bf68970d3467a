/-
  Lists of named entries that keep the order in which the names first came.

  Members of a JSON object, style records, style sheet declarations and the class table are all
  of this kind.  `set` writes an entry: a name that is already there keeps its place and takes
  the new value, a new name goes to the end.  So setting one name after another never gives two
  entries of one name (`nodup_names_set`), and reading back gives the last value set
  (`get?_set_self`, `get?_set_ne`).
-/

namespace WebStory.Entries

variable {α : Type}

/-- The names, in order. -/
def names (entries : List (String × α)) : List String := entries.map (·.1)

/-- The value of the first entry with this name. -/
def get? : List (String × α) → String → Option α
  | [], _ => none
  | (k, v) :: rest, name => if k = name then some v else get? rest name

/-- Writes an entry: in place if the name is there, at the end otherwise. -/
def set : List (String × α) → String → α → List (String × α)
  | [], name, value => [(name, value)]
  | (k, v) :: rest, name, value =>
    if k = name then (k, value) :: rest else (k, v) :: set rest name value

/-- Sets the entries of a list one after another. -/
def ofList (entries : List (String × α)) : List (String × α) :=
  entries.foldl (fun done e => set done e.1 e.2) []

theorem get?_set_self (entries : List (String × α)) (name : String) (value : α) :
    get? (set entries name value) name = some value := by
  induction entries with
  | nil => simp [set, get?]
  | cons e rest ih =>
    obtain ⟨k, v⟩ := e
    by_cases h : k = name <;> simp [set, get?, h, ih]

theorem get?_set_ne (entries : List (String × α)) {name other : String} (value : α)
    (h : other ≠ name) : get? (set entries name value) other = get? entries other := by
  induction entries with
  | nil => simp [set, get?, Ne.symm h]
  | cons e rest ih =>
    obtain ⟨k, v⟩ := e
    by_cases hk : k = name
    · subst hk; simp [set, get?, Ne.symm h]
    · simp [set, get?, hk, ih]

/-- A name that is there keeps its place, a new one goes to the end. -/
theorem names_set (entries : List (String × α)) (name : String) (value : α) :
    names (set entries name value) =
      if name ∈ names entries then names entries else names entries ++ [name] := by
  induction entries with
  | nil => simp [set, names]
  | cons e rest ih =>
    obtain ⟨k, v⟩ := e
    by_cases h : k = name
    · simp [set, names, h]
    · have h' : ¬ name = k := fun e => h e.symm
      simp only [set, h, if_false, names, List.map_cons, List.mem_cons, h', false_or] at ih ⊢
      rw [ih]; split <;> simp_all

theorem nodup_names_set {entries : List (String × α)} (name : String) (value : α)
    (h : (names entries).Nodup) : (names (set entries name value)).Nodup := by
  rw [names_set]
  split
  · exact h
  · next hn =>
    refine List.nodup_append.2 ⟨h, by simp, fun a ha b hb hab => hn ?_⟩
    rw [List.mem_singleton] at hb
    exact hb ▸ hab ▸ ha

end WebStory.Entries
