/-! Lists of entries by key, in the order in which the keys first came. -/

namespace ValueTypes.Entries

variable {κ α : Type} [BEq κ]

/-- Gives `key` a value: in place if the key is there, else behind all others. -/
def insert (entries : List (κ × α)) (key : κ) (value : α) : List (κ × α) :=
  match entries with
  | [] => [(key, value)]
  | entry :: rest =>
    if entry.1 == key then (entry.1, value) :: rest else entry :: insert rest key value

/-- Removes a key; the others keep their order. -/
def erase (entries : List (κ × α)) (key : κ) : List (κ × α) :=
  entries.eraseP fun entry => entry.1 == key

/-- The entries that a list of pairs leaves behind when they are inserted one after another. -/
def ofPairs (pairs : List (κ × α)) : List (κ × α) :=
  pairs.foldl (fun entries pair => insert entries pair.1 pair.2) []

/-- Keys that are equal find the same. -/
theorem lookup_congr [EquivBEq κ] (entries : List (κ × α)) {key other : κ}
    (h : (key == other) = true) : entries.lookup key = entries.lookup other := by
  induction entries with
  | nil => rfl
  | cons entry rest ih =>
      rw [List.lookup_cons, List.lookup_cons, BEq.congr_left h, ih]

theorem lookup_insert [EquivBEq κ] (entries : List (κ × α)) (key : κ) (value : α) (other : κ) :
    (insert entries key value).lookup other =
      if other == key then some value else entries.lookup other := by
  induction entries with
  | nil =>
      simp only [insert, List.lookup_cons, List.lookup_nil]
      cases other == key <;> rfl
  | cons entry rest ih =>
      obtain ⟨first, old⟩ := entry
      by_cases hfirst : (first == key) = true
      · simp only [insert, hfirst, if_true, List.lookup_cons, BEq.congr_right hfirst]
        cases other == key <;> rfl
      · simp only [insert, hfirst, Bool.false_eq_true, if_false, List.lookup_cons, ih]
        by_cases hother : (other == first) = true
        · simp [hother, BEq.congr_left hother, hfirst]
        · simp [hother]

/-! ### Entries with other values -/

theorem lookup_map {β : Type} (f : α → β) (entries : List (κ × α)) (key : κ) :
    (entries.map fun entry => (entry.1, f entry.2)).lookup key = (entries.lookup key).map f := by
  induction entries with
  | nil => rfl
  | cons entry rest ih =>
      rw [List.map_cons, List.lookup_cons, List.lookup_cons, ih]
      cases key == entry.1 <;> rfl

theorem insert_map {β : Type} (f : α → β) (entries : List (κ × α)) (key : κ) (value : α) :
    insert (entries.map fun entry => (entry.1, f entry.2)) key (f value) =
      (insert entries key value).map fun entry => (entry.1, f entry.2) := by
  induction entries with
  | nil => rfl
  | cons entry rest ih =>
      rw [List.map_cons, insert, insert, ih]
      cases entry.1 == key <;> rfl

theorem ofPairs_map {β : Type} (f : α → β) (pairs : List (κ × α)) :
    ofPairs (pairs.map fun pair => (pair.1, f pair.2)) =
      (ofPairs pairs).map fun entry => (entry.1, f entry.2) := by
  have hfold : ∀ entries : List (κ × α),
      (pairs.map fun pair => (pair.1, f pair.2)).foldl
          (fun entries pair => insert entries pair.1 pair.2)
          (entries.map fun entry => (entry.1, f entry.2)) =
        (pairs.foldl (fun entries pair => insert entries pair.1 pair.2) entries).map
          fun entry => (entry.1, f entry.2) := by
    induction pairs with
    | nil => exact fun _ => rfl
    | cons pair pairs ih =>
        intro entries
        rw [List.map_cons, List.foldl_cons, List.foldl_cons, insert_map, ih]
  exact hfold []

end ValueTypes.Entries
