import ValueTypes.Store

/-! Growth of the store: structs are added at new addresses, and keep their types for good. -/

namespace ValueTypes.Store

/-- The type of the struct at an address. -/
def typeAt? (store : Store) (address : Nat) : Option StructType :=
  store.cells[address]?.map (·.type)

/-- Whether structs have only been added, and all keep their types. -/
def Extends (σ σ' : Store) : Prop :=
  ∀ k s, σ.typeAt? k = some s → σ'.typeAt? k = some s

variable {σ σ' σ'' : Store}

theorem typeAt?_of_getElem? {k : Nat} {cell : Cell} (h : σ.cells[k]? = some cell) :
    σ.typeAt? k = some cell.type := by
  rw [typeAt?, h, Option.map_some]

theorem exists_cell {k : Nat} {s : StructType} (h : σ.typeAt? k = some s) :
    ∃ cell, σ.cells[k]? = some cell ∧ cell.type = s :=
  Option.map_eq_some_iff.mp h

theorem Extends.refl (σ : Store) : σ.Extends σ :=
  fun _ _ hs => hs

theorem Extends.trans (h : σ.Extends σ') (h' : σ'.Extends σ'') : σ.Extends σ'' :=
  fun k s hs => h' k s (h k s hs)

theorem Extends.size_le (h : σ.Extends σ') : σ.cells.size ≤ σ'.cells.size := by
  refine Nat.le_of_not_lt fun hlast => ?_
  obtain ⟨cell, hcell, _⟩ := exists_cell (h _ _ (typeAt?_of_getElem? (Array.getElem?_eq_getElem hlast)))
  obtain ⟨hsize, _⟩ := Array.getElem?_eq_some_iff.mp hcell
  exact Nat.lt_irrefl _ hsize

theorem typeAt?_push (σ : Store) (cell : Cell) :
    { σ with cells := σ.cells.push cell }.typeAt? σ.cells.size = some cell.type := by
  rw [typeAt?, Array.getElem?_push_size, Option.map_some]

theorem extends_push (σ : Store) (cell : Cell) :
    σ.Extends { σ with cells := σ.cells.push cell } := by
  intro k s hs
  rcases exists_cell hs with ⟨old, hold, rfl⟩
  rcases Array.getElem?_eq_some_iff.mp hold with ⟨hlt, _⟩
  refine typeAt?_of_getElem? ?_
  rw [Array.getElem?_push_lt hlt, ← hold, Array.getElem?_eq_getElem hlt]

/-- Changes that keep the type of a struct keep all types. -/
theorem typeAt?_modify (σ : Store) (address : Nat) (f : Cell → Cell)
    (hf : ∀ cell, (f cell).type = cell.type) (k : Nat) :
    { σ with cells := σ.cells.modify address f }.typeAt? k = σ.typeAt? k := by
  rw [typeAt?, typeAt?, Array.getElem?_modify]
  split
  · cases σ.cells[k]? with
    | none => rfl
    | some cell => exact congrArg some (hf cell)
  · rfl

end ValueTypes.Store
