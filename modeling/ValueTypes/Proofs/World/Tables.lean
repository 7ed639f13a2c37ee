import ValueTypes.Proofs.World.Basic

/-! What operations do to symbol tables, and which of them hand out realms, tables and symbols. -/

namespace ValueTypes

variable {μ : Type}

/-! ### Operations on tables -/

namespace Realms

variable {α : Type}

theorem build_tables (rs : Realms μ) (b : Build α) : (rs.build b).2.tables = rs.tables := by
  rw [build]
  split <;> rfl

theorem intern_tables (rs : Realms μ) (id : RealmId) (d : Draft) :
    (rs.intern id d).2.tables = rs.tables := by
  rw [intern]
  split <;> rfl

theorem internSchema_tables (rs : Realms μ) (id : RealmId) (symbol : Symbol)
    (schema : Build Schema) : (rs.internSchema id symbol schema).2.tables = rs.tables := by
  have hbuild := rs.build_tables schema
  rw [internSchema]
  split <;> rename_i heq <;> rw [heq] at hbuild
  · exact hbuild
  · exact (intern_tables _ _ _).trans hbuild

theorem table_newTable (rs : Realms μ) (i : TableId) : rs.newTable.2.table i = rs.table i := by
  rw [table, newTable, Array.getD_eq_getD_getElem?, Array.getElem?_push, table,
    Array.getD_eq_getD_getElem?]
  split
  · rename_i h
    rw [h, Array.getElem?_size]
    rfl
  · rfl

theorem table_symbolFor (rs : Realms μ) {table : TableId} (h : table < rs.tables.size)
    (key : String) (i : TableId) : (rs.symbolFor table key).2.table i =
      if table = i then ((rs.table table).symbolFor key rs.nextSymbol).2.1 else rs.table i := by
  rw [Realms.table, Array.getD_eq_getD_getElem?]
  change (((rs.tables.modify table fun _ => _)[i]?).getD {} : SymbolTable) = _
  rw [Array.getElem?_modify]
  split
  · rename_i hi
    rw [← hi, Array.getElem?_eq_getElem h]
    rfl
  · rw [Realms.table, Array.getD_eq_getD_getElem?]

end Realms

/-- Whether an item is a realm, a table or a symbol, which stand for themselves. -/
def Item.isName : Item → Bool
  | realm _ => true
  | table _ => true
  | symbol _ => true
  | _ => false

/-- What can be read off an item is a type, a schema or a value. -/
theorem Item.isName_of_mem_parts {x y : Item} {store : Store} (h : y ∈ x.parts store) :
    y.isName = false := by
  cases x with
  | type type =>
      cases type with
      | value t =>
          obtain ⟨schema, _, rfl⟩ := Option.map_eq_some_iff.mp (Option.mem_toList.mp h)
          rfl
      | struct s =>
          rw [List.mem_singleton.mp h]
          rfl
  | schema s =>
      obtain ⟨f, _, hy⟩ := List.mem_flatMap.mp h
      rcases List.mem_cons.mp hy with rfl | hy
      · rfl
      · obtain ⟨d, _, rfl⟩ := Option.map_eq_some_iff.mp (Option.mem_toList.mp hy)
        rfl
  | value v =>
      cases v with
      | record id entries =>
          obtain ⟨e, _, rfl⟩ := List.mem_map.mp h
          rfl
      | inst i =>
          rcases List.mem_cons.mp h with rfl | hy
          · rfl
          · obtain ⟨v, _, rfl⟩ := List.mem_map.mp hy
            rfl
      | struct s =>
          rcases List.mem_cons.mp h with rfl | hy
          · rfl
          · cases hcell : store.cell? s with
            | none =>
                rw [hcell] at hy
                cases hy
            | some cell =>
                rw [hcell] at hy
                obtain ⟨v, _, rfl⟩ := List.mem_map.mp hy
                rfl
      | _ => cases h
  | _ => cases h

namespace Operation

/-- Only requests for a table or for the symbol of a key change tables. -/
theorem run_tables (rs : Realms μ) {op : Operation μ} (hnew : op ≠ .newTable)
    (hkey : ∀ table key, op ≠ .symbolFor table key) : (op.run rs).2.tables = rs.tables := by
  cases op with
  | newTable => exact absurd rfl hnew
  | symbolFor table key => exact absurd rfl (hkey table key)
  | intern id d => exact rs.intern_tables id d
  | valueType id symbol drafts => exact rs.internSchema_tables id symbol _
  | arrayType id symbol element length => exact rs.internSchema_tables id symbol _
  | structType id name drafts =>
      have hbuild := rs.build_tables ((rs.realm id).makeSchema .struct drafts)
      rw [run, hand, Realms.structType]
      split <;> rename_i heq <;> rw [heq] at hbuild <;> exact hbuild
  | attach id t methods =>
      rw [run, hand, Realms.attach]
      split <;> rfl
  | makeSchema id kind drafts => exact rs.build_tables _
  | makeArraySchema id kind element length => exact rs.build_tables _
  | newRecord entries => exact rs.build_tables (Build.newRecord entries)
  | construct t source => exact rs.build_tables _
  | constructStruct s source => exact rs.build_tables _
  | coerce t v => exact rs.build_tables _
  | setProperty target name v => exact rs.build_tables _
  | newSymbol description => rfl
  | newRealm config table => rfl
  | definitions id => rfl
  | inspect x => rfl

theorem tables_size_le (rs : Realms μ) (op : Operation μ) :
    rs.tables.size ≤ (op.run rs).2.tables.size := by
  by_cases hnew : op = .newTable
  · subst hnew
    exact Array.size_push _ ▸ Nat.le_succ _
  · by_cases hkey : ∃ table key, op = .symbolFor table key
    · obtain ⟨table, key, rfl⟩ := hkey
      exact Array.size_modify.ge
    · rw [run_tables rs hnew fun table key heq => hkey ⟨table, key, heq⟩]

theorem hand_eq_ok {α : Type} {f : α → List Item} {r : Except Error α × Realms μ}
    {items : List Item} (h : (hand f r).1 = .ok items) : ∃ a, f a = items := by
  rw [hand] at h
  cases hr : r.1 with
  | error e =>
      rw [hr] at h
      cases h
  | ok a =>
      rw [hr] at h
      exact ⟨a, Except.ok.inj h⟩

/-- Realms, tables and symbols are handed out alone, and only by the operations that make them. -/
theorem name_of_run {rs : Realms μ} {op : Operation μ} {items : List Item} {x : Item}
    (h : (op.run rs).1 = .ok items) (hmem : x ∈ items) (hname : x.isName = true) :
    items = [x] ∧ ((∃ description, op = .newSymbol description) ∨
      op = .newTable ∧ x = .table rs.tables.size ∨ (∃ table key, op = .symbolFor table key) ∨
      ∃ config table, op = .newRealm config table ∧ ∃ realm, x = .realm realm) := by
  cases op with
  | newSymbol description =>
      cases h
      rw [List.mem_singleton.mp hmem]
      exact ⟨rfl, .inl ⟨description, rfl⟩⟩
  | newTable =>
      cases h
      rw [List.mem_singleton.mp hmem]
      exact ⟨rfl, .inr (.inl ⟨rfl, rfl⟩)⟩
  | symbolFor table key =>
      cases h
      rw [List.mem_singleton.mp hmem]
      exact ⟨rfl, .inr (.inr (.inl ⟨table, key, rfl⟩))⟩
  | newRealm config table =>
      cases h
      rw [List.mem_singleton.mp hmem]
      exact ⟨rfl, .inr (.inr (.inr ⟨config, table, rfl, _, rfl⟩))⟩
  | definitions id =>
      cases h
      obtain ⟨t, _, rfl⟩ := List.mem_map.mp hmem
      cases hname
  | inspect y =>
      cases h
      rw [y.isName_of_mem_parts hmem] at hname
      cases hname
  | attach id t methods =>
      obtain ⟨_, rfl⟩ := hand_eq_ok h
      cases hmem
  | setProperty target name v =>
      obtain ⟨_, rfl⟩ := hand_eq_ok h
      cases hmem
  | _ =>
      obtain ⟨a, rfl⟩ := hand_eq_ok h
      rw [List.mem_singleton.mp hmem] at hname
      cases hname

end Operation

end ValueTypes
