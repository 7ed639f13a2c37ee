import Mathlib.Data.List.Nodup
import ValueTypes.Proofs.Definition.Shape

/-! Symbol tables: each key is there once, with a symbol that it describes, so a table can tell its
own symbols from others with the same description. -/

namespace ValueTypes

theorem Symbol.ext_iff {s t : Symbol} : s = t ↔ s.id = t.id ∧ s.description = t.description := by
  cases s
  cases t
  simp

theorem lookup_eq_some_iff {α : Type} {entries : List (String × α)}
    (h : (entries.map (·.1)).Nodup) {key : String} {a : α} :
    entries.lookup key = some a ↔ (key, a) ∈ entries := by
  induction entries with
  | nil => simp
  | cons e entries ih =>
      obtain ⟨first, b⟩ := e
      rw [List.map_cons, List.nodup_cons] at h
      rw [List.lookup_cons, List.mem_cons, Prod.mk.injEq]
      by_cases hkey : key = first
      · subst hkey
        have hrest : (key, a) ∉ entries := fun hmem => h.1 (List.mem_map_of_mem (f := (·.1)) hmem)
        simp [hrest, eq_comm]
      · simp [beq_false_of_ne hkey, hkey, ih h.2]

namespace SymbolTable

/-- Whether each key is there once, with a symbol that it describes. -/
structure WellFormed (table : SymbolTable) : Prop where
  nodup : (table.entries.map (·.1)).Nodup
  described : ∀ e ∈ table.entries, e.2.description = some e.1

theorem new_wellFormed : ({} : SymbolTable).WellFormed :=
  ⟨List.nodup_nil, List.forall_mem_nil _⟩

theorem find?_eq_some_iff {table : SymbolTable} (h : table.WellFormed) {key : String} {s : Symbol} :
    table.find? key = some s ↔ (key, s) ∈ table.entries :=
  lookup_eq_some_iff h.nodup

/-- A table names the key of exactly the symbols that it has handed out. Of any other symbol with
the same description, the number is another one. -/
theorem keyFor?_eq_some_iff {table : SymbolTable} (h : table.WellFormed) {s : Symbol}
    {key : String} : table.keyFor? s = some key ↔ (key, s) ∈ table.entries := by
  rw [keyFor?, Option.filter_eq_some_iff, ← find?_eq_some_iff h]
  constructor
  · rintro ⟨hdescription, hfound⟩
    cases hfind : table.find? key with
    | none =>
        rw [hfind] at hfound
        cases hfound
    | some t =>
        rw [hfind, Option.any_some, Symbol.beq_iff] at hfound
        have ht := h.described _ ((find?_eq_some_iff h).mp hfind)
        exact congrArg some (Symbol.ext_iff.mpr ⟨hfound, ht.trans hdescription.symm⟩)
  · intro hs
    refine ⟨h.described _ ((find?_eq_some_iff h).mp hs), ?_⟩
    rw [hs, Option.any_some, Symbol.beq_iff]

/-- A key has its symbol already, or gets the next one. -/
theorem symbolFor_cases (table : SymbolTable) (key : String) (next : Nat) :
    (∃ s, table.find? key = some s ∧ table.symbolFor key next = (s, table, next)) ∨
      table.find? key = none ∧ table.symbolFor key next =
        (⟨next, some key⟩, ⟨table.entries ++ [(key, ⟨next, some key⟩)]⟩, next + 1) := by
  rw [symbolFor]
  cases hfind : table.find? key with
  | some s => exact .inl ⟨s, rfl, rfl⟩
  | none => exact .inr ⟨rfl, rfl⟩

theorem symbolFor_wellFormed {table : SymbolTable} (h : table.WellFormed) (key : String)
    (next : Nat) : (table.symbolFor key next).2.1.WellFormed := by
  rcases table.symbolFor_cases key next with ⟨s, -, heq⟩ | ⟨hnone, heq⟩
  · rw [heq]
    exact h
  · rw [heq]
    refine ⟨?_, fun e he => ?_⟩
    · rw [List.map_append, List.map_singleton, List.nodup_append]
      refine ⟨h.nodup, List.nodup_singleton _, fun old hold new hnew hsame => ?_⟩
      rw [List.mem_singleton] at hnew
      obtain ⟨⟨other, s⟩, hs, rfl⟩ := List.mem_map.mp hold
      have hkey : other = key := hsame.trans hnew
      rw [← hkey, (find?_eq_some_iff h).mpr hs] at hnone
      cases hnone
    · rcases List.mem_append.mp he with he | he
      · exact h.described e he
      · rw [List.mem_singleton.mp he]

/-- The key is in the table from then on, and all that was there before stays. -/
theorem mem_symbolFor {table : SymbolTable} (h : table.WellFormed) (key other : String)
    (next : Nat) (s : Symbol) :
    (other, s) ∈ (table.symbolFor key next).2.1.entries ↔
      (other, s) ∈ table.entries ∨ other = key ∧ s = (table.symbolFor key next).1 := by
  rcases table.symbolFor_cases key next with ⟨t, hfind, heq⟩ | ⟨-, heq⟩
  · rw [heq]
    have hmem := (find?_eq_some_iff h).mp hfind
    refine ⟨.inl, ?_⟩
    rintro (hs | ⟨rfl, rfl⟩)
    · exact hs
    · exact hmem
  · rw [heq, List.mem_append, List.mem_singleton, Prod.mk.injEq]

end SymbolTable

end ValueTypes
