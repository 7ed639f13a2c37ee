import ValueTypes.Content
import ValueTypes.Proofs.Lenient.Construction
import ValueTypes.Proofs.Value.Content
import ValueTypes.Value.Equality

/-! What values show and how they compare does not depend on modes: the same leaves, under the same
names, in types of the same names and numbers. -/

namespace ValueTypes

/-! ### Contents -/

mutual

/-- A relaxed value shows the same if each struct does. -/
theorem Value.contentWith_relax {look look' : StructInstance → Content}
    (h : ∀ s : StructInstance, look' s.relax = look s) :
    ∀ v : Value, v.relax.contentWith look' = v.contentWith look
  | .record _ entries => congrArg Content.record (entryContents_relax h entries)
  | .inst ⟨_, type, slots⟩ => by
    have hnames : type.relax.schema?.elim [] Schema.names = type.schema?.elim [] Schema.names := by
      rw [ValueType.relax_schema?]
      cases type.schema? <;> simp
    change Content.inst type.relax.name type.relax.id type.relax.realm
      ((type.relax.schema?.elim [] Schema.names).zip (slotContents look' (relaxSlots slots))) = _
    rw [ValueType.relax_name, ValueType.relax_id, ValueType.relax_realm, hnames,
      slotContents_relax h slots]
    rfl
  | .struct s => h s
  | .undefined => rfl
  | .bool _ => rfl
  | .int _ => rfl
  | .float _ => rfl
  | .str _ => rfl
  | .symbol _ => rfl
termination_by structural v => v

theorem entryContents_relax {look look' : StructInstance → Content}
    (h : ∀ s : StructInstance, look' s.relax = look s) :
    ∀ entries, entryContents look' (relaxEntries entries) = entryContents look entries
  | [] => rfl
  | (name, v) :: entries =>
    congrArg₂ (fun c cs => (name, c) :: cs) (v.contentWith_relax h) (entryContents_relax h entries)
termination_by structural entries => entries

theorem slotContents_relax {look look' : StructInstance → Content}
    (h : ∀ s : StructInstance, look' s.relax = look s) :
    ∀ slots, slotContents look' (relaxSlots slots) = slotContents look slots
  | [] => rfl
  | v :: slots => congrArg₂ List.cons (v.contentWith_relax h) (slotContents_relax h slots)
termination_by structural slots => slots

end

namespace Store

theorem structContent_relax (store : Store) (hops : Nat) (s : StructInstance) :
    store.relax.structContent hops s.relax = store.structContent hops s := by
  induction hops generalizing s with
  | zero => simp [structContent]
  | succ hops ih =>
      rw [structContent, structContent, relax_cell?, StructInstance.relax_type,
        StructType.relax_name, StructType.relax_id]
      cases store.cell? s with
      | none => rfl
      | some cell =>
          rw [Option.map_some, Option.elim_some, Option.elim_some, Cell.relax,
            StructType.relax_schema, Schema.relax_names, ← relaxSlots_eq, slotContents_relax ih]

/-- Values show the same in relaxed stores, down to the fields of structs. -/
theorem content_relax (store : Store) (v : Value) :
    store.relax.content v.relax = store.content v := by
  have hsize : store.relax.cells.size = store.cells.size := by simp [relax]
  rw [content, content, hsize]
  exact Value.contentWith_relax (store.structContent_relax store.cells.size) v

end Store

/-! ### Equality -/

theorem Value.plainEquals_relax (v w : Value) : v.relax.plainEquals w.relax = v.plainEquals w := by
  cases v <;> cases w <;> simp [relax, plainEquals]

theorem slotsEqual_relax {us : List Value}
    (h : ∀ u ∈ us, ∀ v : Value, u.relax.strictEquals v.relax = u.strictEquals v) (vs : List Value) :
    slotsEqual (us.map Value.relax) (vs.map Value.relax) = slotsEqual us vs := by
  induction us generalizing vs with
  | nil => cases vs <;> rfl
  | cons u us ih =>
      cases vs with
      | nil => rfl
      | cons v vs =>
          rw [List.map_cons, List.map_cons, slotsEqual_cons, slotsEqual_cons,
            h u (List.mem_cons_self ..), ih fun u hu => h u (List.mem_cons_of_mem _ hu)]

theorem Value.strictEquals_relax (v w : Value) :
    v.relax.strictEquals w.relax = v.strictEquals w := by
  induction v using Value.inductionOn generalizing w with
  | inst i ih =>
      cases w with
      | inst j =>
          rw [relax_inst, relax_inst, strictEquals_inst, strictEquals_inst, Instance.equals,
            Instance.relax_type, Instance.relax_type, ValueType.equivalent_relax,
            Instance.relax_slots, Instance.relax_slots, slotsEqual_relax ih, Instance.equals]
      | _ => cases i; rfl
  | other v hv =>
      cases v with
      | inst i => exact absurd rfl (hv i)
      | _ => exact Value.plainEquals_relax _ w

theorem Instance.equals_relax (i j : Instance) : i.relax.equals j.relax = i.equals j := by
  rw [← Value.strictEquals_inst, ← Value.strictEquals_inst]
  exact Value.strictEquals_relax (.inst i) (.inst j)

end ValueTypes
