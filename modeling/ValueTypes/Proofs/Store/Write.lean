import Mathlib.Data.List.Nodup
import ValueTypes.Proofs.Attempt.Construction
import ValueTypes.Proofs.Store.Parallel
import ValueTypes.Proofs.Value.Path

/-! What a write comes to. The field is looked up and the value is converted before anything is
touched, so a write either fails, or it overwrites one slot of one struct in the store that the
conversion has left behind. -/

namespace ValueTypes

namespace Store

variable {σ : Store} {s u : StructInstance} {k : Nat} {v : Value}

/-- A store after one slot of a struct was overwritten. -/
def written (σ : Store) (s : StructInstance) (k : Nat) (v : Value) : Store :=
  { σ with
    cells := σ.cells.modify s.address fun cell => { cell with slots := cell.slots.set k v } }

theorem getElem?_written_of_ne {address : Nat} (h : address ≠ s.address) :
    (σ.written s k v).cells[address]? = σ.cells[address]? := by
  rw [written, Array.getElem?_modify, if_neg h.symm]

theorem cell?_written_of_ne (h : u.address ≠ s.address) :
    (σ.written s k v).cell? u = σ.cell? u :=
  getElem?_written_of_ne h

theorem cell?_written {cell : Cell} (h : σ.cell? s = some cell) :
    (σ.written s k v).cell? s = some { cell with slots := cell.slots.set k v } := by
  have hcell : σ.cells[s.address]? = some cell := h
  change (σ.written s k v).cells[s.address]? = _
  rw [written, Array.getElem?_modify, if_pos rfl, hcell, Option.map_some]

end Store

/-! ### Slots by name -/

/-- Overwriting a slot does not show under the names of other slots. -/
theorem lookup_zip_set_of_ne {names : List String} {vs : List Value} {k : Nat} {name other : String}
    (hname : names[k]? = some name) (hne : other ≠ name) (v : Value) :
    (names.zip (vs.set k v)).lookup other = (names.zip vs).lookup other := by
  induction names generalizing vs k with
  | nil => rfl
  | cons head names ih =>
      cases vs with
      | nil => rfl
      | cons u vs =>
          cases k with
          | zero =>
              cases hname
              rw [List.set_cons_zero, List.zip_cons_cons, List.zip_cons_cons, List.lookup_cons,
                List.lookup_cons, beq_false_of_ne hne]
          | succ k =>
              rw [List.set_cons_succ, List.zip_cons_cons, List.zip_cons_cons, List.lookup_cons,
                List.lookup_cons, ih hname]

namespace Cell

variable {cell : Cell} {k : Nat} {f : Field}

theorem get?_set (hnodup : cell.type.schema.names.Nodup) (hf : cell.type.schema.fields[k]? = some f)
    (hlength : k < cell.slots.length) (v : Value) :
    { cell with slots := cell.slots.set k v }.get? f.name = some v := by
  rw [get?, fields, lookup_zip hnodup (Schema.getElem?_names hf), List.getElem?_set_self hlength]

theorem get?_set_of_ne (hf : cell.type.schema.fields[k]? = some f) {other : String}
    (hne : other ≠ f.name) (v : Value) :
    { cell with slots := cell.slots.set k v }.get? other = cell.get? other :=
  lookup_zip_set_of_ne (Schema.getElem?_names hf) hne v

end Cell

/-! ### Fields by name -/

namespace Schema

variable {schema : Schema} {name : String} {f : Field}

theorem name_of_field? (hf : schema.field? name = some f) : f.name = name := by
  simpa using List.find?_some (p := fun f : Field => f.name == name) hf

theorem field?_eq_none_iff : schema.field? name = none ↔ name ∉ schema.names := by
  simp [field?, names]

/-- What is true of some field of a name is true of the one that is found. -/
theorem exists_named_iff {P : Field → Prop} (hnodup : schema.names.Nodup)
    (hf : schema.field? name = some f) :
    (∃ g ∈ schema.fields, g.name = name ∧ P g) ↔ P f := by
  have hmem := List.mem_of_find?_eq_some hf
  constructor
  · rintro ⟨g, hg, hname, hP⟩
    have heq := List.inj_on_of_nodup_map hnodup hg hmem (hname.trans (name_of_field? hf).symm)
    rwa [heq] at hP
  · exact fun hP => ⟨f, hmem, name_of_field? hf, hP⟩

theorem exists_named_iff_of_none {P : Field → Prop} (h : schema.field? name = none) :
    (∃ g ∈ schema.fields, g.name = name ∧ P g) ↔ False := by
  refine iff_false_intro ?_
  rintro ⟨g, hg, rfl, _⟩
  exact field?_eq_none_iff.mp h (List.mem_map_of_mem hg)

theorem exists_indexOf? (hf : schema.field? name = some f) :
    ∃ k, schema.indexOf? name = some k := by
  have hmem : (schema.fields.findIdx? (·.name == name)).isSome := by
    rw [List.findIdx?_isSome, List.any_eq_true]
    exact ⟨f, List.mem_of_find?_eq_some hf, beq_iff_eq.mpr (name_of_field? hf)⟩
  exact Option.isSome_iff_exists.mp hmem

end Schema

/-! ### Writes -/

theorem Attempt.Adds.keeps {α : Type} {a : Attempt α} {b : Build α} (h : a.Adds b) {σ σ' : Store}
    {x : α} (hrun : b.run σ = .ok (x, σ')) : σ.Keeps σ' := by
  have hends := h σ
  rw [hrun] at hends
  generalize a.outcome σ = out at hends
  cases hends with
  | done hkeeps => exact hkeeps

/-- Conversions change no struct that is there. -/
theorem FieldType.coerce_keeps {type : FieldType} {mode : CoercionMode} {name : String}
    {v w : Value} {σ σ' : Store} (hrun : (type.coerce mode name v).run σ = .ok (w, σ')) :
    σ.Keeps σ' :=
  ((Attempt.builds type).coerce mode name v).keeps hrun

namespace StructInstance

/-- What a write of a value to a field of a struct comes to, from a store: no such field, a static
field, a value that does not convert, or the converted value in the slot of the field. -/
inductive Writes (s : StructInstance) (name : String) (v : Value) (σ : Store) :
    Except Error (Unit × Store) → Prop where
  | unknown (h : s.type.schema.field? name = none) :
      Writes s name v σ (.error (.unknownField s.type.name name))
  | fixed {f} (hf : s.type.schema.field? name = some f) (hstatic : f.isStatic = true) :
      Writes s name v σ (.error (.immutableWrite s.type.name name))
  | refused {f e} (hf : s.type.schema.field? name = some f) (hstatic : f.isStatic = false)
      (h : (f.type.coerce s.type.coercion name v).run σ = .error e) : Writes s name v σ (.error e)
  | done {f k w τ} (hf : s.type.schema.field? name = some f) (hstatic : f.isStatic = false)
      (hk : s.type.schema.fields[k]? = some f)
      (h : (f.type.coerce s.type.coercion name v).run σ = .ok (w, τ)) :
      Writes s name v σ (.ok ((), τ.written s k w))

theorem set_writes (s : StructInstance) (name : String) (v : Value) (σ : Store) :
    Writes s name v σ ((s.set name v).run σ) := by
  rw [set]
  cases hf : s.type.schema.field? name with
  | none =>
      cases s.type.schema.indexOf? name with
      | none => exact .unknown hf
      | some k => exact .unknown hf
  | some f =>
      obtain ⟨k, hindex⟩ := Schema.exists_indexOf? hf
      have hk := Schema.getElem?_of_indexOf? hindex hf
      rw [hindex]
      dsimp only
      cases hstatic : f.isStatic with
      | true => exact .fixed hf hstatic
      | false =>
          rw [if_neg Bool.false_ne_true, StateT.run_bind]
          cases hrun : (f.type.coerce s.type.coercion name v).run σ with
          | error e => exact .refused hf hstatic hrun
          | ok result =>
              obtain ⟨w, τ⟩ := result
              exact .done hf hstatic hk hrun

section

variable {s : StructInstance} {name : String} {v : Value} {σ : Store}

/-- A write succeeds exactly if the field is there and not static, and the value converts. -/
theorem exists_set_iff (hnodup : s.type.schema.names.Nodup) :
    (∃ r, (s.set name v).run σ = .ok r) ↔
      ∃ f ∈ s.type.schema.fields, f.name = name ∧ f.isStatic = false ∧
        ∃ r, (f.type.coerce s.type.coercion name v).run σ = .ok r := by
  have hwrites := s.set_writes name v σ
  generalize (s.set name v).run σ = result at hwrites ⊢
  cases hwrites with
  | unknown h =>
      rw [Schema.exists_named_iff_of_none h]
      simp
  | fixed hf hstatic =>
      rw [Schema.exists_named_iff hnodup hf, hstatic]
      simp
  | refused hf hstatic h =>
      rw [Schema.exists_named_iff hnodup hf, h]
      simp
  | done hf hstatic hk h =>
      rw [Schema.exists_named_iff hnodup hf, h]
      simp [hstatic]

/-- A write fails, in this order, for want of the field, since it is static, or with the error of
the conversion. -/
theorem set_eq_error_iff (hnodup : s.type.schema.names.Nodup) (e : Error) :
    (s.set name v).run σ = .error e ↔
      (name ∉ s.type.schema.names ∧ e = .unknownField s.type.name name) ∨
      ∃ f ∈ s.type.schema.fields, f.name = name ∧
        ((f.isStatic = true ∧ e = .immutableWrite s.type.name name) ∨
          (f.isStatic = false ∧
            (f.type.coerce s.type.coercion name v).run σ = .error e)) := by
  have hwrites := s.set_writes name v σ
  generalize (s.set name v).run σ = result at hwrites ⊢
  cases hwrites with
  | unknown h =>
      rw [Schema.exists_named_iff_of_none h, ← Schema.field?_eq_none_iff]
      simp [h, eq_comm]
  | fixed hf hstatic =>
      rw [Schema.exists_named_iff hnodup hf, ← Schema.field?_eq_none_iff]
      simp [hf, hstatic, eq_comm]
  | refused hf hstatic h =>
      rw [Schema.exists_named_iff hnodup hf, ← Schema.field?_eq_none_iff]
      simp [hf, hstatic, h]
  | done hf hstatic hk h =>
      rw [Schema.exists_named_iff hnodup hf, ← Schema.field?_eq_none_iff]
      simp [hf, hstatic, h]

end

end StructInstance

end ValueTypes
