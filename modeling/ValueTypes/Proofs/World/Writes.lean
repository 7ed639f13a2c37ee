import ValueTypes.Proofs.Store.Write
import ValueTypes.Proofs.World.Failure

/-! Writes in every run. A write of a struct changes exactly the slot that it names, to the value that
was converted before, and a write that fails changes nothing. -/

namespace ValueTypes

variable {μ : Type}

/-- What a write has done to a store `σ` that became `σ'`, when the conversion gave `v` and left `τ`
behind: the slot of the field has that value, and nothing else has changed. -/
structure StructInstance.Wrote (s : StructInstance) (f : Field) (v : Value) (σ τ σ' : Store) :
    Prop where
  keeps : σ.Keeps τ
  get : σ'.get? s f.name = some v
  others : ∀ other, other ≠ f.name → σ'.get? s other = σ.get? s other
  slots : ∃ (k : Nat) (cell : Cell), s.type.schema.fields[k]? = some f ∧
    σ.cell? s = some cell ∧ σ'.cell? s = some { cell with slots := cell.slots.set k v }
  frame : ∀ u : StructInstance, u.address ≠ s.address → σ'.cell? u = τ.cell? u
  old : ∀ (u : StructInstance) (cell : Cell), u.address ≠ s.address →
    σ.cell? u = some cell → σ'.cell? u = some cell

namespace Realms.Sound

variable {rs : Realms μ}

/-- A write to a struct that is there hits the slot of the field. -/
theorem wrote (hrs : rs.Sound) {s : StructInstance} (hs : rs.scope.Sound (.value (.struct s)))
    {f : Field} {k : Nat} (hk : s.type.schema.fields[k]? = some f) {τ : Store}
    (hkeeps : rs.store.Keeps τ) (v : Value) : s.Wrote f v rs.store τ (τ.written s k v) := by
  obtain ⟨cell, hcell, htype⟩ := exists_cell hs
  have hfills := (hrs.cells cell (Array.mem_of_getElem? hcell)).fills
  have hwritten := Store.cell?_written (k := k) (v := v) (hkeeps.cell? hcell)
  have hget : ∀ other, (τ.written s k v).get? s other =
      ({ cell with slots := cell.slots.set k v } : Cell).get? other := by
    intro other
    rw [Store.get?, hwritten, Option.bind_some]
  have hnames := hs.struct_type.struct_schema.names
  rw [← htype] at hk hnames
  have hlength : k < cell.slots.length := by
    rw [← hfills.admits.length_eq]
    exact (List.getElem?_eq_some_iff.mp hk).1
  refine ⟨hkeeps, ?_, fun other hother => ?_, ⟨k, cell, htype ▸ hk, hcell, hwritten⟩,
    fun u hu => Store.cell?_written_of_ne hu, fun u old hu hold => ?_⟩
  · rw [hget, Cell.get?_set hnames hk hlength]
  · rw [hget, Cell.get?_set_of_ne hk hother, Store.get?, hcell, Option.bind_some]
  · rw [Store.cell?_written_of_ne hu, hkeeps.cell? hold]

end Realms.Sound

/-- Only structs can be written. -/
theorem setProperty_of_not_struct {target : Value} (h : ∀ s, target ≠ .struct s) (name : String)
    (x : Value) (σ : Store) : ∃ e, (setProperty target name x).run σ = .error e ∧
      ((∃ i, target = .inst i ∧ e = .immutableWrite i.type.name name) ∨
        (∀ i, target ≠ .inst i) ∧ e = .unknownField target.typeName name) := by
  cases target with
  | inst i => exact ⟨_, rfl, .inl ⟨i, rfl, rfl⟩⟩
  | struct s => exact absurd rfl (h s)
  | _ => exact ⟨_, rfl, .inr ⟨by rintro i ⟨⟩, rfl⟩⟩

namespace World

/-- Writes are exact and atomic. A write to a struct succeeds exactly if its type has a field of the
name that is not static, and the value converts to the type of the field in the mode of the struct
type. Then the field has the value that was converted in the store before, and every other slot of
this struct and all slots of other structs are as they were. It fails, in this order, if there is no
such field, if the field is static, or with the error of the conversion; then, even when it is made
as an attempt whose changes last, no struct is changed. Properties of structs are written in the same
way, and those of other values cannot be written. -/
theorem writes_exact_atomic {w : World μ} (hw : w.Reachable) {s : StructInstance}
    (hs : w.Present (.value (.struct s))) (name : String) (x : Value) :
    ((∃ r, (s.set name x).run w.realms.store = .ok r) ↔
      ∃ f ∈ s.type.schema.fields, f.name = name ∧ f.isStatic = false ∧
        ∃ r, (f.type.coerce s.type.coercion name x).run w.realms.store = .ok r) ∧
    (∀ σ, (s.set name x).run w.realms.store = .ok ((), σ) →
      ∃ f ∈ s.type.schema.fields, f.name = name ∧ f.isStatic = false ∧
        ∃ v τ, (f.type.coerce s.type.coercion name x).run w.realms.store = .ok (v, τ) ∧
          s.Wrote f v w.realms.store τ σ) ∧
    (∀ e, (s.set name x).run w.realms.store = .error e ↔
      (name ∉ s.type.schema.names ∧ e = .unknownField s.type.name name) ∨
      ∃ f ∈ s.type.schema.fields, f.name = name ∧
        ((f.isStatic = true ∧ e = .immutableWrite s.type.name name) ∨
          (f.isStatic = false ∧
            (f.type.coerce s.type.coercion name x).run w.realms.store = .error e))) ∧
    setProperty (.struct s) name x = s.set name x ∧
    (∀ target : Value, (∀ s, target ≠ .struct s) →
      ∃ e, (setProperty target name x).run w.realms.store = .error e ∧
        ((∃ i, target = .inst i ∧ e = .immutableWrite i.type.name name) ∨
          (∀ i, target ≠ .inst i) ∧ e = .unknownField target.typeName name)) ∧
    ∀ target e, (setProperty target name x).run w.realms.store = .error e →
      (w.perform (.setProperty target name x)).realms = w.realms ∧
      ∃ store, (Attempt.setProperty target name x).outcome w.realms.store = (.error e, store) ∧
        w.realms.store.Keeps store := by
  have hsound := hw.sound.present hs
  have hnames := hsound.struct_type.struct_schema.names
  refine ⟨StructInstance.exists_set_iff hnames, fun σ hrun => ?_,
    StructInstance.set_eq_error_iff hnames, rfl,
    fun target htarget => setProperty_of_not_struct htarget name x _, fun target e hrun => ?_⟩
  · have hwrites := s.set_writes name x w.realms.store
    rw [hrun] at hwrites
    cases hwrites with
    | @done f k v τ hf hstatic hk hcoerce =>
        exact ⟨f, List.mem_of_find?_eq_some hf, Schema.name_of_field? hf, hstatic, v, τ, hcoerce,
          hw.sound.realms.wrote hsound hk (FieldType.coerce_keeps hcoerce) v⟩
  · have hfollows := Attempt.setProperty_follows target name x w.realms.store
    rw [hrun] at hfollows
    refine ⟨?_, ?_⟩
    · rw [perform, Operation.run, Operation.hand, Realms.build, hrun]
    · generalize (Attempt.setProperty target name x).outcome w.realms.store = out at hfollows
      cases hfollows with
      | failed hkeeps => exact ⟨_, rfl, hkeeps⟩

namespace Sample

set_option maxRecDepth 4000 in
/-- The crate is written into itself, by way of a new box that is made of it. Its other field and the
old box stay as they were. A number that is no byte is refused, and so is a name that is no field. -/
theorem writes_exact_atomic_nested : crates.Reachable ∧
    crates.Present (.value (.struct ⟨1, crate⟩)) ∧
    (∃ σ, (StructInstance.set ⟨1, crate⟩ "b" (.struct ⟨1, crate⟩)).run crates.realms.store =
        .ok ((), σ) ∧
      σ.get? ⟨1, crate⟩ "b" = some (.struct ⟨2, box⟩) ∧ σ.get? ⟨1, crate⟩ "r" = some (.int 7) ∧
      σ.cell? ⟨0, box⟩ = some ⟨box, [.int 5]⟩) ∧
    (StructInstance.set ⟨1, crate⟩ "r" (.int 300)).run crates.realms.store =
      .error (.typeMismatch "r" "uint8" "int") ∧
    (StructInstance.set ⟨1, crate⟩ "q" (.int 300)).run crates.realms.store =
      .error (.unknownField "S" "q") := by
  have hcrate : crates.Present (.value (.struct ⟨1, crate⟩)) := .given (gave_at 0 0 rfl rfl)
  obtain ⟨_, hwrote, _⟩ :=
    writes_exact_atomic crates_reachable hcrate "b" (.struct ⟨1, crate⟩)
  obtain ⟨_, _, herror, _⟩ := writes_exact_atomic crates_reachable hcrate "r" (.int 300)
  obtain ⟨_, _, hunknown, _⟩ := writes_exact_atomic crates_reachable hcrate "q" (.int 300)
  obtain ⟨f, hf, hname, _, v, τ, _, hwrite⟩ := hwrote _ rfl
  refine ⟨crates_reachable, hcrate, ⟨_, rfl, rfl, ?_, hwrite.old _ _ (by decide) rfl⟩,
    (herror _).mpr (.inr ⟨_, List.mem_of_getElem? (i := 1) rfl, rfl, .inr ⟨rfl, rfl⟩⟩),
    (hunknown _).mpr (.inl ⟨by decide, rfl⟩)⟩
  rw [hwrite.others "r" (by rw [hname]; decide)]
  rfl

end Sample

end World

end ValueTypes
