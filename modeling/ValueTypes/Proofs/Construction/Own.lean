import ValueTypes.Proofs.Construction.Required
import ValueTypes.Proofs.Store.Write

/-! The structs of a default construction's own. A field that is neither static nor has a default in
the schema is given a new value. So the struct that is constructed, and the structs that come into
such fields of it at every depth, are all new: they are at addresses that had no struct before. -/

namespace ValueTypes

/-- Whether a struct is another one, or is found in it through fields that are neither static nor have
a default in the schema. -/
inductive StructInstance.Owns (σ : Store) (s : StructInstance) : StructInstance → Prop where
  | self : Owns σ s s
  | field {u v : StructInstance} {cell : Cell} {k : Nat} {f : Field} (h : Owns σ s u)
      (hcell : σ.cell? u = some cell) (hf : u.type.schema.fields[k]? = some f)
      (hstatic : f.isStatic = false) (hdefault : f.default = none)
      (hslot : cell.slots[k]? = some (.struct v)) : Owns σ s v

/-- What is found in a struct is the struct, or is found in what one of its fields has. -/
theorem StructInstance.Owns.cases_head {σ : Store} {s v : StructInstance} (h : s.Owns σ v) :
    v = s ∨ ∃ (u : StructInstance) (cell : Cell) (k : Nat) (f : Field),
      σ.cell? s = some cell ∧ s.type.schema.fields[k]? = some f ∧ f.default = none ∧
        cell.slots[k]? = some (.struct u) ∧ u.Owns σ v := by
  induction h with
  | self => exact .inl rfl
  | @field u v cell k f _ hcell hf hstatic hdefault hslot ih =>
      right
      rcases ih with rfl | ⟨w, cell', k', f', hcell', hf', hdefault', hslot', hw⟩
      · exact ⟨v, cell, k, f, hcell, hf, hdefault, hslot, .self⟩
      · exact ⟨w, cell', k', f', hcell', hf', hdefault', hslot',
          hw.field hcell hf hstatic hdefault hslot⟩

/-! ### Slots without a source -/

theorem Field.defaulted_keeps {f : Field} {owner : String} {v : Value} {σ σ' : Store}
    (hrun : (f.defaulted owner).run σ = .ok (v, σ')) : σ.Keeps σ' := by
  cases hdefault : f.default with
  | some d =>
      rw [defaulted_of_some hdefault] at hrun
      cases hrun
      exact .refl σ
  | none =>
      rw [defaulted_of_none hdefault] at hrun
      exact ((Attempt.builds f.type).defaultValue owner f.name).keeps hrun

/-- Each slot has what its field is given without a source, at some point on the way. -/
theorem fillSlots_none_eq_ok {fields : List Field} {owner : String} {mode : CoercionMode}
    {vs : List Value} {σ τ : Store}
    (hrun : (fillSlots fields owner mode none).run σ = .ok (vs, τ)) :
    σ.Keeps τ ∧ List.Forall₂ (fun f v => ∃ σ' τ', σ.Keeps σ' ∧
      (f.defaulted owner).run σ' = .ok (v, τ') ∧ τ'.Keeps τ) fields vs := by
  induction fields generalizing σ vs with
  | nil =>
      cases hrun
      exact ⟨.refl _, .nil⟩
  | cons f fields ih =>
      rw [fillSlots_cons_fill, Field.fill_none] at hrun
      obtain ⟨v, σ₁, hv, hrun⟩ := Build.bind_eq_ok hrun
      obtain ⟨rest, σ₂, hrest, hrun⟩ := Build.bind_eq_ok hrun
      cases hrun
      obtain ⟨hkeeps, hslots⟩ := ih hrest
      have hfirst := Field.defaulted_keeps hv
      refine ⟨hfirst.trans hkeeps, .cons ⟨σ, σ₁, .refl σ, hv, hkeeps⟩ (hslots.imp ?_)⟩
      rintro g w ⟨σ', τ', hσ, hw, hτ⟩
      exact ⟨σ', τ', hfirst.trans hσ, hw, hτ⟩

/-! ### New structs -/

/-- Whether all of a struct's own has come about between two stores, as seen from any later store. -/
def StructInstance.NewBetween (s : StructInstance) (σ τ : Store) : Prop :=
  ∀ σ', τ.Keeps σ' → ∀ u, s.Owns σ' u → σ.cells.size ≤ u.address ∧ u.address < τ.cells.size

theorem StructInstance.NewBetween.mono {s : StructInstance} {σ σ' τ τ' : Store}
    (h : s.NewBetween σ' τ') (hσ : σ.Keeps σ') (hτ : τ'.Keeps τ) : s.NewBetween σ τ := by
  intro later hlater u hu
  obtain ⟨hfirst, hlast⟩ := h later (hτ.trans hlater) u hu
  exact ⟨hσ.size_le.trans hfirst, hlast.trans_le hτ.size_le⟩

/-- A struct is constructed without a source as new, once the defaults of field types are new. -/
theorem StructType.construct_new_of_fields {s : StructType}
    (h : ∀ f ∈ s.schema.fields, ∀ owner name σ u τ,
      (f.type.defaultValue owner name).run σ = .ok (.struct u, τ) → u.NewBetween σ τ)
    {σ τ : Store} {i : StructInstance} (hrun : (s.construct none).run σ = .ok (i, τ)) :
    i.NewBetween σ τ := by
  obtain ⟨vs, σ', hfill, hnew⟩ := Build.bind_eq_ok hrun
  cases hnew
  obtain ⟨hkeeps, hslots⟩ := fillSlots_none_eq_ok hfill
  intro later hlater u hu
  have hsize : (σ'.cells.push ⟨s, vs⟩).size = σ'.cells.size + 1 := Array.size_push _
  rcases hu.cases_head with rfl | ⟨v, cell, k, f, hcell, hf, hdefault, hslot, hu⟩
  · exact ⟨hkeeps.size_le, hsize ▸ Nat.lt_succ_self _⟩
  · -- The slots of the new struct are as they were filled, and the struct in one of them has come
    -- about while its field was given a value.
    have hthere : later.cell? ⟨σ'.cells.size, s⟩ = some ⟨s, vs⟩ :=
      hlater _ _ Array.getElem?_push_size
    rw [hthere] at hcell
    cases hcell
    obtain ⟨σ₁, τ₁, hσ, hv, hτ⟩ := forall₂_getElem? hslots hf hslot
    rw [Field.defaulted_of_none hdefault] at hv
    have hnew := (h f (List.mem_of_getElem? hf) _ _ _ _ _ hv).mono hσ
      (hτ.trans (σ'.keeps_push ⟨s, vs⟩))
    exact hnew later hlater u hu

/-- The default of a field type is new, if it is a struct. The induction is on the type. -/
theorem FieldType.defaultValue_new (type : FieldType) : ∀ owner name σ u τ,
    (type.defaultValue owner name).run σ = .ok (.struct u, τ) → u.NewBetween σ τ := by
  induction type using FieldType.inductionOn with
  | primitive t kind ht =>
      intro owner name σ u τ hrun
      rw [defaultValue_primitive ht] at hrun
      cases hdefault : kind.default? with
      | none =>
          rw [hdefault] at hrun
          cases hrun
      | some d =>
          rw [hdefault] at hrun
          cases hrun
          cases (PrimitiveKind.default?_accepts hdefault).plain
  | composite t schema ht _ =>
      intro owner name σ u τ hrun
      rw [defaultValue_composite ht] at hrun
      obtain ⟨_, _, _, hrun⟩ := Build.bind_eq_ok hrun
      cases hrun
  | struct s ih =>
      intro owner name σ u τ hrun
      rw [defaultValue_struct] at hrun
      obtain ⟨_, _, hconstruct, hrun⟩ := Build.bind_eq_ok hrun
      cases hrun
      exact StructType.construct_new_of_fields ih hconstruct

/-- All that a struct owns when it was constructed without a source is new. -/
theorem StructType.construct_new {s : StructType} {σ τ : Store} {i : StructInstance}
    (hrun : (s.construct none).run σ = .ok (i, τ)) : i.NewBetween σ τ :=
  construct_new_of_fields (fun f _ => f.type.defaultValue_new) hrun

end ValueTypes
