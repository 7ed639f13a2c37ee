import ValueTypes.Proofs.Construction.Correspondence

/-! Twins: in two constructions, what was there before is shared by both, and what is new in one is
new in the other and of the same type. That goes for all that is read along paths, since nothing that
was there refers to anything new. The two may start from different stores, if the structs that were
there are the same in both. -/

namespace ValueTypes

/-- A store with values and types that are there, along with all that can be read off them. -/
structure Inventory (base : Store) (there : Value → Prop) (types : FieldType → Prop) : Prop where
  plain : ∀ v : Value, v.Plain → there v
  entries : ∀ id entries, there (.record id entries) → ∀ e ∈ entries, there e.2
  slots : ∀ i, there (.inst i) → ∀ v ∈ i.slots, there v
  cell : ∀ s, there (.struct s) → ∃ cell, base.cell? s = some cell ∧ ∀ v ∈ cell.slots, there v
  fields : ∀ type, types type → ∀ f ∈ type.fields, types f.type
  default : ∀ type, types type → ∀ f ∈ type.fields, ∀ d, f.default = some d → there d

/-- Whether two values are one that was there, or new objects of one type. -/
inductive Value.Twin (there : Value → Prop) (base : Store) : Value → Value → Prop where
  | same {v} (h : there v) : Twin there base v v
  | inst {i j} (type : i.type = j.type) (left : base.nextId ≤ i.id) (right : base.nextId ≤ j.id) :
      Twin there base (.inst i) (.inst j)
  | struct {s t} (type : s.type = t.type) (left : base.cells.size ≤ s.address)
      (right : base.cells.size ≤ t.address) : Twin there base (.struct s) (.struct t)

/-- Whether the structs that were there are in a store as they were, and its new objects are new. -/
structure Store.Retains (base : Store) (there : Value → Prop) (σ : Store) : Prop where
  cell? : ∀ s cell, there (.struct s) → base.cell? s = some cell → σ.cell? s = some cell
  size : base.cells.size ≤ σ.cells.size
  nextId : base.nextId ≤ σ.nextId

theorem Store.Grows.retains {base σ : Store} (h : base.Grows σ) (there : Value → Prop) :
    base.Retains there σ :=
  ⟨fun _ _ _ => h.keeps.cell?, h.keeps.size_le, h.nextId⟩

theorem Store.Retains.refl (base : Store) (there : Value → Prop) : base.Retains there base :=
  (Grows.refl base).retains there

theorem Store.Retains.grow {base σ σ' : Store} {there : Value → Prop} (h : base.Retains there σ)
    (hσ : σ.Grows σ') : base.Retains there σ' :=
  ⟨fun s cell hs hcell => hσ.keeps.cell? (h.cell? s cell hs hcell), h.size.trans hσ.keeps.size_le,
    h.nextId.trans hσ.nextId⟩

theorem Store.Live.of_plain {v : Value} (hv : v.Plain) (σ : Store) : σ.Live v := by
  rintro s rfl
  cases hv

theorem Store.Live.grow {σ σ' : Store} (hσ : σ.Grows σ') {v : Value} (h : σ.Live v) :
    σ'.Live v := by
  intro s hs
  obtain ⟨cell, hcell⟩ := h s hs
  exact ⟨cell, hσ.keeps.cell? hcell⟩

theorem Store.live_inst (σ : Store) (i : Instance) : σ.Live (.inst i) := by
  rintro s ⟨⟩

theorem Store.live_push (σ : Store) (cell : Cell) (s : StructType) :
    { σ with cells := σ.cells.push cell }.Live (.struct ⟨σ.cells.size, s⟩) := by
  rintro _ ⟨⟩
  exact ⟨cell, Array.getElem?_push_size⟩

namespace Inventory

variable {base σ τ : Store} {there : Value → Prop} {types : FieldType → Prop}

theorem live (h : Inventory base there types) (hσ : base.Retains there σ) {v : Value}
    (hv : there v) : σ.Live v := by
  rintro s rfl
  obtain ⟨cell, hcell, _⟩ := h.cell s hv
  exact ⟨cell, hσ.cell? s cell hv hcell⟩

/-- What is there has the fields that it had. -/
theorem field?_eq (h : Inventory base there types) (hσ : base.Retains there σ) {v : Value}
    (hv : there v) (name : String) : σ.field? v name = base.field? v name := by
  cases v with
  | struct s =>
      obtain ⟨cell, hcell, _⟩ := h.cell s hv
      change (σ.cell? s).bind (·.get? name) = (base.cell? s).bind (·.get? name)
      rw [hσ.cell? s cell hv hcell, hcell]
  | _ => rfl

/-- What is read off a value that is there is there as well. -/
theorem field? (h : Inventory base there types) {v : Value} (hv : there v) {name : String}
    {u : Value} (hu : base.field? v name = some u) : there u := by
  obtain ⟨source, hsource, hget⟩ := Option.bind_eq_some_iff.mp hu
  cases v with
  | record id entries =>
      cases hsource
      exact h.entries id entries hv _ (mem_of_lookup hget)
  | inst i =>
      cases hsource
      exact h.slots i hv _ (List.of_mem_zip (mem_of_lookup hget)).2
  | struct s =>
      cases hsource
      obtain ⟨cell, hcell, hslots⟩ := h.cell s hv
      obtain ⟨cell', hcell', hget⟩ := Option.bind_eq_some_iff.mp hget
      rw [hcell] at hcell'
      cases hcell'
      exact hslots _ (List.of_mem_zip (mem_of_lookup hget)).2
  | _ => cases hsource

/-- A value that is there is its own twin in all that is read from it, in any later stores. -/
theorem related (h : Inventory base there types) (hσ : base.Retains there σ)
    (hτ : base.Retains there τ) {v : Value} (hv : there v) :
    Store.Related (fun u v => u.Twin there base v ∧ σ.Live u ∧ τ.Live v) σ τ v v := by
  intro path
  induction path generalizing v with
  | nil => exact .some ⟨.same hv, h.live hσ hv, h.live hτ hv⟩
  | cons name path ih =>
      rw [Store.read?_cons, Store.read?_cons, h.field?_eq hσ hv, h.field?_eq hτ hv]
      cases hu : base.field? v name with
      | none => exact .none
      | some u => exact ih (h.field? hv hu)

/-- The correspondence of twins. -/
def twins (h : Inventory base there types) : Correspondence where
  types := types
  stores σ τ := base.Retains there σ ∧ base.Retains there τ
  pair σ τ u v := u.Twin there base v ∧ σ.Live u ∧ τ.Live v
  fields := h.fields _
  grow hστ hσ hτ := ⟨hστ.1.grow hσ, hστ.2.grow hτ⟩
  pair_grow huv hσ hτ := ⟨huv.1, huv.2.1.grow hσ, huv.2.2.grow hτ⟩
  live huv := huv.2
  typeName := by
    rintro σ τ u v ⟨htwin, _⟩
    cases htwin <;> rfl
  isInstanceOf := by
    rintro σ τ u v t _ ⟨htwin, _⟩
    cases htwin with
    | same => rfl
    | @inst i j type =>
        change i.type.equivalent t = j.type.equivalent t
        rw [type]
    | struct => rfl
  isStructOf := by
    rintro σ τ u v s _ ⟨htwin, _⟩
    cases htwin with
    | same => rfl
    | inst => rfl
    | @struct a b type =>
        change a.type.same s = b.type.same s
        rw [type]
  convert? := by
    rintro σ τ u v ⟨htwin, _⟩ kind mode
    have hconvert : kind.convert? mode u = kind.convert? mode v := by
      cases htwin with
      | same => rfl
      | inst => exact kind.convert?_inst mode _ _
      | struct => exact kind.convert?_struct mode _ _
    rw [hconvert]
    cases hw : kind.convert? mode v with
    | none => exact .none
    | some w =>
        have hplain := (PrimitiveKind.convert?_accepts hw).plain
        exact .some ⟨.same (h.plain w hplain), .of_plain hplain σ, .of_plain hplain τ⟩
  accepted σ τ _ d hd :=
    ⟨.same (h.plain d hd.plain), .of_plain hd.plain σ, .of_plain hd.plain τ⟩
  default hστ htype f hf d hd := h.related hστ.1 hστ.2 (h.default _ htype f hf d hd)
  inst us vs hστ _ :=
    ⟨.inst rfl hστ.1.nextId hστ.2.nextId, Store.live_inst _ _, Store.live_inst _ _⟩
  struct us vs hστ _ :=
    ⟨.struct rfl hστ.1.size hστ.2.size, Store.live_push _ _ _,
      Store.live_push _ _ _⟩

end Inventory

end ValueTypes
