import ValueTypes.Proofs.Construction.Fieldwise
import ValueTypes.Proofs.Schema.Acceptance
import ValueTypes.Proofs.Store.Write

/-! Types with a single field. A value comes into the field by one conversion, whichever way it is
given: from a record, by a write, or as the default that is declared. What is done around the
conversion cannot fail. -/

namespace ValueTypes

variable {name : String} {x : Value} {schema : Schema} {σ : Store}

/-! ### From a record -/

/-- A field that is not static takes the conversion of what it is given. -/
theorem Field.resolve_given {f : Field} (hstatic : f.isStatic = false) (hx : x.isUndefined = false)
    (owner : String) (mode : CoercionMode) :
    f.resolve owner mode x = f.type.coerce mode f.name x := by
  rw [resolve, hstatic, hx]
  rfl

/-- A single field takes the conversion of what a record gives for it. -/
theorem fillSlots_single (type : FieldType) (owner : String) (mode : CoercionMode)
    (hx : x.isUndefined = false) :
    (fillSlots [⟨name, type, false, none⟩] owner mode (some (.record [(name, x)]))).run σ =
      ((type.coerce mode name x).run σ).map fun r => ([r.1], r.2) := by
  have hanswer : (Source.record [(name, x)]).answer σ name = x := by
    simp [Source.answer, Source.get?]
  rw [fillSlots_cons_fill, StateT.run_bind, Field.fill_run, hanswer, Field.resolve_given rfl hx]
  cases (type.coerce mode name x).run σ <;> rfl

theorem ValueType.construct_single {t : ValueType} {type : FieldType}
    (hlayout : t.layout = .composite schema) (hfields : schema.fields = [⟨name, type, false, none⟩])
    (hx : x.isUndefined = false) :
    (t.construct (some (.record [(name, x)]))).run σ =
      ((type.coerce t.coercion name x).run σ).map
        fun r => (⟨r.2.nextId, t, [r.1]⟩, { r.2 with nextId := r.2.nextId + 1 }) := by
  rw [construct, hlayout]
  dsimp only
  rw [hfields, Build.newInstance, StateT.run_bind, fillSlots_single type t.name t.coercion hx]
  cases (type.coerce t.coercion name x).run σ <;> rfl

theorem StructType.construct_single {s : StructType} {type : FieldType}
    (hfields : s.schema.fields = [⟨name, type, false, none⟩]) (hx : x.isUndefined = false) :
    (s.construct (some (.record [(name, x)]))).run σ =
      ((type.coerce s.coercion name x).run σ).map fun r =>
        (⟨r.2.cells.size, s⟩, { r.2 with cells := r.2.cells.push ⟨s, [r.1]⟩ }) := by
  rw [construct, hfields, Build.newStruct, StateT.run_bind,
    fillSlots_single type s.name s.coercion hx]
  cases (type.coerce s.coercion name x).run σ <;> rfl

/-! ### By a write -/

theorem StructInstance.set_single {s : StructInstance} {type : FieldType} {default : Option Value}
    (hfields : s.type.schema.fields = [⟨name, type, false, default⟩]) :
    (s.set name x).run σ =
      ((type.coerce s.type.coercion name x).run σ).map fun r => ((), r.2.written s 0 r.1) := by
  have hindex : s.type.schema.indexOf? name = some 0 := by
    simp [Schema.indexOf?, hfields]
  have hfield : s.type.schema.field? name = some ⟨name, type, false, default⟩ := by
    simp [Schema.field?, hfields]
  rw [set, hindex, hfield]
  dsimp only
  rw [if_neg Bool.false_ne_true, StateT.run_bind]
  cases (type.coerce s.type.coercion name x).run σ <;> rfl

/-! ### From the default -/

/-- Whether a value type makes instances with given slots, when it is given nothing. -/
def ValueType.Yields (t : ValueType) (slots : List Value) : Prop :=
  ∀ σ, (t.construct none).run σ =
    .ok (⟨σ.nextId, t, slots⟩, { σ with nextId := σ.nextId + 1 })

/-- Whether a struct type makes structs with given slots, when it is given nothing. -/
def StructType.Yields (s : StructType) (slots : List Value) : Prop :=
  ∀ σ, (s.construct none).run σ =
    .ok (⟨σ.cells.size, s⟩, { σ with cells := σ.cells.push ⟨s, slots⟩ })

theorem ValueType.yields_single {t : ValueType} {type : FieldType} {v : Value}
    (hlayout : t.layout = .composite schema)
    (hfields : schema.fields = [⟨name, type, false, some v⟩]) : t.Yields [v] := by
  intro σ
  rw [construct, hlayout]
  dsimp only
  rw [hfields]
  rfl

theorem StructType.yields_single {s : StructType} {type : FieldType} {v : Value}
    (hfields : s.schema.fields = [⟨name, type, false, some v⟩]) : s.Yields [v] := by
  intro σ
  rw [construct, hfields]
  rfl

/-! ### Schemas of a single field -/

/-- A field of a value type that is asked for by itself. -/
def FieldDraft.single (name : String) (t : ValueType) (default : Option Value) : FieldDraft where
  name := name
  type := .value t
  default := default

namespace SchemaPolicy

variable {policy : SchemaPolicy} {known : FieldType → Prop}

/-- The schema of a single field of a value type. -/
def singleSchema (policy : SchemaPolicy) (kind : SchemaKind) (name : String) (t : ValueType)
    (default : Option Value) : Schema where
  kind := kind
  fields := [⟨name, .value t, false, default⟩]
  fingerprint := policy.hashing.ofFields [⟨name, .value t, false, default⟩]
  depth := depthAbove [.value t]

/-- A schema of a single field is made within the limit, if its default converts. -/
theorem makeSchema_single (hknown : Keyed known) {t : ValueType} (ht : known (.value t))
    (hrealm : t.realm = policy.realm) (hdepth : (FieldType.value t).depth < policy.maxDepth)
    (kind : SchemaKind) (default : Option Value) :
    (policy.makeSchema kind [.single name t default]).run σ =
      ((policy.default (.single name t default)).run σ).map fun r =>
        (policy.singleSchema kind name t r.1, r.2) := by
  have hlimit : depthAbove [.value t] ≤ policy.maxDepth := by
    rw [depthAbove_cons, depthAbove_nil]
    omega
  have hcheck : policy.check kind [.single name t default] = .ok (depthAbove [.value t]) :=
    check_ok hknown (List.forall_mem_singleton.mpr fun _ => ht) (List.nodup_singleton _)
      (List.forall_mem_singleton.mpr ⟨hrealm, fun _ => rfl⟩) hlimit
  rw [makeSchema_of_check_ok hcheck, StateT.run_map, fields, field]
  simp only [bind_assoc, StateT.run_bind]
  cases (policy.default (.single name t default)).run σ <;> rfl

theorem default_single_none (t : ValueType) :
    (policy.default (.single name t none)).run σ = .ok (none, σ) := rfl

theorem default_single_some (t : ValueType) (v : Value) :
    (policy.default (.single name t (some v))).run σ =
      (((FieldType.value t).coerce policy.coercion name v).run σ).map fun r => (some r.1, r.2) := by
  change (some <$> (FieldType.value t).coerce policy.coercion name v).run σ = _
  rw [StateT.run_map]
  cases ((FieldType.value t).coerce policy.coercion name v).run σ <;> rfl

end SchemaPolicy

end ValueTypes
