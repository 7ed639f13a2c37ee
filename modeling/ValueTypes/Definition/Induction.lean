import ValueTypes.Definition

/-! Induction on types: what holds of a composite type or a struct type once it holds of the
types of its fields, and holds of the primitive types, holds of every type. Induction on values:
what holds of an instance once it holds of its slots, and holds of all other values, holds of every
value. -/

namespace ValueTypes

mutual

/-- Induction on a field type by way of the fields below it. -/
@[elab_as_elim]
theorem FieldType.inductionOn {P : FieldType → Prop}
    (primitive : ∀ (t : ValueType) (kind : PrimitiveKind), t.layout = .primitive kind →
      P (.value t))
    (composite : ∀ (t : ValueType) (schema : Schema), t.layout = .composite schema →
      (∀ f ∈ schema.fields, P f.type) → P (.value t))
    (struct : ∀ s : StructType, (∀ f ∈ s.schema.fields, P f.type) → P (.struct s)) :
    ∀ type, P type
  | .value ⟨_, _, _, .primitive kind, _, _⟩ => primitive _ kind rfl
  | .value ⟨_, _, _, .composite ⟨_, fields, _, _⟩, _, _⟩ =>
    composite _ _ rfl (fieldTypes_inductionOn primitive composite struct fields)
  | .struct ⟨_, _, _, ⟨_, fields, _, _⟩, _⟩ =>
    struct _ (fieldTypes_inductionOn primitive composite struct fields)
termination_by structural type => type

/-- The same for the types of a list of fields. -/
theorem fieldTypes_inductionOn {P : FieldType → Prop}
    (primitive : ∀ (t : ValueType) (kind : PrimitiveKind), t.layout = .primitive kind →
      P (.value t))
    (composite : ∀ (t : ValueType) (schema : Schema), t.layout = .composite schema →
      (∀ f ∈ schema.fields, P f.type) → P (.value t))
    (struct : ∀ s : StructType, (∀ f ∈ s.schema.fields, P f.type) → P (.struct s)) :
    ∀ (fields : List Field), ∀ f ∈ fields, P f.type
  | [] => fun _ h => nomatch h
  | ⟨_, type, _, _⟩ :: fields => fun _ h => by
    cases h with
    | head => exact FieldType.inductionOn primitive composite struct type
    | tail _ h => exact fieldTypes_inductionOn primitive composite struct fields _ h
termination_by structural fields => fields

end

mutual

/-- Induction on a value by way of the slots of instances. -/
@[elab_as_elim]
theorem Value.inductionOn {P : Value → Prop}
    (inst : ∀ i : Instance, (∀ v ∈ i.slots, P v) → P (.inst i))
    (other : ∀ v : Value, (∀ i, v ≠ .inst i) → P v) : ∀ v, P v
  | .inst ⟨_, _, slots⟩ => inst _ (slots_inductionOn inst other slots)
  | .undefined => other _ nofun
  | .bool _ => other _ nofun
  | .int _ => other _ nofun
  | .float _ => other _ nofun
  | .str _ => other _ nofun
  | .symbol _ => other _ nofun
  | .record _ _ => other _ nofun
  | .struct _ => other _ nofun
termination_by structural v => v

/-- The same for a list of slots. -/
theorem slots_inductionOn {P : Value → Prop}
    (inst : ∀ i : Instance, (∀ v ∈ i.slots, P v) → P (.inst i))
    (other : ∀ v : Value, (∀ i, v ≠ .inst i) → P v) : ∀ slots : List Value, ∀ v ∈ slots, P v
  | [] => List.forall_mem_nil _
  | v :: slots =>
    List.forall_mem_cons.mpr
      ⟨Value.inductionOn inst other v, slots_inductionOn inst other slots⟩
termination_by structural slots => slots

end

end ValueTypes
