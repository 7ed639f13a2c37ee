import ValueTypes.Definition.Equivalence
import ValueTypes.Definition.Induction

/-! The shape of a definition: its symbol and kind, or its symbol and the names and shapes of its
fields. Shapes forget realms, numbers, static flags and defaults. Where a handle determines its
definition, equivalence is equality of shapes, so it is an equivalence relation. -/

namespace ValueTypes

/-- What equivalence looks at in a type. Struct types count by identity. -/
inductive Shape where
  | primitive (symbol : Nat) (kind : PrimitiveKind)
  | composite (symbol : Nat) (fields : List (String × Shape))
  | struct (id : StructId)

mutual

/-- The shape of a layout under a symbol. -/
def Layout.shape (symbol : Nat) : Layout → Shape
  | .primitive kind => .primitive symbol kind
  | .composite ⟨_, fields, _, _⟩ => .composite symbol (fieldShapes fields)
termination_by structural l => l

/-- The names of some fields with the shapes of their types. -/
def fieldShapes : List Field → List (String × Shape)
  | [] => []
  | ⟨name, type, _, _⟩ :: fields => (name, type.shape) :: fieldShapes fields
termination_by structural fields => fields

/-- The shape of a field type. -/
def FieldType.shape : FieldType → Shape
  | .value ⟨_, _, symbol, layout, _, _⟩ => layout.shape symbol.id
  | .struct ⟨id, _, _, _, _⟩ => .struct id
termination_by structural type => type

end

/-- The shape of a value type. -/
def ValueType.shape (t : ValueType) : Shape :=
  t.layout.shape t.symbol.id

/-- The shape of the definition that a draft asks for. -/
def Draft.shape (d : Draft) : Shape :=
  (Layout.composite d.schema).shape d.symbol.id

/-- The shape of a definition of either sort. -/
def Definition.shape (d : Definition) : Shape :=
  d.layout.shape d.symbol.id

@[simp]
theorem FieldType.shape_value (t : ValueType) : (FieldType.value t).shape = t.shape := by
  cases t; rfl

@[simp]
theorem FieldType.shape_struct (s : StructType) : (FieldType.struct s).shape = .struct s.id := by
  cases s; rfl

@[simp]
theorem Layout.shape_primitive (symbol : Nat) (kind : PrimitiveKind) :
    (Layout.primitive kind).shape symbol = .primitive symbol kind := rfl

@[simp]
theorem Layout.shape_composite (symbol : Nat) (schema : Schema) :
    (Layout.composite schema).shape symbol = .composite symbol (fieldShapes schema.fields) := by
  cases schema; rfl

theorem fieldShapes_eq_map (fields : List Field) :
    fieldShapes fields = fields.map fun f => (f.name, f.type.shape) := by
  induction fields with
  | nil => rfl
  | cons f fields ih =>
      obtain ⟨name, type, isStatic, default⟩ := f
      rw [fieldShapes, ih, List.map_cons]

/-! ### Types of one shape -/

/-- Only a value type has the shape of one. -/
theorem FieldType.value_of_shape {t : ValueType} {b : FieldType} (h : t.shape = b.shape) :
    ∃ u, b = .value u ∧ t.shape = u.shape := by
  cases b with
  | value u => exact ⟨u, rfl, h.trans (shape_value u)⟩
  | struct s =>
      rw [shape_struct, ValueType.shape] at h
      cases hlayout : t.layout <;> simp [hlayout] at h

theorem ValueType.primitive_of_shape {t u : ValueType} {kind : PrimitiveKind}
    (ht : t.layout = .primitive kind) (h : t.shape = u.shape) :
    u.layout = .primitive kind ∧ t.symbol.id = u.symbol.id := by
  rw [shape, shape, ht, Layout.shape_primitive] at h
  cases hlayout : u.layout with
  | primitive other =>
      rw [hlayout, Layout.shape_primitive] at h
      obtain ⟨hsymbol, rfl⟩ := Shape.primitive.inj h
      exact ⟨rfl, hsymbol⟩
  | composite schema => simp [hlayout] at h

/-- Only a composite layout has the shape of one, under the same symbol and with fields of the same
names and shapes. -/
theorem Layout.composite_of_shape {a b : Nat} {schema : Schema} {l : Layout}
    (h : (composite schema).shape a = l.shape b) :
    ∃ other, l = .composite other ∧ a = b ∧
      fieldShapes schema.fields = fieldShapes other.fields := by
  rw [shape_composite] at h
  cases l with
  | primitive kind => simp at h
  | composite other =>
      rw [shape_composite] at h
      obtain ⟨hsymbol, hfields⟩ := Shape.composite.inj h
      exact ⟨other, rfl, hsymbol, hfields⟩

theorem ValueType.composite_of_shape {t u : ValueType} {schema : Schema}
    (ht : t.layout = .composite schema) (h : t.shape = u.shape) :
    ∃ other, u.layout = .composite other ∧ t.symbol.id = u.symbol.id ∧
      fieldShapes schema.fields = fieldShapes other.fields := by
  rw [shape, shape, ht] at h
  exact Layout.composite_of_shape h

/-! ### Handles that determine their definitions -/

/-- A collection of definitions in which no two different ones have the same handle, and which
holds the value types of the fields of its members. -/
structure Faithful (known : ValueType → Prop) : Prop where
  eq_of_same : ∀ t u, known t → known u → t.same u = true → t = u
  field : ∀ t schema, known t → t.layout = .composite schema →
    ∀ f ∈ schema.fields, ∀ u, f.type = .value u → known u

/-- Whether a type, if it is a value type, is in a collection. -/
def FieldType.Within (known : ValueType → Prop) (type : FieldType) : Prop :=
  ∀ t, type = .value t → known t

theorem ValueType.same_refl (t : ValueType) : t.same t = true := by
  simp [ValueType.same]

theorem ValueType.equivalent_refl (t : ValueType) : t.equivalent t = true := by
  rw [equivalent_eq, same_refl, Bool.true_or]

theorem Symbol.beq_iff (a b : Symbol) : (a == b) = true ↔ a.id = b.id := by
  change (a.id == b.id) = true ↔ _
  exact beq_iff_eq

instance : EquivBEq Symbol where
  rfl := (Symbol.beq_iff _ _).mpr rfl
  symm h := (Symbol.beq_iff _ _).mpr ((Symbol.beq_iff _ _).mp h).symm
  trans h h' := (Symbol.beq_iff _ _).mpr
    (((Symbol.beq_iff _ _).mp h).trans ((Symbol.beq_iff _ _).mp h'))

/-- Field lists are equivalent exactly if their shapes agree, once that is so of the types of
the fields. -/
theorem fieldsEquivalent_iff_shape (fs gs : List Field)
    (h : ∀ f ∈ fs, ∀ g ∈ gs, f.type.equivalent g.type = true ↔ f.type.shape = g.type.shape) :
    fieldsEquivalent fs gs = true ↔ fieldShapes fs = fieldShapes gs := by
  induction fs generalizing gs with
  | nil =>
      cases gs with
      | nil => simp [fieldsEquivalent]
      | cons g gs => simp [fieldsEquivalent, fieldShapes_eq_map]
  | cons f fs ih =>
      cases gs with
      | nil => cases f; simp [fieldsEquivalent, fieldShapes_eq_map]
      | cons g gs =>
          have htype := h f (by simp) g (by simp)
          have htail := ih gs fun f' hf' g' hg' => h f' (by simp [hf']) g' (by simp [hg'])
          rw [fieldShapes_eq_map, fieldShapes_eq_map] at htail ⊢
          simp only [fieldsEquivalent_cons, Bool.and_eq_true, beq_iff_eq, List.map_cons,
            List.cons.injEq, Prod.mk.injEq, htype, htail]

/-- Layouts under symbols have one shape exactly if the symbols are the same and the layouts are
equivalent, once equivalence reads off the shapes of all types of their fields. -/
theorem Layout.shape_eq_iff {l m : Layout} (a b : Nat)
    (h : ∀ s t, l = .composite s → m = .composite t → ∀ f ∈ s.fields, ∀ g ∈ t.fields,
      f.type.equivalent g.type = true ↔ f.type.shape = g.type.shape) :
    l.shape a = m.shape b ↔ a = b ∧ l.equivalent m = true := by
  cases l with
  | primitive kind =>
      cases m with
      | primitive other => simp [Layout.equivalent]
      | composite t => simp [Layout.equivalent]
  | composite s =>
      cases m with
      | primitive other => cases s; simp [Layout.equivalent]
      | composite t =>
          rw [Layout.equivalent_composite, fieldsEquivalent_iff_shape _ _ (h s t rfl rfl)]
          simp

/-- Equivalence of value types reads off their shapes, once it does so for all types of their
fields. -/
theorem ValueType.equivalent_iff_of_fields {known : ValueType → Prop} (hk : Faithful known)
    {t u : ValueType} (ht : known t) (hu : known u)
    (h : ∀ a b, t.layout = .composite a → u.layout = .composite b →
      ∀ f ∈ a.fields, ∀ g ∈ b.fields,
        f.type.equivalent g.type = true ↔ f.type.shape = g.type.shape) :
    t.equivalent u = true ↔ t.shape = u.shape := by
  have hlayout : t.shape = u.shape ↔
      t.symbol.id = u.symbol.id ∧ t.layout.equivalent u.layout = true :=
    Layout.shape_eq_iff _ _ h
  rw [ValueType.equivalent_eq, Bool.or_eq_true, Bool.and_eq_true, Symbol.beq_iff, ← hlayout]
  constructor
  · rintro (hsame | hshape)
    · rw [hk.eq_of_same t u ht hu hsame]
    · exact hshape
  · exact Or.inr

/-- Among types of a faithful collection, equivalence is equality of shapes. -/
theorem FieldType.equivalent_iff_shape {known : ValueType → Prop} (hk : Faithful known)
    (a b : FieldType) (ha : a.Within known) (hb : b.Within known) :
    a.equivalent b = true ↔ a.shape = b.shape := by
  -- The induction is on the left type alone. The types on the right stay arbitrary, and are known
  -- because a faithful collection holds the fields of its members.
  induction a using FieldType.inductionOn generalizing b with
  | primitive t kind ht =>
      cases b with
      | value u =>
          rw [FieldType.equivalent, FieldType.shape_value, FieldType.shape_value]
          apply ValueType.equivalent_iff_of_fields hk (ha t rfl) (hb u rfl)
          intro schema _ hschema
          rw [ht] at hschema
          cases hschema
      | struct s =>
          rw [FieldType.equivalent, FieldType.shape_value, FieldType.shape_struct,
            ValueType.shape, ht, Layout.shape_primitive]
          simp
  | composite t schema ht ih =>
      cases b with
      | value u =>
          rw [FieldType.equivalent, FieldType.shape_value, FieldType.shape_value]
          apply ValueType.equivalent_iff_of_fields hk (ha t rfl) (hb u rfl)
          intro schema' other hschema hother f hf g hg
          rw [ht] at hschema
          cases hschema
          exact ih f hf g.type (hk.field t schema (ha t rfl) ht f hf)
            (hk.field u other (hb u rfl) hother g hg)
      | struct s =>
          rw [FieldType.equivalent, FieldType.shape_value, FieldType.shape_struct,
            ValueType.shape, ht, Layout.shape_composite]
          simp
  | struct s _ =>
      cases b with
      | value u =>
          rw [FieldType.equivalent, FieldType.shape_value, FieldType.shape_struct,
            ValueType.shape]
          cases hu : u.layout with
          | primitive kind => simp
          | composite schema => simp
      | struct other => simp [FieldType.equivalent, StructType.same]

theorem ValueType.equivalent_iff_shape {known : ValueType → Prop} (hk : Faithful known)
    {t u : ValueType} (ht : known t) (hu : known u) :
    t.equivalent u = true ↔ t.shape = u.shape := by
  have h := FieldType.equivalent_iff_shape hk (.value t) (.value u)
    (fun _ h => by cases h; exact ht) (fun _ h => by cases h; exact hu)
  simpa [FieldType.equivalent] using h

/-- Whether the value types that a definition is made of are in a collection. -/
def Definition.Within (known : ValueType → Prop) : Definition → Prop
  | canonical t => known t
  | draft d => ∀ f ∈ d.schema.fields, f.type.Within known

theorem Definition.field_within {known : ValueType → Prop} (hk : Faithful known)
    {d : Definition} (hd : d.Within known) {schema : Schema} (h : d.layout = .composite schema) :
    ∀ f ∈ schema.fields, f.type.Within known := by
  cases d with
  | canonical t => exact hk.field t schema hd h
  | draft d =>
      cases h
      exact hd

/-- Among definitions over a faithful collection, drafts or registered ones, equivalence is
equality of shapes. -/
theorem Definition.equivalent_iff_shape {known : ValueType → Prop} (hk : Faithful known)
    {a b : Definition} (ha : a.Within known) (hb : b.Within known) :
    a.equivalent b = true ↔ a.shape = b.shape := by
  have hlayout : a.shape = b.shape ↔
      a.symbol.id = b.symbol.id ∧ a.layout.equivalent b.layout = true :=
    Layout.shape_eq_iff _ _ fun s t hs ht f hf g hg =>
      FieldType.equivalent_iff_shape hk f.type g.type (field_within hk ha hs f hf)
        (field_within hk hb ht g hg)
  rw [Definition.equivalent, Bool.or_eq_true, Bool.and_eq_true, Symbol.beq_iff, ← hlayout]
  constructor
  · rintro (hsame | hshape)
    · cases a with
      | canonical t =>
          cases b with
          | canonical u => rw [hk.eq_of_same t u ha hb hsame]
          | draft d => simp [Definition.identical] at hsame
      | draft d => simp [Definition.identical] at hsame
    · exact hshape
  · exact Or.inr

end ValueTypes
