import ValueTypes.Proofs.Definition.Depth

/-! The plain rule for definitions, in which handles count for nothing: definitions are alike if
they have one symbol, and are of one primitive kind or have as many fields, which agree place by
place on names and have types that are alike. Definitions are alike exactly if they have one shape,
so the plain rule is an equivalence relation, whatever the definitions are. -/

namespace ValueTypes

mutual

/-- Whether two types are alike. Struct types count by identity. -/
inductive FieldType.Alike : FieldType → FieldType → Prop where
  | value {t u} (symbol : t.symbol.id = u.symbol.id) (layout : Layout.Alike t.layout u.layout) :
      FieldType.Alike (.value t) (.value u)
  | struct {s other} (id : s.id = other.id) : FieldType.Alike (.struct s) (.struct other)

/-- Whether two layouts are of one primitive kind, or have as many fields that agree in pairs. -/
inductive Layout.Alike : Layout → Layout → Prop where
  | primitive (kind) : Layout.Alike (.primitive kind) (.primitive kind)
  | composite {a b} (length : a.fields.length = b.fields.length)
      (names : ∀ (k : Nat) f g, a.fields[k]? = some f → b.fields[k]? = some g → f.name = g.name)
      (types : ∀ (k : Nat) f g, a.fields[k]? = some f → b.fields[k]? = some g →
        FieldType.Alike f.type g.type) :
      Layout.Alike (.composite a) (.composite b)

end

/-- Whether two definitions, drafts or registered ones, have one symbol and layouts that are
alike. -/
structure Definition.Alike (a b : Definition) : Prop where
  symbol : a.symbol.id = b.symbol.id
  layout : a.layout.Alike b.layout

/-! ### Likeness and shape -/

/-- Fields have the same shapes exactly if there are as many, and they agree place by place. -/
theorem fieldShapes_eq_iff {fs gs : List Field} :
    fieldShapes fs = fieldShapes gs ↔ fs.length = gs.length ∧
      ∀ (k : Nat) f g, fs[k]? = some f → gs[k]? = some g →
        f.name = g.name ∧ f.type.shape = g.type.shape := by
  rw [fieldShapes_eq_map, fieldShapes_eq_map]
  constructor
  · intro h
    refine ⟨by simpa using congrArg List.length h, fun k f g hf hg => ?_⟩
    have hk := congrArg (·[k]?) h
    simp only [List.getElem?_map, hf, hg, Option.map_some] at hk
    exact Prod.mk.inj (Option.some.inj hk)
  · rintro ⟨hlength, hfields⟩
    refine List.ext_getElem (by simpa using hlength) fun k hf hg => ?_
    rw [List.length_map] at hf hg
    rw [List.getElem_map, List.getElem_map]
    exact Prod.ext_iff.mpr
      (hfields k _ _ (List.getElem?_eq_getElem hf) (List.getElem?_eq_getElem hg))

/-- Layouts under symbols have one shape exactly if the symbols are the same and the layouts are
alike, once likeness reads off the shapes of all types of the fields of the first. -/
theorem Layout.shape_eq_iff_alike {l m : Layout} (a b : Nat)
    (h : ∀ schema, l = .composite schema → ∀ f ∈ schema.fields, ∀ type : FieldType,
      f.type.Alike type ↔ f.type.shape = type.shape) :
    l.shape a = m.shape b ↔ a = b ∧ l.Alike m := by
  constructor
  · intro hshape
    cases l with
    | primitive kind =>
        cases m with
        | primitive other =>
            obtain ⟨hsymbol, rfl⟩ := Shape.primitive.inj hshape
            exact ⟨hsymbol, .primitive kind⟩
        | composite schema => simp at hshape
    | composite schema =>
        obtain ⟨other, rfl, hsymbol, hfields⟩ := composite_of_shape hshape
        obtain ⟨hlength, hfields⟩ := fieldShapes_eq_iff.mp hfields
        exact ⟨hsymbol, .composite hlength (fun k f g hf hg => (hfields k f g hf hg).1)
          fun k f g hf hg => (h schema rfl f (List.mem_of_getElem? hf) g.type).mpr
            (hfields k f g hf hg).2⟩
  · rintro ⟨rfl, halike⟩
    cases halike with
    | primitive kind => rfl
    | composite hlength hnames htypes =>
        rw [shape_composite, shape_composite, fieldShapes_eq_iff.mpr]
        exact ⟨hlength, fun k f g hf hg => ⟨hnames k f g hf hg,
          (h _ rfl f (List.mem_of_getElem? hf) g.type).mp (htypes k f g hf hg)⟩⟩

/-- The layouts of value types decide whether the types are alike. -/
theorem ValueType.alike_iff {t u : ValueType} :
    (FieldType.value t).Alike (.value u) ↔ t.symbol.id = u.symbol.id ∧ t.layout.Alike u.layout := by
  constructor
  · rintro ⟨hsymbol, hlayout⟩
    exact ⟨hsymbol, hlayout⟩
  · exact fun h => .value h.1 h.2

theorem FieldType.shape_value_ne_struct (t : ValueType) (s : StructType) :
    (FieldType.value t).shape ≠ (FieldType.struct s).shape := by
  intro h
  obtain ⟨_, heq, _⟩ := value_of_shape ((shape_value t).symm.trans h)
  cases heq

/-- A value type is alike to the types of its shape, once that is so of the types of its fields. -/
theorem ValueType.alike_iff_shape_of_fields {t : ValueType}
    (h : ∀ schema, t.layout = .composite schema → ∀ f ∈ schema.fields, ∀ type : FieldType,
      f.type.Alike type ↔ f.type.shape = type.shape) (b : FieldType) :
    (FieldType.value t).Alike b ↔ (FieldType.value t).shape = b.shape := by
  cases b with
  | value u =>
      rw [FieldType.shape_value, FieldType.shape_value, shape, shape, alike_iff]
      exact (Layout.shape_eq_iff_alike _ _ h).symm
  | struct s =>
      constructor
      · intro halike
        cases halike
      · exact fun hshape => absurd hshape (FieldType.shape_value_ne_struct t s)

/-- Types are alike exactly if they have one shape. -/
theorem FieldType.alike_iff_shape {a b : FieldType} : a.Alike b ↔ a.shape = b.shape := by
  induction a using FieldType.inductionOn generalizing b with
  | primitive t kind ht =>
      refine ValueType.alike_iff_shape_of_fields (fun schema hschema => ?_) b
      rw [ht] at hschema
      cases hschema
  | composite t schema ht ih =>
      refine ValueType.alike_iff_shape_of_fields (fun other hother f hf type => ?_) b
      rw [ht] at hother
      cases hother
      exact ih f hf
  | struct s _ =>
      constructor
      · intro h
        cases h with
        | struct hid => rw [shape_struct, shape_struct, hid]
      · intro h
        cases b with
        | value u => exact absurd h.symm (shape_value_ne_struct u s)
        | struct other =>
            rw [shape_struct, shape_struct] at h
            exact .struct (Shape.struct.inj h)

/-- Definitions are alike exactly if they have one shape. -/
theorem Definition.alike_iff_shape {a b : Definition} : a.Alike b ↔ a.shape = b.shape := by
  have hlayout : a.shape = b.shape ↔ a.symbol.id = b.symbol.id ∧ a.layout.Alike b.layout :=
    Layout.shape_eq_iff_alike _ _ fun _ _ _ _ _ => FieldType.alike_iff_shape
  rw [hlayout]
  exact ⟨fun h => ⟨h.symbol, h.layout⟩, fun h => ⟨h.1, h.2⟩⟩

/-! ### The shortcut -/

/-- Among definitions over a faithful collection, the shortcut by handles changes no answer. -/
theorem Definition.equivalent_iff_alike {known : ValueType → Prop} (hk : Faithful known)
    {a b : Definition} (ha : a.Within known) (hb : b.Within known) :
    a.equivalent b = true ↔ a.Alike b :=
  (equivalent_iff_shape hk ha hb).trans alike_iff_shape.symm

/-- Among definitions over a faithful collection, equivalence is an equivalence relation. -/
theorem Definition.equivalent_equivalence {known : ValueType → Prop} (hk : Faithful known) :
    Equivalence fun a b : { d : Definition // d.Within known } => a.1.equivalent b.1 = true where
  refl a := (equivalent_iff_shape hk a.2 a.2).mpr rfl
  symm {a b} h :=
    (equivalent_iff_shape hk b.2 a.2).mpr ((equivalent_iff_shape hk a.2 b.2).mp h).symm
  trans {a b c} h h' :=
    (equivalent_iff_shape hk a.2 c.2).mpr
      (((equivalent_iff_shape hk a.2 b.2).mp h).trans ((equivalent_iff_shape hk b.2 c.2).mp h'))

/-! ### Levels of comparison -/

/-- The depth of a definition of either sort. -/
def Definition.depth : Definition → Nat
  | canonical t => (FieldType.value t).depth
  | draft d => fieldsDepth d.schema.fields

/-- One level of the equivalence of definitions, where `equal` compares the types of fields. -/
def Definition.equivalentWith (equal : FieldType → FieldType → Bool) (a b : Definition) : Bool :=
  a.identical b || (a.symbol == b.symbol && a.layout.equivalentWith equal b.layout)

/-- The fields of a definition lie less deep than the definition. -/
theorem Definition.depth_lt {a : Definition} {schema : Schema} (h : a.layout = .composite schema)
    {f : Field} (hf : f ∈ schema.fields) : f.type.depth < a.depth := by
  cases a with
  | canonical t =>
      exact FieldType.depth_lt (a := .value t) (by rwa [FieldType.fields_composite h])
  | draft d =>
      cases h
      exact lt_fieldsDepth hf

/-- As many levels of comparison below a definition as it is deep decide equivalence, whatever would
be asked of the levels below them. -/
theorem Definition.equivalentWith_iterate (stop : FieldType → FieldType → Bool) {n : Nat}
    {a : Definition} (hn : a.depth ≤ n) (b : Definition) :
    equivalentWith (FieldType.equivalentWith^[n] stop) a b = a.equivalent b := by
  rw [equivalentWith, equivalent]
  congr 2
  cases hlayout : a.layout with
  | primitive kind => cases b.layout <;> rfl
  | composite schema =>
      cases b.layout with
      | primitive other => cases schema; rfl
      | composite other =>
          rw [Layout.equivalentWith, Layout.equivalent_composite]
          refine fieldsEquivalentWith_eq (fun f hf type => ?_) _
          have hlt := depth_lt hlayout hf
          cases n with
          | zero => exact absurd hn (Nat.not_le_of_lt (Nat.zero_lt_of_lt hlt))
          | succ n =>
              exact FieldType.equivalentWith_iterate stop
                (Nat.le_of_lt_succ (Nat.lt_of_lt_of_le hlt hn)) type

end ValueTypes
