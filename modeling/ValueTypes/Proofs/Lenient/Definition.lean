import ValueTypes.Definition.Equivalence
import ValueTypes.Definition.Fingerprint
import ValueTypes.Definition.Induction
import ValueTypes.Definition.Nesting
import ValueTypes.Entries
import ValueTypes.Value.Basic

/-! Definitions and values as they would be in lenient realms: the same in all but the mode of types,
at every depth. Nothing that is read off a definition depends on the mode, nor do equivalence,
fingerprints and depths. -/

namespace ValueTypes

mutual

/-- The type with all modes in it lenient. -/
def ValueType.relax : ValueType → ValueType
  | ⟨id, realm, symbol, layout, _, fingerprint⟩ =>
    ⟨id, realm, symbol, layout.relax, .lenient, fingerprint⟩
termination_by structural t => t

def Layout.relax : Layout → Layout
  | .primitive kind => .primitive kind
  | .composite schema => .composite schema.relax
termination_by structural l => l

def Schema.relax : Schema → Schema
  | ⟨kind, fields, fingerprint, depth⟩ => ⟨kind, relaxFields fields, fingerprint, depth⟩
termination_by structural s => s

def relaxFields : List Field → List Field
  | [] => []
  | f :: fields => f.relax :: relaxFields fields
termination_by structural fields => fields

def Field.relax : Field → Field
  | ⟨name, type, isStatic, default⟩ => ⟨name, type.relax, isStatic, relaxDefault default⟩
termination_by structural f => f

def relaxDefault : Option Value → Option Value
  | none => none
  | some v => some v.relax
termination_by structural d => d

def FieldType.relax : FieldType → FieldType
  | .value t => .value t.relax
  | .struct s => .struct s.relax
termination_by structural type => type

def StructType.relax : StructType → StructType
  | ⟨id, realm, name, schema, _⟩ => ⟨id, realm, name, schema.relax, .lenient⟩
termination_by structural s => s

/-- The value with all modes in the types of instances and structs lenient. -/
def Value.relax : Value → Value
  | .record id entries => .record id (relaxEntries entries)
  | .inst i => .inst i.relax
  | .struct s => .struct s.relax
  | .undefined => .undefined
  | .bool b => .bool b
  | .int i => .int i
  | .float f => .float f
  | .str s => .str s
  | .symbol s => .symbol s
termination_by structural v => v

def relaxEntries : List (String × Value) → List (String × Value)
  | [] => []
  | (name, v) :: entries => (name, v.relax) :: relaxEntries entries
termination_by structural entries => entries

def Instance.relax : Instance → Instance
  | ⟨id, type, slots⟩ => ⟨id, type.relax, relaxSlots slots⟩
termination_by structural i => i

def relaxSlots : List Value → List Value
  | [] => []
  | v :: slots => v.relax :: relaxSlots slots
termination_by structural slots => slots

def StructInstance.relax : StructInstance → StructInstance
  | ⟨address, type⟩ => ⟨address, type.relax⟩
termination_by structural s => s

end

/-! ### Lists of fields, entries and slots -/

@[simp]
theorem relaxFields_eq (fields : List Field) : relaxFields fields = fields.map Field.relax := by
  induction fields with
  | nil => rfl
  | cons f fields ih => rw [relaxFields, ih, List.map_cons]

@[simp]
theorem relaxDefault_eq (default : Option Value) :
    relaxDefault default = default.map Value.relax := by
  cases default <;> rfl

/-- An entry of a record with all modes in it lenient. -/
def relaxEntry (entry : String × Value) : String × Value :=
  (entry.1, entry.2.relax)

@[simp]
theorem relaxEntries_eq (entries : List (String × Value)) :
    relaxEntries entries = entries.map relaxEntry := by
  induction entries with
  | nil => rfl
  | cons entry entries ih =>
      obtain ⟨name, v⟩ := entry
      rw [relaxEntries, ih, List.map_cons, relaxEntry]

@[simp]
theorem relaxSlots_eq (slots : List Value) : relaxSlots slots = slots.map Value.relax := by
  induction slots with
  | nil => rfl
  | cons v slots ih => rw [relaxSlots, ih, List.map_cons]

/-! ### Parts of definitions -/

namespace ValueType

variable (t : ValueType)

@[simp]
theorem relax_id : t.relax.id = t.id := by cases t; rfl

@[simp]
theorem relax_realm : t.relax.realm = t.realm := by cases t; rfl

@[simp]
theorem relax_symbol : t.relax.symbol = t.symbol := by cases t; rfl

@[simp]
theorem relax_layout : t.relax.layout = t.layout.relax := by cases t; rfl

@[simp]
theorem relax_coercion : t.relax.coercion = .lenient := by cases t; rfl

@[simp]
theorem relax_fingerprint : t.relax.fingerprint = t.fingerprint := by cases t; rfl

@[simp]
theorem relax_name : t.relax.name = t.name := by
  rw [name, relax_symbol, name]

@[simp]
theorem relax_same (u : ValueType) : t.relax.same u.relax = t.same u := by
  simp [same]

end ValueType

@[simp]
theorem Layout.relax_primitive (kind : PrimitiveKind) :
    (Layout.primitive kind).relax = .primitive kind := rfl

@[simp]
theorem Layout.relax_composite (schema : Schema) :
    (Layout.composite schema).relax = .composite schema.relax := rfl

theorem ValueType.relax_layout_primitive {t : ValueType} {kind : PrimitiveKind}
    (h : t.layout = .primitive kind) : t.relax.layout = .primitive kind := by
  rw [relax_layout, h, Layout.relax_primitive]

theorem ValueType.relax_layout_composite {t : ValueType} {schema : Schema}
    (h : t.layout = .composite schema) : t.relax.layout = .composite schema.relax := by
  rw [relax_layout, h, Layout.relax_composite]

@[simp]
theorem ValueType.relax_schema? (t : ValueType) :
    t.relax.schema? = t.schema?.map Schema.relax := by
  rw [schema?, schema?, relax_layout]
  cases t.layout <;> rfl

namespace StructType

variable (s : StructType)

@[simp]
theorem relax_id : s.relax.id = s.id := by cases s; rfl

@[simp]
theorem relax_realm : s.relax.realm = s.realm := by cases s; rfl

@[simp]
theorem relax_name : s.relax.name = s.name := by cases s; rfl

@[simp]
theorem relax_schema : s.relax.schema = s.schema.relax := by cases s; rfl

@[simp]
theorem relax_coercion : s.relax.coercion = .lenient := by cases s; rfl

@[simp]
theorem relax_same (other : StructType) : s.relax.same other.relax = s.same other := by
  simp [same]

end StructType

namespace FieldType

@[simp]
theorem relax_value (t : ValueType) : (value t).relax = .value t.relax := rfl

@[simp]
theorem relax_struct (s : StructType) : (struct s).relax = .struct s.relax := rfl

variable (type : FieldType)

@[simp]
theorem relax_name : type.relax.name = type.name := by
  cases type <;> simp [name]

@[simp]
theorem relax_realm : type.relax.realm = type.realm := by
  cases type <;> simp [realm]

@[simp]
theorem relax_isValue : type.relax.isValue = type.isValue := by
  cases type <;> rfl

end FieldType

namespace Field

variable (f : Field)

@[simp]
theorem relax_name : f.relax.name = f.name := by cases f; rfl

@[simp]
theorem relax_type : f.relax.type = f.type.relax := by cases f; rfl

@[simp]
theorem relax_isStatic : f.relax.isStatic = f.isStatic := by cases f; rfl

@[simp]
theorem relax_default : f.relax.default = f.default.map Value.relax := by
  cases f
  simp [relax]

end Field

namespace Schema

variable (schema : Schema)

@[simp]
theorem relax_fields : schema.relax.fields = schema.fields.map Field.relax := by
  cases schema
  simp [relax]

@[simp]
theorem relax_fingerprint : schema.relax.fingerprint = schema.fingerprint := by cases schema; rfl

@[simp]
theorem relax_depth : schema.relax.depth = schema.depth := by cases schema; rfl

@[simp]
theorem relax_names : schema.relax.names = schema.names := by
  simp [names, Function.comp_def]

@[simp]
theorem relax_indexOf? (name : String) : schema.relax.indexOf? name = schema.indexOf? name := by
  simp [indexOf?, Function.comp_def]

@[simp]
theorem relax_field? (name : String) :
    schema.relax.field? name = (schema.field? name).map Field.relax := by
  rw [field?, field?, relax_fields, List.find?_map]
  simp only [Function.comp_def, Field.relax_name]

@[simp]
theorem relax_debug : schema.relax.debug = schema.debug := by
  simp [debug, Function.comp_def]

end Schema

@[simp]
theorem ValueType.relax_debug (t : ValueType) : t.relax.debug = t.debug := by
  rw [debug, debug, relax_layout]
  cases t.layout <;> simp

@[simp]
theorem StructType.relax_debug (s : StructType) : s.relax.debug = s.debug := by
  unfold debug
  rw [relax_name, relax_id, relax_schema, Schema.relax_debug]

/-! ### Parts of values -/

namespace Value

@[simp]
theorem relax_inst (i : Instance) : (inst i).relax = .inst i.relax := rfl

@[simp]
theorem relax_struct (s : StructInstance) : (struct s).relax = .struct s.relax := rfl

@[simp]
theorem relax_record (id : Nat) (entries : List (String × Value)) :
    (record id entries).relax = .record id (entries.map relaxEntry) := by
  simp [relax]

@[simp]
theorem relax_isUndefined (v : Value) : v.relax.isUndefined = v.isUndefined := by
  cases v <;> rfl

end Value

namespace Instance

variable (i : Instance)

@[simp]
theorem relax_id : i.relax.id = i.id := by cases i; rfl

@[simp]
theorem relax_type : i.relax.type = i.type.relax := by cases i; rfl

@[simp]
theorem relax_slots : i.relax.slots = i.slots.map Value.relax := by
  cases i
  simp [relax]

end Instance

namespace StructInstance

variable (s : StructInstance)

@[simp]
theorem relax_address : s.relax.address = s.address := by cases s; rfl

@[simp]
theorem relax_type : s.relax.type = s.type.relax := by cases s; rfl

end StructInstance

theorem zip_map_relax (names : List String) (vs : List Value) :
    names.zip (vs.map Value.relax) = (names.zip vs).map relaxEntry := by
  rw [List.zip_map_right]
  rfl

theorem lookup_map_relax (entries : List (String × Value)) (name : String) :
    (entries.map relaxEntry).lookup name = (entries.lookup name).map Value.relax :=
  Entries.lookup_map Value.relax entries name

namespace Instance

@[simp]
theorem relax_fields (i : Instance) : i.relax.fields = i.fields.map relaxEntry := by
  rw [fields, fields, relax_slots, zip_map_relax, relax_type, ValueType.relax_schema?]
  cases i.type.schema? <;> simp

@[simp]
theorem relax_get? (i : Instance) (name : String) :
    i.relax.get? name = (i.get? name).map Value.relax := by
  rw [get?, relax_fields, lookup_map_relax, get?]

end Instance

/-! ### Equivalence -/

theorem fieldsEquivalent_relax {fs : List Field}
    (h : ∀ f ∈ fs, ∀ type : FieldType,
      f.type.relax.equivalent type.relax = f.type.equivalent type) (gs : List Field) :
    fieldsEquivalent (fs.map Field.relax) (gs.map Field.relax) = fieldsEquivalent fs gs := by
  induction fs generalizing gs with
  | nil => cases gs <;> rfl
  | cons f fs ih =>
      cases gs with
      | nil =>
          cases f
          rfl
      | cons g gs =>
          rw [List.map_cons, List.map_cons, fieldsEquivalent_cons, fieldsEquivalent_cons,
            ih (fun f hf => h f (List.mem_cons_of_mem _ hf)), Field.relax_name, Field.relax_name,
            Field.relax_type, Field.relax_type, h f (List.mem_cons_self ..)]

/-- Equivalence of value types does not depend on modes once that of their layouts does not. -/
theorem ValueType.equivalent_relax_of_layout {t u : ValueType}
    (h : t.layout.relax.equivalent u.layout.relax = t.layout.equivalent u.layout) :
    t.relax.equivalent u.relax = t.equivalent u := by
  rw [equivalent_eq, equivalent_eq, relax_same, relax_symbol, relax_symbol, relax_layout,
    relax_layout, h]

theorem Layout.equivalent_primitive_relax (kind : PrimitiveKind) (l : Layout) :
    (primitive kind).equivalent l.relax = (primitive kind).equivalent l := by
  cases l <;> rfl

theorem Layout.equivalent_composite_relax {schema : Schema}
    (h : ∀ gs, fieldsEquivalent (schema.fields.map Field.relax) (gs.map Field.relax) =
      fieldsEquivalent schema.fields gs) (l : Layout) :
    (composite schema.relax).equivalent l.relax = (composite schema).equivalent l := by
  cases l with
  | primitive kind => cases schema; rfl
  | composite other => simp [h]

@[simp]
theorem FieldType.equivalent_relax (a b : FieldType) :
    a.relax.equivalent b.relax = a.equivalent b := by
  induction a using FieldType.inductionOn generalizing b with
  | primitive t kind ht =>
      cases b with
      | value u =>
          apply ValueType.equivalent_relax_of_layout
          rw [ht]
          exact Layout.equivalent_primitive_relax kind u.layout
      | struct s => rfl
  | composite t schema ht ih =>
      cases b with
      | value u =>
          apply ValueType.equivalent_relax_of_layout
          rw [ht]
          exact Layout.equivalent_composite_relax (fieldsEquivalent_relax ih) u.layout
      | struct s => rfl
  | struct s _ =>
      cases b with
      | value u => rfl
      | struct other => exact s.relax_same other

@[simp]
theorem ValueType.equivalent_relax (t u : ValueType) :
    t.relax.equivalent u.relax = t.equivalent u :=
  FieldType.equivalent_relax (.value t) (.value u)

@[simp]
theorem Layout.equivalent_relax (l m : Layout) : l.relax.equivalent m.relax = l.equivalent m := by
  cases l with
  | primitive kind => exact equivalent_primitive_relax kind m
  | composite schema =>
      exact equivalent_composite_relax
        (fieldsEquivalent_relax fun f _ => f.type.equivalent_relax) m

@[simp]
theorem Schema.equivalent_relax (a b : Schema) : a.relax.equivalent b.relax = a.equivalent b := by
  rw [equivalent, equivalent, relax_fields, relax_fields,
    fieldsEquivalent_relax fun f _ => f.type.equivalent_relax]

@[simp]
theorem Schema.same_relax (a b : Schema) : a.relax.same b.relax = a.same b := by
  simp [same]

def Draft.relax (d : Draft) : Draft :=
  ⟨d.symbol, d.schema.relax⟩

@[simp]
theorem Draft.relax_symbol (d : Draft) : d.relax.symbol = d.symbol := rfl

@[simp]
theorem Draft.relax_schema (d : Draft) : d.relax.schema = d.schema.relax := rfl

@[simp]
theorem Draft.relax_debug (d : Draft) : d.relax.debug = d.debug := by
  unfold debug
  rw [relax_symbol, relax_schema, Schema.relax_debug]

@[simp]
theorem ValueType.matchesDraft_relax (t : ValueType) (d : Draft) :
    t.relax.matchesDraft d.relax = t.matchesDraft d := by
  have hlayout := t.layout.equivalent_relax (.composite d.schema)
  rw [matchesDraft, matchesDraft, relax_symbol, relax_layout, Draft.relax_symbol,
    Draft.relax_schema, ← hlayout, Layout.relax_composite]

def Definition.relax : Definition → Definition
  | canonical t => .canonical t.relax
  | draft d => .draft d.relax

@[simp]
theorem Definition.equivalent_relax (a b : Definition) :
    a.relax.equivalent b.relax = a.equivalent b := by
  have hidentical : a.relax.identical b.relax = a.identical b := by
    cases a <;> cases b <;> simp [relax, identical]
  have hsymbol : ∀ d : Definition, d.relax.symbol = d.symbol := by
    rintro (t | d)
    · exact t.relax_symbol
    · rfl
  have hlayout : ∀ d : Definition, d.relax.layout = d.layout.relax := by
    rintro (t | d)
    · exact t.relax_layout
    · rfl
  rw [equivalent, equivalent, hidentical, hsymbol, hsymbol, hlayout, hlayout,
    Layout.equivalent_relax]

/-! ### Fingerprints -/

@[simp]
theorem FieldType.fingerprint_relax (hashing : Hashing) (type : FieldType) :
    type.relax.fingerprint hashing = type.fingerprint hashing := by
  cases type with
  | value t => exact t.relax_fingerprint
  | struct s => simp [fingerprint]

@[simp]
theorem Hashing.ofFields_relax (hashing : Hashing) (fields : List Field) :
    hashing.ofFields (fields.map Field.relax) = hashing.ofFields fields := by
  simp [ofFields, Function.comp_def]

@[simp]
theorem ValueType.relax_define (hashing : Hashing) (id : DefinitionId) (realm : RealmId)
    (symbol : Symbol) (layout : Layout) (coercion : CoercionMode) :
    (define hashing id realm symbol layout coercion).relax =
      define hashing id realm symbol layout.relax .lenient := by
  cases layout with
  | primitive kind => rfl
  | composite schema =>
      cases schema
      rfl

/-! ### Depths -/

/-- A field as it is asked for where modes are lenient. -/
def FieldDraft.relax (draft : FieldDraft) : FieldDraft :=
  ⟨draft.name, draft.type.relax, draft.isStatic, draft.default.map Value.relax⟩

theorem surveyFields_relax {fields : List Field}
    (h : ∀ f ∈ fields, ∀ s, f.type.relax.survey s = f.type.survey s) (depth : Nat) (s : Survey) :
    surveyFields (fields.map Field.relax) depth s = surveyFields fields depth s := by
  induction fields generalizing depth s with
  | nil => rfl
  | cons f fields ih =>
      rw [List.map_cons, surveyFields_cons, surveyFields_cons, Field.relax_type,
        h f (List.mem_cons_self ..)]
      cases f.type.survey s with
      | error fault => rfl
      | ok found => exact ih (fun f hf => h f (List.mem_cons_of_mem _ hf)) _ _

@[simp]
theorem FieldType.survey_relax (type : FieldType) (s : Survey) :
    type.relax.survey s = type.survey s := by
  induction type using FieldType.inductionOn generalizing s with
  | primitive t kind ht =>
      rw [relax_value, survey_primitive ht,
        survey_primitive (ValueType.relax_layout_primitive ht)]
  | composite t schema ht ih =>
      rw [relax_value, survey_composite ht,
        survey_composite (ValueType.relax_layout_composite ht), Schema.relax_fields,
        funext (surveyFields_relax ih 1), ValueType.relax_id, ValueType.relax_name]
  | struct t ih =>
      rw [relax_struct, survey_struct, survey_struct, StructType.relax_schema, Schema.relax_fields,
        funext (surveyFields_relax ih 1), StructType.relax_id, StructType.relax_name]

theorem deepestField_relax (drafts : List FieldDraft) (depth : Nat) (deepest : String)
    (s : Survey) :
    deepestField (drafts.map FieldDraft.relax) depth deepest s =
      deepestField drafts depth deepest s := by
  induction drafts generalizing depth deepest s with
  | nil => rfl
  | cons draft drafts ih =>
      simp only [List.map_cons, deepestField, FieldDraft.relax, FieldType.survey_relax, ih]

@[simp]
theorem nestingDepth_relax (drafts : List FieldDraft) (limit : Nat) :
    nestingDepth (drafts.map FieldDraft.relax) limit = nestingDepth drafts limit := by
  have hfirst : (drafts.map FieldDraft.relax).head?.elim "" (·.name) =
      drafts.head?.elim "" (·.name) := by
    cases drafts <;> rfl
  rw [nestingDepth, nestingDepth, hfirst, deepestField_relax]

end ValueTypes
