import ValueTypes.Coercion
import ValueTypes.Definition.Equivalence
import ValueTypes.Store

/-! Construction of instances and structs, field by field in the order of the schema. A field
takes the static default, else what the source gives, else the explicit default, else the default
of its type. A source gives nothing where it has no field of the name or an undefined one. -/

namespace ValueTypes

/-- What an optional source gives for a field. -/
def readGiven (source : Option Source) (name : String) : Build (Option Value) := do
  let store ← get
  return (source.bind (·.get? store name)).filter fun v => !v.isUndefined

/-- The value of a field, where `coerce` converts what the source gives and `defaulted` is the
default of the field's type. -/
def resolveField (isStatic : Bool) (default : Option Value) (given : Build (Option Value))
    (coerce : Value → Build Value) (defaulted : Build Value) : Build Value :=
  match isStatic, default with
  | true, some d => return d
  | _, _ => do
    match ← given, default with
    | some v, _ => coerce v
    | none, some d => return d
    | none, none => defaulted

/-- The object that a value of a composite type is built from, or what the field expects. -/
def sourceOf (field expected : String) (v : Value) : Build Source :=
  match Source.ofValue? v with
  | some source => return source
  | none => throw (.typeMismatch field expected v.typeName)

/-- Whether the value is an instance of a type equivalent to the given one. -/
def Value.isInstanceOf (v : Value) (t : ValueType) : Bool :=
  match v with
  | .inst i => i.type.equivalent t
  | _ => false

def Value.isStructOf (v : Value) (s : StructType) : Bool :=
  match v with
  | .struct i => i.type.same s
  | _ => false

mutual

/-- The values of a list of fields, for an owner of a given name; the first field that has no
value decides the error. -/
def fillSlots : List Field → String → CoercionMode → Option Source → Build (List Value)
  | [], _, _, _ => return []
  | ⟨name, type, isStatic, default⟩ :: fields, owner, mode, source => do
    let v ← resolveField isStatic default (readGiven source name)
      (fun v => type.coerce mode name v) (type.defaultValue owner name)
    let vs ← fillSlots fields owner mode source
    return v :: vs
termination_by structural fields => fields

/-- Converts a value to the type of the field of a given name. Instances of an equivalent type,
and structs of the same type, are shared; any other object is a source for a new one. -/
def FieldType.coerce : FieldType → CoercionMode → String → Value → Build Value
  | .value ⟨_, _, _, .primitive kind, _, _⟩, mode, name, v => liftM (kind.coerce mode name v)
  | .value t@⟨_, _, _, .composite ⟨_, fields, _, _⟩, _, _⟩, _, name, v => do
    if v.isInstanceOf t then return v
    let source ← sourceOf name t.name v
    return .inst (← Build.newInstance t (fillSlots fields t.name t.coercion (some source)))
  | .struct s@⟨_, _, _, ⟨_, fields, _, _⟩, _⟩, _, name, v => do
    if v.isStructOf s then return v
    let source ← sourceOf name s.name v
    return .struct (← Build.newStruct s (fillSlots fields s.name s.coercion (some source)))
termination_by structural type => type

/-- The value of a field that was given none, from its type. -/
def FieldType.defaultValue : FieldType → String → String → Build Value
  | .value ⟨_, _, _, .primitive kind, _, _⟩, owner, name =>
    match kind.default? with
    | some v => return v
    | none => throw (.missingField owner name)
  | .value t@⟨_, _, _, .composite ⟨_, fields, _, _⟩, _, _⟩, _, _ =>
    return .inst (← Build.newInstance t (fillSlots fields t.name t.coercion none))
  | .struct s@⟨_, _, _, ⟨_, fields, _, _⟩, _⟩, _, _ =>
    return .struct (← Build.newStruct s (fillSlots fields s.name s.coercion none))
termination_by structural type => type

end

theorem fillSlots_cons (f : Field) (fields : List Field) (owner : String) (mode : CoercionMode)
    (source : Option Source) :
    fillSlots (f :: fields) owner mode source = (do
      let v ← resolveField f.isStatic f.default (readGiven source f.name)
        (fun v => f.type.coerce mode f.name v) (f.type.defaultValue owner f.name)
      let vs ← fillSlots fields owner mode source
      return v :: vs) := by
  cases f; rfl

/-! ### Calls from outside -/

/-- A new instance of a value type. Primitive types are no constructors. -/
def ValueType.construct (t : ValueType) (source : Option Source) : Build Instance :=
  match t.layout with
  | .primitive _ => throw (.notCallable t.name "constructor")
  | .composite schema => Build.newInstance t (fillSlots schema.fields t.name t.coercion source)

/-- A new struct of a struct type. -/
def StructType.construct (s : StructType) (source : Option Source) : Build StructInstance :=
  Build.newStruct s (fillSlots s.schema.fields s.name s.coercion source)

namespace FieldType

theorem coerce_primitive {t : ValueType} {kind : PrimitiveKind} (h : t.layout = .primitive kind)
    (mode : CoercionMode) (name : String) (v : Value) :
    (value t).coerce mode name v = liftM (kind.coerce mode name v) := by
  cases t; cases h; rfl

theorem coerce_composite {t : ValueType} {schema : Schema} (h : t.layout = .composite schema)
    (mode : CoercionMode) (name : String) (v : Value) :
    (value t).coerce mode name v =
      if v.isInstanceOf t then return v
      else do
        let source ← sourceOf name t.name v
        return .inst (← t.construct (some source)) := by
  cases t; cases schema; cases h; rfl

theorem coerce_struct (s : StructType) (mode : CoercionMode) (name : String) (v : Value) :
    (struct s).coerce mode name v =
      if v.isStructOf s then return v
      else do
        let source ← sourceOf name s.name v
        return .struct (← s.construct (some source)) := by
  obtain ⟨_, _, _, ⟨⟩, _⟩ := s; rfl

theorem defaultValue_primitive {t : ValueType} {kind : PrimitiveKind}
    (h : t.layout = .primitive kind) (owner name : String) :
    (value t).defaultValue owner name =
      match kind.default? with
      | some v => return v
      | none => throw (.missingField owner name) := by
  cases t; cases h; rfl

theorem defaultValue_composite {t : ValueType} {schema : Schema}
    (h : t.layout = .composite schema) (owner name : String) :
    (value t).defaultValue owner name = return .inst (← t.construct none) := by
  cases t; cases schema; cases h; rfl

theorem defaultValue_struct (s : StructType) (owner name : String) :
    (struct s).defaultValue owner name = return .struct (← s.construct none) := by
  obtain ⟨_, _, _, ⟨⟩, _⟩ := s; rfl

end FieldType

/-- Converts a value to a value type. For a composite type this builds a new instance in any
case. -/
def ValueType.coerce (t : ValueType) (v : Value) : Build Value :=
  match t.primitive? with
  | some kind => liftM (kind.coerce t.coercion kind.name v)
  | none => do
    let source ← sourceOf t.name t.name v
    return .inst (← t.construct (some source))

namespace ValueType

variable {t : ValueType}

theorem coerce_of_primitive {kind : PrimitiveKind} (h : t.layout = .primitive kind) (v : Value) :
    t.coerce v = liftM (kind.coerce t.coercion kind.name v) := by
  rw [coerce, primitive?, h]

theorem coerce_of_composite {schema : Schema} (h : t.layout = .composite schema) (v : Value) :
    t.coerce v = do
      let source ← sourceOf t.name t.name v
      return .inst (← t.construct (some source)) := by
  rw [coerce, primitive?, h]

end ValueType

/-- Converts a value to the type of a field and stores it there. Static fields are fixed. -/
def StructInstance.set (s : StructInstance) (name : String) (v : Value) : Build Unit :=
  let schema := s.type.schema
  match schema.indexOf? name, schema.field? name with
  | some index, some field =>
    if field.isStatic then throw (.immutableWrite s.type.name name)
    else do
      let coerced ← field.type.coerce s.type.coercion name v
      Build.write s index coerced
  | _, _ => throw (.unknownField s.type.name name)

/-- Sealed instances refuse every write. -/
def Instance.set (i : Instance) (name : String) (_ : Value) : Build Unit :=
  throw (.immutableWrite i.type.name name)

end ValueTypes
