import ValueTypes.Definition
import ValueTypes.Error

/-! The depth to which types are nested. A survey over all types below a list of fields remembers
the types on its current path, to report a type that embeds itself, and the depths of the types
it has finished with, to visit a shared type once. -/

namespace ValueTypes

/-- What identifies a type in a survey. -/
inductive TypeKey where
  | value (id : DefinitionId)
  | struct (id : StructId)
deriving DecidableEq

/-- The memory of a survey. -/
structure Survey where
  path : List TypeKey := []
  done : List (TypeKey × Nat) := []

/-- Visits one type by way of its fields, unless its depth is known. -/
def Survey.visit (s : Survey) (key : TypeKey) (name : String)
    (below : Survey → Except FieldFault (Nat × Survey)) : Except FieldFault (Nat × Survey) :=
  match s.done.lookup key with
  | some depth => .ok (depth, s)
  | none =>
    if key ∈ s.path then .error (.embedsItself name)
    else match below { s with path := key :: s.path } with
      | .error fault => .error fault
      | .ok (depth, after) =>
        .ok (depth, ⟨after.path.erase key, (key, depth) :: after.done⟩)

mutual

/-- The depth of a type: none for a primitive type, else one more than its deepest field. -/
def FieldType.survey : FieldType → Survey → Except FieldFault (Nat × Survey)
  | .value ⟨_, _, _, .primitive _, _, _⟩, s => .ok (0, s)
  | .value ⟨id, _, symbol, .composite ⟨_, fields, _, _⟩, _, _⟩, s =>
    s.visit (.value id) symbol.displayName (surveyFields fields 1)
  | .struct ⟨id, _, name, ⟨_, fields, _, _⟩, _⟩, s =>
    s.visit (.struct id) name (surveyFields fields 1)
termination_by structural type => type

/-- One more than the depth of the deepest of some fields, and at least `depth`. -/
def surveyFields : List Field → Nat → Survey → Except FieldFault (Nat × Survey)
  | [], depth, s => .ok (depth, s)
  | ⟨_, type, _, _⟩ :: fields, depth, s =>
    match type.survey s with
    | .error fault => .error fault
    | .ok (inner, s) => surveyFields fields (max depth (inner + 1)) s
termination_by structural fields => fields

end

namespace FieldType

theorem survey_primitive {t : ValueType} {kind : PrimitiveKind} (h : t.layout = .primitive kind)
    (s : Survey) : (value t).survey s = .ok (0, s) := by
  cases t; cases h; rfl

theorem survey_composite {t : ValueType} {schema : Schema} (h : t.layout = .composite schema)
    (s : Survey) :
    (value t).survey s = s.visit (.value t.id) t.name (surveyFields schema.fields 1) := by
  cases t; cases schema; cases h; rfl

theorem survey_struct (t : StructType) (s : Survey) :
    (struct t).survey s = s.visit (.struct t.id) t.name (surveyFields t.schema.fields 1) := by
  obtain ⟨_, _, _, ⟨⟩, _⟩ := t; rfl

end FieldType

theorem surveyFields_cons (f : Field) (fields : List Field) (depth : Nat) (s : Survey) :
    surveyFields (f :: fields) depth s =
      match f.type.survey s with
      | .error fault => .error fault
      | .ok (inner, s) => surveyFields fields (max depth (inner + 1)) s := by
  cases f; rfl

/-- A field as it is asked for: a default is any value, and need not be there for a static
field. -/
structure FieldDraft where
  name : String
  type : FieldType
  isStatic : Bool := false
  default : Option Value := none

/-- The depth of a schema with given fields, and the first field that reaches it. -/
def deepestField : List FieldDraft → Nat → String → Survey → Except Error (Nat × String)
  | [], depth, deepest, _ => .ok (depth, deepest)
  | draft :: drafts, depth, deepest, s =>
    match draft.type.survey s with
    | .error fault => .error (.invalidFieldType draft.name fault)
    | .ok (inner, s) =>
      if depth < inner + 1 then deepestField drafts (inner + 1) draft.name s
      else deepestField drafts depth deepest s

/-- The depth of a schema with given fields, if it is within the limit. -/
def nestingDepth (drafts : List FieldDraft) (limit : Nat) : Except Error Nat :=
  match deepestField drafts 1 (drafts.head?.elim "" (·.name)) {} with
  | .error e => .error e
  | .ok (depth, deepest) =>
    if limit < depth then .error (.invalidFieldType deepest (.tooDeep depth limit)) else .ok depth

end ValueTypes
