import ValueTypes.Construction
import ValueTypes.Definition.Fingerprint
import ValueTypes.Definition.Nesting

/-! Schemas made from lists of fields. The checks come in a fixed order: repeated names, types
that do not belong in the schema, nesting, and last the defaults, which are converted to the types
of their fields once and for all. -/

namespace ValueTypes

/-- What a realm demands of its schemas. -/
structure SchemaPolicy where
  realm : RealmId
  coercion : CoercionMode
  maxDepth : Nat
  hashing : Hashing

/-- The first name that is already among the names before it. -/
def firstRepeated? (seen : List String) : List String → Option String
  | [] => none
  | name :: names =>
    if name ∈ seen then some name else firstRepeated? (name :: seen) names

namespace SchemaPolicy

/-- Why a field of a type may not be in a schema of a kind. -/
def fault? (policy : SchemaPolicy) (kind : SchemaKind) (type : FieldType) : Option FieldFault :=
  if type.realm ≠ policy.realm then some (.foreign type.name)
  else if kind = .value ∧ ¬ type.isValue then some (.structInValue type.name)
  else none

/-- The first reason not to accept a list of fields, apart from their defaults; otherwise the
depth of the schema. -/
def check (policy : SchemaPolicy) (kind : SchemaKind) (drafts : List FieldDraft) :
    Except Error Nat :=
  match firstRepeated? [] (drafts.map (·.name)) with
  | some name => .error (.duplicateFieldName name)
  | none =>
    match drafts.findSome? fun draft =>
        (policy.fault? kind draft.type).map (Error.invalidFieldType draft.name) with
    | some e => .error e
    | none => nestingDepth drafts policy.maxDepth

/-- The default of a field, converted to its type. A static field without one gets the default
of its type. -/
def default (policy : SchemaPolicy) (draft : FieldDraft) : Build (Option Value) :=
  match draft.default with
  | some v => some <$> draft.type.coerce policy.coercion draft.name v
  | none =>
    if draft.isStatic then some <$> draft.type.defaultValue "static field" draft.name
    else return none

def field (policy : SchemaPolicy) (draft : FieldDraft) : Build Field := do
  let default ← policy.default draft
  return ⟨draft.name, draft.type, draft.isStatic, default⟩

def fields (policy : SchemaPolicy) : List FieldDraft → Build (List Field)
  | [] => return []
  | draft :: drafts => do
    let field ← policy.field draft
    let fields ← policy.fields drafts
    return field :: fields

def makeSchema (policy : SchemaPolicy) (kind : SchemaKind) (drafts : List FieldDraft) :
    Build Schema := do
  let depth ← liftM (policy.check kind drafts)
  let fields ← policy.fields drafts
  return ⟨kind, fields, policy.hashing.ofFields fields, depth⟩

end SchemaPolicy

/-- The fields of an array: one for each index, and a static one for the length. -/
def arrayFields (element : FieldType) (length : Nat) (lengthType : ValueType) : List FieldDraft :=
  (List.range length).map (fun i => { name := toString i, type := element }) ++
    [{ name := "length", type := .value lengthType, isStatic := true
       default := some (.int length) }]

end ValueTypes
