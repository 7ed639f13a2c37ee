import ValueTypes.Definition.Induction
import ValueTypes.Definition.Schema
import ValueTypes.Proofs.Attempt.Basic
import ValueTypes.Realm

/-! Construction, conversion and writes as attempts, step by step in the same order. Structs are
made for fields before a later field fails, but no struct that was there is written before all
checks and conversions have passed. -/

namespace ValueTypes

namespace Attempt

/-! ### Fields -/

def readGiven (source : Option Source) (name : String) : Attempt (Option Value) := do
  let store ← get
  return (source.bind (·.get? store name)).filter fun v => !v.isUndefined

def resolveField (isStatic : Bool) (default : Option Value) (given : Attempt (Option Value))
    (coerce : Value → Attempt Value) (defaulted : Attempt Value) : Attempt Value :=
  match isStatic, default with
  | true, some d => return d
  | _, _ => do
    match ← given, default with
    | some v, _ => coerce v
    | none, some d => return d
    | none, none => defaulted

def sourceOf (field expected : String) (v : Value) : Attempt Source :=
  match Source.ofValue? v with
  | some source => return source
  | none => throw (.typeMismatch field expected v.typeName)

mutual

def fillSlots : List Field → String → CoercionMode → Option Source → Attempt (List Value)
  | [], _, _, _ => return []
  | ⟨name, type, isStatic, default⟩ :: fields, owner, mode, source => do
    let v ← resolveField isStatic default (readGiven source name)
      (fun v => coerceField type mode name v) (defaultValue type owner name)
    let vs ← fillSlots fields owner mode source
    return v :: vs
termination_by structural fields => fields

def coerceField : FieldType → CoercionMode → String → Value → Attempt Value
  | .value ⟨_, _, _, .primitive kind, _, _⟩, mode, name, v => liftM (kind.coerce mode name v)
  | .value t@⟨_, _, _, .composite ⟨_, fields, _, _⟩, _, _⟩, _, name, v => do
    if v.isInstanceOf t then return v
    let source ← sourceOf name t.name v
    return .inst (← newInstance t (fillSlots fields t.name t.coercion (some source)))
  | .struct s@⟨_, _, _, ⟨_, fields, _, _⟩, _⟩, _, name, v => do
    if v.isStructOf s then return v
    let source ← sourceOf name s.name v
    return .struct (← newStruct s (fillSlots fields s.name s.coercion (some source)))
termination_by structural type => type

def defaultValue : FieldType → String → String → Attempt Value
  | .value ⟨_, _, _, .primitive kind, _, _⟩, owner, name =>
    match kind.default? with
    | some v => return v
    | none => throw (.missingField owner name)
  | .value t@⟨_, _, _, .composite ⟨_, fields, _, _⟩, _, _⟩, _, _ =>
    return .inst (← newInstance t (fillSlots fields t.name t.coercion none))
  | .struct s@⟨_, _, _, ⟨_, fields, _, _⟩, _⟩, _, _ =>
    return .struct (← newStruct s (fillSlots fields s.name s.coercion none))
termination_by structural type => type

end

/-! ### Calls from outside -/

def construct (t : ValueType) (source : Option Source) : Attempt Instance :=
  match t.layout with
  | .primitive _ => throw (.notCallable t.name "constructor")
  | .composite schema => newInstance t (fillSlots schema.fields t.name t.coercion source)

def constructStruct (s : StructType) (source : Option Source) : Attempt StructInstance :=
  newStruct s (fillSlots s.schema.fields s.name s.coercion source)

def coerce (t : ValueType) (v : Value) : Attempt Value :=
  match t.layout with
  | .primitive kind => liftM (kind.coerce t.coercion kind.name v)
  | .composite _ => do
    let source ← sourceOf t.name t.name v
    return .inst (← construct t (some source))

def set (s : StructInstance) (name : String) (v : Value) : Attempt Unit :=
  let schema := s.type.schema
  match schema.indexOf? name, schema.field? name with
  | some index, some field =>
    if field.isStatic then throw (.immutableWrite s.type.name name)
    else do
      let coerced ← coerceField field.type s.type.coercion name v
      write s index coerced
  | _, _ => throw (.unknownField s.type.name name)

def setProperty (target : Value) (name : String) (v : Value) : Attempt Unit :=
  match target with
  | .inst i => throw (.immutableWrite i.type.name name)
  | .struct s => set s name v
  | _ => throw (.unknownField target.typeName name)

/-! ### Schemas -/

def default (policy : SchemaPolicy) (draft : FieldDraft) : Attempt (Option Value) :=
  match draft.default with
  | some v => some <$> coerceField draft.type policy.coercion draft.name v
  | none =>
    if draft.isStatic then some <$> defaultValue draft.type "static field" draft.name
    else return none

def field (policy : SchemaPolicy) (draft : FieldDraft) : Attempt Field := do
  let default ← default policy draft
  return ⟨draft.name, draft.type, draft.isStatic, default⟩

def fields (policy : SchemaPolicy) : List FieldDraft → Attempt (List Field)
  | [] => return []
  | draft :: drafts => do
    let field ← field policy draft
    let fields ← fields policy drafts
    return field :: fields

def makeSchema (policy : SchemaPolicy) (kind : SchemaKind) (drafts : List FieldDraft) :
    Attempt Schema := do
  let depth ← liftM (policy.check kind drafts)
  let fields ← fields policy drafts
  return ⟨kind, fields, policy.hashing.ofFields fields, depth⟩

/-! ### Equations -/

theorem fillSlots_cons (f : Field) (fields : List Field) (owner : String) (mode : CoercionMode)
    (source : Option Source) :
    fillSlots (f :: fields) owner mode source = (do
      let v ← resolveField f.isStatic f.default (readGiven source f.name)
        (fun v => coerceField f.type mode f.name v) (defaultValue f.type owner f.name)
      let vs ← fillSlots fields owner mode source
      return v :: vs) := by
  cases f; rfl

theorem coerceField_primitive {t : ValueType} {kind : PrimitiveKind}
    (h : t.layout = .primitive kind) (mode : CoercionMode) (name : String) (v : Value) :
    coerceField (.value t) mode name v = liftM (kind.coerce mode name v) := by
  cases t; cases h; rfl

theorem coerceField_composite {t : ValueType} {schema : Schema} (h : t.layout = .composite schema)
    (mode : CoercionMode) (name : String) (v : Value) :
    coerceField (.value t) mode name v =
      if v.isInstanceOf t then return v
      else do
        let source ← sourceOf name t.name v
        return .inst (← construct t (some source)) := by
  cases t; cases schema; cases h; rfl

theorem coerceField_struct (s : StructType) (mode : CoercionMode) (name : String) (v : Value) :
    coerceField (.struct s) mode name v =
      if v.isStructOf s then return v
      else do
        let source ← sourceOf name s.name v
        return .struct (← constructStruct s (some source)) := by
  obtain ⟨_, _, _, ⟨⟩, _⟩ := s; rfl

theorem defaultValue_primitive {t : ValueType} {kind : PrimitiveKind}
    (h : t.layout = .primitive kind) (owner name : String) :
    defaultValue (.value t) owner name =
      match kind.default? with
      | some v => return v
      | none => throw (.missingField owner name) := by
  cases t; cases h; rfl

theorem defaultValue_composite {t : ValueType} {schema : Schema}
    (h : t.layout = .composite schema) (owner name : String) :
    defaultValue (.value t) owner name = return .inst (← construct t none) := by
  cases t; cases schema; cases h; rfl

theorem defaultValue_struct (s : StructType) (owner name : String) :
    defaultValue (.struct s) owner name = return .struct (← constructStruct s none) := by
  obtain ⟨_, _, _, ⟨⟩, _⟩ := s; rfl

/-! ### What attempts add -/

theorem readGiven_adds (source : Option Source) (name : String) :
    Adds (readGiven source name) (ValueTypes.readGiven source name) :=
  .read fun σ => (source.bind (·.get? σ name)).filter fun v : Value => !v.isUndefined

theorem resolveField_adds (isStatic : Bool) (default : Option Value)
    {given : Attempt (Option Value)} {given' : Build (Option Value)}
    {coerce : Value → Attempt Value} {coerce' : Value → Build Value}
    {defaulted : Attempt Value} {defaulted' : Build Value} (hgiven : Adds given given')
    (hcoerce : ∀ v, Adds (coerce v) (coerce' v)) (hdefaulted : Adds defaulted defaulted') :
    Adds (resolveField isStatic default given coerce defaulted)
      (ValueTypes.resolveField isStatic default given' coerce' defaulted') := by
  have hchoice : Adds (resolveField false default given coerce defaulted)
      (ValueTypes.resolveField false default given' coerce' defaulted') := by
    refine hgiven.bind fun v => ?_
    cases v with
    | some v => exact hcoerce v
    | none =>
        cases default with
        | some d => exact .pure d
        | none => exact hdefaulted
  cases isStatic with
  | false => exact hchoice
  | true =>
      cases default with
      | some d => exact .pure d
      | none => exact hchoice

theorem sourceOf_adds (field expected : String) (v : Value) :
    Adds (sourceOf field expected v) (ValueTypes.sourceOf field expected v) := by
  rw [sourceOf, ValueTypes.sourceOf]
  cases Source.ofValue? v with
  | some source => exact .pure source
  | none => exact .throw _

/-- Whether conversion to a type and its default change no struct. -/
structure Builds (type : FieldType) : Prop where
  coerce : ∀ mode name v, Adds (coerceField type mode name v) (type.coerce mode name v)
  defaultValue : ∀ owner name, Adds (defaultValue type owner name) (type.defaultValue owner name)

theorem fillSlots_adds {fields : List Field} (h : ∀ f ∈ fields, Builds f.type) (owner : String)
    (mode : CoercionMode) (source : Option Source) :
    Adds (fillSlots fields owner mode source) (ValueTypes.fillSlots fields owner mode source) := by
  induction fields with
  | nil => exact .pure []
  | cons f fields ih =>
      have hf := h f (List.mem_cons_self ..)
      rw [fillSlots_cons, ValueTypes.fillSlots_cons]
      refine (resolveField_adds _ _ (readGiven_adds source f.name) (hf.coerce mode f.name)
        (hf.defaultValue owner f.name)).bind fun v => ?_
      exact (ih fun g hg => h g (List.mem_cons_of_mem f hg)).bind fun vs => .pure (v :: vs)

theorem construct_adds_of_fields {t : ValueType}
    (h : ∀ schema, t.layout = .composite schema → ∀ f ∈ schema.fields, Builds f.type)
    (source : Option Source) : Adds (construct t source) (t.construct source) := by
  rw [construct, ValueType.construct]
  cases hlayout : t.layout with
  | primitive kind => exact .throw _
  | composite schema => exact .newInstance t (fillSlots_adds (h schema hlayout) _ _ source)

theorem constructStruct_adds_of_fields {s : StructType}
    (h : ∀ f ∈ s.schema.fields, Builds f.type) (source : Option Source) :
    Adds (constructStruct s source) (s.construct source) :=
  .newStruct s (fillSlots_adds h _ _ source)

/-- Conversion to a type and its default change no struct, at any depth. The induction is on the
type. -/
theorem builds (type : FieldType) : Builds type := by
  induction type using FieldType.inductionOn with
  | primitive t kind ht =>
      constructor
      · intro mode name v
        rw [coerceField_primitive ht, FieldType.coerce_primitive ht]
        exact .lift _
      · intro owner name
        rw [defaultValue_primitive ht, FieldType.defaultValue_primitive ht]
        cases kind.default? with
        | some v => exact .pure v
        | none => exact .throw _
  | composite t schema ht ih =>
      have hconstruct := construct_adds_of_fields (t := t) fun schema' hschema => by
        rw [ht] at hschema
        cases hschema
        exact ih
      constructor
      · intro mode name v
        rw [coerceField_composite ht, FieldType.coerce_composite ht]
        split
        · exact .pure v
        · refine (sourceOf_adds name t.name v).bind fun source => ?_
          exact (hconstruct (some source)).bind fun i => .pure (Value.inst i)
      · intro owner name
        rw [defaultValue_composite ht, FieldType.defaultValue_composite ht]
        exact (hconstruct none).bind fun i => .pure (Value.inst i)
  | struct s ih =>
      have hconstruct := constructStruct_adds_of_fields ih
      constructor
      · intro mode name v
        rw [coerceField_struct, FieldType.coerce_struct]
        split
        · exact .pure v
        · refine (sourceOf_adds name s.name v).bind fun source => ?_
          exact (hconstruct (some source)).bind fun i => .pure (Value.struct i)
      · intro owner name
        rw [defaultValue_struct, FieldType.defaultValue_struct]
        exact (hconstruct none).bind fun i => .pure (Value.struct i)

theorem construct_adds (t : ValueType) (source : Option Source) :
    Adds (construct t source) (t.construct source) :=
  construct_adds_of_fields (fun _ _ f _ => builds f.type) source

theorem constructStruct_adds (s : StructType) (source : Option Source) :
    Adds (constructStruct s source) (s.construct source) :=
  constructStruct_adds_of_fields (fun f _ => builds f.type) source

theorem coerce_adds (t : ValueType) (v : Value) : Adds (coerce t v) (t.coerce v) := by
  rw [coerce]
  cases hlayout : t.layout with
  | primitive kind =>
      rw [ValueType.coerce_of_primitive hlayout]
      exact .lift _
  | composite schema =>
      rw [ValueType.coerce_of_composite hlayout]
      refine (sourceOf_adds t.name t.name v).bind fun source => ?_
      exact (construct_adds t (some source)).bind fun i => .pure (Value.inst i)

/-! ### Writes -/

/-- A struct is written last, when nothing can fail any more. -/
theorem set_follows (s : StructInstance) (name : String) (v : Value) :
    Follows (set s name v) (s.set name v) := by
  rw [set, StructInstance.set]
  cases s.type.schema.indexOf? name with
  | none => exact (Adds.throw _).follows
  | some index =>
      cases s.type.schema.field? name with
      | none => exact (Adds.throw _).follows
      | some field =>
          dsimp only
          split
          · exact (Adds.throw _).follows
          · exact ((builds field.type).coerce s.type.coercion name v).bind_follows fun w =>
              .write s index w

theorem setProperty_follows (target : Value) (name : String) (v : Value) :
    Follows (setProperty target name v) (ValueTypes.setProperty target name v) := by
  cases target with
  | struct s => exact set_follows s name v
  | _ => exact (Adds.throw _).follows

/-! ### Schemas -/

variable (policy : SchemaPolicy)

theorem default_adds (draft : FieldDraft) : Adds (default policy draft) (policy.default draft) := by
  rw [default, SchemaPolicy.default]
  cases draft.default with
  | some v => exact ((builds draft.type).coerce policy.coercion draft.name v).map some
  | none =>
      dsimp only
      split
      · exact ((builds draft.type).defaultValue "static field" draft.name).map some
      · exact .pure none

theorem field_adds (draft : FieldDraft) : Adds (field policy draft) (policy.field draft) :=
  (default_adds policy draft).bind fun default =>
    .pure (Field.mk draft.name draft.type draft.isStatic default)

theorem fields_adds (drafts : List FieldDraft) :
    Adds (fields policy drafts) (policy.fields drafts) := by
  induction drafts with
  | nil => exact .pure []
  | cons draft drafts ih =>
      exact (field_adds policy draft).bind fun f => ih.bind fun fs => .pure (f :: fs)

theorem makeSchema_adds (kind : SchemaKind) (drafts : List FieldDraft) :
    Adds (makeSchema policy kind drafts) (policy.makeSchema kind drafts) :=
  (Adds.lift (policy.check kind drafts)).bind fun depth =>
    (fields_adds policy drafts).bind fun fs =>
      .pure (Schema.mk kind fs (policy.hashing.ofFields fs) depth)

end Attempt

end ValueTypes
