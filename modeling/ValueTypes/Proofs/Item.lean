import Mathlib.Data.List.Forall2
import ValueTypes.Construction
import ValueTypes.Proofs.Primitive.Acceptance
import ValueTypes.Proofs.Store.Growth
import ValueTypes.Realm

/-! Items are what callers are handed and hand in again. An item is sound in a scope, the realms,
types and structs that are there, if all that can be read off it, to any depth, is of the scope and
of its declared type. -/

namespace ValueTypes

/-- A thing that callers can hold. -/
inductive Item where
  | realm (id : RealmId)
  | table (id : TableId)
  | symbol (s : Symbol)
  | type (type : FieldType)
  | schema (schema : Schema)
  | value (v : Value)

/-- The values that are not made of others. -/
inductive Value.Plain : Value → Prop where
  | undefined : Plain .undefined
  | bool (b) : Plain (.bool b)
  | int (i) : Plain (.int i)
  | float (f) : Plain (.float f)
  | str (s) : Plain (.str s)
  | symbol (s) : Plain (.symbol s)

theorem PrimitiveKind.Accepts.plain {kind : PrimitiveKind} {v : Value} (h : kind.Accepts v) :
    v.Plain := by
  cases h with
  | integer => exact .int _
  | single => exact .float _
  | double f => exact .float f
  | string s => exact .str s
  | boolean b => exact .bool b
  | symbol s => exact .symbol s

/-- Whether a value is of a type, as far as the value itself shows. -/
inductive Value.HasType (v : Value) : FieldType → Prop where
  | primitive {t kind} (ht : t.layout = .primitive kind) (hv : kind.Accepts v) :
      HasType v (.value t)
  | composite {t schema} (ht : t.layout = .composite schema) (hv : v.isInstanceOf t = true) :
      HasType v (.value t)
  | struct {s} (hv : v.isStructOf s = true) : HasType v (.struct s)

theorem Value.HasType.isUndefined {v : Value} {type : FieldType} (h : v.HasType type) :
    v.isUndefined = false := by
  cases h with
  | primitive _ hv => exact hv.isUndefined
  | composite _ hv =>
      cases v with
      | undefined => cases hv
      | _ => rfl
  | struct hv =>
      cases v with
      | undefined => cases hv
      | _ => rfl

/-- Whether a field may have a value: one of its type, and its default if it is static. -/
structure Field.Admits (f : Field) (v : Value) : Prop where
  typed : v.HasType f.type
  fixed : f.isStatic = true → f.default = some v

/-- Realms and value types, what is asked of schemas and of struct types, and the types of the
structs at addresses. -/
structure Scope where
  realm : RealmId → Prop
  type : ValueType → Prop
  schema : Schema → Prop
  structType : StructType → Prop
  structAt : Nat → Option StructType

namespace Scope

/-- What is true of every item that a caller can have come to hold. The fields of a struct type are
of earlier struct types only. -/
inductive Sound (Θ : Scope) : Item → Prop where
  | realm {id} (h : Θ.realm id) : Sound Θ (.realm id)
  | table (id) : Sound Θ (.table id)
  | symbol (s) : Sound Θ (.symbol s)
  | valueType {t} (h : Θ.type t) : Sound Θ (.type (.value t))
  | structType {s} (h : Sound Θ (.schema s.schema)) (made : Θ.structType s)
      (below : ∀ f ∈ s.schema.fields, ∀ u, f.type = .struct u → u.id < s.id) :
      Sound Θ (.type (.struct s))
  | schema {schema} (made : Θ.schema schema) (names : schema.names.Nodup)
      (types : ∀ f ∈ schema.fields, Sound Θ (.type f.type))
      (defaults : ∀ f ∈ schema.fields, ∀ d, f.default = some d → Sound Θ (.value d))
      (typed : ∀ f ∈ schema.fields, ∀ d, f.default = some d → d.HasType f.type)
      (fixed : ∀ f ∈ schema.fields, f.isStatic = true → f.default.isSome) :
      Sound Θ (.schema schema)
  | plain {v} (h : v.Plain) : Sound Θ (.value v)
  | record {id entries} (h : ∀ e ∈ entries, Sound Θ (.value e.2)) :
      Sound Θ (.value (.record id entries))
  | inst {i schema} (type : Θ.type i.type) (layout : i.type.layout = .composite schema)
      (slots : List.Forall₂ Field.Admits schema.fields i.slots)
      (h : ∀ v ∈ i.slots, Sound Θ (.value v)) : Sound Θ (.value (.inst i))
  | struct {s} (h : Sound Θ (.type (.struct s.type)))
      (live : Θ.structAt s.address = some s.type) : Sound Θ (.value (.struct s))

/-- Whether one scope is part of another. -/
structure Within (Θ Θ' : Scope) : Prop where
  realm : ∀ id, Θ.realm id → Θ'.realm id
  type : ∀ t, Θ.type t → Θ'.type t
  schema : ∀ schema, Θ.schema schema → Θ'.schema schema
  structType : ∀ s, Θ.structType s → Θ'.structType s
  structAt : ∀ k s, Θ.structAt k = some s → Θ'.structAt k = some s

theorem Sound.mono {Θ Θ' : Scope} (hΘ : Θ.Within Θ') {x : Item} (h : Θ.Sound x) : Θ'.Sound x := by
  induction h with
  | realm h => exact .realm (hΘ.realm _ h)
  | table id => exact .table id
  | symbol s => exact .symbol s
  | valueType h => exact .valueType (hΘ.type _ h)
  | structType _ made below ih => exact .structType ih (hΘ.structType _ made) below
  | schema made names _ _ typed fixed iht ihd =>
      exact .schema (hΘ.schema _ made) names iht ihd typed fixed
  | plain h => exact .plain h
  | record _ ih => exact .record ih
  | inst type layout slots _ ih => exact .inst (hΘ.type _ type) layout slots ih
  | struct _ live ih => exact .struct ih (hΘ.structAt _ _ live)

namespace Sound

variable {Θ : Scope}

theorem realm_of {id : RealmId} (h : Θ.Sound (.realm id)) : Θ.realm id := by
  cases h with
  | realm hid => exact hid

theorem type_of {t : ValueType} (h : Θ.Sound (.type (.value t))) : Θ.type t := by
  cases h with
  | valueType ht => exact ht

theorem names {schema : Schema} (h : Θ.Sound (.schema schema)) : schema.names.Nodup := by
  cases h with
  | schema _ hnames => exact hnames

theorem schema_made {schema : Schema} (h : Θ.Sound (.schema schema)) : Θ.schema schema := by
  cases h with
  | schema hmade => exact hmade

theorem types {schema : Schema} (h : Θ.Sound (.schema schema)) :
    ∀ f ∈ schema.fields, Θ.Sound (.type f.type) := by
  cases h with
  | schema _ _ htypes => exact htypes

theorem struct_schema {s : StructType} (h : Θ.Sound (.type (.struct s))) :
    Θ.Sound (.schema s.schema) := by
  cases h with
  | structType hschema => exact hschema

theorem struct_made {s : StructType} (h : Θ.Sound (.type (.struct s))) : Θ.structType s := by
  cases h with
  | structType _ hmade => exact hmade

theorem struct_below {s : StructType} (h : Θ.Sound (.type (.struct s))) :
    ∀ f ∈ s.schema.fields, ∀ u, f.type = .struct u → u.id < s.id := by
  cases h with
  | structType _ _ hbelow => exact hbelow

theorem entries {id : Nat} {entries : List (String × Value)}
    (h : Θ.Sound (.value (.record id entries))) : ∀ e ∈ entries, Θ.Sound (.value e.2) := by
  cases h with
  | plain hplain => cases hplain
  | record hentries => exact hentries

theorem inst_type {i : Instance} (h : Θ.Sound (.value (.inst i))) : Θ.type i.type := by
  cases h with
  | plain hplain => cases hplain
  | inst htype => exact htype

theorem layout {i : Instance} (h : Θ.Sound (.value (.inst i))) :
    ∃ schema, i.type.layout = .composite schema ∧
      List.Forall₂ Field.Admits schema.fields i.slots := by
  cases h with
  | plain hplain => cases hplain
  | inst _ hlayout hslots => exact ⟨_, hlayout, hslots⟩

theorem slots {i : Instance} (h : Θ.Sound (.value (.inst i))) :
    ∀ v ∈ i.slots, Θ.Sound (.value v) := by
  cases h with
  | plain hplain => cases hplain
  | inst _ _ _ hslots => exact hslots

theorem struct_type {s : StructInstance} (h : Θ.Sound (.value (.struct s))) :
    Θ.Sound (.type (.struct s.type)) := by
  cases h with
  | plain hplain => cases hplain
  | struct htype => exact htype

theorem live {s : StructInstance} (h : Θ.Sound (.value (.struct s))) :
    Θ.structAt s.address = some s.type := by
  cases h with
  | plain hplain => cases hplain
  | struct _ hlive => exact hlive

end Sound

/-- The schemas of the value types of a scope are sound themselves. -/
def Closed (Θ : Scope) : Prop :=
  ∀ t schema, Θ.type t → t.layout = .composite schema → Θ.Sound (.schema schema)

/-- Whether one scope is another one with more structs. -/
structure Grows (Θ Θ' : Scope) : Prop where
  realm : Θ'.realm = Θ.realm
  type : Θ'.type = Θ.type
  schema : Θ'.schema = Θ.schema
  structType : Θ'.structType = Θ.structType
  structAt : ∀ k s, Θ.structAt k = some s → Θ'.structAt k = some s

namespace Grows

variable {Θ Θ' Θ'' : Scope}

theorem refl (Θ : Scope) : Θ.Grows Θ :=
  ⟨rfl, rfl, rfl, rfl, fun _ _ h => h⟩

theorem trans (h : Θ.Grows Θ') (h' : Θ'.Grows Θ'') : Θ.Grows Θ'' :=
  ⟨h'.realm.trans h.realm, h'.type.trans h.type, h'.schema.trans h.schema,
    h'.structType.trans h.structType, fun k s hs => h'.structAt k s (h.structAt k s hs)⟩

theorem within (h : Θ.Grows Θ') : Θ.Within Θ' := by
  refine ⟨fun id hid => ?_, fun t ht => ?_, fun schema hschema => ?_, fun s hs => ?_,
    h.structAt⟩
  · rw [h.realm]
    exact hid
  · rw [h.type]
    exact ht
  · rw [h.schema]
    exact hschema
  · rw [h.structType]
    exact hs

theorem closed (h : Θ.Grows Θ') (hΘ : Θ.Closed) : Θ'.Closed := by
  intro t schema ht hlayout
  rw [h.type] at ht
  exact (hΘ t schema ht hlayout).mono h.within

end Grows

end Scope

/-- Whether each field of a list is given a sound value that it admits. -/
structure Scope.Fills (Θ : Scope) (fields : List Field) (slots : List Value) : Prop where
  admits : List.Forall₂ Field.Admits fields slots
  sound : ∀ v ∈ slots, Θ.Sound (.value v)

/-- Whether a struct is of a sound type, and its fields are given sound values. -/
structure Cell.Sound (Θ : Scope) (cell : Cell) : Prop where
  type : Θ.Sound (.type (.struct cell.type))
  fills : Θ.Fills cell.type.schema.fields cell.slots

theorem Cell.Sound.mono {Θ Θ' : Scope} (hΘ : Θ.Within Θ') {cell : Cell} (h : cell.Sound Θ) :
    cell.Sound Θ' :=
  ⟨h.type.mono hΘ, h.fills.admits, fun v hv => (h.fills.sound v hv).mono hΘ⟩

namespace Scope

/-- The structs in a store are sound. -/
def Cells (Θ : Scope) (store : Store) : Prop :=
  ∀ cell ∈ store.cells, cell.Sound Θ

theorem Cells.mono {Θ Θ' : Scope} (hΘ : Θ.Within Θ') {store : Store} (h : Θ.Cells store) :
    Θ'.Cells store :=
  fun cell hcell => (h cell hcell).mono hΘ

/-- Whether the structs of a scope are those in a store, and all of them are sound. -/
structure Describes (Θ : Scope) (store : Store) : Prop where
  structAt : ∀ k, Θ.structAt k = store.typeAt? k
  cells : Θ.Cells store

end Scope

end ValueTypes
