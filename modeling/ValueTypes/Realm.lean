import ValueTypes.Definition.Schema
import ValueTypes.Registry

/-! Realms: a registry with its configuration, and the place of its symbol table. -/

namespace ValueTypes

/-- What can be chosen for a realm. -/
structure RealmConfig where
  coercion : CoercionMode := .strict
  maxNestingDepth : Nat := 64

def RealmConfig.debug (config : RealmConfig) : String :=
  "RealmConfig \x7b coercion: " ++ config.coercion.debug ++ ", max_nesting_depth: " ++
    toString config.maxNestingDepth ++ " \x7d"

/-- The number of a symbol table, from 0. -/
abbrev TableId := Nat

/-- A realm. Realms with the same symbol table agree on the symbols of keys. -/
structure Realm (μ : Type) where
  config : RealmConfig
  table : TableId
  registry : Registry μ

namespace Realm

variable {μ : Type}

instance : Inhabited (Realm μ) where
  default := ⟨{}, 0, .new .polynomial 0 .strict 0⟩

protected def id (realm : Realm μ) : RealmId :=
  realm.registry.realm

def primitive (realm : Realm μ) (kind : PrimitiveKind) : ValueType :=
  realm.registry.primitive kind

def primitiveOfName? (realm : Realm μ) (name : String) : Option ValueType :=
  (PrimitiveKind.ofName? name).map realm.primitive

def policy (realm : Realm μ) : SchemaPolicy where
  realm := realm.id
  coercion := realm.config.coercion
  maxDepth := realm.config.maxNestingDepth
  hashing := realm.registry.hashing

def makeSchema (realm : Realm μ) (kind : SchemaKind) (drafts : List FieldDraft) : Build Schema :=
  realm.policy.makeSchema kind drafts

def makeArraySchema (realm : Realm μ) (kind : SchemaKind) (element : FieldType) (length : Nat) :
    Build Schema :=
  realm.makeSchema kind (arrayFields element length (realm.primitive .uint32))

/-! ### Properties -/

/-- Reads a property. Instances have fields, and behind those the methods of their types; structs
and records have fields; other values have no properties. -/
def getProperty (realm : Realm μ) (store : Store) (target : Value) (name : String) :
    Property μ :=
  match target with
  | .inst i =>
    match i.get? name with
    | some v => .field v
    | none =>
      (realm.registry.method? i.type name).elim .missing fun body => .method ⟨i, name, body⟩
  | .struct s => (store.get? s name).elim .missing .field
  | .record _ entries => (entries.lookup name).elim .missing .field
  | _ => .missing

/-- The method of an instance that a call names. -/
def methodOf (realm : Realm μ) (receiver : Instance) (name : String) : Except Error μ :=
  match realm.registry.method? receiver.type name with
  | some body => .ok body
  | none => .error (.notCallable receiver.type.name name)

end Realm

/-- Writes a property. Only the fields of structs can be written. -/
def setProperty (target : Value) (name : String) (v : Value) : Build Unit :=
  match target with
  | .inst i => i.set name v
  | .struct s => s.set name v
  | _ => throw (.unknownField target.typeName name)

end ValueTypes
