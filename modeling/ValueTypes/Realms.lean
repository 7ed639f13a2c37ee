import ValueTypes.Realm

/-! All realms together, with the supplies of numbers that they share. An action returns its
result or its error beside the realms that it leaves behind. -/

namespace ValueTypes

/-- Symbol tables, realms and structs, and the next numbers for symbols and struct types. -/
structure Realms (μ : Type) where
  hashing : Hashing := .polynomial
  nextSymbol : Nat := 1
  nextStruct : StructId := 1
  tables : Array SymbolTable := #[]
  members : Array (Realm μ) := #[]
  store : Store := {}

namespace Realms

variable {μ : Type}

/-- The realm of a given number. Numbers are given from 1 on, in order of creation. -/
def realm (rs : Realms μ) (id : RealmId) : Realm μ :=
  rs.members.getD (id - 1) default

def setRegistry (rs : Realms μ) (id : RealmId) (registry : Registry μ) : Realms μ :=
  { rs with members := rs.members.modify (id - 1) fun realm => { realm with registry := registry } }

def table (rs : Realms μ) (id : TableId) : SymbolTable :=
  rs.tables.getD id {}

/-! ### Symbols, tables and realms -/

def newSymbol (rs : Realms μ) (description : Option String) : Symbol × Realms μ :=
  (⟨rs.nextSymbol, description⟩, { rs with nextSymbol := rs.nextSymbol + 1 })

def newTable (rs : Realms μ) : TableId × Realms μ :=
  (rs.tables.size, { rs with tables := rs.tables.push {} })

def symbolFor (rs : Realms μ) (table : TableId) (key : String) : Symbol × Realms μ :=
  let (s, entries, next) := (rs.table table).symbolFor key rs.nextSymbol
  (s, { rs with tables := rs.tables.modify table fun _ => entries, nextSymbol := next })

/-- A new realm with a given symbol table. Its primitive types take the next symbols. -/
def newRealm (rs : Realms μ) (config : RealmConfig) (table : TableId) : RealmId × Realms μ :=
  let id := rs.members.size + 1
  let registry := Registry.new rs.hashing id config.coercion rs.nextSymbol
  (id, { rs with
    members := rs.members.push ⟨config, table, registry⟩
    nextSymbol := rs.nextSymbol + PrimitiveKind.all.length })

/-! ### Values and types -/

def build {α : Type} (rs : Realms μ) (b : Build α) : Except Error α × Realms μ :=
  match b.run rs.store with
  | .error e => (.error e, rs)
  | .ok (a, store) => (.ok a, { rs with store := store })

def intern (rs : Realms μ) (id : RealmId) (draft : Draft) : Except Error ValueType × Realms μ :=
  match (rs.realm id).registry.intern draft with
  | .error e => (.error e, rs)
  | .ok (t, registry) => (.ok t, rs.setRegistry id registry)

/-- Makes a schema and interns it under a symbol. -/
def internSchema (rs : Realms μ) (id : RealmId) (symbol : Symbol) (schema : Build Schema) :
    Except Error ValueType × Realms μ :=
  match rs.build schema with
  | (.error e, rs) => (.error e, rs)
  | (.ok schema, rs) => rs.intern id ⟨symbol, schema⟩

/-- The value type of a symbol with given fields. -/
def valueType (rs : Realms μ) (id : RealmId) (symbol : Symbol) (drafts : List FieldDraft) :
    Except Error ValueType × Realms μ :=
  rs.internSchema id symbol ((rs.realm id).makeSchema .value drafts)

/-- The value type of a symbol for arrays of `length` elements. -/
def arrayType (rs : Realms μ) (id : RealmId) (symbol : Symbol) (element : FieldType)
    (length : Nat) : Except Error ValueType × Realms μ :=
  rs.internSchema id symbol ((rs.realm id).makeArraySchema .value element length)

/-- A new struct type with given fields. -/
def structType (rs : Realms μ) (id : RealmId) (name : String) (drafts : List FieldDraft) :
    Except Error StructType × Realms μ :=
  match rs.build ((rs.realm id).makeSchema .struct drafts) with
  | (.error e, rs) => (.error e, rs)
  | (.ok schema, rs) =>
    (.ok ⟨rs.nextStruct, id, name, schema, (rs.realm id).config.coercion⟩,
      { rs with nextStruct := rs.nextStruct + 1 })

def attach (rs : Realms μ) (id : RealmId) (t : ValueType) (added : MethodTable μ) :
    Except Error Unit × Realms μ :=
  match (rs.realm id).registry.attach t added with
  | .error e => (.error e, rs)
  | .ok registry => (.ok (), rs.setRegistry id registry)

/-- Calls a method of an instance, where `invoke` runs a method body in a realm. -/
def callMethod (rs : Realms μ)
    (invoke : μ → Realm μ → Instance → List Value → Build Value)
    (id : RealmId) (receiver : Instance) (name : String) (args : List Value) :
    Except Error Value × Realms μ :=
  match (rs.realm id).methodOf receiver name with
  | .error e => (.error e, rs)
  | .ok body => rs.build (invoke body (rs.realm id) receiver args)

/-- Calls a bound method in a realm. -/
def callBound (rs : Realms μ)
    (invoke : μ → Realm μ → Instance → List Value → Build Value)
    (id : RealmId) (m : BoundMethod μ) (args : List Value) : Except Error Value × Realms μ :=
  rs.build (invoke m.body (rs.realm id) m.receiver args)

end Realms

end ValueTypes
