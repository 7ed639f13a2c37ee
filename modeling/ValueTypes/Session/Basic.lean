import ValueTypes.Content
import ValueTypes.Method.Body
import ValueTypes.Realms

/-! Sessions: realms together with names for what was made in them. -/

namespace ValueTypes

/-- What a name can stand for. -/
inductive Binding where
  | realm (id : RealmId)
  | table (id : TableId)
  | symbol (s : Symbol)
  | valueType (t : ValueType)
  | structType (s : StructType)
  | schema (schema : Schema)
  | draft (draft : Draft)
  | value (v : Value)
  | method (m : BoundMethod MethodBody)

/-- Realms, and what the names stand for. -/
structure Session where
  realms : Realms MethodBody := {}
  bindings : List (String × Binding) := []

/-- Why a step of a session came to nothing. -/
inductive Failure where
  | error (e : Error)
  /-- A value that is no object was given to construct from. -/
  | notASource (found : String)
  /-- A name stands for nothing, or for nothing of the sort that is needed. -/
  | unbound (name : String)

/-- A part of a step. What it did to the session stays even if a later part fails. -/
abbrev Script := ExceptT Failure (StateM Session)

namespace Script

/-- Gives up, because a name does not stand for what is needed. -/
def unbound {α : Type} (name : String) : Script α :=
  throw (.unbound name)

def find (name : String) : Script Binding := do
  match (← get).bindings.lookup name with
  | some b => return b
  | none => unbound name

def bind (name : String) (b : Binding) : Script Unit :=
  modify fun s => { s with bindings := Entries.insert s.bindings name b }

/-- Changes the realms by an action that cannot fail. -/
def update {α : Type} (f : Realms MethodBody → α × Realms MethodBody) : Script α :=
  modifyGet fun s =>
    let (a, realms) := f s.realms
    (a, { s with realms })

/-- Changes the realms by an action that can fail. -/
def act {α : Type} (f : Realms MethodBody → Except Error α × Realms MethodBody) :
    Script α := do
  match ← update f with
  | .ok a => return a
  | .error e => throw (.error e)

def build {α : Type} (b : Build α) : Script α :=
  act fun rs => rs.build b

def store : Script Store := do
  return (← get).realms.store

def content (v : Value) : Script Content := do
  return (← store).content v

/-! ### Names of each sort -/

def realmId (name : String) : Script RealmId := do
  match ← find name with
  | .realm id => return id
  | _ => unbound name

def realm (name : String) : Script (Realm MethodBody) := do
  let id ← realmId name
  return (← get).realms.realm id

/-- A symbol table of a given name, or that of a realm. -/
def table (name : String) : Script TableId := do
  match ← find name with
  | .table id => return id
  | .realm id => return ((← get).realms.realm id).table
  | _ => unbound name

/-- A symbol of a given name, or that of a type. -/
def symbol (name : String) : Script Symbol := do
  match ← find name with
  | .symbol s => return s
  | .valueType t => return t.symbol
  | .value (.symbol s) => return s
  | _ => unbound name

/-- A schema of a given name, or that of a type. -/
def schema (name : String) : Script Schema := do
  match ← find name with
  | .schema s => return s
  | .structType s => return s.schema
  | .valueType t => t.schema?.elim (unbound name) pure
  | _ => unbound name

def draft (name : String) : Script Draft := do
  match ← find name with
  | .draft d => return d
  | _ => unbound name

/-- A definition of a given name, registered or drafted. -/
def definition (name : String) : Script Definition := do
  match ← find name with
  | .valueType t => return .canonical t
  | .draft d => return .draft d
  | _ => unbound name

/-- A bound method of a given name. -/
def method (name : String) : Script (BoundMethod MethodBody) := do
  match ← find name with
  | .method m => return m
  | _ => unbound name

/-- The type that a name stands for; a name that stands for nothing can be that of a primitive
type of the realm. -/
def fieldType (realmName name : String) : Script FieldType := do
  match (← get).bindings.lookup name with
  | some (.valueType t) => return .value t
  | some (.structType s) => return .struct s
  | some _ => unbound name
  | none =>
    match (← realm realmName).primitiveOfName? name with
    | some t => return .value t
    | none => unbound name

/-- The value type that a name stands for. -/
def valueType (realmName name : String) : Script ValueType := do
  match ← fieldType realmName name with
  | .value t => return t
  | .struct _ => unbound name

end Script

end ValueTypes
