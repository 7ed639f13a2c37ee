import ValueTypes.Session.Basic

/-! What the steps of a session answer. -/

namespace ValueTypes

/-- What an answer tells of something that was made. -/
inductive Brief where
  | realm (id : RealmId)
  | table
  | symbol (s : Symbol)
  | valueType (name : String) (id : DefinitionId)
  | structType (name : String) (id : StructId)
  | schema (size depth : Nat)
  | draft (symbol : Symbol)
  | value (content : Content)
  | method (name : String)

/-- A schema with the present contents of its defaults. -/
structure SchemaView where
  schema : Schema
  defaults : List (Option Content)

/-- All that can be told of something. -/
inductive Description where
  | realm (id : RealmId) (config : RealmConfig) (keys : Nat)
  | symbol (s : Symbol)
  | valueType (t : ValueType) (schema : Option SchemaView)
  | structType (s : StructType) (schema : SchemaView)
  | schema (schema : SchemaView)
  | draft (symbol : Symbol) (schema : SchemaView)
  | brief (brief : Brief)

/-- The answer to a step that did not fail. -/
inductive Answer where
  | nothing
  | brief (brief : Brief)
  | briefs (briefs : List Brief)
  | description (d : Description)
  | truth (b : Bool)
  | text (s : String)
  /-- How many there are, and with it whether there are none. -/
  | size (n : Nat)
  | optional (content : Option Content)
  /-- A field of a schema: its place, its type, and whether it is static. -/
  | field (index : Option Nat) (type : Option String) (isStatic : Option Bool)
  /-- Two schemas: whether they are equivalent, and whether they are equal. -/
  | schemas (equivalent equal : Bool)
  /-- Two things of one sort: whether they are identical, and whether they are equal. -/
  | comparison (identical equal : Bool)
  /-- How many different things there are of each sort. -/
  | distinct (types schemas symbols : Nat)
  | shown (content : Content)
  /-- A write, with its error if it failed, and the target after it. -/
  | written (error : Option Error) (target : Content)
  | property (isMissing : Bool) (content : Content) (debug : String)
  /-- For each method, whether it replaced one of the same name. -/
  | replaced (flags : List Bool)
  | methods (names : List String) (debug : String)
  /-- Repeated requests: how many different definitions came back, and how many definitions the
  symbol has. -/
  | requests (different known : Nat)

/-! ### Views of bindings -/

/-- What can be told in brief of a binding, in the present state of the store. -/
def Binding.brief (store : Store) : Binding → Brief
  | .realm id => .realm id
  | .table _ => .table
  | .symbol s => .symbol s
  | .valueType t => .valueType t.name t.id
  | .structType s => .structType s.name s.id
  | .schema s => .schema s.fields.length s.depth
  | .draft d => .draft d.symbol
  | .value v => .value (store.content v)
  | .method m => .method m.name

def Schema.view (store : Store) (schema : Schema) : SchemaView where
  schema := schema
  defaults := schema.fields.map fun f => f.default.map store.content

/-- All that can be told of a binding. -/
def Binding.describe (realms : Realms MethodBody) (b : Binding) : Description :=
  match b with
  | .realm id =>
    let realm := realms.realm id
    .realm realm.id realm.config (realms.table realm.table).size
  | .symbol s => .symbol s
  | .valueType t => .valueType t (t.schema?.map (·.view realms.store))
  | .structType s => .structType s (s.schema.view realms.store)
  | .schema s => .schema (s.view realms.store)
  | .draft d => .draft d.symbol (d.schema.view realms.store)
  | b => .brief (b.brief realms.store)

/-- The debug text of a binding; realms and tables have none. -/
def Binding.debug? (store : Store) : Binding → Option String
  | .realm _ => none
  | .table _ => none
  | .symbol s => some s.debug
  | .valueType t => some t.debug
  | .structType s => some s.debug
  | .schema s => some s.debug
  | .draft d => some d.debug
  | .value v => some (store.content v).debug
  | .method m => some m.debug

def Property.debug (store : Store) : Property MethodBody → String
  | .field v => "Field(" ++ (store.content v).debug ++ ")"
  | .method m => "Method(" ++ m.debug ++ ")"
  | .missing => "Missing"

end ValueTypes
