import ValueTypes.Number.Double
import ValueTypes.Primitive
import ValueTypes.Symbol

/-! Type definitions and the values they describe. A value type is a tree: its schema holds the
types of its fields, and the defaults of fields are values, which hold their types in turn. Struct
instances are the only mutable values; a value holds the address of one, and a store the fields. -/

namespace ValueTypes

/-- The number of a definition in its realm, from 1. -/
abbrev DefinitionId := Nat

/-- The number of a realm, from 1. -/
abbrev RealmId := Nat

/-- The number of a struct type, from 1. -/
abbrev StructId := Nat

/-- What types the fields of a schema may have. -/
inductive SchemaKind where
  /-- Value types only. -/
  | value
  /-- Value types and struct types. -/
  | struct
deriving DecidableEq

def SchemaKind.debug : SchemaKind → String
  | value => "Value"
  | struct => "Struct"

mutual

/-- A definition registered in a realm. The realm and the number there are its identity. -/
structure ValueType where
  id : DefinitionId
  realm : RealmId
  symbol : Symbol
  layout : Layout
  coercion : CoercionMode
  fingerprint : UInt64

/-- What the values of a type are made of. -/
inductive Layout where
  | primitive (kind : PrimitiveKind)
  | composite (schema : Schema)

/-- An ordered list of fields, with a fingerprint of their names and types, and the depth to
which types are nested in it. -/
structure Schema where
  kind : SchemaKind
  fields : List Field
  fingerprint : UInt64
  depth : Nat

/-- A field. The default is a value of the field's type already, and a static field always has
the value of its default. -/
structure Field where
  name : String
  type : FieldType
  isStatic : Bool
  default : Option Value

inductive FieldType where
  | value (type : ValueType)
  | struct (type : StructType)

/-- A type of mutable structs. Its number is its identity. -/
structure StructType where
  id : StructId
  realm : RealmId
  name : String
  schema : Schema
  coercion : CoercionMode

/-- A value. Records and instances carry a number of their own, which is their identity. -/
inductive Value where
  | undefined
  | bool (b : Bool)
  | int (i : Int)
  | float (f : Double)
  | str (s : String)
  | symbol (s : Symbol)
  | record (id : Nat) (entries : List (String × Value))
  | inst (i : Instance)
  | struct (s : StructInstance)

/-- A sealed instance of a value type, with one value for each field of the type. -/
structure Instance where
  id : Nat
  type : ValueType
  slots : List Value

/-- A handle to a struct. The fields are in the store, at the address. -/
structure StructInstance where
  address : Nat
  type : StructType

end

/-! ### Parts of definitions -/

namespace ValueType

def name (t : ValueType) : String :=
  t.symbol.displayName

def schema? (t : ValueType) : Option Schema :=
  match t.layout with
  | .primitive _ => none
  | .composite schema => some schema

def primitive? (t : ValueType) : Option PrimitiveKind :=
  match t.layout with
  | .primitive kind => some kind
  | .composite _ => none

/-- Whether two handles name the same definition. -/
def same (t u : ValueType) : Bool :=
  t.realm == u.realm && t.id == u.id

end ValueType

/-- Whether two handles name the same struct type. -/
def StructType.same (s t : StructType) : Bool :=
  s.id == t.id

namespace FieldType

def name : FieldType → String
  | value t => t.name
  | struct s => s.name

def realm : FieldType → RealmId
  | value t => t.realm
  | struct s => s.realm

def isValue : FieldType → Bool
  | value _ => true
  | struct _ => false

end FieldType

namespace Schema

def names (schema : Schema) : List String :=
  schema.fields.map (·.name)

/-- The place of the field of a given name. -/
def indexOf? (schema : Schema) (name : String) : Option Nat :=
  schema.fields.findIdx? (·.name == name)

def field? (schema : Schema) (name : String) : Option Field :=
  schema.fields.find? (·.name == name)

def debug (schema : Schema) : String :=
  "[" ++ String.intercalate ", " (schema.fields.map fun f => f.name ++ ": " ++ f.type.name) ++ "]"

end Schema

/-- A definition that was asked for and is not registered yet. -/
structure Draft where
  symbol : Symbol
  schema : Schema

def ValueType.debug (t : ValueType) : String :=
  match t.layout with
  | .primitive kind => "ValueType(" ++ kind.name ++ ")"
  | .composite schema =>
    "ValueType(" ++ t.name ++ "#" ++ toString t.id ++ " " ++ schema.debug ++ ")"

def StructType.debug (s : StructType) : String :=
  "StructType(" ++ s.name ++ "#" ++ toString s.id ++ " " ++ s.schema.debug ++ ")"

def Draft.debug (d : Draft) : String :=
  "TypeDraft \x7b symbol: " ++ d.symbol.debug ++ ", layout: Composite(" ++ d.schema.debug ++
    ") \x7d"

/-! ### Parts of values -/

namespace Instance

/-- The fields by name, in the order of the schema. -/
def fields (i : Instance) : List (String × Value) :=
  ((i.type.schema?.elim [] Schema.names).zip i.slots)

def get? (i : Instance) (name : String) : Option Value :=
  i.fields.lookup name

/-- The value of the field whose name is a decimal index. -/
def getIndex? (i : Instance) (index : Nat) : Option Value :=
  i.get? (toString index)

end Instance

end ValueTypes
