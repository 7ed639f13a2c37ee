import ValueTypes.Session.Expr

/-! The commands of a session. -/

namespace ValueTypes

/-- How a command names a symbol. -/
inductive SymbolRef where
  /-- The symbol of a key in the table of the command's realm. -/
  | key (key : String)
  | name (name : String)

/-- A field as a command asks for it. -/
structure FieldRequest where
  name : String
  type : String
  default : Option Expr := none
  isStatic : Bool := false

/-- A command. Names stand for what was made before; `realm` is always the name of a realm. -/
inductive Command where
  | newTable
  | newRealm (config : RealmConfig) (table : Option String)
  | newSymbol (description : Option String)
  | symbolFor (table key : String)
  | keyFor (table symbol : String)
  | tableSize (table : String)
  | primitive (realm name : String)
  | schema (realm : String) (kind : SchemaKind) (fields : List FieldRequest)
  | arraySchema (realm : String) (kind : SchemaKind) (element : String) (length : Nat)
  | draft (realm : String) (symbol : SymbolRef) (schema : String)
  | intern (realm draft : String)
  | valueType (realm : String) (symbol : SymbolRef) (fields : List FieldRequest)
  | arrayType (realm : String) (symbol : SymbolRef) (element : String) (length : Nat)
  | structType (realm name : String) (fields : List FieldRequest)
  | repeatValueType (realm : String) (symbol : SymbolRef) (fields : List FieldRequest)
      (times : Nat)
  | lookup (realm : String) (symbol : SymbolRef)
  | contains (realm type : String)
  | describe (name : String)
  | debug (name : String)
  | schemaField (schema field : String)
  | equivalent (a b : String)
  | fieldTypesEquivalent (realm a b : String)
  | schemasEquivalent (a b : String)
  | same (a b : String)
  | distinct (names : List String)
  | value (e : Expr)
  | construct (realm type : String) (source : Option Expr)
  | coerce (realm type : String) (value : Expr)
  | display (target : Expr)
  | get (target : Expr) (field : String)
  | getIndex (target : Expr) (index : Nat)
  | readField (target : Expr) (field : String)
  | size (target : Expr)
  | set (target : Expr) (field : String) (value : Expr)
  | setProperty (target : Expr) (name : String) (value : Expr)
  | getProperty (realm : String) (target : Expr) (name : String)
  | attach (realm type : String) (methods : List (String × MethodBody))
  | methods (realm type : String)
  | call (realm : String) (target : Expr) (name : String) (args : List Expr)
  | callBound (realm method : String) (args : List Expr)
  | typeOf (target : Expr)
  | valueEquals (a b : Expr)
  | strictEquals (a b : Expr)

/-- A command, and the name that what it gives is to have. -/
structure Step where
  command : Command
  name : Option String := none

end ValueTypes
