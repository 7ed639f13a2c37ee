import ValueTypes.Text.Quoted

/-! Everything that can fail, with the code and the message of each failure. -/

namespace ValueTypes

/-- Why a schema may not have a field of some type. -/
inductive FieldFault where
  | foreign (type : String)
  /-- A struct type inside a value type. -/
  | structInValue (type : String)
  | embedsItself (type : String)
  | tooDeep (depth limit : Nat)
  | other (reason : String)
deriving DecidableEq

def FieldFault.message : FieldFault → String
  | foreign type => type ++ " is not registered in this realm"
  | structInValue type => "struct type " ++ type ++ " cannot be embedded in a value type"
  | embedsItself type => type ++ " embeds itself"
  | tooDeep depth limit =>
    "nesting depth " ++ toString depth ++ " exceeds the limit of " ++ toString limit
  | other reason => reason

inductive Error where
  | invalidFieldType (field : String) (fault : FieldFault)
  | duplicateFieldName (field : String)
  /-- A field was given no value, and its type has no default. -/
  | missingField (type field : String)
  /-- A value does not convert to the type of a field. -/
  | typeMismatch (field expected found : String)
  /-- A write to a sealed instance or to a static field. -/
  | immutableWrite (type field : String)
  | unknownField (type field : String)
  | notCallable (type name : String)
  | argumentCountMismatch (name : String) (least most actual : Nat)
  | foreignDefinition (type : String)
deriving DecidableEq

namespace Error

def kind : Error → String
  | invalidFieldType .. => "InvalidFieldType"
  | duplicateFieldName .. => "DuplicateFieldName"
  | missingField .. => "MissingField"
  | typeMismatch .. => "TypeMismatch"
  | immutableWrite .. => "ImmutableWrite"
  | unknownField .. => "UnknownField"
  | notCallable .. => "NotCallable"
  | argumentCountMismatch .. => "ArgumentCountMismatch"
  | foreignDefinition .. => "ForeignDefinition"

def code : Error → String
  | invalidFieldType .. => "E0101"
  | duplicateFieldName .. => "E0102"
  | missingField .. => "E0103"
  | typeMismatch .. => "E0104"
  | immutableWrite .. => "E0105"
  | unknownField .. => "E0106"
  | notCallable .. => "E0107"
  | argumentCountMismatch .. => "E0108"
  | foreignDefinition .. => "E0109"

/-- A name in a message. -/
def ticked (name : String) : String :=
  "`" ++ name ++ "`"

/-- What failed, in words. -/
def description : Error → String
  | invalidFieldType field fault =>
    "field " ++ ticked field ++ " has invalid type: " ++ fault.message
  | duplicateFieldName field => "duplicate field name " ++ ticked field
  | missingField type field => "missing field " ++ ticked field ++ " for " ++ type
  | typeMismatch field expected found =>
    "field " ++ ticked field ++ " expects " ++ expected ++ ", got " ++ found
  | immutableWrite type field =>
    "cannot write " ++ ticked field ++ ": " ++ type ++ " values are immutable"
  | unknownField type field => type ++ " has no field " ++ ticked field
  | notCallable type name => ticked name ++ " is not a method of " ++ type
  | argumentCountMismatch name least most actual =>
    ticked name ++ " expects " ++ toString least ++ "..=" ++ toString most ++
      " arguments, got " ++ toString actual
  | foreignDefinition type => type ++ " belongs to a different realm"

def message (e : Error) : String :=
  "[" ++ e.code ++ "] " ++ e.description

/-- The parts of a failure by name, as debug texts show them. -/
def parts : Error → List (String × String)
  | invalidFieldType field fault =>
    [("field", Text.quote field), ("reason", Text.quote fault.message)]
  | duplicateFieldName field => [("field", Text.quote field)]
  | missingField type field => [("ty", Text.quote type), ("field", Text.quote field)]
  | typeMismatch field expected found =>
    [("field", Text.quote field), ("expected", Text.quote expected), ("found", Text.quote found)]
  | immutableWrite type field => [("ty", Text.quote type), ("field", Text.quote field)]
  | unknownField type field => [("ty", Text.quote type), ("field", Text.quote field)]
  | notCallable type name => [("ty", Text.quote type), ("name", Text.quote name)]
  | argumentCountMismatch name least most actual =>
    [("name", Text.quote name), ("expected_min", toString least),
      ("expected_max", toString most), ("actual", toString actual)]
  | foreignDefinition type => [("ty", Text.quote type)]

def debug (e : Error) : String :=
  let shown := e.parts.map fun (part : String × String) => part.1 ++ ": " ++ part.2
  e.kind ++ " \x7b " ++ String.intercalate ", " shown ++ " \x7d"

end Error

end ValueTypes
