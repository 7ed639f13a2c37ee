import ValueTypes.Entries
import ValueTypes.Error
import ValueTypes.Definition

/-! Tables of methods by name, over an arbitrary type of method bodies. -/

namespace ValueTypes

/-- Checks the number of arguments of a call. -/
def checkArity (name : String) (actual least most : Nat) : Except Error Unit :=
  if actual < least ∨ most < actual then
    .error (.argumentCountMismatch name least most actual)
  else .ok ()

/-- Method bodies by name. -/
structure MethodTable (μ : Type) where
  entries : List (String × μ) := []

namespace MethodTable

variable {μ : Type}

def find? (table : MethodTable μ) (name : String) : Option μ :=
  table.entries.lookup name

def register (table : MethodTable μ) (name : String) (body : μ) : MethodTable μ :=
  ⟨Entries.insert table.entries name body⟩

/-- Registers all methods of another table. -/
def merge (table added : MethodTable μ) : MethodTable μ :=
  added.entries.foldl (fun table entry => table.register entry.1 entry.2) table

/-- The names of the methods, sorted. -/
def names (table : MethodTable μ) : List String :=
  (table.entries.map (·.1)).mergeSort fun a b => decide (a ≤ b)

def debug (table : MethodTable μ) : String :=
  Text.braced (table.names.map Text.quote)

end MethodTable

/-- A method that was read from an instance. It keeps its body when the table changes. -/
structure BoundMethod (μ : Type) where
  receiver : Instance
  name : String
  body : μ

def BoundMethod.debug {μ : Type} (m : BoundMethod μ) : String :=
  "BoundMethod(" ++ m.receiver.type.name ++ "." ++ m.name ++ ")"

/-- What reading a property gives. -/
inductive Property (μ : Type) where
  | field (v : Value)
  | method (m : BoundMethod μ)
  | missing

namespace Property

variable {μ : Type}

def isMissing : Property μ → Bool
  | missing => true
  | _ => false

/-- The value of a field; a method, or nothing, counts as undefined. -/
def toValue : Property μ → Value
  | field v => v
  | _ => .undefined

end Property

end ValueTypes
