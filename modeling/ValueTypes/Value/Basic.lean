import ValueTypes.Definition
import ValueTypes.Number.Notation

/-! Readings of a single value: the name of its sort, its truth, its number and its text. -/

namespace ValueTypes.Value

def typeName : Value → String
  | undefined => "undefined"
  | bool _ => "boolean"
  | int _ => "int"
  | float _ => "float"
  | str _ => "string"
  | symbol _ => "symbol"
  | record .. => "record"
  | inst _ => "value"
  | struct _ => "struct"

def isUndefined : Value → Bool
  | undefined => true
  | _ => false

def isNumber : Value → Bool
  | int _ => true
  | float _ => true
  | _ => false

def toDouble? : Value → Option Double
  | int i => some (.ofInt i)
  | float f => some f
  | _ => none

def toInt? : Value → Option Int
  | int i => some i
  | _ => none

def toStr? : Value → Option String
  | str s => some s
  | _ => none

def toBool? : Value → Option Bool
  | bool b => some b
  | _ => none

def truthy : Value → Bool
  | undefined => false
  | bool b => b
  | int i => i != 0
  | float f => !f.isNaN && !f.numEq .zero
  | str s => s != ""
  | _ => true

/-- The text that the value converts to; objects and symbols have none. -/
def textWith? (printer : Printer) : Value → Option String
  | bool b => some (if b then "true" else "false")
  | int i => some (printer.integer i)
  | float f => some (f.textWith printer)
  | str s => some s
  | _ => none

def text? (v : Value) : Option String :=
  v.textWith? .shortest

end ValueTypes.Value
