import ValueTypes.Text.Blank

/-! The primitive kinds, their names, and the integer ranges of those that hold integers. -/

namespace ValueTypes

inductive PrimitiveKind where
  | int8
  | uint8
  | uint8Clamped
  | int16
  | uint16
  | int32
  | uint32
  | float32
  | float64
  | string
  | boolean
  | symbol
deriving DecidableEq

/-- How a value is converted to a declared kind. -/
inductive CoercionMode where
  /-- Refuses every conversion that loses information. -/
  | strict
  /-- Wraps integers, and converts between numbers, text and truth values. -/
  | lenient
deriving DecidableEq

def CoercionMode.debug : CoercionMode → String
  | strict => "Strict"
  | lenient => "Lenient"

/-- An inclusive range of integers. -/
@[ext]
structure IntegerRange where
  lo : Int
  hi : Int
deriving DecidableEq

namespace IntegerRange

def contains (range : IntegerRange) (i : Int) : Bool :=
  range.lo ≤ i && i ≤ range.hi

/-- The integer of the range that is nearest to `i`. -/
def clamp (range : IntegerRange) (i : Int) : Int :=
  if i < range.lo then range.lo else if range.hi < i then range.hi else i

/-- The integer of the range that is congruent to `i` modulo the size of the range. -/
def wrap (range : IntegerRange) (i : Int) : Int :=
  range.lo + (i - range.lo) % (range.hi - range.lo + 1)

end IntegerRange

namespace PrimitiveKind

/-- Every kind, in the order in which a realm defines them. -/
def all : List PrimitiveKind :=
  [int8, uint8, uint8Clamped, int16, uint16, int32, uint32, float32, float64, string, boolean,
    symbol]

def index : PrimitiveKind → Nat
  | int8 => 0
  | uint8 => 1
  | uint8Clamped => 2
  | int16 => 3
  | uint16 => 4
  | int32 => 5
  | uint32 => 6
  | float32 => 7
  | float64 => 8
  | string => 9
  | boolean => 10
  | symbol => 11

def name : PrimitiveKind → String
  | int8 => "int8"
  | uint8 => "uint8"
  | uint8Clamped => "uint8_clamped"
  | int16 => "int16"
  | uint16 => "uint16"
  | int32 => "int32"
  | uint32 => "uint32"
  | float32 => "float32"
  | float64 => "float64"
  | string => "string"
  | boolean => "boolean"
  | symbol => "symbol"

def debug : PrimitiveKind → String
  | int8 => "Int8"
  | uint8 => "Uint8"
  | uint8Clamped => "Uint8Clamped"
  | int16 => "Int16"
  | uint16 => "Uint16"
  | int32 => "Int32"
  | uint32 => "Uint32"
  | float32 => "Float32"
  | float64 => "Float64"
  | string => "String"
  | boolean => "Boolean"
  | symbol => "Symbol"

/-- Names that a kind answers to besides its canonical one. -/
def aliases : PrimitiveKind → List String
  | uint8Clamped => ["uint8Clamped"]
  | float64 => ["number"]
  | string => ["str", "text"]
  | boolean => ["bool"]
  | _ => []

/-- The kind of a given name; blanks around the name do not count, and case does. -/
def ofName? (text : String) : Option PrimitiveKind :=
  let trimmed := String.ofList (Text.trim text.toList)
  all.find? fun kind => kind.name == trimmed || kind.aliases.contains trimmed

def range? : PrimitiveKind → Option IntegerRange
  | int8 => some ⟨-128, 127⟩
  | uint8 | uint8Clamped => some ⟨0, 255⟩
  | int16 => some ⟨-32768, 32767⟩
  | uint16 => some ⟨0, 65535⟩
  | int32 => some ⟨-2147483648, 2147483647⟩
  | uint32 => some ⟨0, 4294967295⟩
  | _ => none

def isInteger (kind : PrimitiveKind) : Bool :=
  kind.range?.isSome

def isFloat (kind : PrimitiveKind) : Bool :=
  kind == float32 || kind == float64

def isNumeric (kind : PrimitiveKind) : Bool :=
  kind.isInteger || kind.isFloat

end PrimitiveKind

end ValueTypes
