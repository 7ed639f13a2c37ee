import ValueTypes.Error
import ValueTypes.Number.Numeral
import ValueTypes.Primitive.Conversion
import ValueTypes.Value.Basic

/-! Conversion of values to primitive kinds. In strict mode a number converts to a number and
all else only to its own kind; in lenient mode truth values and text convert to numbers, numbers
and truth values to text, and every value to a truth value. -/

namespace ValueTypes.PrimitiveKind

/-- The value of a field of a kind that was given none. Symbols have no default. -/
def default? : PrimitiveKind → Option Value
  | string => some (.str "")
  | boolean => some (.bool false)
  | symbol => none
  | kind => if kind.isFloat then some (.float .zero) else some (.int 0)

/-- The number that a value gives where a number is asked for. -/
def numberOf? (mode : CoercionMode) : Value → Option (Int ⊕ Double)
  | .int i => some (.inl i)
  | .float f => some (.inr f)
  | .bool b => if mode = .lenient then some (.inl (if b then 1 else 0)) else none
  | .str s => if mode = .lenient then some (.inr (.ofText s)) else none
  | _ => none

def toInteger? (kind : PrimitiveKind) (mode : CoercionMode) (v : Value) : Option Value :=
  (numberOf? mode v).bind fun number =>
    (number.elim (kind.ofInt? mode) (kind.ofDouble? mode)).map .int

def toFloat? (kind : PrimitiveKind) (mode : CoercionMode) (v : Value) : Option Value :=
  (numberOf? mode v).bind fun number =>
    (kind.roundDouble? (number.elim .ofInt id)).map .float

def toString? (mode : CoercionMode) : Value → Option Value
  | .str s => some (.str s)
  | v => if mode = .lenient then v.text?.map .str else none

def toBoolean? (mode : CoercionMode) : Value → Option Value
  | .bool b => some (.bool b)
  | v => if mode = .lenient then some (.bool v.truthy) else none

/-- Only symbols convert to symbols. -/
def toSymbol? : Value → Option Value
  | .symbol s => some (.symbol s)
  | _ => none

def convert? (kind : PrimitiveKind) (mode : CoercionMode) (v : Value) : Option Value :=
  match kind with
  | string => toString? mode v
  | boolean => toBoolean? mode v
  | symbol => toSymbol? v
  | kind => if kind.isInteger then kind.toInteger? mode v else kind.toFloat? mode v

/-- Converts a value to the kind of a field, or says what the field expects. -/
def coerce (kind : PrimitiveKind) (mode : CoercionMode) (field : String) (v : Value) :
    Except Error Value :=
  match kind.convert? mode v with
  | some w => .ok w
  | none => .error (.typeMismatch field kind.name v.typeName)

end ValueTypes.PrimitiveKind
