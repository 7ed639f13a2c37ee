import ValueTypes.Number.Double
import ValueTypes.Primitive

/-! Conversion of numbers to the numeric kinds. A strict conversion keeps the number or fails;
a lenient one wraps modulo the size of the range; the clamped kind takes the nearest integer of
its range in both modes. -/

namespace ValueTypes

/-- The integer of a range nearest to a number, ties to even; not-a-number counts as zero. -/
def IntegerRange.nearest (range : IntegerRange) : Double → Int
  | .nan => 0
  | .infinity negative => if negative then range.lo else range.hi
  | .finite negative a =>
    let rounded : Int := roundHalfEven a.units binary64.scale
    range.clamp (if negative then -rounded else rounded)

namespace PrimitiveKind

def ofInt? (kind : PrimitiveKind) (mode : CoercionMode) (i : Int) : Option Int :=
  kind.range?.bind fun range =>
    if kind = uint8Clamped then some (range.clamp i)
    else if range.contains i then some i
    else match mode with
      | .strict => none
      | .lenient => some (range.wrap i)

/-- Converts a floating-point number to an integer kind. A lenient conversion drops the
fraction and takes not-a-number and the infinities to zero. -/
def ofDouble? (kind : PrimitiveKind) (mode : CoercionMode) (f : Double) : Option Int :=
  kind.range?.bind fun range =>
    if kind = uint8Clamped then some (range.nearest f)
    else match mode with
      | .strict => f.toInt?.filter range.contains
      | .lenient => some (f.truncate?.elim 0 range.wrap)

def roundDouble? (kind : PrimitiveKind) (f : Double) : Option Double :=
  match kind with
  | float32 => some f.toSingle
  | float64 => some f
  | _ => none

end PrimitiveKind

end ValueTypes
