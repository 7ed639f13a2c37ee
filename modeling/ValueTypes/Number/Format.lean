/-! Binary floating-point formats: their finite magnitudes, and rounding of a quotient of
naturals to the nearest of them with ties to the even significand. -/

namespace ValueTypes

-- Powers are those of the core library, whatever else is imported.
attribute [local instance (2000)] instPowNat

/-- A binary format. Its least positive magnitude, the unit, is `2 ^ (-unitExponent)`; every
finite magnitude is a `precision`-bit significand times the unit, shifted left by at most
`maxShift` places. -/
structure BinaryFormat where
  precision : Nat
  unitExponent : Nat
  maxShift : Nat

def binary64 : BinaryFormat where
  precision := 53
  unitExponent := 1074
  maxShift := 2045

def binary32 : BinaryFormat where
  precision := 24
  unitExponent := 149
  maxShift := 253

namespace BinaryFormat

/-- Each magnitude has one canonical form: the significand has full length unless the shift
is zero. -/
def Canonical (fmt : BinaryFormat) (significand shift : Nat) : Prop :=
  significand < 2 ^ fmt.precision ∧
    (shift = 0 ∨ 2 ^ (fmt.precision - 1) ≤ significand) ∧ shift ≤ fmt.maxShift

instance (fmt : BinaryFormat) (significand shift : Nat) :
    Decidable (fmt.Canonical significand shift) :=
  inferInstanceAs (Decidable (_ ∧ _))

end BinaryFormat

/-- A finite magnitude of a format, in canonical form. -/
@[ext]
structure Magnitude (fmt : BinaryFormat) where
  significand : Nat
  shift : Nat
  canonical : fmt.Canonical significand shift
deriving DecidableEq

/-- A magnitude as a whole number of units. -/
def Magnitude.units {fmt : BinaryFormat} (a : Magnitude fmt) : Nat :=
  a.significand * 2 ^ a.shift

/-- The number of binary digits of `n`; zero has none. -/
def bitLength (n : Nat) : Nat :=
  if n = 0 then 0 else n.log2 + 1

/-- The integer nearest to `num / den`; a half goes to the even neighbour. -/
def roundHalfEven (num den : Nat) : Nat :=
  let quotient := num / den
  let twice := 2 * (num % den)
  if twice < den then quotient
  else if den < twice then quotient + 1
  else quotient + quotient % 2

namespace BinaryFormat

/-- The unit is `1 / fmt.scale`. -/
def scale (fmt : BinaryFormat) : Nat :=
  2 ^ fmt.unitExponent

/-- Moves a significand that rounded up to one bit too many into the next binade. -/
def carry (fmt : BinaryFormat) (significand shift : Nat) : Nat × Nat :=
  if significand = 2 ^ fmt.precision then (2 ^ (fmt.precision - 1), shift + 1)
  else (significand, shift)

/-- The places by which `num / den` units exceed the precision. -/
def excess (fmt : BinaryFormat) (num den : Nat) : Nat :=
  bitLength (num / den) - fmt.precision

/-- The magnitude nearest to `num / den` units, ties to the even significand; `none` when it
would lie beyond the largest finite one. -/
def roundUnits (fmt : BinaryFormat) (num den : Nat) : Option (Magnitude fmt) :=
  let shift := fmt.excess num den
  let parts := fmt.carry (roundHalfEven num (den * 2 ^ shift)) shift
  if h : fmt.Canonical parts.1 parts.2 then some ⟨parts.1, parts.2, h⟩ else none

/-- The magnitude nearest to the number `num / den`. -/
def round (fmt : BinaryFormat) (num den : Nat) : Option (Magnitude fmt) :=
  fmt.roundUnits (num * fmt.scale) den

end BinaryFormat

end ValueTypes
