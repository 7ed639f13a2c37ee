import ValueTypes.Number.Double

/-! The shortest decimal that reads back as a given double. The search walks the grids of
multiples of powers of ten from coarse to fine and stops at the first grid that has a point in
the rounding interval of the double; a finer grid only adds digits. -/

namespace ValueTypes

attribute [local instance (2000)] instPowNat

/-- The number `digits` times ten to the `exponent`. -/
@[ext]
structure Decimal where
  digits : Nat
  exponent : Int
deriving DecidableEq

namespace Decimal

/-- The number is `num / den`. -/
def num (d : Decimal) : Nat :=
  d.digits * 10 ^ d.exponent.toNat

/-- The denominator that belongs to `num`, a power of ten. -/
def den (d : Decimal) : Nat :=
  10 ^ (-d.exponent).toNat

end Decimal

/-- Which of two decimals to take when a double lies exactly between them. -/
inductive DecimalTie where
  | toEven
  | up
deriving DecidableEq

/-- The chosen one of the neighbours `below` and `below + 1`. -/
def DecimalTie.choose (tie : DecimalTie) (below : Nat) : Nat :=
  match tie with
  | toEven => below + below % 2
  | up => below + 1

namespace Magnitude

/-- The lower end of the interval of numbers that round to `a`, in quarters of a unit. Below a
power of two the doubles lie twice as close. -/
def lowerQuarters (a : Magnitude binary64) : Nat :=
  4 * a.units - if a.significand = 2 ^ (binary64.precision - 1) ∧ a.shift ≠ 0 then 2 ^ a.shift else 2 * 2 ^ a.shift

/-- The upper end of the interval of numbers that round to `a`, in quarters of a unit. -/
def upperQuarters (a : Magnitude binary64) : Nat :=
  4 * a.units + 2 * 2 ^ a.shift

/-- Whether a decimal rounds to `a`. The ends of the interval do when the significand is even. -/
def roundsFrom (a : Magnitude binary64) (d : Decimal) : Bool :=
  let quarters := d.num * (4 * binary64.scale)
  let lower := a.lowerQuarters * d.den
  let upper := a.upperQuarters * d.den
  if a.significand % 2 = 0 then lower ≤ quarters && quarters ≤ upper
  else lower < quarters && quarters < upper

/-- The point of the grid of multiples of `10 ^ i` that rounds to `a`, if there is one; of two
such points the nearer one. -/
def onGrid? (a : Magnitude binary64) (tie : DecimalTie) (i : Int) : Option Decimal :=
  let num := a.units * 10 ^ (-i).toNat
  let den := binary64.scale * 10 ^ i.toNat
  let below := num / den
  let twice := 2 * (num % den)
  match a.roundsFrom ⟨below, i⟩, a.roundsFrom ⟨below + 1, i⟩ with
  | true, true =>
    if twice < den then some ⟨below, i⟩
    else if den < twice then some ⟨below + 1, i⟩
    else some ⟨tie.choose below, i⟩
  | true, false => some ⟨below, i⟩
  | false, true => some ⟨below + 1, i⟩
  | false, false => none

/-- The first hit on the grids from `10 ^ i` downward. -/
def searchGrids (a : Magnitude binary64) (tie : DecimalTie) : Nat → Int → Option Decimal
  | 0, _ => none
  | grids + 1, i =>
    match a.onGrid? tie i with
    | some d => some d
    | none => a.searchGrids tie grids (i - 1)

/-- The decimal expansion of `a` in full. -/
def exactDecimal (a : Magnitude binary64) : Decimal :=
  ⟨a.units * 5 ^ binary64.unitExponent, -binary64.unitExponent⟩

/-- An exponent of ten so large that no multiple of the power rounds to `a`. -/
def coarsestGrid (a : Magnitude binary64) : Int :=
  let bits : Int := bitLength a.units - binary64.unitExponent
  max (bits / 3) (bits / 4) + 2

/-- The shortest decimal that rounds to `a`, and of those the nearest to `a`. -/
def shortest (a : Magnitude binary64) (tie : DecimalTie) : Decimal :=
  let grids := (a.coarsestGrid + binary64.unitExponent).toNat
  (a.searchGrids tie grids a.coarsestGrid).getD a.exactDecimal

end Magnitude

end ValueTypes
