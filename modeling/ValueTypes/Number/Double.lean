import ValueTypes.Number.Format

/-! Double-precision numbers by their exact meaning: every finite one is a whole number of
least units. Not-a-number is one value, so the payload of its encodings is forgotten. -/

namespace ValueTypes

/-- A double-precision number. Zero has both signs. -/
inductive Double where
  | nan
  | infinity (negative : Bool)
  | finite (negative : Bool) (magnitude : Magnitude binary64)
deriving DecidableEq

namespace Double

/-! ### Encoding -/

/-- Reads a biased exponent and a trailing significand. -/
def ofFields (negative : Bool) (exponent : Fin 2048) (trailing : Fin 0x10000000000000) : Double :=
  if he : exponent.val = 2047 then
    if trailing.val = 0 then infinity negative else nan
  else if exponent.val = 0 then
    finite negative ⟨trailing, 0, by simp [BinaryFormat.Canonical, binary64]; omega⟩
  else
    finite negative ⟨0x10000000000000 + trailing, exponent.val - 1, by
      simp [BinaryFormat.Canonical, binary64]; omega⟩

/-- The number that 64 bits encode. -/
def ofBits (bits : UInt64) : Double :=
  ofFields (decide (0x8000000000000000 ≤ bits.toNat))
    ⟨bits.toNat / 0x10000000000000 % 2048, Nat.mod_lt _ (by decide)⟩
    ⟨bits.toNat % 0x10000000000000, Nat.mod_lt _ (by decide)⟩

/-- The place of a magnitude in increasing order, which is its encoding without the sign. -/
def magnitudeBits (a : Magnitude binary64) : Nat :=
  if a.significand < 0x10000000000000 then a.significand
  else (a.shift + 1) * 0x10000000000000 + (a.significand - 0x10000000000000)

/-- The bit that marks a negative number. -/
def signBit (negative : Bool) : Nat :=
  if negative then 0x8000000000000000 else 0

/-- The encoding of a number; not-a-number has the quiet one without payload. -/
def toBits : Double → UInt64
  | nan => 0x7ff8000000000000
  | infinity negative => UInt64.ofNat (signBit negative + 0x7ff0000000000000)
  | finite negative a => UInt64.ofNat (signBit negative + magnitudeBits a)

/-! ### Exact value -/

def isNaN : Double → Bool
  | nan => true
  | _ => false

/-- The exact value of a finite number in units of `2 ^ (-1074)`; `none` for the others. -/
def units? : Double → Option Int
  | finite true a => some (-a.units)
  | finite false a => some a.units
  | _ => none

/-- How many units make one. -/
def one : Int :=
  binary64.scale

/-- The integer that a finite number is equal to, if there is one. -/
def toInt? (f : Double) : Option Int :=
  f.units?.bind fun u => if u % one = 0 then some (u / one) else none

/-- The integer part of a finite number: the fraction is cut off toward zero. -/
def truncate? (f : Double) : Option Int :=
  f.units?.map fun u => u.tdiv one

/-! ### Rounding -/

/-- The double nearest to `num / den` units, with the given sign. -/
def nearestUnits (negative : Bool) (num den : Nat) : Double :=
  (binary64.roundUnits num den).elim (infinity negative) (finite negative)

/-- The double nearest to `num / den`, with the given sign. -/
def nearest (negative : Bool) (num den : Nat) : Double :=
  nearestUnits negative (num * binary64.scale) den

def ofInt (i : Int) : Double :=
  nearest (decide (i < 0)) i.natAbs 1

def zero : Double :=
  ofInt 0

/-- Rounds to single precision. -/
def toSingle : Double → Double
  | nan => nan
  | infinity negative => infinity negative
  | finite negative a =>
    (binary32.round a.units binary64.scale).elim (infinity negative) fun b =>
      nearest negative b.units binary32.scale

/-! ### Comparison and arithmetic -/

/-- Numeric equality: not-a-number differs from itself, and the two zeros are equal. -/
def numEq : Double → Double → Bool
  | infinity a, infinity b => a == b
  | finite s a, finite t b => (finite s a).units? == (finite t b).units?
  | _, _ => false

/-- The sum, rounded to nearest. An exact zero is positive unless both terms are negative. -/
def add : Double → Double → Double
  | infinity a, infinity b => if a = b then infinity a else nan
  | infinity a, finite _ _ => infinity a
  | finite _ _, infinity b => infinity b
  | finite s a, finite t b =>
    let sum := (if s then -(a.units : Int) else a.units) + (if t then -(b.units : Int) else b.units)
    nearestUnits (if sum = 0 then s && t else decide (sum < 0)) sum.natAbs 1
  | _, _ => nan

end Double

end ValueTypes
