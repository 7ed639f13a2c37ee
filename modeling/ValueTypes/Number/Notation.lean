import ValueTypes.Number.Shortest

/-! Two ways to write a double: the text that it converts to, which turns to an exponent for
very large and very small numbers, and the positional form of debug texts. -/

namespace ValueTypes

attribute [local instance (2000)] instPowNat

namespace Decimal

def digitChars (d : Decimal) : List Char :=
  Nat.toDigits 10 d.digits

/-- The place of the point, counted from before the first digit. -/
def point (d : Decimal) : Int :=
  d.digitChars.length + d.exponent

def zeros (n : Int) : List Char :=
  List.replicate n.toNat '0'

/-- Digits without exponent; a whole number has no point. -/
def positional (d : Decimal) : List Char :=
  if 0 ≤ d.exponent then d.digitChars ++ zeros d.exponent
  else if 0 < d.point then
    d.digitChars.take d.point.toNat ++ '.' :: d.digitChars.drop d.point.toNat
  else '0' :: '.' :: (zeros (-d.point) ++ d.digitChars)

/-- One digit, the others behind a point, and the exponent. -/
def scientific (d : Decimal) : List Char :=
  let fraction := d.digitChars.drop 1
  let exponent := (toString (d.point - 1)).toList
  d.digitChars.take 1 ++ (if fraction = [] then [] else '.' :: fraction) ++ 'e' :: exponent

/-- Positional up to sixteen places before the point and five zeros behind it, and with a
fraction in any case; scientific beyond that. -/
def compact (d : Decimal) : List Char :=
  if -5 < d.point ∧ d.point ≤ 16 then
    if 0 ≤ d.exponent then d.positional ++ ['.', '0'] else d.positional
  else d.scientific

end Decimal

/-- Digits behind a minus sign if the number is negative. -/
def Double.signed (negative : Bool) (digits : List Char) : String :=
  String.ofList (if negative then '-' :: digits else digits)

/-- A way to print integers, and finite doubles that are not printed as integers. -/
structure Printer where
  integer : Int → String
  finite : Bool → Magnitude binary64 → String

/-- Prints integers in plain digits, and doubles by their shortest decimals. -/
def Printer.shortest : Printer where
  integer i := toString i
  finite negative a := Double.signed negative (a.shortest .toEven).compact

namespace Double

/-- The text that a number converts to: whole numbers below `10 ^ 21` are printed as integers. -/
def textWith (printer : Printer) : Double → String
  | nan => "NaN"
  | infinity negative => signed negative "Infinity".toList
  | finite negative a =>
    if a.units % binary64.scale = 0 ∧ a.units < 10 ^ (21 : Nat) * binary64.scale then
      let whole : Int := (a.units / binary64.scale : Nat)
      printer.integer (if negative then -whole else whole)
    else printer.finite negative a

/-- The number in a debug text: always positional, with the sign of zero. -/
def debug : Double → String
  | nan => "NaN"
  | infinity negative => signed negative "inf".toList
  | finite negative a =>
    signed negative (if a.units = 0 then ['0'] else (a.shortest .up).positional)

end Double

end ValueTypes
