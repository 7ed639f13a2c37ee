import ValueTypes.Number.Double
import ValueTypes.Text.Blank

/-! Numbers read from text. Blank text is zero; a radix mark selects hexadecimal, octal or
binary digits; three words name the infinities; all else is a decimal numeral, and what is none
of these is not-a-number. The parser of floats knows further words, so it is asked only if there is
no letter but the mark of an exponent. -/

namespace ValueTypes

attribute [local instance (2000)] instPowNat

/-- A decimal numeral: `digits` times ten to the `exponent`, with a sign. -/
structure Numeral where
  negative : Bool
  digits : Nat
  exponent : Int
deriving DecidableEq

namespace Numeral

/-- Splits a sign off; without one the numeral is positive. -/
def splitSign : List Char → Bool × List Char
  | '+' :: rest => (false, rest)
  | '-' :: rest => (true, rest)
  | cs => (false, cs)

/-- Splits off the longest run of decimal digits. -/
def splitDigits (cs : List Char) : List Char × List Char :=
  (cs.takeWhile Char.isDigit, cs.dropWhile Char.isDigit)

/-- Splits off a point and the digits behind it, both optional. -/
def splitFraction : List Char → List Char × List Char
  | '.' :: rest => splitDigits rest
  | cs => ([], cs)

def ofDigits (cs : List Char) : Nat :=
  Nat.ofDigitChars 10 cs 0

/-- The number that the digits of an exponent write. Once it has come to `2 ^ 16` further digits
do not count: by then it outweighs any numeral of fewer digits than that. -/
def exponentOfDigits (cs : List Char) : Nat :=
  cs.foldl (fun e c => if e < 0x10000 then 10 * e + (c.toNat - '0'.toNat) else e) 0

/-- Reads an exponent that ends the text: a mark, an optional sign and at least one digit.
No text is the exponent zero. -/
def exponent? : List Char → Option Int
  | [] => some 0
  | mark :: rest =>
    let signed := splitSign rest
    let split := splitDigits signed.2
    let size : Int := exponentOfDigits split.1
    if (mark = 'e' ∨ mark = 'E') ∧ split.1 ≠ [] ∧ split.2 = [] then
      some (if signed.1 then -size else size)
    else none

/-- Reads a decimal numeral: an optional sign, digits with an optional point among them, at
least one digit, and an optional exponent. -/
def parse? (cs : List Char) : Option Numeral :=
  let signed := splitSign cs
  let whole := splitDigits signed.2
  let fraction := splitFraction whole.2
  if whole.1 ++ fraction.1 = [] then none
  else (exponent? fraction.2).map fun e =>
    ⟨signed.1, ofDigits (whole.1 ++ fraction.1), e - fraction.1.length⟩

/-- The double nearest to a numeral. A numeral of `n` digits lies below `10 ^ (n + exponent)`
and, unless it is zero, not below a tenth of that, so that far outside the range of doubles the
power need not be computed. -/
def toDouble (n : Numeral) : Double :=
  let size : Int := (Nat.toDigits 10 n.digits).length + n.exponent
  if n.digits = 0 then .nearest n.negative 0 1
  else if 400 < size then .infinity n.negative
  else if size < -400 then .nearest n.negative 0 1
  else .nearest n.negative (n.digits * 10 ^ n.exponent.toNat) (10 ^ (-n.exponent).toNat)

end Numeral

/-! ### Floats in general -/

/-- The words for what is not finite, in either case. -/
def Double.ofWord? (negative : Bool) (cs : List Char) : Option Double :=
  let word := String.ofList (cs.map Char.toLower)
  if word = "inf" ∨ word = "infinity" then some (.infinity negative)
  else if word = "nan" then some .nan
  else none

/-- Reads a float: a decimal numeral, or a word behind an optional sign. -/
def Double.parse? (cs : List Char) : Option Double :=
  match Numeral.parse? cs with
  | some n => some n.toDouble
  | none =>
    let signed := Numeral.splitSign cs
    ofWord? signed.1 signed.2

/-! ### Radix notation -/

/-- The value of a digit of any radix up to sixteen, in either case. -/
def digitValue? (c : Char) : Option Nat :=
  if '0' ≤ c ∧ c ≤ '9' then some (c.toNat - '0'.toNat)
  else if 'a' ≤ c ∧ c ≤ 'f' then some (c.toNat - 'a'.toNat + 10)
  else if 'A' ≤ c ∧ c ≤ 'F' then some (c.toNat - 'A'.toNat + 10)
  else none

/-- The radix that the letter behind a leading zero selects. -/
def radixOfMark? (c : Char) : Option Nat :=
  if c = 'x' ∨ c = 'X' then some 16
  else if c = 'o' ∨ c = 'O' then some 8
  else if c = 'b' ∨ c = 'B' then some 2
  else none

/-- The number that digits of a radix write, most significant first. -/
def ofRadixDigits? (radix : Nat) (digits : List Char) : Option Nat :=
  digits.foldlM (fun total c =>
    (digitValue? c).bind fun d => if d < radix then some (total * radix + d) else none) 0

/-- Reads an unsigned integer of at most 64 bits in a radix: an optional plus sign and at least
one digit. -/
def ofRadix? (radix : Nat) (cs : List Char) : Option Nat :=
  let digits := match cs with
    | '+' :: rest => rest
    | _ => cs
  if digits = [] then none
  else (ofRadixDigits? radix digits).filter fun n => decide (n < UInt64.size)

/-! ### Text as a number -/

def infinityOfWord? (word : String) : Option Double :=
  if word = "Infinity" ∨ word = "+Infinity" then some (.infinity false)
  else if word = "-Infinity" then some (.infinity true)
  else none

/-- The radix and the rest of a text that opens with a radix mark. -/
def splitRadix? : List Char → Option (Nat × List Char)
  | '0' :: mark :: rest => (radixOfMark? mark).map fun radix => (radix, rest)
  | _ => none

/-- Whether a character is a letter that does not mark an exponent. -/
def isForeignLetter (c : Char) : Bool :=
  c.isAlpha && c != 'e' && c != 'E'

/-- The number that a text writes, once blanks at its ends are dropped. -/
def Double.ofText (text : String) : Double :=
  let cs := Text.trim text.toList
  if cs = [] then .zero
  else match splitRadix? cs with
    | some (radix, rest) => (ofRadix? radix rest).elim .nan fun n => .ofInt n
    | none =>
      match infinityOfWord? (String.ofList cs) with
      | some f => f
      | none => if cs.any isForeignLetter then .nan else (parse? cs).getD .nan

end ValueTypes
