import ValueTypes.Number.Notation
import ValueTypes.Proofs.Number.Interval
import ValueTypes.Proofs.Number.Spelling

/-! Printed numbers. The shortest decimal of a double has that double as its nearest, and every way
to write it is a spelling of its value. -/

namespace ValueTypes

attribute [local instance (2000)] instPowNat

/-! ### The shortest decimal -/

namespace Magnitude

variable {a : Magnitude binary64} {tie : DecimalTie} {d : Decimal}

theorem roundsFrom_of_onGrid? {i : ℤ} (h : a.onGrid? tie i = some d) : a.roundsFrom d = true := by
  rw [onGrid?] at h
  split at h
  · rename_i hbelow habove
    split at h
    · cases h
      exact hbelow
    · split at h
      · cases h
        exact habove
      · cases h
        cases tie with
        | up => exact habove
        | toEven =>
            rw [DecimalTie.choose]
            rcases Nat.mod_two_eq_zero_or_one
              (a.units * 10 ^ (-i).toNat / (binary64.scale * 10 ^ i.toNat)) with heven | hodd
            · rw [heven]
              exact hbelow
            · rw [hodd]
              exact habove
  · rename_i hbelow _
    cases h
    exact hbelow
  · rename_i _ habove
    cases h
    exact habove
  · cases h

/-- Whatever the search finds rounds to the magnitude. The induction is on the grids that are left.
-/
theorem roundsFrom_of_searchGrids {grids : ℕ} {i : ℤ} (h : a.searchGrids tie grids i = some d) :
    a.roundsFrom d = true := by
  induction grids generalizing i with
  | zero => cases h
  | succ grids ih =>
      rw [searchGrids] at h
      split at h
      · rename_i hfound
        cases h
        exact roundsFrom_of_onGrid? hfound
      · exact ih h

/-- The full expansion of a magnitude is exact. -/
theorem nearest_exactDecimal (a : Magnitude binary64) (negative : Bool) :
    Double.Nearest negative a.exactDecimal.value (.finite negative a) := by
  have hexact : a.exactDecimal.num * binary64.scale = a.units * a.exactDecimal.den := by
    rw [Decimal.num, Decimal.den, exactDecimal, BinaryFormat.scale]
    generalize binary64.unitExponent = e
    have hzero : (-(e : ℤ)).toNat = 0 := by omega
    have hwhole : (- -(e : ℤ)).toNat = e := by omega
    rw [hzero, hwhole, Nat.pow_zero, Nat.mul_one, Nat.mul_assoc, ← Nat.mul_pow]
  have hnearest := Double.nearest_nearest negative a.exactDecimal.num a.exactDecimal.den_pos
  rw [Double.nearest_of_units negative a a.exactDecimal.den_pos hexact] at hnearest
  rwa [Decimal.value_eq_div]

/-- A double is the nearest to its shortest decimal. -/
theorem nearest_shortest (a : Magnitude binary64) (tie : DecimalTie) (negative : Bool) :
    Double.Nearest negative (a.shortest tie).value (.finite negative a) := by
  rw [shortest]
  cases hfound : a.searchGrids tie (a.coarsestGrid + binary64.unitExponent).toNat
    a.coarsestGrid with
  | some d => exact nearest_of_roundsFrom (roundsFrom_of_searchGrids hfound) negative
  | none => exact a.nearest_exactDecimal negative

end Magnitude

/-! ### Spelled numbers -/

open Numeral (Digits Exponent Spelling ofDigits signChars applySign)

/-- The sign that is written in front of a number. -/
def minus (negative : Bool) : Option Bool :=
  if negative then some true else none

theorem getD_minus (negative : Bool) : (minus negative).getD false = negative := by
  cases negative <;> rfl

theorem toList_toString_int (i : ℤ) :
    (toString i).toList = signChars (minus (decide (i < 0))) ++ Nat.toDigits 10 i.natAbs := by
  cases i with
  | ofNat n =>
      have htext : toString (Int.ofNat n) = toString n := rfl
      have hsign : decide (Int.ofNat n < 0) = false := decide_eq_false (by simp)
      rw [htext, hsign, Nat.toString_eq_repr, Nat.toList_repr]
      rfl
  | negSucc n =>
      have htext : toString (Int.negSucc n) = "-" ++ toString (n + 1) := rfl
      have hsign : decide (Int.negSucc n < 0) = true := decide_eq_true (Int.negSucc_lt_zero n)
      rw [htext, hsign, String.toList_append, Nat.toString_eq_repr, Nat.toList_repr]
      rfl

/-- The digits of a number. -/
def decimalDigits (n : ℕ) : Digits :=
  ⟨Nat.toDigits 10 n, fun _ => Nat.isDigit_of_mem_toDigits (by decide) (by decide)⟩

theorem value_decimalDigits (n : ℕ) : (decimalDigits n).value = n :=
  Nat.ofDigitChars_ten_toDigits

/-- A whole number as it is written. -/
def wholeSpelling (sign : Option Bool) (n : ℕ) : Spelling :=
  ⟨sign, decimalDigits n, none, none, by
    rw [Option.elim_none, List.append_nil]
    exact Nat.toDigits_ne_nil⟩

theorem text_wholeSpelling (sign : Option Bool) (n : ℕ) :
    (wholeSpelling sign n).text = signChars sign ++ Nat.toDigits 10 n := by
  simp [Spelling.text, Spelling.tail, Spelling.exponentText, wholeSpelling, decimalDigits]

theorem magnitude_wholeSpelling (sign : Option Bool) (n : ℕ) :
    (wholeSpelling sign n).magnitude = n := by
  simp [Spelling.magnitude, Spelling.places, wholeSpelling, value_decimalDigits, ofDigits]

/-- An exponent as it is written. -/
def exponentSpelling (i : ℤ) : Exponent :=
  ⟨'e', minus (decide (i < 0)), decimalDigits i.natAbs, .inl rfl, Nat.toDigits_ne_nil⟩

theorem text_exponentSpelling (i : ℤ) : (exponentSpelling i).text = 'e' :: (toString i).toList := by
  rw [toList_toString_int]
  rfl

theorem value_exponentSpelling (i : ℤ) : (exponentSpelling i).value = i := by
  simp only [Exponent.value, applySign, exponentSpelling, value_decimalDigits, getD_minus,
    decide_eq_true_iff]
  split <;> omega

namespace Decimal

variable {d : Decimal}

theorem isDigit_digitChars (d : Decimal) : ∀ c ∈ d.digitChars, c.isDigit = true :=
  (decimalDigits d.digits).isDigit

theorem isDigit_take (d : Decimal) (n : ℕ) : ∀ c ∈ d.digitChars.take n, c.isDigit = true := by
  intro c hc
  exact d.isDigit_digitChars c (List.mem_of_mem_take hc)

theorem isDigit_drop (d : Decimal) (n : ℕ) : ∀ c ∈ d.digitChars.drop n, c.isDigit = true := by
  intro c hc
  exact d.isDigit_digitChars c (List.mem_of_mem_drop hc)

theorem take_append_drop_ne_nil (d : Decimal) (n : ℕ) :
    d.digitChars.take n ++ d.digitChars.drop n ≠ [] := by
  rw [List.take_append_drop]
  exact Nat.toDigits_ne_nil

theorem ofDigits_digitChars (d : Decimal) : ofDigits d.digitChars = d.digits :=
  value_decimalDigits d.digits

theorem isDigit_zeros (n : ℤ) : ∀ c ∈ zeros n, c.isDigit = true := by
  intro c hc
  rw [List.eq_of_mem_replicate hc]
  rfl

theorem ofDigits_zeros (n : ℤ) : ofDigits (zeros n) = 0 := by
  rw [ofDigits, zeros, Nat.ofDigitChars_replicate_zero, Nat.mul_zero]

/-- Whether a spelling writes a decimal with given characters behind the sign. -/
structure Spells (d : Decimal) (sign : Option Bool) (cs : List Char) (s : Spelling) : Prop where
  text : s.text = signChars sign ++ cs
  sign : s.sign = sign
  magnitude : s.magnitude = d.value
  exponent : ∀ e ∈ s.exponent, e.digits.value = (d.point - 1).natAbs

theorem magnitude_eq_value {s : Spelling}
    (hdigits : ofDigits (s.whole.chars ++ s.places) = d.digits)
    (hexponent : s.exponent.elim 0 Exponent.value - s.places.length = d.exponent) :
    s.magnitude = d.value := by
  rw [← s.magnitude_numeral, Numeral.magnitude, Spelling.numeral, hdigits, hexponent, value]

theorem exists_positional_whole (d : Decimal) (sign : Option Bool) (h : 0 ≤ d.exponent) :
    ∃ s, d.Spells sign (d.positional ++ ['.', '0']) s := by
  have hdigits : ∀ c ∈ d.digitChars ++ zeros d.exponent, c.isDigit = true :=
    List.forall_mem_append.mpr ⟨d.isDigit_digitChars, isDigit_zeros _⟩
  have hzero : ∀ c ∈ ['0'], c.isDigit = true := List.forall_mem_singleton.mpr rfl
  refine ⟨⟨sign, ⟨_, hdigits⟩, some ⟨_, hzero⟩, none, by simp⟩, ?_, rfl, ?_, by simp⟩
  · simp [Spelling.text, Spelling.tail, Spelling.exponentText, positional, h]
  · -- The zeros are digits here, so the digits are not those of the decimal.
    obtain ⟨k, hk⟩ := Int.eq_ofNat_of_zero_le h
    have hlength : (zeros d.exponent).length = k := by simp [zeros, hk]
    have hplaces : ofDigits ['0'] = 0 := rfl
    rw [Spelling.magnitude]
    simp only [Digits.value, Spelling.places, Option.elim_some, Option.elim_none]
    rw [Numeral.ofDigits_append, ofDigits_digitChars, ofDigits_zeros, hplaces, hlength, value, hk]
    push_cast
    simp [mul_comm]

/-- A point among the digits. -/
theorem exists_positional_point (d : Decimal) (sign : Option Bool) (h : d.exponent < 0)
    (hpoint : 0 < d.point) : ∃ s, d.Spells sign d.positional s := by
  refine ⟨⟨sign, ⟨_, d.isDigit_take d.point.toNat⟩, some ⟨_, d.isDigit_drop d.point.toNat⟩, none,
    d.take_append_drop_ne_nil d.point.toNat⟩, ?_, rfl, ?_, by simp⟩
  · have hnot : ¬ 0 ≤ d.exponent := by omega
    simp [Spelling.text, Spelling.tail, Spelling.exponentText, positional, hnot, hpoint]
  · apply magnitude_eq_value
    · simp only [Spelling.places, Option.elim_some, List.take_append_drop]
      exact d.ofDigits_digitChars
    · simp only [Spelling.places, Option.elim_some, Option.elim_none, List.length_drop]
      rw [point] at hpoint ⊢
      omega

/-- All digits behind the point, and zeros in front of them. -/
theorem exists_positional_small (d : Decimal) (sign : Option Bool) (h : d.exponent < 0)
    (hpoint : d.point ≤ 0) : ∃ s, d.Spells sign d.positional s := by
  have hzero : ∀ c ∈ ['0'], c.isDigit = true := List.forall_mem_singleton.mpr rfl
  have hdigits : ∀ c ∈ zeros (-d.point) ++ d.digitChars, c.isDigit = true :=
    List.forall_mem_append.mpr ⟨isDigit_zeros _, d.isDigit_digitChars⟩
  refine ⟨⟨sign, ⟨_, hzero⟩, some ⟨_, hdigits⟩, none, by simp⟩, ?_, rfl, ?_, by simp⟩
  · have hnot : ¬ 0 ≤ d.exponent := by omega
    have hnot' : ¬ 0 < d.point := by omega
    simp [Spelling.text, Spelling.tail, Spelling.exponentText, positional, hnot, hnot']
  · apply magnitude_eq_value
    · have hfront : ofDigits ['0'] = 0 := rfl
      simp only [Spelling.places, Option.elim_some]
      rw [Numeral.ofDigits_append, Numeral.ofDigits_append, hfront, ofDigits_zeros,
        ofDigits_digitChars]
      omega
    · simp only [Spelling.places, Option.elim_some, Option.elim_none, List.length_append, zeros,
        List.length_replicate]
      rw [point] at hpoint ⊢
      omega

theorem exists_scientific (d : Decimal) (sign : Option Bool) :
    ∃ s, d.Spells sign d.scientific s := by
  obtain ⟨fraction, hplaces, htail⟩ : ∃ fraction : Option Digits,
      fraction.elim [] Digits.chars = d.digitChars.drop 1 ∧
        fraction.elim [] (fun ds => '.' :: ds.chars) =
          if d.digitChars.drop 1 = [] then [] else '.' :: d.digitChars.drop 1 := by
    by_cases hrest : d.digitChars.drop 1 = []
    · exact ⟨none, hrest.symm, by rw [if_pos hrest]; rfl⟩
    · exact ⟨some ⟨_, d.isDigit_drop 1⟩, rfl, by rw [if_neg hrest]; rfl⟩
  have hne : d.digitChars.take 1 ++ fraction.elim [] Digits.chars ≠ [] := by
    rw [hplaces]
    exact d.take_append_drop_ne_nil 1
  refine ⟨⟨sign, ⟨_, d.isDigit_take 1⟩, fraction, some (exponentSpelling (d.point - 1)), hne⟩, ?_,
    rfl, ?_, ?_⟩
  · rw [Spelling.text, Spelling.tail, Spelling.exponentText, htail, Option.elim_some,
      text_exponentSpelling, scientific, List.append_assoc]
  · apply magnitude_eq_value
    · simp only [Spelling.places, hplaces, List.take_append_drop]
      exact d.ofDigits_digitChars
    · have hlength : 0 < d.digitChars.length := Nat.length_toDigits_pos
      simp only [Spelling.places, hplaces, Option.elim_some, value_exponentSpelling,
        List.length_drop, point]
      omega
  · rintro e he
    cases he
    exact value_decimalDigits _

/-- However a decimal is written, it is a spelling of its value. -/
theorem exists_compact (d : Decimal) (sign : Option Bool) : ∃ s, d.Spells sign d.compact s := by
  rw [compact]
  split
  · split
    · rename_i h
      exact d.exists_positional_whole sign h
    · rename_i h
      rcases Int.lt_or_le 0 d.point with hpoint | hpoint
      · exact d.exists_positional_point sign (by omega) hpoint
      · exact d.exists_positional_small sign (by omega) hpoint
  · exact d.exists_scientific sign

/-- The point of a decimal is not far from its digits if a double other than zero is nearest to
it. -/
theorem natAbs_point_le {negative : Bool} {a : Magnitude binary64} (hunits : a.units ≠ 0)
    (h : Double.Nearest negative d.value (.finite negative a)) : d.point.natAbs ≤ 400 := by
  let n : Numeral := ⟨negative, d.digits, d.exponent⟩
  have hzero : ¬ Double.Nearest negative d.value (.nearest negative 0 1) := by
    intro hzero
    have heq := h.unique hzero
    rw [Double.nearest_zero] at heq
    cases heq
    exact hunits (Nat.zero_mul _)
  have hdigits : d.digits ≠ 0 := by
    intro hdigits
    exact hzero (Numeral.nearest_of_digits_eq_zero (n := n) hdigits)
  have hsmall : ¬ d.point < -400 := by
    intro hpoint
    exact hzero (Numeral.nearest_zero (n := n) hpoint)
  have hlarge : ¬ 400 < d.point := by
    intro hpoint
    cases h.unique (Numeral.nearest_infinity (n := n) hdigits hpoint)
  omega

theorem Spells.moderate {sign : Option Bool} {cs : List Char} {s : Spelling}
    (hs : d.Spells sign cs s) (h : d.point.natAbs ≤ 400) : s.Moderate := by
  left
  intro e he
  rw [hs.exponent e he]
  omega

end Decimal

end ValueTypes
