import Mathlib.Algebra.Order.Field.Power
import ValueTypes.Number.Numeral
import ValueTypes.Proofs.Number.Nearest

/-! The double of a decimal numeral is the one nearest to its value. Numerals far outside the range
of doubles are decided by their number of digits alone. -/

namespace ValueTypes

namespace Double

theorem overflow_le : binary64.overflow ≤ 10 ^ (400 : ℤ) := by
  have hsplit : (2 : ℚ) ^ 2045 / 2 ^ 1074 = 2 ^ 971 := by
    rw [div_eq_iff (by positivity), ← pow_add]
  have hoverflow : binary64.overflow = (2 ^ 53 - 1 / 2) * 2 ^ 971 := by
    rw [BinaryFormat.overflow, BinaryFormat.overflowUnits, BinaryFormat.scale, Nat.cast_pow,
      Nat.cast_ofNat, mul_div_assoc]
    exact congrArg _ hsplit
  calc binary64.overflow = (2 ^ 53 - 1 / 2) * 2 ^ 971 := hoverflow
    _ ≤ 2 ^ 229 * 2 ^ 971 := mul_le_mul_of_nonneg_right (by norm_num) (by positivity)
    _ = (2 ^ 3) ^ 400 := by rw [← pow_add, ← pow_mul]
    _ ≤ 10 ^ 400 := pow_le_pow_left₀ (by norm_num) (by norm_num) 400
    _ = 10 ^ (400 : ℤ) := (zpow_natCast 10 400).symm

theorem scale_le : (binary64.scale : ℚ) ≤ 1 / 2 * 10 ^ (400 : ℤ) := by
  have hsplit : (2 : ℚ) ^ 1074 = 1 / 2 * 2 ^ 1075 := by
    rw [pow_succ 2 1074, mul_comm, mul_assoc, mul_one_div_cancel two_ne_zero, mul_one]
  have hpow : (2 : ℚ) ^ 1075 ≤ (2 ^ 3) ^ 400 := by
    rw [← pow_mul]
    exact pow_le_pow_right₀ one_le_two (by norm_num)
  have hten : ((2 : ℚ) ^ 3) ^ 400 ≤ 10 ^ 400 := pow_le_pow_left₀ (by norm_num) (by norm_num) 400
  have hscale : (binary64.scale : ℚ) = 2 ^ 1074 := by
    rw [BinaryFormat.scale, Nat.cast_pow, Nat.cast_ofNat]
    rfl
  rw [hscale, hsplit, ← Int.cast_ofNat (R := ℤ), Int.cast_id, zpow_ofNat]
  exact mul_le_mul_of_nonneg_left (hpow.trans hten) (by norm_num)

end Double

namespace Numeral

/-- The number that a numeral writes, without its sign. -/
def magnitude (n : Numeral) : ℚ :=
  n.digits * 10 ^ n.exponent

theorem magnitude_nonneg (n : Numeral) : 0 ≤ n.magnitude :=
  mul_nonneg (Nat.cast_nonneg _) (zpow_nonneg (by norm_num) _)

/-- The place of the point, counted from before the first digit. -/
def size (n : Numeral) : ℤ :=
  (Nat.toDigits 10 n.digits).length + n.exponent

theorem magnitude_lt (n : Numeral) : n.magnitude < 10 ^ n.size := by
  have hlt : n.digits < 10 ^ (Nat.toDigits 10 n.digits).length :=
    (Nat.length_toDigits_le_iff (by decide) Nat.length_toDigits_pos).mp le_rfl
  have hcast : (n.digits : ℚ) < 10 ^ (Nat.toDigits 10 n.digits).length := by exact_mod_cast hlt
  rw [magnitude, size, zpow_add₀ (by norm_num), zpow_natCast]
  exact mul_lt_mul_of_pos_right hcast (zpow_pos (by norm_num) _)

theorem le_magnitude {n : Numeral} (h : n.digits ≠ 0) : 10 ^ (n.size - 1) ≤ n.magnitude := by
  have hpos : 0 < (Nat.toDigits 10 n.digits).length := Nat.length_toDigits_pos
  have hle : 10 ^ ((Nat.toDigits 10 n.digits).length - 1) ≤ n.digits := by
    by_contra hlt
    rcases Nat.eq_zero_or_pos ((Nat.toDigits 10 n.digits).length - 1) with hone | hmore
    · rw [hone, Nat.pow_zero] at hlt
      omega
    · have hlength := (Nat.length_toDigits_le_iff (by decide) hmore).mpr (not_le.mp hlt)
      omega
  have hcast : (10 : ℚ) ^ ((Nat.toDigits 10 n.digits).length - 1) ≤ n.digits := by
    exact_mod_cast hle
  have hsize : n.size - 1 = ((Nat.toDigits 10 n.digits).length - 1 : ℕ) + n.exponent := by
    rw [size]
    omega
  rw [magnitude, hsize, zpow_add₀ (by norm_num), zpow_natCast]
  exact mul_le_mul_of_nonneg_right hcast (zpow_nonneg (by norm_num) _)

/-- A numeral as a quotient of naturals. -/
theorem magnitude_eq_div (n : Numeral) :
    n.magnitude = (n.digits * 10 ^ n.exponent.toNat : ℕ) / (10 ^ (-n.exponent).toNat : ℕ) := by
  have hten : (10 : ℚ) ≠ 0 := by norm_num
  rw [magnitude]
  push_cast
  rw [mul_div_assoc, ← zpow_natCast, ← zpow_natCast, ← zpow_sub₀ hten]
  congr 2
  omega

/-- A numeral with more than 400 digits in front of its point is beyond all doubles. -/
theorem nearest_infinity {n : Numeral} (hdigits : n.digits ≠ 0) (hsize : 400 < n.size) :
    Double.Nearest n.negative n.magnitude (.infinity n.negative) := by
  refine .infinity (Double.overflow_le.trans ?_)
  exact (zpow_le_zpow_right₀ (by norm_num) (Int.le_sub_one_of_lt hsize)).trans (le_magnitude hdigits)

/-- A numeral with more than 400 zeros behind its point is nearest to zero. -/
theorem nearest_zero {n : Numeral} (hsize : n.size < -400) :
    Double.Nearest n.negative n.magnitude (.nearest n.negative 0 1) := by
  refine Double.nearest_zero_of_lt _ n.magnitude_nonneg ?_
  calc n.magnitude * binary64.scale ≤ n.magnitude * (1 / 2 * 10 ^ (400 : ℤ)) :=
        mul_le_mul_of_nonneg_left Double.scale_le n.magnitude_nonneg
    _ < 10 ^ (-400 : ℤ) * (1 / 2 * 10 ^ (400 : ℤ)) :=
        mul_lt_mul_of_pos_right
          (n.magnitude_lt.trans (zpow_lt_zpow_right₀ (by norm_num) hsize)) (by positivity)
    _ = 1 / 2 := by
        rw [zpow_neg, mul_left_comm, inv_mul_cancel₀ (zpow_ne_zero _ (by norm_num)), mul_one]

theorem nearest_of_digits_eq_zero {n : Numeral} (hzero : n.digits = 0) :
    Double.Nearest n.negative n.magnitude (.nearest n.negative 0 1) := by
  have hmagnitude : n.magnitude = (0 : ℕ) / (1 : ℕ) := by
    rw [magnitude, hzero, Nat.cast_zero, zero_mul, zero_div]
  rw [hmagnitude]
  exact Double.nearest_nearest _ _ Nat.one_pos

/-- The double that a numeral is read as is the nearest to it. -/
theorem toDouble_nearest (n : Numeral) : Double.Nearest n.negative n.magnitude n.toDouble := by
  unfold toDouble
  dsimp only
  split
  · rename_i hzero
    exact nearest_of_digits_eq_zero hzero
  · rename_i hdigits
    split
    · rename_i hlarge
      exact nearest_infinity hdigits hlarge
    · split
      · rename_i hsmall
        exact nearest_zero hsmall
      · rw [magnitude_eq_div]
        exact Double.nearest_nearest _ _ (Nat.pow_pos (by decide))

/-- Of a numeral of more than 400 digits in front of its point, or of more than 400 zeros behind
it, nothing else matters. -/
theorem toDouble_nearest_of_size {m n : Numeral} (hnegative : m.negative = n.negative)
    (hdigits : m.digits = n.digits)
    (hsize : 400 < m.size ∧ 400 < n.size ∨ m.size < -400 ∧ n.size < -400) :
    Double.Nearest n.negative n.magnitude m.toDouble := by
  unfold toDouble
  dsimp only
  rw [hnegative]
  split
  · rename_i hzero
    exact nearest_of_digits_eq_zero (hdigits ▸ hzero)
  · rename_i hne
    rcases hsize with ⟨hm, hn⟩ | ⟨hm, hn⟩
    · rw [if_pos (show 400 < ((Nat.toDigits 10 m.digits).length : ℤ) + m.exponent from hm)]
      exact nearest_infinity (hdigits ▸ hne) hn
    · have hnot : ¬ 400 < ((Nat.toDigits 10 m.digits).length : ℤ) + m.exponent := by
        rw [size] at hm
        omega
      rw [if_neg hnot, if_pos (show ((Nat.toDigits 10 m.digits).length : ℤ) + m.exponent < -400 from hm)]
      exact nearest_zero hn

end Numeral

end ValueTypes
