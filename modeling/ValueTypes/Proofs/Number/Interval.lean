import ValueTypes.Number.Shortest
import ValueTypes.Proofs.Number.Decimal

/-! The interval of numbers that round to a double. Magnitudes keep a distance from their
neighbours: a whole step upward and downward, but only half a step below a power of two. A decimal
within half of that distance has the double as its nearest. -/

namespace ValueTypes

attribute [local instance (2000)] instPowNat

namespace Magnitude

variable {fmt : BinaryFormat}

/-! ### Neighbours -/

/-- The distance from a magnitude to the next one below it. -/
def gapBelow (a : Magnitude fmt) : ℕ :=
  if a.significand = 2 ^ (fmt.precision - 1) ∧ a.shift ≠ 0 then 2 ^ (a.shift - 1) else 2 ^ a.shift

theorem gapBelow_le (a : Magnitude fmt) : a.gapBelow ≤ 2 ^ a.shift := by
  rw [gapBelow]
  split
  · exact Nat.pow_le_pow_right two_pos (Nat.sub_le ..)
  · exact le_rfl

/-- A magnitude is a multiple of the steps of smaller shifts. -/
theorem exists_units_eq_mul (b : Magnitude fmt) {s : ℕ} (h : s ≤ b.shift) :
    ∃ n, b.units = n * 2 ^ s := by
  refine ⟨b.significand * 2 ^ (b.shift - s), ?_⟩
  rw [units, Nat.mul_assoc, ← Nat.pow_add, Nat.sub_add_cancel h]

theorem full_of_shift_ne_zero (a : Magnitude fmt) (h : a.shift ≠ 0) :
    2 ^ (fmt.precision - 1) ≤ a.significand :=
  a.canonical.2.1.resolve_left h

theorem units_add_le (hp : 2 ≤ fmt.precision) {a b : Magnitude fmt} (h : a.units < b.units) :
    a.units + 2 ^ a.shift ≤ b.units := by
  by_cases hshift : a.shift ≤ b.shift
  · obtain ⟨n, hn⟩ := b.exists_units_eq_mul hshift
    rw [hn, units] at h ⊢
    have hlt := Nat.lt_of_mul_lt_mul_right h
    rw [← Nat.succ_mul]
    exact Nat.mul_le_mul_right _ hlt
  · have hbelow := BinaryFormat.units_lt_of_shift_lt hp b (not_le.mp hshift)
    have habove := Nat.mul_le_mul_right (2 ^ a.shift) (a.full_of_shift_ne_zero (by omega))
    rw [← units] at habove
    omega

theorem units_add_gapBelow_le (hp : 2 ≤ fmt.precision) {a b : Magnitude fmt}
    (h : b.units < a.units) : b.units + a.gapBelow ≤ a.units := by
  by_cases hshift : a.shift ≤ b.shift
  · obtain ⟨n, hn⟩ := b.exists_units_eq_mul hshift
    have hgap := a.gapBelow_le
    rw [hn, units] at h ⊢
    have hlt := Nat.lt_of_mul_lt_mul_right h
    have hle := Nat.mul_le_mul_right (2 ^ a.shift) (Nat.succ_le_of_lt hlt)
    rw [Nat.succ_mul] at hle
    omega
  · have hne : a.shift ≠ 0 := by omega
    have hfull := a.full_of_shift_ne_zero hne
    rw [gapBelow]
    split
    · -- Below a power of two the steps are half as large.
      rename_i hpower
      have hhalf : a.units = 2 ^ fmt.precision * 2 ^ (a.shift - 1) := by
        rw [units, hpower.1, ← BinaryFormat.two_mul_half_precision hp, Nat.mul_comm 2,
          Nat.mul_assoc, ← Nat.pow_succ', Nat.succ_eq_add_one,
          Nat.sub_add_cancel (Nat.pos_of_ne_zero hne)]
      have hshift' : 2 ^ b.shift ≤ 2 ^ (a.shift - 1) := Nat.pow_le_pow_right two_pos (by omega)
      have hle := Nat.mul_le_mul (Nat.le_sub_one_of_lt b.canonical.1) hshift'
      rw [← units, Nat.sub_mul, Nat.one_mul, ← hhalf] at hle
      have hpos : 2 ^ (a.shift - 1) ≤ a.units := by
        rw [hhalf]
        exact Nat.le_mul_of_pos_left _ (Nat.two_pow_pos _)
      omega
    · rename_i hother
      have hbelow := BinaryFormat.units_lt_of_shift_lt hp b (not_le.mp hshift)
      have hmore : 2 ^ (fmt.precision - 1) + 1 ≤ a.significand := by
        have hnot : a.significand ≠ 2 ^ (fmt.precision - 1) := fun heq => hother ⟨heq, hne⟩
        omega
      have hle := Nat.mul_le_mul_right (2 ^ a.shift) hmore
      rw [← units, Nat.succ_mul] at hle
      omega

/-! ### The rounding interval -/

/-- Whether a number of units is within half of the distance to either neighbour. Halfway only
magnitudes with even significands are taken. -/
structure Within (a : Magnitude fmt) (x : ℚ) : Prop where
  lower : a.units - (a.gapBelow : ℚ) / 2 ≤ x
  upper : x ≤ a.units + 2 ^ a.shift / 2
  inside : ¬ Even a.significand →
    a.units - (a.gapBelow : ℚ) / 2 < x ∧ x < a.units + 2 ^ a.shift / 2

namespace Within

variable {a : Magnitude fmt} {x : ℚ}

/-- No other magnitude is nearer, and if one is as near, the significand is even. -/
theorem distance_le (h : a.Within x) (hp : 2 ≤ fmt.precision) {b : Magnitude fmt}
    (hne : b.units ≠ a.units) :
    |x - a.units| ≤ |x - b.units| ∧ (¬ Even a.significand → |x - a.units| < |x - b.units|) := by
  obtain ⟨hlower, hupper, hinside⟩ := h
  rcases Nat.lt_or_gt_of_ne hne with hlt | hgt
  · have hgap : (b.units : ℚ) + a.gapBelow ≤ a.units := by
      exact_mod_cast units_add_gapBelow_le hp hlt
    have hpos : (b.units : ℚ) < a.units := Nat.cast_lt.mpr hlt
    have hdistance : |x - b.units| = x - b.units := abs_of_nonneg (by linarith)
    rw [hdistance, abs_le, abs_lt]
    refine ⟨⟨by linarith, by linarith⟩, fun hodd => ?_⟩
    have hstrict := (hinside hodd).1
    exact ⟨by linarith, by linarith⟩
  · have hgap : (a.units : ℚ) + 2 ^ a.shift ≤ b.units := by
      exact_mod_cast units_add_le hp hgt
    have hpos : (a.units : ℚ) < b.units := Nat.cast_lt.mpr hgt
    have hdistance : |x - b.units| = b.units - x := by
      rw [abs_sub_comm]
      exact abs_of_nonneg (by linarith)
    rw [hdistance, abs_le, abs_lt]
    refine ⟨⟨by linarith, by linarith⟩, fun hodd => ?_⟩
    have hstrict := (hinside hodd).2
    exact ⟨by linarith, by linarith⟩

theorem isNearest (h : a.Within x) (hp : 2 ≤ fmt.precision) :
    IsNearest (fun b : Magnitude fmt => (b.units : ℚ)) (fun b => Even b.significand) x a := by
  constructor
  · intro b
    by_cases hne : b.units = a.units
    · rw [hne]
    · exact (h.distance_le hp hne).1
  · intro b hb heq
    by_contra hodd
    have hlt := (h.distance_le hp fun hunits => hb (by rw [hunits])).2 hodd
    exact hlt.ne heq.symm

/-- A number in the interval does not overflow: half a step above the largest magnitude does, but
that has an odd significand. -/
theorem lt_overflowUnits (h : a.Within x) (hp : 2 ≤ fmt.precision) : x < fmt.overflowUnits := by
  have hstep : (0 : ℚ) < 2 ^ a.shift := by positivity
  have hshift : (2 : ℚ) ^ a.shift ≤ 2 ^ fmt.maxShift :=
    pow_le_pow_right₀ one_le_two a.canonical.2.2
  have hunits : (a.units : ℚ) = a.significand * 2 ^ a.shift := by
    rw [units]
    push_cast
    rfl
  have hfull : (2 : ℚ) ≤ 2 ^ fmt.precision := le_self_pow₀ one_le_two (by omega)
  have hlt := a.canonical.1
  have hbound : (a.significand + 1 / 2 : ℚ) * 2 ^ a.shift ≤
      (2 ^ fmt.precision - 1 / 2) * 2 ^ fmt.maxShift := by
    have hle : (a.significand : ℚ) + 1 ≤ 2 ^ fmt.precision := by exact_mod_cast hlt
    apply mul_le_mul _ hshift hstep.le <;> linarith
  rw [BinaryFormat.overflowUnits]
  by_cases heven : Even a.significand
  · have hmore : a.significand + 2 ≤ 2 ^ fmt.precision := by
      have hpower : Even (2 ^ fmt.precision) := even_two.pow_of_ne_zero (by omega)
      rw [Nat.even_iff] at heven hpower
      omega
    have hle : (a.significand : ℚ) + 2 ≤ 2 ^ fmt.precision := by exact_mod_cast hmore
    have hless : (a.significand + 1 / 2 : ℚ) * 2 ^ a.shift <
        (2 ^ fmt.precision - 1 / 2) * 2 ^ fmt.maxShift := by
      apply mul_lt_mul _ hshift hstep <;> linarith
    have hupper := h.upper
    linarith
  · have hupper := (h.inside heven).2
    linarith

end Within

end Magnitude

/-! ### Decimals -/

namespace Decimal

/-- The number that a decimal is. -/
def value (d : Decimal) : ℚ :=
  d.digits * 10 ^ d.exponent

theorem den_pos (d : Decimal) : 0 < d.den :=
  Nat.pow_pos (by decide)

theorem value_eq_div (d : Decimal) : d.value = d.num / d.den :=
  Numeral.magnitude_eq_div ⟨false, d.digits, d.exponent⟩

theorem quarters_le_iff (d : Decimal) (q : ℕ) :
    q * d.den ≤ d.num * (4 * binary64.scale) ↔ (q : ℚ) / 4 ≤ d.value * binary64.scale := by
  have hden : (0 : ℚ) < d.den := Nat.cast_pos.mpr d.den_pos
  rw [value_eq_div, div_mul_eq_mul_div, div_le_div_iff₀ (by norm_num) hden, mul_assoc,
    mul_comm (binary64.scale : ℚ) 4]
  exact_mod_cast Iff.rfl

theorem le_quarters_iff (d : Decimal) (q : ℕ) :
    d.num * (4 * binary64.scale) ≤ q * d.den ↔ d.value * binary64.scale ≤ (q : ℚ) / 4 := by
  have hden : (0 : ℚ) < d.den := Nat.cast_pos.mpr d.den_pos
  rw [value_eq_div, div_mul_eq_mul_div, div_le_div_iff₀ hden (by norm_num), mul_assoc,
    mul_comm (binary64.scale : ℚ) 4]
  exact_mod_cast Iff.rfl

end Decimal

namespace Magnitude

variable {a : Magnitude binary64} {d : Decimal}

theorem lowerQuarters_eq (a : Magnitude binary64) :
    a.lowerQuarters = 4 * a.units - 2 * a.gapBelow := by
  rw [lowerQuarters, gapBelow]
  split
  · rename_i hpower
    rw [← Nat.pow_succ', Nat.succ_eq_add_one, Nat.sub_add_cancel (Nat.pos_of_ne_zero hpower.2)]
  · rfl

/-- The test on quarters of units is for the interval. -/
theorem within_of_roundsFrom (h : a.roundsFrom d = true) :
    a.Within (d.value * binary64.scale) := by
  have hlower : (a.units : ℚ) - a.gapBelow / 2 ≤ (a.lowerQuarters : ℚ) / 4 := by
    have hle : 4 * a.units ≤ a.lowerQuarters + 2 * a.gapBelow := by
      rw [lowerQuarters_eq]
      omega
    have hcast : 4 * (a.units : ℚ) ≤ a.lowerQuarters + 2 * a.gapBelow := by exact_mod_cast hle
    linarith
  have hupper : (a.upperQuarters : ℚ) / 4 = a.units + 2 ^ a.shift / 2 := by
    rw [upperQuarters]
    push_cast
    ring
  rw [roundsFrom] at h
  split at h
  · rename_i heven
    rw [Bool.and_eq_true, decide_eq_true_iff, decide_eq_true_iff, d.quarters_le_iff,
      d.le_quarters_iff, hupper] at h
    refine ⟨hlower.trans h.1, h.2, fun hodd => absurd (Nat.even_iff.mpr heven) hodd⟩
  · rw [Bool.and_eq_true, decide_eq_true_iff, decide_eq_true_iff, ← not_le, d.le_quarters_iff,
      ← not_le, d.quarters_le_iff, not_le, not_le, hupper] at h
    exact ⟨hlower.trans h.1.le, h.2.le, fun _ => ⟨hlower.trans_lt h.1, h.2⟩⟩

theorem nearest_of_roundsFrom (h : a.roundsFrom d = true) (negative : Bool) :
    Double.Nearest negative d.value (.finite negative a) := by
  have hscale : (0 : ℚ) < binary64.scale := Nat.cast_pos.mpr binary64.scale_pos
  have hwithin := within_of_roundsFrom h
  have hcancel : d.value * binary64.scale * (binary64.scale : ℚ)⁻¹ = d.value :=
    mul_inv_cancel_right₀ hscale.ne' d.value
  have hnearest := (hwithin.isNearest (by decide)).mul (inv_pos.mpr hscale)
  rw [hcancel] at hnearest
  refine .finite ?_ hnearest
  rw [BinaryFormat.overflow, lt_div_iff₀ hscale]
  exact hwithin.lt_overflowUnits (by decide)

end Magnitude

end ValueTypes
