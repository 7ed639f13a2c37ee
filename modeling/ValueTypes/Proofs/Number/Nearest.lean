import Mathlib.Data.Rat.Floor
import Mathlib.Tactic.FieldSimp
import Mathlib.Tactic.Linarith
import ValueTypes.Proofs.Number.Exact

/-! What it means to round to nearest, said without the computation: no other number of the family
is nearer, and of two at one distance the even one is taken. Rounding of a quotient to an integer
and rounding to a binary format are both of that kind; a format overflows from halfway between its
largest magnitude and the next power of two on. -/

namespace ValueTypes

/-- Whether a member of a family of numbers is the one that a number rounds to: the nearest, and an
even one if there are two. -/
structure IsNearest {ι : Type} (value : ι → ℚ) (even : ι → Prop) (x : ℚ) (a : ι) : Prop where
  le : ∀ b, |x - value a| ≤ |x - value b|
  even : ∀ b, value b ≠ value a → |x - value b| = |x - value a| → even a

/-! ### Integers -/

/-- Whether a number rounds to an integer, a half to the even neighbour. -/
abbrev RoundsTo : ℚ → ℤ → Prop :=
  IsNearest (fun n : ℤ => (n : ℚ)) Even

theorem one_le_distances (x : ℚ) {m n : ℤ} (h : m ≠ n) : 1 ≤ |x - m| + |x - n| := by
  have hone : (1 : ℤ) ≤ |m - n| := Int.one_le_abs (sub_ne_zero.mpr h)
  have hcast : (1 : ℚ) ≤ |(m : ℚ) - n| := by exact_mod_cast hone
  have htriangle := abs_sub_le (m : ℚ) x n
  rw [abs_sub_comm (m : ℚ) x] at htriangle
  exact hcast.trans htriangle

/-- An integer less than half a unit away is the nearest, and so is an even one that is half a unit
away. -/
theorem roundsTo_of_error {x : ℚ} {n : ℤ}
    (h : |x - n| < 1 / 2 ∨ |x - n| = 1 / 2 ∧ Even n) : RoundsTo x n := by
  constructor
  · intro m
    by_cases hm : m = n
    · rw [hm]
    · have hfar := one_le_distances x hm
      rcases h with hlt | ⟨heq, _⟩ <;> linarith
  · intro m hm heq
    have hfar := one_le_distances x fun hmn : m = n => hm (by rw [hmn])
    rcases h with hlt | ⟨_, heven⟩
    · linarith
    · exact heven

/-- A number rounds to no integer that is more than half a unit away, nor to an odd one that is half
a unit away. -/
theorem RoundsTo.error {x : ℚ} {n : ℤ} (h : RoundsTo x n) :
    |x - n| < 1 / 2 ∨ |x - n| = 1 / 2 ∧ Even n := by
  have hneighbour : ∀ m : ℤ, m ≠ n → |x - m| + |x - n| = 1 →
      |x - n| < 1 / 2 ∨ |x - n| = 1 / 2 ∧ Even n := by
    intro m hm hsum
    have hle : |x - n| ≤ |x - m| := h.le m
    rcases hle.lt_or_eq with hlt | heq
    · exact .inl (by linarith)
    · exact .inr ⟨by linarith, h.even m (Int.cast_injective.ne hm) heq.symm⟩
  have hup : |x - n| ≤ |x - (n + 1 : ℤ)| := h.le (n + 1)
  have hdown : |x - n| ≤ |x - (n - 1 : ℤ)| := h.le (n - 1)
  -- The neighbour on the side of the number is at the rest of the unit.
  rcases le_total (n : ℚ) x with hle | hle
  · refine hneighbour (n + 1) (by omega) ?_
    push_cast at hup ⊢
    rw [abs_of_nonneg (sub_nonneg.mpr hle)] at hup ⊢
    rcases abs_cases (x - (n + 1)) with ⟨heq, _⟩ | ⟨heq, _⟩ <;> linarith
  · refine hneighbour (n - 1) (by omega) ?_
    push_cast at hdown ⊢
    rw [abs_of_nonpos (sub_nonpos.mpr hle)] at hdown ⊢
    rcases abs_cases (x - (n - 1)) with ⟨heq, _⟩ | ⟨heq, _⟩ <;> linarith

/-- A number rounds to one integer only: of two at half a unit, one is odd. -/
theorem RoundsTo.unique {x : ℚ} {m n : ℤ} (hm : RoundsTo x m) (hn : RoundsTo x n) : m = n := by
  by_contra hne
  have hsum := one_le_distances x hne
  have htriangle := abs_sub_le (m : ℚ) x n
  rw [abs_sub_comm (m : ℚ) x] at htriangle
  rcases hm.error with hlt | ⟨hm, heven⟩
  · rcases hn.error with hlt' | ⟨hn, _⟩ <;> linarith
  · rcases hn.error with hlt' | ⟨hn, heven'⟩
    · linarith
    · have hdistance : |m - n| ≤ 1 := by
        have hcast : |(m : ℚ) - n| ≤ 1 := by linarith
        exact_mod_cast hcast
      obtain ⟨a, rfl⟩ := heven
      obtain ⟨b, rfl⟩ := heven'
      rw [abs_le] at hdistance
      omega

/-- The remainder decides whether a quotient rounds to the integer below it or to the next one. -/
theorem roundsTo_add_remainder (q : ℕ) {r den : ℕ} (hr : r < den) :
    RoundsTo (q + r / den)
      ((if 2 * r < den then q else if den < 2 * r then q + 1 else q + q % 2 : ℕ) : ℤ) := by
  have hden : (0 : ℚ) < den := Nat.cast_pos.mpr (by omega)
  have hnonneg : (0 : ℚ) ≤ r / den := by positivity
  have hlt : (r : ℚ) / den < 1 := by
    rw [div_lt_one hden]
    exact_mod_cast hr
  apply roundsTo_of_error
  split
  · rename_i hbelow
    have hbelow : (2 : ℚ) * r < den := by exact_mod_cast hbelow
    left
    rw [Int.cast_natCast, add_sub_cancel_left, abs_of_nonneg hnonneg, div_lt_iff₀ hden]
    linarith
  · split
    · rename_i habove
      have habove : (den : ℚ) < 2 * r := by exact_mod_cast habove
      have hhalf : (1 : ℚ) / 2 < r / den := by
        rw [lt_div_iff₀ hden]
        linarith
      left
      push_cast
      rw [add_sub_add_left_eq_sub, abs_of_neg (sub_neg.mpr hlt)]
      linarith
    · have hhalf : (r : ℚ) / den = 1 / 2 := by
        rw [div_eq_div_iff hden.ne' two_ne_zero]
        exact_mod_cast (by omega : r * 2 = 1 * den)
      refine .inr ⟨?_, ?_⟩
      · rcases Nat.mod_two_eq_zero_or_one q with hq | hq <;> rw [hq] <;> push_cast <;>
          rw [add_sub_add_left_eq_sub, hhalf] <;> norm_num
      · rw [Int.even_coe_nat, Nat.even_iff]
        omega

theorem roundHalfEven_roundsTo (num : ℕ) {den : ℕ} (hden : 0 < den) :
    RoundsTo (num / den) (roundHalfEven num den : ℕ) := by
  have hne : (den : ℚ) ≠ 0 := Nat.cast_ne_zero.mpr hden.ne'
  have hsplit : (num : ℚ) / den = (num / den : ℕ) + (num % den : ℕ) / den := by
    rw [div_eq_iff hne, add_mul, div_mul_cancel₀ _ hne]
    exact_mod_cast (congrArg (Nat.cast (R := ℚ)) (Nat.div_add_mod' num den)).symm
  rw [hsplit]
  exact roundsTo_add_remainder (num / den) (Nat.mod_lt num hden)

theorem RoundsTo.le_of_le {x : ℚ} {m n : ℤ} (h : RoundsTo x m) (hx : x ≤ n) : m ≤ n := by
  by_contra hlt
  have hlt : (n : ℚ) < m := Int.cast_lt.mpr (not_le.mp hlt)
  have hle : |x - m| ≤ |x - n| := h.le n
  rw [abs_of_nonpos (by linarith), abs_of_nonpos (by linarith)] at hle
  linarith

theorem RoundsTo.le_of_ge {x : ℚ} {m n : ℤ} (h : RoundsTo x m) (hx : n ≤ x) : n ≤ m := by
  by_contra hlt
  have hlt : (m : ℚ) < n := Int.cast_lt.mpr (not_le.mp hlt)
  have hle : |x - m| ≤ |x - n| := h.le n
  rw [abs_of_nonneg (by linarith), abs_of_nonneg (by linarith)] at hle
  linarith

theorem RoundsTo.neg {x : ℚ} {n : ℤ} (h : RoundsTo x n) : RoundsTo (-x) (-n) := by
  have hdistance : |-x - (-n : ℤ)| = |x - n| := by
    rw [Int.cast_neg, neg_sub_neg, abs_sub_comm]
  refine roundsTo_of_error ?_
  rw [hdistance, even_neg]
  exact h.error

theorem roundsTo_self (n : ℤ) : RoundsTo n n := by
  refine roundsTo_of_error (.inl ?_)
  rw [sub_self, abs_zero]
  norm_num

/-- An even integer is where numbers from half a unit below it on round to. -/
theorem RoundsTo.even_le_iff {x : ℚ} {m n : ℤ} (h : RoundsTo x m) (hn : Even n) :
    n ≤ m ↔ n - 1 / 2 ≤ x := by
  constructor
  · intro hle
    have hcast : (n : ℚ) ≤ m := Int.cast_le.mpr hle
    have herror : |x - m| ≤ 1 / 2 := by
      rcases h.error with hlt | ⟨heq, _⟩ <;> linarith
    rw [abs_le] at herror
    linarith
  · intro hx
    by_contra hlt
    have hcast : (m : ℚ) + 1 ≤ n := by exact_mod_cast Int.add_one_le_of_lt (not_le.mp hlt)
    rcases h.error with herror | ⟨herror, heven⟩
    · rw [abs_lt] at herror
      linarith
    · -- Half a unit away from both, the number rounds to the even one.
      have hnext : m + 1 = n := by
        have hge : (n : ℚ) ≤ m + 1 := by
          have hle := le_abs_self (x - m)
          linarith
        exact_mod_cast le_antisymm hcast hge
      rw [← hnext] at hn
      exact Int.not_even_iff_odd.mpr heven.add_one hn

/-- Rounding commutes with a change of scale. -/
theorem IsNearest.mul {ι : Type} {value : ι → ℚ} {even : ι → Prop} {x : ℚ} {a : ι}
    (h : IsNearest value even x a) {c : ℚ} (hc : 0 < c) :
    IsNearest (fun b => value b * c) even (x * c) a := by
  have hscale : ∀ b, |x * c - value b * c| = |x - value b| * c := by
    intro b
    rw [← sub_mul, abs_mul, abs_of_pos hc]
  constructor
  · intro b
    rw [hscale, hscale]
    exact mul_le_mul_of_nonneg_right (h.le b) hc.le
  · intro b hb heq
    rw [hscale, hscale] at heq
    exact h.even b (fun hab => hb (by rw [hab])) (mul_right_cancel₀ hc.ne' heq)

/-! ### Magnitudes -/

theorem lt_two_pow_bitLength (n : ℕ) : n < 2 ^ bitLength n := by
  rw [bitLength]
  split
  · omega
  · exact Nat.lt_log2_self

theorem two_pow_bitLength_le {n : ℕ} (h : bitLength n ≠ 0) : 2 ^ (bitLength n - 1) ≤ n := by
  rw [bitLength] at h ⊢
  split
  · rename_i hn
    exact absurd (if_pos hn) h
  · rename_i hn
    exact Nat.log2_self_le hn

namespace BinaryFormat

variable {fmt : BinaryFormat} {num den : ℕ}

variable (fmt num) in
/-- A number of units has no more binary digits in front of its point than the precision and the
excess. -/
theorem lt_of_excess (hden : 0 < den) :
    (num : ℚ) / den < 2 ^ fmt.precision * 2 ^ fmt.excess num den := by
  have hlength : bitLength (num / den) ≤ fmt.precision + fmt.excess num den := by
    rw [excess]
    omega
  have hlt : num / den < 2 ^ (fmt.precision + fmt.excess num den) :=
    (lt_two_pow_bitLength _).trans_le (Nat.pow_le_pow_right two_pos hlength)
  rw [← pow_add, div_lt_iff₀ (Nat.cast_pos.mpr hden)]
  exact_mod_cast (Nat.div_lt_iff_lt_mul hden).mp hlt

/-- Where there is an excess, the precision is used up. -/
theorem le_of_excess (hp : 2 ≤ fmt.precision) (hden : 0 < den) (h : fmt.excess num den ≠ 0) :
    (2 : ℚ) ^ (fmt.precision - 1) * 2 ^ fmt.excess num den ≤ num / den := by
  have hlength : bitLength (num / den) = fmt.precision + fmt.excess num den := by
    rw [excess] at h ⊢
    omega
  have hle := two_pow_bitLength_le (n := num / den) (by omega)
  rw [hlength, Nat.sub_add_comm (by omega)] at hle
  rw [← pow_add, le_div_iff₀ (Nat.cast_pos.mpr hden)]
  exact_mod_cast (Nat.le_div_iff_mul_le hden).mp hle

theorem two_mul_half_precision (hp : 2 ≤ fmt.precision) :
    2 * 2 ^ (fmt.precision - 1) = 2 ^ fmt.precision := by
  rw [← Nat.pow_succ', Nat.succ_eq_add_one, Nat.sub_add_cancel (by omega)]

/-! #### The computed parts -/

/-- The significand at the computed shift, before a carry. -/
def rounded (fmt : BinaryFormat) (num den : ℕ) : ℕ :=
  roundHalfEven num (den * 2 ^ fmt.excess num den)

variable (fmt num) in
theorem rounded_roundsTo (hden : 0 < den) :
    RoundsTo (num / den / 2 ^ fmt.excess num den) (fmt.rounded num den : ℕ) := by
  have hround := roundHalfEven_roundsTo num (Nat.mul_pos hden (Nat.two_pow_pos (fmt.excess num den)))
  rw [Nat.cast_mul, ← div_div] at hround
  exact_mod_cast hround

variable (fmt num) in
/-- At the computed shift the significand is the nearest, among all multiples. -/
theorem rounded_nearest (hden : 0 < den) :
    IsNearest (fun n : ℤ => (n : ℚ) * 2 ^ fmt.excess num den) Even (num / den)
      (fmt.rounded num den : ℕ) := by
  have hround := (rounded_roundsTo fmt num hden).mul
    (c := 2 ^ fmt.excess num den) (by positivity)
  rwa [div_mul_cancel₀ _ (by positivity)] at hround

variable (fmt num) in
theorem rounded_le (hden : 0 < den) : fmt.rounded num den ≤ 2 ^ fmt.precision := by
  have hle : (num : ℚ) / den / 2 ^ fmt.excess num den ≤ (2 ^ fmt.precision : ℤ) := by
    rw [div_le_iff₀ (by positivity)]
    exact_mod_cast (lt_of_excess fmt num hden).le
  exact_mod_cast (rounded_roundsTo fmt num hden).le_of_le hle

theorem le_rounded (hp : 2 ≤ fmt.precision) (hden : 0 < den) (h : fmt.excess num den ≠ 0) :
    2 ^ (fmt.precision - 1) ≤ fmt.rounded num den := by
  have hle : ((2 ^ (fmt.precision - 1) : ℤ) : ℚ) ≤ num / den / 2 ^ fmt.excess num den := by
    rw [le_div_iff₀ (by positivity)]
    exact_mod_cast le_of_excess hp hden h
  exact_mod_cast (rounded_roundsTo fmt num hden).le_of_ge hle

theorem carry_units (hp : 2 ≤ fmt.precision) (r s : ℕ) :
    (fmt.carry r s).1 * 2 ^ (fmt.carry r s).2 = r * 2 ^ s := by
  rw [carry]
  split
  · rename_i hr
    rw [hr, ← two_mul_half_precision hp, Nat.pow_succ]
    ring
  · rfl

theorem even_carry (hp : 2 ≤ fmt.precision) {r : ℕ} (hr : Even r) (s : ℕ) :
    Even (fmt.carry r s).1 := by
  rw [carry]
  split
  · exact even_two.pow_of_ne_zero (by omega)
  · exact hr

/-- The parts are canonical unless the shift is too large. -/
theorem canonical_carry_iff (hp : 2 ≤ fmt.precision) {r s : ℕ} (hr : r ≤ 2 ^ fmt.precision)
    (hs : s = 0 ∨ 2 ^ (fmt.precision - 1) ≤ r) :
    fmt.Canonical (fmt.carry r s).1 (fmt.carry r s).2 ↔ (fmt.carry r s).2 ≤ fmt.maxShift := by
  have hlt : 2 ^ (fmt.precision - 1) < 2 ^ fmt.precision :=
    Nat.pow_lt_pow_right (by omega) (by omega)
  rw [carry]
  split
  · exact ⟨fun h => h.2.2, fun h => ⟨hlt, .inr le_rfl, h⟩⟩
  · rename_i hne
    exact ⟨fun h => h.2.2, fun h => ⟨lt_of_le_of_ne hr hne, hs, h⟩⟩

/-- The parts that rounding comes to, whether or not the shift is too large. -/
def parts (fmt : BinaryFormat) (num den : ℕ) : ℕ × ℕ :=
  fmt.carry (fmt.rounded num den) (fmt.excess num den)

theorem canonical_parts_iff (hp : 2 ≤ fmt.precision) (hden : 0 < den) :
    fmt.Canonical (fmt.parts num den).1 (fmt.parts num den).2 ↔
      (fmt.parts num den).2 ≤ fmt.maxShift := by
  refine canonical_carry_iff hp (rounded_le fmt num hden) ?_
  by_cases h : fmt.excess num den = 0
  · exact .inl h
  · exact .inr (le_rounded hp hden h)

theorem roundUnits_eq (num den : ℕ) :
    fmt.roundUnits num den =
      if h : fmt.Canonical (fmt.parts num den).1 (fmt.parts num den).2 then
        some ⟨(fmt.parts num den).1, (fmt.parts num den).2, h⟩
      else none := rfl

/-! #### What rounding gives -/

/-- Magnitudes of smaller shifts lie below the least significand of full length. -/
theorem units_lt_of_shift_lt (hp : 2 ≤ fmt.precision) (b : Magnitude fmt) {s : ℕ} (h : b.shift < s) :
    b.units < 2 ^ (fmt.precision - 1) * 2 ^ s := by
  obtain ⟨k, rfl⟩ := Nat.exists_eq_add_of_lt h
  calc b.units < 2 ^ fmt.precision * 2 ^ b.shift :=
        Nat.mul_lt_mul_of_pos_right b.canonical.1 (Nat.two_pow_pos _)
    _ = 2 ^ (fmt.precision - 1) * 2 ^ (b.shift + 1) := by
        rw [← two_mul_half_precision hp, Nat.pow_succ]
        ring
    _ ≤ 2 ^ (fmt.precision - 1) * 2 ^ (b.shift + k + 1) :=
        Nat.mul_le_mul_left _ (Nat.pow_le_pow_right two_pos (by omega))

/-- A magnitude is a multiple at the computed shift, or it is farther away than the significand that
was computed there: it lies below every number that has this shift. -/
theorem exists_multiple_or_farther (hp : 2 ≤ fmt.precision) (hden : 0 < den) (b : Magnitude fmt) :
    (∃ n : ℤ, (b.units : ℚ) = n * 2 ^ fmt.excess num den) ∨
      |(num : ℚ) / den - fmt.rounded num den * 2 ^ fmt.excess num den| <
        |(num : ℚ) / den - b.units| := by
  by_cases hshift : fmt.excess num den ≤ b.shift
  · refine .inl ⟨(b.significand * 2 ^ (b.shift - fmt.excess num den) : ℕ), ?_⟩
    have hunits : b.units = b.significand * 2 ^ (b.shift - fmt.excess num den) *
        2 ^ fmt.excess num den := by
      rw [Magnitude.units, Nat.mul_assoc, ← Nat.pow_add, Nat.sub_add_cancel hshift]
    rw [hunits]
    push_cast
    rfl
  · right
    have hlt := units_lt_of_shift_lt hp b (not_le.mp hshift)
    have hbelow : (b.units : ℚ) < 2 ^ (fmt.precision - 1) * 2 ^ fmt.excess num den := by
      exact_mod_cast hlt
    have hexcess : fmt.excess num den ≠ 0 := by omega
    have habove := le_of_excess hp hden hexcess
    have hle := (rounded_nearest fmt num hden).le (2 ^ (fmt.precision - 1) : ℕ)
    push_cast at hle
    rw [abs_of_nonneg (sub_nonneg.mpr habove)] at hle
    rw [abs_of_pos (by linarith : 0 < (num : ℚ) / den - b.units)]
    linarith

/-- The magnitude that rounding gives is the nearest. -/
theorem roundUnits_nearest (hp : 2 ≤ fmt.precision) (hden : 0 < den) {a : Magnitude fmt}
    (h : fmt.roundUnits num den = some a) :
    IsNearest (fun b : Magnitude fmt => (b.units : ℚ)) (fun b => Even b.significand) (num / den)
      a := by
  have hgrid := rounded_nearest fmt num hden
  have hunits : (a.units : ℚ) = fmt.rounded num den * 2 ^ fmt.excess num den ∧
      (Even (fmt.rounded num den : ℤ) → Even a.significand) := by
    rw [roundUnits_eq] at h
    split at h
    · cases h
      refine ⟨by exact_mod_cast carry_units hp _ _, fun heven => even_carry hp ?_ _⟩
      exact_mod_cast heven
    · cases h
  obtain ⟨hunits, heven⟩ := hunits
  constructor
  · intro b
    rw [hunits]
    rcases exists_multiple_or_farther hp hden b with ⟨n, hn⟩ | hlt
    · rw [hn]
      exact hgrid.le n
    · exact hlt.le
  · intro b hb heq
    rw [hunits] at hb heq
    rcases exists_multiple_or_farther hp hden b with ⟨n, hn⟩ | hlt
    · rw [hn] at hb heq
      exact heven (hgrid.even n hb heq)
    · exact absurd heq.symm hlt.ne

/-- Halfway between the largest magnitude and the next power of two, in units. -/
def overflowUnits (fmt : BinaryFormat) : ℚ :=
  (2 ^ fmt.precision - 1 / 2) * 2 ^ fmt.maxShift

theorem roundUnits_eq_none_iff_shift (hp : 2 ≤ fmt.precision) (hden : 0 < den) :
    fmt.roundUnits num den = none ↔ fmt.maxShift < (fmt.parts num den).2 := by
  rw [← not_le, ← canonical_parts_iff hp hden, roundUnits_eq]
  split
  · rename_i h
    exact iff_of_false (Option.some_ne_none _) (not_not.mpr h)
  · rename_i h
    exact iff_of_true rfl h

theorem parts_snd (num den : ℕ) :
    (fmt.parts num den).2 = if fmt.rounded num den = 2 ^ fmt.precision then
      fmt.excess num den + 1 else fmt.excess num den := by
  rw [parts, carry]
  split <;> rfl

/-- Rounding overflows from halfway between the largest magnitude and the next power of two on. -/
theorem roundUnits_eq_none_iff (hp : 2 ≤ fmt.precision) (hden : 0 < den) :
    fmt.roundUnits num den = none ↔ fmt.overflowUnits ≤ num / den := by
  rw [roundUnits_eq_none_iff_shift hp hden, parts_snd, overflowUnits]
  have hfull : (2 : ℚ) ≤ 2 ^ fmt.precision :=
    le_self_pow₀ one_le_two (by omega)
  have hmax : (0 : ℚ) < 2 ^ fmt.maxShift := by positivity
  rcases lt_trichotomy (fmt.excess num den) fmt.maxShift with hs | hs | hs
  · refine iff_of_false (by split <;> omega) ?_
    have hlt := lt_of_excess fmt num hden
    have hpow : (2 : ℚ) * 2 ^ fmt.excess num den ≤ 2 ^ fmt.maxShift := by
      rw [← pow_succ']
      exact pow_le_pow_right₀ one_le_two hs
    rw [not_le]
    nlinarith
  · -- At the largest shift only a carry overflows.
    have hcarry : fmt.maxShift < (if fmt.rounded num den = 2 ^ fmt.precision then
        fmt.excess num den + 1 else fmt.excess num den) ↔
          ((2 ^ fmt.precision : ℕ) : ℤ) ≤ (fmt.rounded num den : ℕ) := by
      have hle := rounded_le fmt num hden
      rw [Int.ofNat_le]
      split <;> omega
    have heven : Even ((2 ^ fmt.precision : ℕ) : ℤ) := by
      rw [Int.even_coe_nat]
      exact even_two.pow_of_ne_zero (by omega)
    rw [hcarry, (rounded_roundsTo fmt num hden).even_le_iff heven, hs, le_div_iff₀ hmax]
    push_cast
    rfl
  · refine iff_of_true (by split <;> omega) ?_
    have hexcess : fmt.excess num den ≠ 0 := by omega
    have hle := le_of_excess hp hden hexcess
    have hpow : (2 : ℚ) * 2 ^ fmt.maxShift ≤ 2 ^ fmt.excess num den := by
      rw [← pow_succ']
      exact pow_le_pow_right₀ one_le_two hs
    have hhalf : (2 : ℚ) * 2 ^ (fmt.precision - 1) = 2 ^ fmt.precision := by
      exact_mod_cast two_mul_half_precision hp
    nlinarith

/-! #### Only one -/

/-- Two magnitudes with even significands are not neighbours. -/
theorem exists_between (hp : 2 ≤ fmt.precision) {a b : Magnitude fmt} (hlt : a.units < b.units)
    (ha : Even a.significand) (hb : Even b.significand) :
    ∃ c : Magnitude fmt, a.units < c.units ∧ c.units < b.units := by
  have hsignificand : a.significand + 1 < 2 ^ fmt.precision := by
    have heven : Even (2 ^ fmt.precision) := even_two.pow_of_ne_zero (by omega)
    have hfull := a.canonical.1
    rw [Nat.even_iff] at ha heven
    omega
  have hcanonical : fmt.Canonical (a.significand + 1) a.shift :=
    ⟨hsignificand, a.canonical.2.1.imp_right Nat.le_succ_of_le, a.canonical.2.2⟩
  refine ⟨⟨_, _, hcanonical⟩, Nat.mul_lt_mul_of_pos_right (Nat.lt_succ_self _) (Nat.two_pow_pos _), ?_⟩
  rcases lt_trichotomy a.shift b.shift with hshift | hshift | hshift
  · have hfull : 2 ^ (fmt.precision - 1) ≤ b.significand := by
      rcases b.canonical.2.1 with hzero | hfull
      · omega
      · exact hfull
    calc (a.significand + 1) * 2 ^ a.shift
        < 2 ^ fmt.precision * 2 ^ a.shift :=
          Nat.mul_lt_mul_of_pos_right hsignificand (Nat.two_pow_pos _)
      _ = 2 ^ (fmt.precision - 1) * 2 ^ (a.shift + 1) := by
          rw [← two_mul_half_precision hp, Nat.pow_succ]
          ring
      _ ≤ b.units := Nat.mul_le_mul hfull (Nat.pow_le_pow_right two_pos hshift)
  · rw [Magnitude.units, Magnitude.units, hshift] at hlt
    change (a.significand + 1) * 2 ^ a.shift < b.significand * 2 ^ b.shift
    rw [hshift]
    have hless := Nat.lt_of_mul_lt_mul_right hlt
    refine Nat.mul_lt_mul_of_pos_right ?_ (Nat.two_pow_pos _)
    rw [Nat.even_iff] at ha hb
    omega
  · have hbelow := units_lt_of_shift_lt hp b hshift
    have habove : 2 ^ (fmt.precision - 1) * 2 ^ a.shift ≤ a.units := by
      rcases a.canonical.2.1 with hzero | hfull
      · omega
      · exact Nat.mul_le_mul_right _ hfull
    omega

end BinaryFormat

/-- The number that a magnitude is. -/
def Magnitude.value {fmt : BinaryFormat} (a : Magnitude fmt) : ℚ :=
  a.units / fmt.scale

theorem Magnitude.value_eq_div {fmt : BinaryFormat} {a : Magnitude fmt} {num den : ℕ}
    (hden : 0 < den) (h : a.units * den = num * fmt.scale) : a.value = num / den := by
  have hscale : (fmt.scale : ℚ) ≠ 0 := Nat.cast_ne_zero.mpr fmt.scale_pos.ne'
  rw [value, div_eq_div_iff hscale (Nat.cast_ne_zero.mpr hden.ne')]
  exact_mod_cast h

/-- A number rounds to one magnitude only. -/
theorem Magnitude.nearest_unique {fmt : BinaryFormat} (hp : 2 ≤ fmt.precision) {x : ℚ}
    {a b : Magnitude fmt} (ha : IsNearest value (fun c => Even c.significand) x a)
    (hb : IsNearest value (fun c => Even c.significand) x b) : a = b := by
  have hscale : (0 : ℚ) < fmt.scale := Nat.cast_pos.mpr fmt.scale_pos
  have hmono : ∀ c d : Magnitude fmt, c.value < d.value ↔ c.units < d.units := by
    intro c d
    rw [value, value, div_lt_div_iff_of_pos_right hscale, Nat.cast_lt]
  have heq : |x - a.value| = |x - b.value| := le_antisymm (ha.le b) (hb.le a)
  -- Of two at the same distance both are even, and one between them is nearer.
  have hnot : ∀ c d : Magnitude fmt, IsNearest value (fun c => Even c.significand) x c →
      IsNearest value (fun c => Even c.significand) x d → |x - c.value| = |x - d.value| →
        ¬ c.value < d.value := by
    intro c d hc hd heq hlt
    obtain ⟨e, hce, hed⟩ := BinaryFormat.exists_between hp ((hmono c d).mp hlt)
      (hc.even d hlt.ne' heq.symm) (hd.even c hlt.ne heq)
    rw [← hmono] at hce hed
    have hle := hc.le e
    rcases abs_cases (x - c.value) with ⟨h1, _⟩ | ⟨h1, _⟩ <;>
      rcases abs_cases (x - d.value) with ⟨h2, _⟩ | ⟨h2, _⟩ <;>
        rcases abs_cases (x - e.value) with ⟨h3, _⟩ | ⟨h3, _⟩ <;> linarith
  refine Magnitude.eq_of_units ?_
  have hab := (hmono a b).not.mp (hnot a b ha hb heq)
  have hba := (hmono b a).not.mp (hnot b a hb ha heq.symm)
  omega

/-- Halfway between the largest magnitude of a format and the next power of two. -/
def BinaryFormat.overflow (fmt : BinaryFormat) : ℚ :=
  fmt.overflowUnits / fmt.scale

/-! ### Doubles -/

namespace Double

/-- Whether a double is the one nearest to a number of a given sign and magnitude. -/
inductive Nearest (negative : Bool) (x : ℚ) : Double → Prop where
  | finite {a : Magnitude binary64} (below : x < binary64.overflow)
      (h : IsNearest Magnitude.value (fun b => Even b.significand) x a) :
      Nearest negative x (finite negative a)
  | infinity (h : binary64.overflow ≤ x) : Nearest negative x (infinity negative)

theorem nearest_nearest (negative : Bool) (num : ℕ) {den : ℕ} (hden : 0 < den) :
    Nearest negative (num / den) (nearest negative num den) := by
  have hp : 2 ≤ binary64.precision := by decide
  have hscale : (0 : ℚ) < binary64.scale := Nat.cast_pos.mpr binary64.scale_pos
  have hunits : ((num * binary64.scale : ℕ) : ℚ) / den * (binary64.scale : ℚ)⁻¹ = num / den := by
    push_cast
    field_simp
  rw [nearest, nearestUnits]
  cases hround : binary64.roundUnits (num * binary64.scale) den with
  | none =>
      have hover := (BinaryFormat.roundUnits_eq_none_iff hp hden).mp hround
      refine .infinity ?_
      rw [BinaryFormat.overflow, ← hunits, div_eq_mul_inv]
      exact mul_le_mul_of_nonneg_right hover (inv_nonneg.mpr hscale.le)
  | some a =>
      have hbelow : ¬ binary64.overflowUnits ≤ ((num * binary64.scale : ℕ) : ℚ) / den := by
        rw [← BinaryFormat.roundUnits_eq_none_iff hp hden, hround]
        exact Option.some_ne_none a
      have hnearest := (BinaryFormat.roundUnits_nearest hp hden hround).mul (inv_pos.mpr hscale)
      rw [hunits] at hnearest
      refine .finite ?_ hnearest
      rw [BinaryFormat.overflow, ← hunits, div_eq_mul_inv]
      exact mul_lt_mul_of_pos_right (not_le.mp hbelow) (inv_pos.mpr hscale)

theorem nearest_whole (negative : Bool) (n : ℕ) : Nearest negative n (nearest negative n 1) := by
  have hnearest := nearest_nearest negative n Nat.one_pos
  rwa [Nat.cast_one, div_one] at hnearest

/-- Only one double is nearest to a number. -/
theorem Nearest.unique {negative : Bool} {x : ℚ} {f g : Double} (hf : Nearest negative x f)
    (hg : Nearest negative x g) : f = g := by
  cases hf with
  | finite below ha =>
      cases hg with
      | finite _ hb => rw [Magnitude.nearest_unique (by decide) ha hb]
      | infinity above => exact absurd above (not_le.mpr below)
  | infinity above =>
      cases hg with
      | finite below _ => exact absurd above (not_le.mpr below)
      | infinity _ => rfl

theorem nearest_zero (negative : Bool) : nearest negative 0 1 = finite negative ⟨0, 0, by decide⟩ := by
  refine nearest_of_units negative _ Nat.one_pos ?_
  rw [Magnitude.units, Nat.zero_mul, Nat.zero_mul, Nat.zero_mul]

/-- Numbers below half of the least magnitude are nearest to zero. -/
theorem nearest_zero_of_lt (negative : Bool) {x : ℚ} (h0 : 0 ≤ x)
    (h : x * binary64.scale < 1 / 2) : Nearest negative x (nearest negative 0 1) := by
  have hscale : (0 : ℚ) < binary64.scale := Nat.cast_pos.mpr binary64.scale_pos
  rw [nearest_zero]
  have hzero : Magnitude.value (⟨0, 0, by decide⟩ : Magnitude binary64) = 0 := by
    rw [Magnitude.value, Magnitude.units, Nat.zero_mul, Nat.cast_zero, zero_div]
  refine .finite ?_ ⟨fun b => ?_, fun _ _ _ => Even.zero⟩
  · have hfull : (1 : ℚ) ≤ 2 ^ binary64.precision := one_le_pow₀ one_le_two
    have hmax : (1 : ℚ) ≤ 2 ^ binary64.maxShift := one_le_pow₀ one_le_two
    rw [BinaryFormat.overflow, BinaryFormat.overflowUnits, lt_div_iff₀ hscale]
    nlinarith
  · rw [hzero, sub_zero, abs_of_nonneg h0]
    rcases Nat.eq_zero_or_pos b.units with hb | hb
    · rw [Magnitude.value, hb, Nat.cast_zero, zero_div, sub_zero]
      exact le_abs_self x
    · -- The least positive magnitude is more than twice as large.
      have hone : (1 : ℚ) ≤ b.units := Nat.one_le_cast.mpr hb
      have hvalue : 2 * x ≤ b.value := by
        rw [Magnitude.value, le_div_iff₀ hscale]
        linarith
      rw [abs_sub_comm]
      exact le_trans (by linarith) (le_abs_self _)

end Double

end ValueTypes
