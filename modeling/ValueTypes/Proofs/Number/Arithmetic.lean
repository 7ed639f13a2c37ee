import ValueTypes.Primitive
import ValueTypes.Proofs.Number.Equality

/-! Arithmetic of doubles as machines do it, where each step rounds: integer parts, remainders, sums
and casts to 64-bit integers. Integers below two to the 53rd power stay what they are in all of them,
and so do the integer part and the fraction of any double. -/

namespace ValueTypes

-- Powers are those of the core library, whatever else is imported.
attribute [local instance (2000)] instPowNat

/-- The integers of a signed 64-bit word. -/
def IntegerRange.word : IntegerRange :=
  ⟨-0x8000000000000000, 0x7fffffffffffffff⟩

/-- An integer by its sign and its magnitude. -/
def withSign (negative : Bool) (n : ℕ) : ℤ :=
  if negative then -n else n

theorem withSign_true (n : ℕ) : withSign true n = -n := rfl

theorem withSign_false (n : ℕ) : withSign false n = n := rfl

theorem natAbs_withSign (s : Bool) (n : ℕ) : (withSign s n).natAbs = n := by
  cases s <;> simp [withSign]

theorem withSign_zero (s : Bool) : withSign s 0 = 0 := by
  cases s <;> rfl

theorem withSign_add_not (s : Bool) (n m : ℕ) :
    withSign s (n + m) + withSign (!s) n = withSign s m := by
  cases s <;> simp [withSign]

theorem withSign_mul (s : Bool) (n m : ℕ) : withSign s (n * m) = withSign s n * m := by
  cases s <;> simp [withSign]

theorem withSign_tmod (s t : Bool) (n m : ℕ) :
    (withSign s n).tmod (withSign t m) = withSign s (n % m) := by
  have h : (n : ℤ).tmod m = ((n % m : ℕ) : ℤ) := (Int.ofNat_tmod n m).symm
  cases s <;> cases t <;>
    simp only [withSign_true, withSign_false, Int.neg_tmod, Int.tmod_neg, h]

theorem withSign_natAbs {s : Bool} {i : ℤ} (h : i ≠ 0 → s = decide (i < 0)) :
    withSign s i.natAbs = i := by
  by_cases hzero : i = 0
  · rw [hzero]
    exact withSign_zero s
  · rw [h hzero, withSign]
    split
    · rename_i hneg
      have hneg := of_decide_eq_true hneg
      omega
    · rename_i hneg
      have hpos := of_decide_eq_false (Bool.eq_false_iff.mpr hneg)
      omega

namespace Magnitude

variable {fmt : BinaryFormat}

theorem scale_dvd_units {a : Magnitude fmt} (h : fmt.unitExponent ≤ a.shift) :
    fmt.scale ∣ a.units :=
  (Nat.pow_dvd_pow 2 h).trans (Nat.dvd_mul_left _ _)

/-- The integer part of a magnitude is one. -/
theorem exists_integerPart (hfmt : fmt.unitExponent ≤ fmt.maxShift) (a : Magnitude fmt) :
    ∃ b : Magnitude fmt, b.units = a.units / fmt.scale * fmt.scale := by
  rcases Nat.le_total fmt.unitExponent a.shift with h | h
  · exact ⟨a, (Nat.div_mul_cancel (scale_dvd_units h)).symm⟩
  · have hle : a.units ≤ fmt.scale * a.significand := by
      rw [units, BinaryFormat.scale, Nat.mul_comm]
      exact Nat.mul_le_mul_right _ (Nat.pow_le_pow_right two_pos h)
    exact fmt.exists_units_eq _ fmt.unitExponent
      ((Nat.div_le_of_le_mul hle).trans_lt a.canonical.1) hfmt

/-- The fraction of a magnitude is one. -/
theorem exists_fraction (a : Magnitude fmt) :
    ∃ b : Magnitude fmt, b.units = a.units % fmt.scale := by
  rcases Nat.le_total fmt.unitExponent a.shift with h | h
  · obtain ⟨b, hb⟩ := fmt.exists_units_eq 0 0 (Nat.two_pow_pos _) (Nat.zero_le _)
    rw [Nat.zero_mul] at hb
    exact ⟨b, by rw [hb, Nat.mod_eq_zero_of_dvd (scale_dvd_units h)]⟩
  · -- Only the low digits of the significand are left.
    have hscale : fmt.scale = 2 ^ (fmt.unitExponent - a.shift) * 2 ^ a.shift := by
      rw [← Nat.pow_add, Nat.sub_add_cancel h, BinaryFormat.scale]
    obtain ⟨b, hb⟩ := fmt.exists_units_eq (a.significand % 2 ^ (fmt.unitExponent - a.shift))
      a.shift ((Nat.mod_le _ _).trans_lt a.canonical.1) a.canonical.2.2
    exact ⟨b, by rw [hb, hscale, units, Nat.mul_mod_mul_right]⟩

end Magnitude

namespace Double

/-! ### Operations -/

def isFinite : Double → Bool
  | finite _ _ => true
  | _ => false

def neg : Double → Double
  | nan => nan
  | infinity negative => infinity (!negative)
  | finite negative a => finite (!negative) a

def abs : Double → Double
  | nan => nan
  | infinity _ => infinity false
  | finite _ a => finite false a

/-- The integer part. -/
def trunc : Double → Double
  | finite negative a =>
    nearestUnits negative (a.units / binary64.scale * binary64.scale) 1
  | f => f

/-- The nearest integer, ties to even. -/
def roundEven : Double → Double
  | finite negative a =>
    nearestUnits negative (roundHalfEven a.units binary64.scale * binary64.scale) 1
  | f => f

/-- The fraction. -/
def fract (f : Double) : Double :=
  f.add f.trunc.neg

/-- The remainder of a division, with the sign of the dividend. -/
def rem : Double → Double → Double
  | finite negative a, finite _ b =>
    if b.units = 0 then nan else nearestUnits negative (a.units % b.units) 1
  | finite negative a, infinity _ => finite negative a
  | _, _ => nan

def le : Double → Double → Bool
  | nan, _ => false
  | _, nan => false
  | infinity true, _ => true
  | _, infinity false => true
  | finite s a, finite t b => withSign s a.units ≤ withSign t b.units
  | _, _ => false

def lt (f g : Double) : Bool :=
  f.le g && !g.le f

/-- The remainder that is not negative. -/
def remEuclid (f g : Double) : Double :=
  if (f.rem g).lt zero then (f.rem g).add g.abs else f.rem g

/-- The number of an interval that is nearest to a number. -/
def clamp (f lo hi : Double) : Double :=
  if f.lt lo then lo else if hi.lt f then hi else f

/-- The integer part as a 64-bit integer. Numbers beyond the ends go to the ends, and not-a-number
goes to zero. -/
def toWord : Double → ℤ
  | nan => 0
  | infinity negative => if negative then IntegerRange.word.lo else IntegerRange.word.hi
  | finite negative a => IntegerRange.word.clamp (withSign negative (a.units / binary64.scale))

/-! ### Exact values -/

theorem units?_finite (s : Bool) (a : Magnitude binary64) :
    (finite s a).units? = some (withSign s a.units) := by
  cases s <;> rfl

theorem truncate?_finite (s : Bool) (a : Magnitude binary64) :
    (finite s a).truncate? = some (withSign s (a.units / binary64.scale)) := by
  rw [truncate?, units?_finite, Option.map_some, one]
  cases s with
  | false => exact congrArg some (Int.ofNat_tdiv _ _).symm
  | true =>
      refine congrArg some ?_
      change (-(a.units : ℤ)).tdiv _ = _
      rw [Int.neg_tdiv, ← Int.ofNat_tdiv]
      rfl

theorem isNaN_iff (f : Double) : f.isNaN = true ↔ f = nan := by
  cases f <;> simp [isNaN]

theorem isFinite_iff (f : Double) : f.isFinite = true ↔ ∃ i, f.truncate? = some i := by
  cases f with
  | nan => simp [isFinite, truncate?, units?]
  | infinity negative => simp [isFinite, truncate?, units?]
  | finite s a => exact iff_of_true rfl ⟨_, truncate?_finite s a⟩

theorem exists_integer {n : ℕ} (h : n < 2 ^ binary64.precision) :
    ∃ a : Magnitude binary64, a.units = n * binary64.scale :=
  binary64.exists_units_eq n binary64.unitExponent h (by decide)

/-- What is a double already is not rounded. -/
theorem nearestUnits_units (s : Bool) (a : Magnitude binary64) :
    nearestUnits s a.units 1 = finite s a :=
  nearestUnits_of_units s a Nat.one_pos (Nat.mul_one _).symm

theorem units?_nearestUnits (s : Bool) {a : Magnitude binary64} {n : ℕ} (h : a.units = n) :
    (nearestUnits s n 1).units? = some (withSign s n) := by
  rw [← h, nearestUnits_units, units?_finite]

/-! ### Integers -/

theorem toInt?_finite_iff (s : Bool) (a : Magnitude binary64) (i : ℤ) :
    (finite s a).toInt? = some i ↔ ∃ n, a.units = n * binary64.scale ∧ i = withSign s n := by
  rw [toInt?_eq_some_iff, units?_finite, Option.some.injEq]
  constructor
  · intro h
    have habs := congrArg Int.natAbs h
    rw [natAbs_withSign, Int.natAbs_mul, one, Int.natAbs_natCast] at habs
    refine ⟨i.natAbs, habs, ?_⟩
    rw [habs, withSign_mul] at h
    exact (Int.eq_of_mul_eq_mul_right one_pos.ne' h).symm
  · rintro ⟨n, hn, rfl⟩
    rw [hn, withSign_mul, one]

theorem toInt?_nearestUnits (s : Bool) {n : ℕ} {a : Magnitude binary64}
    (h : a.units = n * binary64.scale) :
    (nearestUnits s (n * binary64.scale) 1).toInt? = some (withSign s n) := by
  rw [← h, nearestUnits_units, toInt?_finite_iff]
  exact ⟨n, h, rfl⟩

theorem exists_finite_of_toInt? {f : Double} {i : ℤ} (h : f.toInt? = some i) :
    ∃ s a n, f = finite s a ∧ a.units = n * binary64.scale ∧ i = withSign s n := by
  cases f with
  | nan => cases h
  | infinity negative => cases h
  | finite s a =>
      obtain ⟨n, hn, hi⟩ := (toInt?_finite_iff s a i).mp h
      exact ⟨s, a, n, rfl, hn, hi⟩

theorem toInt?_trunc {f : Double} {i : ℤ} (h : f.truncate? = some i) :
    f.trunc.toInt? = some i := by
  cases f with
  | nan => cases h
  | infinity negative => cases h
  | finite s a =>
      rw [truncate?_finite, Option.some.injEq] at h
      obtain ⟨b, hb⟩ := a.exists_integerPart (by decide)
      rw [← h, trunc, toInt?_nearestUnits s hb]

theorem toInt?_rem {f g : Double} {i j : ℤ} (hf : f.toInt? = some i) (hg : g.toInt? = some j)
    (hzero : j ≠ 0) (hj : j.natAbs ≤ 2 ^ binary64.precision) :
    (f.rem g).toInt? = some (i.tmod j) := by
  obtain ⟨s, a, n, rfl, ha, rfl⟩ := exists_finite_of_toInt? hf
  obtain ⟨t, b, m, rfl, hb, rfl⟩ := exists_finite_of_toInt? hg
  rw [natAbs_withSign] at hj
  have hm : m ≠ 0 := by
    rintro rfl
    exact hzero (withSign_zero t)
  have hunits : b.units ≠ 0 := by
    rw [hb]
    exact Nat.mul_ne_zero hm binary64.scale_pos.ne'
  obtain ⟨c, hc⟩ := exists_integer ((Nat.mod_lt n (Nat.pos_of_ne_zero hm)).trans_le hj)
  rw [rem, if_neg hunits, ha, hb, Nat.mul_mod_mul_right, toInt?_nearestUnits s hc, withSign_tmod]

/-- A sum that is a double is not rounded. -/
theorem units?_add {s t : Bool} {a b c : Magnitude binary64}
    (h : c.units = (withSign s a.units + withSign t b.units).natAbs) :
    ((finite s a).add (finite t b)).units? = some (withSign s a.units + withSign t b.units) := by
  change (nearestUnits (if withSign s a.units + withSign t b.units = 0 then s && t
    else decide (withSign s a.units + withSign t b.units < 0))
    (withSign s a.units + withSign t b.units).natAbs 1).units? = _
  rw [units?_nearestUnits _ h]
  exact congrArg some (withSign_natAbs fun hne => if_neg hne)

theorem toInt?_add {f g : Double} {i j : ℤ} (hf : f.toInt? = some i) (hg : g.toInt? = some j)
    (hlt : (i + j).natAbs < 2 ^ binary64.precision) : (f.add g).toInt? = some (i + j) := by
  obtain ⟨s, a, n, rfl, ha, rfl⟩ := exists_finite_of_toInt? hf
  obtain ⟨t, b, m, rfl, hb, rfl⟩ := exists_finite_of_toInt? hg
  have hsum : withSign s a.units + withSign t b.units = (withSign s n + withSign t m) * one := by
    rw [ha, hb, withSign_mul, withSign_mul, Int.add_mul, one]
  obtain ⟨c, hc⟩ := exists_integer hlt
  have hc : c.units = (withSign s a.units + withSign t b.units).natAbs := by
    rw [hsum, Int.natAbs_mul, hc, one, Int.natAbs_natCast]
  rw [toInt?_eq_some_iff, units?_add hc, hsum]

theorem toInt?_abs {f : Double} {i : ℤ} (h : f.toInt? = some i) :
    f.abs.toInt? = some (i.natAbs : ℤ) := by
  obtain ⟨s, a, n, rfl, ha, rfl⟩ := exists_finite_of_toInt? h
  rw [natAbs_withSign, abs, toInt?_finite_iff]
  exact ⟨n, ha, rfl⟩

theorem le_eq {f g : Double} {u v : ℤ} (hf : f.units? = some u) (hg : g.units? = some v) :
    f.le g = decide (u ≤ v) := by
  cases f with
  | nan => cases hf
  | infinity negative => cases hf
  | finite s a =>
      cases g with
      | nan => cases hg
      | infinity negative => cases hg
      | finite t b =>
          rw [units?_finite] at hf hg
          rw [← Option.some.inj hf, ← Option.some.inj hg]
          rfl

theorem lt_eq {f g : Double} {u v : ℤ} (hf : f.units? = some u) (hg : g.units? = some v) :
    f.lt g = decide (u < v) := by
  rw [lt, le_eq hf hg, le_eq hg hf, Bool.eq_iff_iff]
  simp only [Bool.and_eq_true, Bool.not_eq_true', decide_eq_true_eq, decide_eq_false_iff_not]
  omega

theorem infinity_lt {g : Double} {v : ℤ} (hg : g.units? = some v) (negative : Bool) :
    (infinity negative).lt g = negative := by
  cases g with
  | nan => cases hg
  | infinity _ => cases hg
  | finite t b => cases negative <;> rfl

theorem lt_infinity {g : Double} {v : ℤ} (hg : g.units? = some v) (negative : Bool) :
    g.lt (infinity negative) = !negative := by
  cases g with
  | nan => cases hg
  | infinity _ => cases hg
  | finite t b => cases negative <;> rfl

theorem le_eq_of_toInt? {f g : Double} {i j : ℤ} (hf : f.toInt? = some i)
    (hg : g.toInt? = some j) : f.le g = decide (i ≤ j) := by
  rw [toInt?_eq_some_iff] at hf hg
  rw [le_eq hf hg, decide_eq_decide]
  exact Int.mul_le_mul_iff_of_pos_right one_pos

theorem lt_eq_of_toInt? {f g : Double} {i j : ℤ} (hf : f.toInt? = some i)
    (hg : g.toInt? = some j) : f.lt g = decide (i < j) := by
  rw [toInt?_eq_some_iff] at hf hg
  rw [lt_eq hf hg, decide_eq_decide]
  exact Int.mul_lt_mul_right one_pos

theorem toInt?_zero : zero.toInt? = some 0 :=
  toInt?_ofInt (Nat.zero_le _)

theorem toInt?_remEuclid {f g : Double} {i j : ℤ} (hf : f.toInt? = some i)
    (hg : g.toInt? = some j) (hpos : 0 < j) (hj : j.natAbs ≤ 2 ^ binary64.precision) :
    (f.remEuclid g).toInt? = some (i % j) := by
  have hrem := toInt?_rem hf hg hpos.ne' hj
  have htmod : i.tmod j = i % j - (if 0 ≤ i ∨ j ∣ i then 0 else j.natAbs : ℕ) :=
    Int.tmod_eq_emod
  have hnonneg := Int.emod_nonneg i hpos.ne'
  have hlt := Int.emod_lt_of_pos i hpos
  rw [remEuclid, lt_eq_of_toInt? hrem toInt?_zero]
  split
  · rename_i hneg
    have hneg := of_decide_eq_true hneg
    have hsum : i.tmod j + j.natAbs = i % j := by
      split at htmod <;> omega
    rw [toInt?_add hrem (toInt?_abs hg) (by rw [hsum]; omega), hsum]
  · rename_i hneg
    have hneg := of_decide_eq_false (Bool.eq_false_iff.mpr hneg)
    rw [hrem, htmod]
    split at htmod
    · rw [if_pos ‹_›, Int.natCast_zero, Int.sub_zero]
    · omega

/-! ### Integer parts and fractions -/

theorem numEq_units {f g : Double} {u v : ℤ} (hf : f.units? = some u) (hg : g.units? = some v) :
    f.numEq g = true ↔ u = v := by
  rw [numEq_iff, hf, hg]
  constructor
  · rintro (⟨negative, rfl, _⟩ | ⟨w, hu, hv⟩)
    · cases hf
    · rw [Option.some.inj hu, Option.some.inj hv]
  · rintro rfl
    exact .inr ⟨u, rfl, rfl⟩

theorem toWord_eq {f : Double} {i : ℤ} (h : f.truncate? = some i) :
    f.toWord = IntegerRange.word.clamp i := by
  cases f with
  | nan => cases h
  | infinity negative => cases h
  | finite s a =>
      rw [truncate?_finite, Option.some.injEq] at h
      rw [← h]
      rfl

/-- The fraction is zero for integers alone. -/
theorem fract_numEq_zero_iff (f : Double) :
    f.fract.numEq zero = true ↔ ∃ i, f.toInt? = some i := by
  cases f with
  | nan => exact iff_of_false Bool.false_ne_true fun ⟨_, h⟩ => Option.some_ne_none _ h.symm
  | infinity negative =>
      have hnan : (infinity negative).fract = nan := by cases negative <;> rfl
      rw [hnan]
      exact iff_of_false Bool.false_ne_true fun ⟨_, h⟩ => Option.some_ne_none _ h.symm
  | finite s a =>
      obtain ⟨b, hb⟩ := a.exists_integerPart (by decide)
      obtain ⟨c, hc⟩ := a.exists_fraction
      have hsum : withSign s a.units + withSign (!s) b.units = withSign s c.units := by
        have hsplit := withSign_add_not s b.units c.units
        rwa [hb, hc, Nat.div_add_mod', ← hb, ← hc] at hsplit
      have hunits : (finite s a).fract.units? = some (withSign s c.units) := by
        rw [fract, trunc, ← hb, nearestUnits_units, neg, units?_add, hsum]
        rw [hsum, natAbs_withSign]
      have hzero : zero.units? = some 0 := by
        rw [(toInt?_eq_some_iff _ _).mp toInt?_zero, Int.zero_mul]
      rw [numEq_units hunits hzero, ← Int.natAbs_eq_zero, natAbs_withSign, hc]
      constructor
      · intro hmod
        exact ⟨_, (toInt?_finite_iff s a _).mpr
          ⟨_, (Nat.div_mul_cancel (Nat.dvd_of_mod_eq_zero hmod)).symm, rfl⟩⟩
      · rintro ⟨i, hi⟩
        obtain ⟨n, hn, _⟩ := (toInt?_finite_iff s a i).mp hi
        rw [hn, Nat.mul_mod_left]

theorem toInt?_roundEven (s : Bool) {a : Magnitude binary64}
    (h : roundHalfEven a.units binary64.scale < 2 ^ binary64.precision) :
    (finite s a).roundEven.toInt? = some (withSign s (roundHalfEven a.units binary64.scale)) := by
  obtain ⟨b, hb⟩ := exists_integer h
  rw [roundEven, toInt?_nearestUnits s hb]

/-- Rounding to an integer keeps the integers. -/
theorem toInt?_roundEven_of_toInt? {f : Double} {i : ℤ} (h : f.toInt? = some i)
    (hlt : i.natAbs < 2 ^ binary64.precision) : f.roundEven.toInt? = some i := by
  obtain ⟨s, a, n, rfl, ha, rfl⟩ := exists_finite_of_toInt? h
  rw [natAbs_withSign] at hlt
  have hround : roundHalfEven a.units binary64.scale = n := by
    rw [ha, roundHalfEven_mul binary64.scale_pos]
  rw [toInt?_roundEven s (hround ▸ hlt), hround]

end Double

end ValueTypes
