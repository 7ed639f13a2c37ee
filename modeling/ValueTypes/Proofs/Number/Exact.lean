import Mathlib.Tactic.Ring
import ValueTypes.Number.Double

/-! Numbers that rounding leaves alone. A magnitude of a format rounds to itself, and every
magnitude of single precision is one of double precision, so that the detour through single
precision ends in a number that single precision has exactly. -/

namespace ValueTypes

theorem roundHalfEven_mul {den : Nat} (hden : 0 < den) (q : Nat) :
    roundHalfEven (q * den) den = q := by
  have htwice : 2 * (q * den % den) < den := by
    rw [Nat.mul_mod_left]
    omega
  rw [roundHalfEven, if_pos htwice, Nat.mul_div_cancel q hden]

theorem bitLength_mul_two_pow {n : Nat} (hn : n ≠ 0) (k : Nat) :
    bitLength (n * 2 ^ k) = n.log2 + k + 1 := by
  have hlo : 2 ^ n.log2 ≤ n := Nat.log2_self_le hn
  have hhi : n < 2 ^ (n.log2 + 1) := Nat.lt_log2_self
  have hpos : 0 < 2 ^ k := Nat.two_pow_pos k
  have hne : n * 2 ^ k ≠ 0 := Nat.mul_ne_zero hn hpos.ne'
  have hlog : (n * 2 ^ k).log2 = n.log2 + k := by
    rw [Nat.log2_eq_iff hne]
    constructor
    · rw [Nat.pow_add]
      exact Nat.mul_le_mul_right _ hlo
    · rw [Nat.add_right_comm, Nat.pow_add]
      exact Nat.mul_lt_mul_of_pos_right hhi hpos
  rw [bitLength, if_neg hne, hlog]

namespace BinaryFormat

variable (fmt : BinaryFormat)

theorem scale_pos : 0 < fmt.scale :=
  Nat.two_pow_pos _

/-- A magnitude exceeds the precision by exactly the places that it is shifted. -/
theorem excess_units (a : Magnitude fmt) {den : Nat} (hden : 0 < den) :
    fmt.excess (a.units * den) den = a.shift := by
  obtain ⟨significand, shift, hlt, hshift, _⟩ := a
  rw [excess, Nat.mul_div_cancel _ hden, Magnitude.units]
  by_cases h0 : significand = 0
  · subst h0
    rcases hshift with rfl | hfull
    · simp [bitLength]
    · exact absurd hfull (Nat.not_le.mpr (Nat.two_pow_pos _))
  · have hlog : significand.log2 < fmt.precision := (Nat.log2_lt h0).mpr hlt
    rw [bitLength_mul_two_pow h0]
    dsimp only
    rcases hshift with rfl | hfull
    · omega
    · have hfloor : fmt.precision - 1 ≤ significand.log2 := (Nat.le_log2 h0).mpr hfull
      omega

/-- A magnitude of the format rounds to itself. -/
theorem roundUnits_units (a : Magnitude fmt) {num den : Nat} (hden : 0 < den)
    (h : num = a.units * den) : fmt.roundUnits num den = some a := by
  subst h
  have hsplit : a.units * den = a.significand * (den * 2 ^ a.shift) := by
    rw [Magnitude.units]
    ring
  have hround : roundHalfEven (a.units * den) (den * 2 ^ a.shift) = a.significand := by
    rw [hsplit]
    exact roundHalfEven_mul (Nat.mul_pos hden (Nat.two_pow_pos _)) _
  have hcarry : fmt.carry a.significand a.shift = (a.significand, a.shift) :=
    if_neg a.canonical.1.ne
  simp only [roundUnits, excess_units fmt a hden, hround, hcarry, a.canonical, dite_true]

/-- Every significand that fits, shifted by not too many places, is a magnitude. A significand
that is not full is doubled, at the cost of one place. -/
theorem exists_units_eq (s k : Nat) (hs : s < 2 ^ fmt.precision) (hk : k ≤ fmt.maxShift) :
    ∃ a : Magnitude fmt, a.units = s * 2 ^ k := by
  induction k generalizing s with
  | zero => exact ⟨⟨s, 0, hs, Or.inl rfl, hk⟩, rfl⟩
  | succ k ih =>
      by_cases hfull : 2 ^ (fmt.precision - 1) ≤ s
      · exact ⟨⟨s, k + 1, hs, Or.inr hfull, hk⟩, rfl⟩
      · have htwice : 2 * s < 2 ^ fmt.precision := by
          by_cases hp : fmt.precision = 0
          · rw [hp] at hs ⊢
            omega
          · have hpow : 2 ^ fmt.precision = 2 * 2 ^ (fmt.precision - 1) := by
              rw [← Nat.pow_succ', Nat.succ_eq_add_one, Nat.sub_add_cancel (by omega)]
            omega
        obtain ⟨a, ha⟩ := ih (2 * s) htwice (by omega)
        refine ⟨a, ha.trans ?_⟩
        rw [Nat.pow_succ]
        ring

end BinaryFormat

/-- A magnitude is determined by its number of units. -/
theorem Magnitude.eq_of_units {fmt : BinaryFormat} {a b : Magnitude fmt} (h : a.units = b.units) :
    a = b := by
  have ha : fmt.roundUnits a.units 1 = some a :=
    fmt.roundUnits_units a Nat.one_pos (Nat.mul_one _).symm
  have hb : fmt.roundUnits a.units 1 = some b :=
    fmt.roundUnits_units b Nat.one_pos (by rw [Nat.mul_one, h])
  exact Option.some.inj (ha.symm.trans hb)

namespace Double

/-- The doubles that single precision has exactly: whatever is not finite, and the multiples of
its units. -/
inductive IsSingle : Double → Prop where
  | nan : IsSingle nan
  | infinity (negative) : IsSingle (infinity negative)
  | finite (negative) {a : Magnitude binary64} (b : Magnitude binary32)
      (h : a.units * binary32.scale = b.units * binary64.scale) : IsSingle (finite negative a)

/-- A quotient that is a magnitude of double precision is that number. -/
theorem nearestUnits_of_units (negative : Bool) (a : Magnitude binary64) {num den : Nat}
    (hden : 0 < den) (h : num = a.units * den) :
    nearestUnits negative num den = finite negative a := by
  rw [nearestUnits, binary64.roundUnits_units a hden h, Option.elim_some]

theorem nearest_of_units (negative : Bool) (a : Magnitude binary64) {num den : Nat}
    (hden : 0 < den) (h : num * binary64.scale = a.units * den) :
    nearest negative num den = finite negative a :=
  nearestUnits_of_units negative a hden h

/-- A magnitude of single precision is read as a double without rounding. -/
theorem nearest_single (negative : Bool) (b : Magnitude binary32) :
    ∃ a : Magnitude binary64, nearest negative b.units binary32.scale = finite negative a ∧
      a.units * binary32.scale = b.units * binary64.scale := by
  have hlt : b.significand < 2 ^ binary64.precision :=
    b.canonical.1.trans (Nat.pow_lt_pow_right (by omega) (by decide))
  -- The difference of the exponents gets a name, so that its power is never computed.
  obtain ⟨k, hk⟩ : ∃ k, k = 925 := ⟨_, rfl⟩
  have hshift : b.shift + k ≤ binary64.maxShift := by
    have hmax : b.shift ≤ 253 := b.canonical.2.2
    simp only [binary64]
    omega
  obtain ⟨a, ha⟩ := binary64.exists_units_eq b.significand (b.shift + k) hlt hshift
  have hexponent : binary64.unitExponent = k + binary32.unitExponent := by
    rw [hk]
    rfl
  have heq : a.units * binary32.scale = b.units * binary64.scale := by
    rw [ha, Magnitude.units, BinaryFormat.scale, BinaryFormat.scale, hexponent, Nat.pow_add,
      Nat.pow_add, Nat.mul_assoc, Nat.mul_assoc, Nat.mul_assoc]
  exact ⟨a, nearest_of_units negative a binary32.scale_pos heq.symm, heq⟩

theorem isSingle_nearest (negative : Bool) (b : Magnitude binary32) :
    (nearest negative b.units binary32.scale).IsSingle := by
  obtain ⟨a, heq, hunits⟩ := nearest_single negative b
  rw [heq]
  exact .finite negative b hunits

theorem toSingle_finite (negative : Bool) (a : Magnitude binary64) :
    (finite negative a).toSingle =
      (binary32.round a.units binary64.scale).elim (infinity negative) fun b =>
        nearest negative b.units binary32.scale := rfl

/-- Rounding to single precision leaves a number that single precision has. -/
theorem isSingle_toSingle (f : Double) : f.toSingle.IsSingle := by
  cases f with
  | nan => exact .nan
  | infinity negative => exact .infinity negative
  | finite negative a =>
      rw [toSingle_finite]
      cases binary32.round a.units binary64.scale with
      | none =>
          rw [Option.elim_none]
          exact .infinity negative
      | some b =>
          rw [Option.elim_some]
          exact isSingle_nearest negative b

/-- A number that single precision has is left as it is. -/
theorem toSingle_of_isSingle {f : Double} (h : f.IsSingle) : f.toSingle = f := by
  cases h with
  | nan => rfl
  | infinity negative => rfl
  | @finite negative a b h =>
      have hround : binary32.round a.units binary64.scale = some b :=
        binary32.roundUnits_units b binary64.scale_pos h
      rw [toSingle_finite, hround, Option.elim_some]
      exact nearest_of_units negative a binary32.scale_pos h.symm

theorem zero_eq : zero = finite false ⟨0, 0, by decide⟩ := by
  have hunits : (0 : Int).natAbs * binary64.scale =
      (⟨0, 0, by decide⟩ : Magnitude binary64).units * 1 := by
    rw [Int.natAbs_zero, Nat.zero_mul]
    rfl
  rw [zero, ofInt, decide_eq_false (Int.lt_irrefl 0)]
  exact nearest_of_units false _ Nat.one_pos hunits

theorem isSingle_zero : zero.IsSingle := by
  have hunits : (0 : Nat) * binary32.scale = 0 * binary64.scale := by
    rw [Nat.zero_mul, Nat.zero_mul]
  rw [zero_eq]
  exact .finite false ⟨0, 0, by decide⟩ hunits

end Double

end ValueTypes
