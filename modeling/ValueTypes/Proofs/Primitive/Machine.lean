import Mathlib.Data.Nat.Bitwise
import ValueTypes.Primitive.Conversion
import ValueTypes.Proofs.Number.Arithmetic
import ValueTypes.Proofs.Number.Nearest
import ValueTypes.Proofs.Primitive.Acceptance

/-! Conversion to integer kinds step by step, as a machine does it: with remainders, sums and casts
that round, and with bit masks. None of the steps loses anything, and they come to the conversion by
exact values. -/

namespace ValueTypes

-- Powers are those of the core library, whatever else is imported.
attribute [local instance (2000)] instPowNat

/-! ### Words -/

/-- The low bits of a 64-bit word; the highest of them is the sign if there is one. -/
def lowBits (width : ℕ) (isSigned : Bool) (i : ℤ) : ℤ :=
  let mask : BitVec 64 := (1#64 <<< width) - 1#64
  let raw := BitVec.ofInt 64 i &&& mask
  if isSigned && (raw &&& (1#64 <<< (width - 1))) != 0#64 then (raw ||| ~~~mask).toInt
  else raw.toInt

section

variable {width : ℕ}

theorem toNat_bit (hwidth : width < 64) : (1#64 <<< width).toNat = 2 ^ width := by
  rw [BitVec.toNat_shiftLeft, Nat.shiftLeft_eq, BitVec.toNat_ofNat, Nat.one_mod,
    Nat.one_mul, Nat.mod_eq_of_lt (Nat.pow_lt_pow_right Nat.one_lt_two hwidth)]

theorem two_pow_le_half (hwidth : width < 64) : 2 ^ width ≤ 2 ^ 63 :=
  Nat.pow_le_pow_right Nat.two_pos (Nat.le_of_lt_succ hwidth)

theorem toNat_mask (hwidth : width < 64) : ((1#64 <<< width) - 1#64).toNat = 2 ^ width - 1 := by
  have hle : 1#64 ≤ 1#64 <<< width := by
    rw [BitVec.le_def, toNat_bit hwidth]
    exact Nat.one_le_two_pow
  rw [BitVec.toNat_sub_of_le hle, toNat_bit hwidth]
  rfl

theorem toNat_masked (hwidth : width < 64) (i : ℤ) :
    ((BitVec.ofInt 64 i &&& ((1#64 <<< width) - 1#64)).toNat : ℤ) = i % (2 ^ width : ℕ) := by
  rw [BitVec.toNat_and, toNat_mask hwidth, Nat.and_two_pow_sub_one_eq_mod, BitVec.toNat_ofInt,
    Int.natCast_mod, Int.toNat_of_nonneg (Int.emod_nonneg _ (by decide))]
  exact Int.emod_emod_of_dvd i (Int.natCast_dvd_natCast.mpr (Nat.pow_dvd_pow 2 hwidth.le))

theorem signBit_ne_zero (hpos : 0 < width) (hwidth : width < 64) {raw : BitVec 64}
    (hraw : raw.toNat < 2 ^ width) :
    ((raw &&& (1#64 <<< (width - 1))) != 0#64) = decide (2 ^ (width - 1) ≤ raw.toNat) := by
  have hhalf : 2 ^ width = 2 * 2 ^ (width - 1) := by
    rw [← Nat.pow_succ', Nat.succ_eq_add_one, Nat.sub_add_cancel hpos]
  rw [hhalf] at hraw
  rw [Bool.eq_iff_iff, bne_iff_ne, decide_eq_true_iff, ne_eq, ← BitVec.toNat_inj, BitVec.toNat_and,
    toNat_bit (by omega), Nat.and_two_pow, Nat.testBit_eq_decide_div_mod_eq]
  have hpow := Nat.two_pow_pos (width - 1)
  generalize 2 ^ (width - 1) = h at hraw hpow ⊢
  by_cases hle : h ≤ raw.toNat
  · have hone : raw.toNat / h = 1 := Nat.div_eq_of_lt_le (by omega) (by omega)
    refine iff_of_true ?_ hle
    rw [hone, decide_eq_true rfl, Bool.toNat_true, Nat.one_mul]
    exact hpow.ne'
  · have hzero : raw.toNat / h = 0 := Nat.div_eq_of_lt (Nat.lt_of_not_le hle)
    refine iff_of_false ?_ hle
    rw [hzero, decide_eq_false (by decide), Bool.toNat_false, Nat.zero_mul, not_not]
    rfl

/-- Bits above the sign that repeat it take the power of two away. -/
theorem toInt_extended (hwidth : width < 64) {raw : BitVec 64} (hraw : raw.toNat < 2 ^ width) :
    (raw ||| ~~~((1#64 <<< width) - 1#64)).toInt = raw.toNat - (2 ^ width : ℕ) := by
  have hsplit : 2 ^ 64 - 1 - (2 ^ width - 1) = 2 ^ width * (2 ^ (64 - width) - 1) := by
    rw [Nat.mul_sub_one, ← Nat.pow_add, Nat.add_sub_cancel' hwidth.le]
    have := Nat.two_pow_pos width
    omega
  have hor : (raw ||| ~~~((1#64 <<< width) - 1#64)).toNat = 2 ^ 64 - 2 ^ width + raw.toNat := by
    rw [BitVec.toNat_or, BitVec.toNat_not, toNat_mask hwidth, hsplit, Nat.or_comm,
      ← Nat.two_pow_add_eq_or_of_lt hraw, ← hsplit]
    have := Nat.two_pow_pos width
    omega
  have hhalf := two_pow_le_half hwidth
  rw [BitVec.toInt_eq_toNat_cond, hor, if_neg (by omega)]
  omega

theorem lowBits_eq (hpos : 0 < width) (hwidth : width < 64) (isSigned : Bool) (i : ℤ) :
    lowBits width isSigned i =
      if isSigned ∧ (2 ^ (width - 1) : ℕ) ≤ i % (2 ^ width : ℕ) then
        i % (2 ^ width : ℕ) - (2 ^ width : ℕ)
      else i % (2 ^ width : ℕ) := by
  have hmasked := toNat_masked hwidth i
  rw [lowBits]
  generalize BitVec.ofInt 64 i &&& ((1#64 <<< width) - 1#64) = raw at hmasked ⊢
  have hraw : raw.toNat < 2 ^ width := by
    have hlt := Int.emod_lt_of_pos i (Int.natCast_pos.mpr (Nat.two_pow_pos width))
    omega
  rw [signBit_ne_zero hpos hwidth hraw, ← hmasked]
  simp only [Bool.and_eq_true, decide_eq_true_iff, Int.ofNat_le]
  split
  · exact toInt_extended hwidth hraw
  · exact BitVec.toInt_eq_toNat_of_lt (by have := two_pow_le_half hwidth; omega)

end

/-! ### Doubles -/

theorem roundsTo_withSign (s : Bool) (num : ℕ) {den : ℕ} (hden : 0 < den) :
    RoundsTo (withSign s num / den) (withSign s (roundHalfEven num den)) := by
  have hround := roundHalfEven_roundsTo num hden
  cases s with
  | false => exact hround
  | true =>
      have hneg := hround.neg
      rwa [← neg_div] at hneg

namespace Double

theorem one_cast_pos : (0 : ℚ) < one :=
  Int.cast_pos.mpr one_pos

theorem toWord_of_toInt? {f : Double} {i : ℤ} (h : f.toInt? = some i)
    (hi : IntegerRange.word.Holds i) : f.toWord = i := by
  rw [toWord_eq (truncate?_of_toInt? h), IntegerRange.clamp_of_holds hi]

/-- What is an integer already is not rounded. -/
theorem toWord_roundEven {g : Double} {n : ℤ} (h : g.toInt? = some n) (hlo : -0x80000000 ≤ n)
    (hhi : n ≤ 0xffffffff) : g.roundEven.toWord = n := by
  have hsmall : n.natAbs < 0x20000000000000 := by omega
  exact toWord_of_toInt? (toInt?_roundEven_of_toInt? h hsmall)
    ⟨le_trans (by decide) hlo, le_trans hhi (by decide)⟩

theorem toWord_roundEven_finite {s : Bool} {a : Magnitude binary64} {n : ℤ}
    (h : withSign s (roundHalfEven a.units binary64.scale) = n) (hlo : -0x80000000 ≤ n)
    (hhi : n ≤ 0xffffffff) : (finite s a).roundEven.toWord = n := by
  have hsmall : roundHalfEven a.units binary64.scale < 0x20000000000000 := by
    have habs := natAbs_withSign s (roundHalfEven a.units binary64.scale)
    rw [h] at habs
    omega
  have hexact := toInt?_roundEven s hsmall
  rw [h] at hexact
  exact toWord_of_toInt? hexact ⟨le_trans (by decide) hlo, le_trans hhi (by decide)⟩

theorem finite_lt_iff (s : Bool) (a : Magnitude binary64) {g : Double} {n : ℤ}
    (h : g.toInt? = some n) : (finite s a).lt g = true ↔ (withSign s a.units / one : ℚ) < n := by
  rw [lt_eq (units?_finite s a) ((toInt?_eq_some_iff _ _).mp h), decide_eq_true_iff,
    div_lt_iff₀ one_cast_pos]
  exact_mod_cast Iff.rfl

theorem lt_finite_iff (s : Bool) (a : Magnitude binary64) {g : Double} {n : ℤ}
    (h : g.toInt? = some n) : g.lt (finite s a) = true ↔ (n : ℚ) < withSign s a.units / one := by
  rw [lt_eq ((toInt?_eq_some_iff _ _).mp h) (units?_finite s a), decide_eq_true_iff,
    lt_div_iff₀ one_cast_pos]
  exact_mod_cast Iff.rfl

end Double

/-! ### Kinds -/

namespace PrimitiveKind

/-- The width of an integer kind. -/
def bits : PrimitiveKind → ℕ
  | int8 | uint8 | uint8Clamped => 8
  | int16 | uint16 => 16
  | int32 | uint32 => 32
  | _ => 0

def isSigned : PrimitiveKind → Bool
  | int8 | int16 | int32 => true
  | _ => false

/-- Converts a 64-bit integer, by its bits. -/
def castInt? (kind : PrimitiveKind) (mode : CoercionMode) (i : ℤ) : Option ℤ :=
  kind.range?.bind fun range =>
    if kind = uint8Clamped then some (range.clamp i)
    else if range.contains i then some i
    else match mode with
      | .strict => none
      | .lenient => some (lowBits kind.bits kind.isSigned i)

/-- Converts a double, one rounded operation after another. -/
def castDouble? (kind : PrimitiveKind) (mode : CoercionMode) (f : Double) : Option ℤ :=
  kind.range?.bind fun range =>
    if kind = uint8Clamped then
      some (if f.isNaN then 0 else (f.clamp (.ofInt range.lo) (.ofInt range.hi)).roundEven.toWord)
    else match mode with
      | .strict =>
        if f.isFinite && f.fract.numEq .zero && (Double.ofInt range.lo).le f &&
            f.le (.ofInt range.hi) then some f.toWord
        else none
      | .lenient =>
        some (if f.isFinite then
          lowBits kind.bits kind.isSigned
            (f.trunc.remEuclid (.ofInt (2 ^ kind.bits : ℕ))).toWord
        else 0)

variable {kind : PrimitiveKind} {range : IntegerRange}

theorem size_of_range? (hrange : kind.range? = some range) :
    range.hi - range.lo + 1 = (2 ^ kind.bits : ℕ) := by
  cases kind <;> cases hrange <;> rfl

theorem range?_le (hrange : kind.range? = some range) : range.lo ≤ range.hi := by
  have hzero := range?_holds_zero hrange
  exact hzero.1.trans hzero.2

/-- All integer kinds are well within the words. -/
theorem bounds_of_range? (hrange : kind.range? = some range) :
    -0x80000000 ≤ range.lo ∧ range.hi ≤ 0xffffffff := by
  cases kind <;> cases hrange <;> decide

theorem lowBits_eq_wrap (hrange : kind.range? = some range) (i : ℤ) :
    lowBits kind.bits kind.isSigned i = range.wrap i := by
  cases kind <;> cases hrange <;> rw [lowBits_eq (by decide) (by decide), IntegerRange.wrap] <;>
    simp [bits, isSigned] <;> split <;> omega

theorem castInt?_eq (kind : PrimitiveKind) (mode : CoercionMode) (i : ℤ) :
    kind.castInt? mode i = kind.ofInt? mode i := by
  rw [castInt?.eq_def, ofInt?.eq_def]
  cases hrange : kind.range? with
  | none => rfl
  | some range =>
      cases mode with
      | strict => rfl
      | lenient =>
          exact congrArg (fun n => if kind = uint8Clamped then some (range.clamp i)
            else if range.contains i then some i else some n) (lowBits_eq_wrap hrange i)

theorem wrap_emod (range : IntegerRange) (i : ℤ) :
    range.wrap (i % (range.hi - range.lo + 1)) = range.wrap i := by
  rw [IntegerRange.wrap, IntegerRange.wrap, Int.emod_sub_emod]

theorem bits_le (kind : PrimitiveKind) : kind.bits ≤ binary64.precision := by
  cases kind <;> decide

theorem toInt?_bounds (hrange : kind.range? = some range) :
    (Double.ofInt range.lo).toInt? = some range.lo ∧
      (Double.ofInt range.hi).toInt? = some range.hi := by
  have hbounds := bounds_of_range? hrange
  have hle := range?_le hrange
  exact ⟨Double.toInt?_ofInt (by omega), Double.toInt?_ofInt (by omega)⟩

theorem lenient_steps (hrange : kind.range? = some range) {f : Double} {i : ℤ}
    (h : f.truncate? = some i) :
    lowBits kind.bits kind.isSigned (f.trunc.remEuclid (.ofInt (2 ^ kind.bits : ℕ))).toWord =
      range.wrap i := by
  have hpos : (0 : ℤ) < (2 ^ kind.bits : ℕ) := Int.natCast_pos.mpr (Nat.two_pow_pos _)
  have hsmall : 2 ^ kind.bits ≤ 2 ^ binary64.precision :=
    Nat.pow_le_pow_right Nat.two_pos kind.bits_le
  have hmodulus : (Double.ofInt (2 ^ kind.bits : ℕ)).toInt? = some ((2 ^ kind.bits : ℕ) : ℤ) :=
    Double.toInt?_ofInt hsmall
  have hrem := Double.toInt?_remEuclid (Double.toInt?_trunc h) hmodulus hpos hsmall
  have hword : IntegerRange.word.Holds (i % (2 ^ kind.bits : ℕ)) := by
    have hnonneg := Int.emod_nonneg i hpos.ne'
    have hlt := Int.emod_lt_of_pos i hpos
    have hsmall : ((2 ^ kind.bits : ℕ) : ℤ) ≤ 0x20000000000000 := Int.ofNat_le.mpr hsmall
    constructor
    · exact le_trans (by decide) hnonneg
    · exact (hlt.le.trans hsmall).trans (by decide)
  rw [Double.toWord_of_toInt? hrem hword, lowBits_eq_wrap hrange, ← size_of_range? hrange, wrap_emod]

theorem strict_steps (hrange : kind.range? = some range) (f : Double) :
    (if f.isFinite && f.fract.numEq .zero && (Double.ofInt range.lo).le f &&
      f.le (.ofInt range.hi) then some f.toWord else none) = f.toInt?.filter range.contains := by
  have hfract := f.fract_numEq_zero_iff
  cases hi : f.toInt? with
  | none =>
      have hfalse : f.fract.numEq .zero = false := by
        rw [Bool.eq_false_iff, ne_eq, hfract, hi]
        rintro ⟨i, h⟩
        cases h
      rw [hfalse, Bool.and_false, Bool.false_and, Bool.false_and]
      rfl
  | some i =>
      obtain ⟨hlo, hhi⟩ := toInt?_bounds hrange
      obtain ⟨s, a, n, rfl, _⟩ := Double.exists_finite_of_toInt? hi
      have hcontains : range.contains i = (decide (range.lo ≤ i) && decide (i ≤ range.hi)) := rfl
      rw [hfract.mpr ⟨i, hi⟩, Double.le_eq_of_toInt? hlo hi, Double.le_eq_of_toInt? hi hhi,
        Option.filter_some, Double.isFinite, Bool.true_and, Bool.true_and, ← hcontains]
      split
      · rename_i hin
        have hholds := (range.contains_iff i).mp hin
        have hbounds := bounds_of_range? hrange
        rw [Double.toWord_of_toInt? hi ⟨le_trans (by decide) (hbounds.1.trans hholds.1),
          (hholds.2.trans hbounds.2).trans (by decide)⟩]
      · rfl

theorem clamped_steps (hrange : kind.range? = some range) {f : Double} (hf : f ≠ .nan) :
    (f.clamp (.ofInt range.lo) (.ofInt range.hi)).roundEven.toWord = range.nearest f := by
  obtain ⟨hlo, hhi⟩ := toInt?_bounds hrange
  have hbounds := bounds_of_range? hrange
  have hle := range?_le hrange
  have hlow := Double.toWord_roundEven hlo hbounds.1 (hle.trans hbounds.2)
  have hhigh := Double.toWord_roundEven hhi (hbounds.1.trans hle) hbounds.2
  cases f with
  | nan => exact absurd rfl hf
  | infinity negative =>
      rw [Double.clamp, Double.infinity_lt ((Double.toInt?_eq_some_iff _ _).mp hlo),
        Double.lt_infinity ((Double.toInt?_eq_some_iff _ _).mp hhi)]
      cases negative with
      | false => exact hhigh
      | true => exact hlow
  | finite s a =>
      have hround : RoundsTo (withSign s a.units / Double.one)
          (withSign s (roundHalfEven a.units binary64.scale)) :=
        roundsTo_withSign s a.units binary64.scale_pos
      have hbelow := Double.finite_lt_iff s a hlo
      have habove := Double.lt_finite_iff s a hhi
      have hnearest : range.nearest (.finite s a) =
        range.clamp (withSign s (roundHalfEven a.units binary64.scale)) := rfl
      rw [hnearest, Double.clamp]
      split
      · rename_i h
        rw [hlow, IntegerRange.clamp_of_le hle (hround.le_of_le (hbelow.mp h).le)]
      · rename_i hnot
        split
        · rename_i h
          rw [hhigh, IntegerRange.clamp_of_ge hle (hround.le_of_ge (habove.mp h).le)]
        · rename_i hnot'
          have hholds : range.Holds (withSign s (roundHalfEven a.units binary64.scale)) :=
            ⟨hround.le_of_ge (not_lt.mp (hbelow.not.mp hnot)),
              hround.le_of_le (not_lt.mp (habove.not.mp hnot'))⟩
          rw [Double.toWord_roundEven_finite rfl (hbounds.1.trans hholds.1)
            (hholds.2.trans hbounds.2), IntegerRange.clamp_of_holds hholds]

/-- None of the steps of a conversion loses anything. -/
theorem castDouble?_eq (kind : PrimitiveKind) (mode : CoercionMode) (f : Double) :
    kind.castDouble? mode f = kind.ofDouble? mode f := by
  rw [castDouble?.eq_def, ofDouble?.eq_def]
  cases hrange : kind.range? with
  | none => rfl
  | some range =>
      rw [Option.bind_some, Option.bind_some]
      split
      · by_cases hf : f = .nan
        · subst hf
          exact congrArg some (if_pos rfl)
        · rw [if_neg ((Double.isNaN_iff f).not.mpr hf), clamped_steps hrange hf]
      · cases mode with
        | strict => exact strict_steps hrange f
        | lenient =>
            refine congrArg some ?_
            cases htruncate : f.truncate? with
            | none =>
                have hfinite := (Double.isFinite_iff f).not.mpr (by simp [htruncate])
                rw [if_neg hfinite, Option.elim_none]
            | some i =>
                have hfinite := (Double.isFinite_iff f).mpr ⟨i, htruncate⟩
                rw [if_pos hfinite, Option.elim_some, lenient_steps hrange htruncate]

end PrimitiveKind

end ValueTypes
