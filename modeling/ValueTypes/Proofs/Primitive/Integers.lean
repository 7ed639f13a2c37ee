import Mathlib.Data.Int.ModEq
import ValueTypes.Proofs.Number.Equality
import ValueTypes.Proofs.Number.Nearest
import ValueTypes.Proofs.Primitive.Acceptance
import ValueTypes.Proofs.Primitive.Machine

/-! Conversion of doubles to integer kinds, by exact values. Strict conversion keeps the doubles that
are integers of the range, lenient conversion takes the integer part to the integer of the range that
is congruent to it, and the clamped kind rounds what is left of the number within its range. -/

namespace ValueTypes

/-- The integer part of a number: the fraction is cut off toward zero. -/
def truncate (q : ℚ) : ℤ :=
  if 0 ≤ q then ⌊q⌋ else ⌈q⌉

theorem truncate_intCast (i : ℤ) : truncate i = i := by
  rw [truncate, Int.floor_intCast, Int.ceil_intCast, ite_self]

namespace Double

/-- The number that a finite double is. -/
def value? (f : Double) : Option ℚ :=
  f.units?.map fun u : ℤ => (u / one : ℚ)

theorem value?_finite (negative : Bool) (a : Magnitude binary64) :
    (finite negative a).value? = some (if negative then -a.value else a.value) := by
  rw [value?]
  cases negative with
  | false =>
      rw [units?, Option.map_some, one, Int.cast_natCast, Int.cast_natCast]
      rfl
  | true =>
      rw [units?, Option.map_some, one, Int.cast_neg, Int.cast_natCast, Int.cast_natCast, neg_div]
      rfl

theorem toInt?_eq_some_iff_value? {f : Double} {i : ℤ} :
    f.toInt? = some i ↔ f.value? = some (i : ℚ) := by
  rw [toInt?_eq_some_iff, value?, Option.map_eq_some_iff]
  constructor
  · intro h
    refine ⟨_, h, ?_⟩
    rw [Int.cast_mul, mul_div_cancel_right₀ _ one_cast_pos.ne']
  · rintro ⟨u, hu, heq⟩
    rw [div_eq_iff one_cast_pos.ne'] at heq
    rw [hu]
    exact congrArg some (by exact_mod_cast heq)

theorem truncate_div (u : ℤ) {d : ℕ} (hd : 0 < d) : truncate (u / d) = u.tdiv d := by
  have hpos : (0 : ℚ) < d := Nat.cast_pos.mpr hd
  rw [truncate]
  split
  · rename_i h
    have hu : 0 ≤ u := by
      rw [le_div_iff₀ hpos, zero_mul] at h
      exact_mod_cast h
    rw [Rat.floor_intCast_div_natCast, Int.tdiv_eq_ediv_of_nonneg hu]
  · rename_i h
    have hu : u ≤ 0 := by
      rw [not_le, div_lt_iff₀ hpos, zero_mul] at h
      exact_mod_cast h.le
    rw [Rat.ceil_intCast_div_natCast, ← Int.tdiv_eq_ediv_of_nonneg (Int.neg_nonneg_of_nonpos hu),
      Int.neg_tdiv, Int.neg_neg]

theorem truncate?_eq (f : Double) : f.truncate? = f.value?.map truncate := by
  rw [truncate?, value?, Option.map_map]
  refine Option.map_congr fun u _ => ?_
  rw [Function.comp_apply, one, Int.cast_natCast, truncate_div u binary64.scale_pos]

end Double

namespace IntegerRange

variable {range : IntegerRange}

/-! ### Wrapping -/

/-- Wrapping gives the integer of the range that is congruent modulo the size of the range. -/
theorem wrap_modEq (i : ℤ) : range.wrap i ≡ i [ZMOD range.hi - range.lo + 1] := by
  have hmod := (Int.mod_modEq (i - range.lo) (range.hi - range.lo + 1)).add_left range.lo
  rwa [add_sub_cancel] at hmod

theorem eq_of_modEq {m n : ℤ} (hm : range.Holds m) (hn : range.Holds n)
    (h : m ≡ n [ZMOD range.hi - range.lo + 1]) : m = n := by
  have hsmall : |n - m| < range.hi - range.lo + 1 := by
    obtain ⟨hm, hm'⟩ := hm
    obtain ⟨hn, hn'⟩ := hn
    rw [abs_lt]
    omega
  have hzero := Int.eq_zero_of_abs_lt_dvd h.dvd hsmall
  omega

theorem eq_wrap_iff (hle : range.lo ≤ range.hi) {i m : ℤ} :
    m = range.wrap i ↔ range.Holds m ∧ m ≡ i [ZMOD range.hi - range.lo + 1] := by
  constructor
  · rintro rfl
    exact ⟨holds_wrap hle i, wrap_modEq i⟩
  · rintro ⟨hm, hmod⟩
    exact eq_of_modEq hm (holds_wrap hle i) (hmod.trans (wrap_modEq i).symm)

/-! ### Clamping -/

theorem clamp_roundsTo (hle : range.lo ≤ range.hi) {q : ℚ} {n : ℤ} (h : RoundsTo q n) :
    RoundsTo (max range.lo (min q range.hi)) (range.clamp n) := by
  have hcast : (range.lo : ℚ) ≤ range.hi := Int.cast_le.mpr hle
  rcases le_total q range.lo with hlo | hlo
  · have hn : n ≤ range.lo := h.le_of_le hlo
    rw [min_eq_left (hlo.trans hcast), max_eq_left hlo, clamp_of_le hle hn]
    exact roundsTo_self _
  · rcases le_total (range.hi : ℚ) q with hhi | hhi
    · have hn : range.hi ≤ n := h.le_of_ge hhi
      rw [min_eq_right hhi, max_eq_right hcast, clamp_of_ge hle hn]
      exact roundsTo_self _
    · rw [min_eq_left hhi, max_eq_right hlo, clamp_of_holds ⟨h.le_of_ge hlo, h.le_of_le hhi⟩]
      exact h

variable (range) in
theorem nearest_roundsTo (hle : range.lo ≤ range.hi) {f : Double} {q : ℚ}
    (hq : f.value? = some q) :
    RoundsTo (max range.lo (min q range.hi)) (range.nearest f) := by
  cases f with
  | nan => cases hq
  | infinity negative => cases hq
  | finite negative a =>
      have hround : RoundsTo a.value (roundHalfEven a.units binary64.scale : ℕ) :=
        roundHalfEven_roundsTo a.units binary64.scale_pos
      rw [Double.value?_finite, Option.some.injEq] at hq
      rw [← hq]
      refine clamp_roundsTo hle ?_
      cases negative with
      | false => exact hround
      | true => exact hround.neg

end IntegerRange

namespace PrimitiveKind

variable {kind : PrimitiveKind} {range : IntegerRange}

theorem ofDouble?_strict_iff (hrange : kind.range? = some range) (hkind : kind ≠ uint8Clamped)
    (f : Double) (n : ℤ) :
    kind.ofDouble? .strict f = some n ↔ f.value? = some (n : ℚ) ∧ range.Holds n := by
  rw [ofDouble?, hrange, Option.bind_some, if_neg hkind, ← Double.toInt?_eq_some_iff_value?,
    ← range.contains_iff]
  exact Option.filter_eq_some_iff

theorem ofDouble?_eq_wrap (hrange : kind.range? = some range) (hkind : kind ≠ uint8Clamped)
    (f : Double) :
    kind.ofDouble? .lenient f = some ((f.value?.map truncate).elim 0 range.wrap) := by
  rw [ofDouble?, hrange, Option.bind_some, if_neg hkind, Double.truncate?_eq]

theorem ofDouble?_clamped (mode : CoercionMode) (f : Double) :
    uint8Clamped.ofDouble? mode f = some (IntegerRange.nearest ⟨0, 255⟩ f) := rfl

/-- A double that is an integer converts as that integer does. -/
theorem ofDouble?_eq_ofInt? (kind : PrimitiveKind) (mode : CoercionMode) {f : Double} {i : ℤ}
    (h : f.value? = some (i : ℚ)) : kind.ofDouble? mode f = kind.ofInt? mode i := by
  have htruncate : f.truncate? = some i := by
    rw [Double.truncate?_eq, h, Option.map_some, truncate_intCast]
  rw [ofDouble?, ofInt?]
  cases hrange : kind.range? with
  | none => rfl
  | some range =>
      rw [Option.bind_some, Option.bind_some, Double.toInt?_eq_some_iff_value?.mpr h, htruncate]
      split
      · have hnearest := range.nearest_roundsTo (range?_le hrange) h
        have hclamp := range.clamp_roundsTo (range?_le hrange) (roundsTo_self i)
        rw [hnearest.unique hclamp]
      · split
        · exact Option.filter_some
        · split
          · rename_i hin
            have hholds := (range.contains_iff i).mp hin
            rw [Option.elim_some, IntegerRange.wrap_of_holds hholds]
          · rfl

/-- Doubles convert to integer kinds by their exact values, whatever the magnitude: remainders, sums
and casts on the way, which could round, lose nothing. -/
theorem integer_of_double (hrange : kind.range? = some range) (f : Double) :
    (kind ≠ uint8Clamped →
      (∀ n : ℤ, kind.ofDouble? .strict f = some n ↔ f.value? = some (n : ℚ) ∧ range.Holds n) ∧
      (f.value? = none → kind.ofDouble? .lenient f = some 0) ∧
      ∀ q, f.value? = some q → ∃ n, kind.ofDouble? .lenient f = some n ∧
        ∀ m, m = n ↔ range.Holds m ∧ m ≡ truncate q [ZMOD 2 ^ kind.bits]) ∧
    (kind = uint8Clamped → ∀ mode,
      (f = .nan → kind.ofDouble? mode f = some 0) ∧
      (∀ negative, f = .infinity negative →
        kind.ofDouble? mode f = some (if negative then 0 else 255)) ∧
      ∀ q, f.value? = some q → ∃ n, kind.ofDouble? mode f = some n ∧
        ∀ m, m = n ↔ RoundsTo (max 0 (min q 255)) m) ∧
    ∀ mode, kind.castDouble? mode f = kind.ofDouble? mode f ∧
      ∀ i : ℤ, kind.castInt? mode i = kind.ofInt? mode i ∧
        (f.value? = some (i : ℚ) → kind.ofDouble? mode f = kind.ofInt? mode i) := by
  refine ⟨fun hkind => ⟨ofDouble?_strict_iff hrange hkind f, ?_, ?_⟩, ?_,
    fun mode => ⟨castDouble?_eq kind mode f, fun i => ⟨castInt?_eq kind mode i,
      ofDouble?_eq_ofInt? kind mode⟩⟩⟩
  · intro hnone
    rw [ofDouble?_eq_wrap hrange hkind, hnone]
    rfl
  · intro q hq
    refine ⟨range.wrap (truncate q), ?_, fun m => ?_⟩
    · rw [ofDouble?_eq_wrap hrange hkind, hq]
      rfl
    · have hsize := size_of_range? hrange
      rw [Int.natCast_pow] at hsize
      have hwrap := IntegerRange.eq_wrap_iff (range?_le hrange) (i := truncate q) (m := m)
      rwa [hsize] at hwrap
  · rintro rfl mode
    refine ⟨?_, ?_, fun q hq => ⟨_, ofDouble?_clamped mode f, fun m => ?_⟩⟩
    · rintro rfl
      rfl
    · rintro negative rfl
      rfl
    · have hnearest := IntegerRange.nearest_roundsTo ⟨0, 255⟩ (by decide) hq
      rw [Int.cast_zero, Int.cast_ofNat] at hnearest
      constructor
      · rintro rfl
        exact hnearest
      · intro hm
        exact hm.unique hnearest

namespace Sample

/-- Minus 300 and a half. -/
def fractional : Double :=
  .finite true ⟨0x12c80000000000, 1030, by decide⟩

theorem value?_fractional : fractional.value? = some (-601 / 2) := by
  obtain ⟨a, ha, hunits⟩ : ∃ a : Magnitude binary64,
      fractional = .finite true a ∧ a.units * 2 = 601 * binary64.scale :=
    ⟨_, rfl, by decide +kernel⟩
  have hvalue := Magnitude.value_eq_div two_pos hunits
  rw [ha, Double.value?_finite, hvalue, if_pos rfl, neg_div, Nat.cast_ofNat, Nat.cast_ofNat]

/-- The fraction is cut off, and what is left wraps. -/
theorem integer_of_double_fractional :
    int8.range? = some ⟨-128, 127⟩ ∧ fractional.value? = some (-601 / 2) ∧
      int8.ofDouble? .strict fractional = none ∧
      int8.ofDouble? .lenient fractional = some (-44) := by
  have hrange : int8.range? = some ⟨-128, 127⟩ := rfl
  obtain ⟨hstrict, _, hlenient⟩ :=
    (integer_of_double hrange fractional).1 (by decide)
  obtain ⟨n, hn, hunique⟩ := hlenient _ value?_fractional
  refine ⟨hrange, value?_fractional, ?_, ?_⟩
  · rw [Option.eq_none_iff_forall_ne_some]
    intro m hm
    have hvalue := ((hstrict m).mp hm).1
    rw [value?_fractional, Option.some.injEq, div_eq_iff two_ne_zero] at hvalue
    have hodd : (-601 : ℤ) = m * 2 := by exact_mod_cast hvalue
    omega
  · have htruncate : truncate (-601 / 2) = -300 := by
      rw [truncate]
      norm_num
    rw [hn, Option.some.injEq, eq_comm, hunique, htruncate]
    exact ⟨⟨by decide, by decide⟩, by decide⟩

end Sample

end PrimitiveKind

end ValueTypes
