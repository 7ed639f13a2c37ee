import ValueTypes.Proofs.Primitive.Integers

/-! Conversion of integers to integer kinds. Strict conversion keeps the integers of the range and
refuses all others. Lenient conversion takes an integer to the one of the range that is congruent to
it, so that it keeps sums and products as far as the width of the kind goes. The clamped kind takes
the nearest integer of its range. -/

namespace ValueTypes

namespace IntegerRange

variable {range : IntegerRange}

/-! ### Wrapping -/

theorem wrap_eq_wrap_iff (hle : range.lo ≤ range.hi) {i j : ℤ} :
    range.wrap i = range.wrap j ↔ i ≡ j [ZMOD range.hi - range.lo + 1] := by
  rw [eq_wrap_iff hle]
  constructor
  · rintro ⟨_, h⟩
    exact (wrap_modEq i).symm.trans h
  · intro h
    exact ⟨holds_wrap hle i, (wrap_modEq i).trans h⟩

theorem wrap_add_wrap (hle : range.lo ≤ range.hi) (i j : ℤ) :
    range.wrap (range.wrap i + range.wrap j) = range.wrap (i + j) := by
  rw [wrap_eq_wrap_iff hle]
  exact (wrap_modEq i).add (wrap_modEq j)

theorem wrap_mul_wrap (hle : range.lo ≤ range.hi) (i j : ℤ) :
    range.wrap (range.wrap i * range.wrap j) = range.wrap (i * j) := by
  rw [wrap_eq_wrap_iff hle]
  exact (wrap_modEq i).mul (wrap_modEq j)

/-! ### Clamping -/

theorem clamp_mono (hle : range.lo ≤ range.hi) {i j : ℤ} (hij : i ≤ j) :
    range.clamp i ≤ range.clamp j := by
  by_cases hi : i ≤ range.lo
  · rw [clamp_of_le hle hi]
    exact (holds_clamp hle j).1
  · by_cases hj : range.hi ≤ j
    · rw [clamp_of_ge hle hj]
      exact (holds_clamp hle i).2
    · rw [clamp_of_holds (i := i) ⟨by omega, by omega⟩,
        clamp_of_holds (i := j) ⟨by omega, by omega⟩]
      exact hij

/-- Every other integer of the range is farther away. -/
theorem abs_sub_clamp_lt {i m : ℤ} (hm : range.Holds m) (hne : m ≠ range.clamp i) :
    |i - range.clamp i| < |i - m| := by
  have hle : range.lo ≤ range.hi := hm.1.trans hm.2
  obtain ⟨hlo, hhi⟩ := hm
  by_cases hi : i ≤ range.lo
  · rw [clamp_of_le hle hi] at hne ⊢
    rw [abs_of_nonpos (by omega), abs_of_nonpos (by omega)]
    omega
  · by_cases hi' : range.hi ≤ i
    · rw [clamp_of_ge hle hi'] at hne ⊢
      rw [abs_of_nonneg (by omega), abs_of_nonneg (by omega)]
      omega
    · rw [clamp_of_holds ⟨by omega, by omega⟩] at hne ⊢
      rw [sub_self, abs_zero, abs_pos]
      omega

/-- Clamping gives the nearest integer of the range. -/
theorem eq_clamp_iff (hle : range.lo ≤ range.hi) {i m : ℤ} :
    m = range.clamp i ↔ range.Holds m ∧ ∀ k, range.Holds k → |i - m| ≤ |i - k| := by
  constructor
  · rintro rfl
    refine ⟨holds_clamp hle i, fun k hk => ?_⟩
    by_cases hne : k = range.clamp i
    · rw [hne]
    · exact (abs_sub_clamp_lt hk hne).le
  · rintro ⟨hm, hnear⟩
    by_contra hne
    exact (abs_sub_clamp_lt hm hne).not_ge (hnear _ (holds_clamp hle i))

end IntegerRange

namespace PrimitiveKind

variable {kind : PrimitiveKind} {range : IntegerRange}

theorem ofInt?_strict_eq (hrange : kind.range? = some range) (hkind : kind ≠ uint8Clamped) (i : ℤ) :
    kind.ofInt? .strict i = if range.lo ≤ i ∧ i ≤ range.hi then some i else none := by
  simp [ofInt?, hrange, hkind, IntegerRange.contains]

theorem ofInt?_eq_wrap (hrange : kind.range? = some range) (hkind : kind ≠ uint8Clamped) (i : ℤ) :
    kind.ofInt? .lenient i = some (range.wrap i) := by
  by_cases hin : range.Holds i
  · rw [ofInt?_of_holds .lenient hrange hin, IntegerRange.wrap_of_holds hin]
  · rw [ofInt?, hrange, Option.bind_some, if_neg hkind,
      if_neg ((range.contains_iff i).not.mpr hin)]

theorem ofInt?_clamped (mode : CoercionMode) (i : ℤ) :
    uint8Clamped.ofInt? mode i = some (IntegerRange.clamp ⟨0, 255⟩ i) := rfl

/-- Integers convert to integer kinds exactly. Strict conversion is the identity on the range and
fails elsewhere. Lenient conversion gives the one integer of the range that is congruent modulo two
to the width of the kind: congruent integers, and only those, give one result, and sums and products
may be taken before or after. The clamped kind has the nearest integer of its range, and keeps the
order. The steps by masks and the bit of the sign come to the same. -/
theorem integer_of_integer (hrange : kind.range? = some range) :
    range.hi - range.lo + 1 = 2 ^ kind.bits ∧
    (kind ≠ uint8Clamped → ∀ i : ℤ,
      kind.ofInt? .strict i = (if range.lo ≤ i ∧ i ≤ range.hi then some i else none) ∧
      (range.Holds i → kind.ofInt? .lenient i = some i) ∧
      ∃ n, kind.ofInt? .lenient i = some n ∧
        (∀ m, m = n ↔ range.Holds m ∧ m ≡ i [ZMOD 2 ^ kind.bits]) ∧
        ∀ j k, kind.ofInt? .lenient j = some k →
          (n = k ↔ i ≡ j [ZMOD 2 ^ kind.bits]) ∧
          kind.ofInt? .lenient (n + k) = kind.ofInt? .lenient (i + j) ∧
          kind.ofInt? .lenient (n * k) = kind.ofInt? .lenient (i * j)) ∧
    (kind = uint8Clamped → ∀ mode (i : ℤ), ∃ n, kind.ofInt? mode i = some n ∧
      (∀ m, m = n ↔ (0 ≤ m ∧ m ≤ 255) ∧ ∀ k, 0 ≤ k ∧ k ≤ 255 → |i - m| ≤ |i - k|) ∧
      ∀ mode' j k, kind.ofInt? mode' j = some k → i ≤ j → n ≤ k) ∧
    ∀ mode i, kind.castInt? mode i = kind.ofInt? mode i := by
  have hle := range?_le hrange
  have hsize : range.hi - range.lo + 1 = 2 ^ kind.bits := by
    exact_mod_cast size_of_range? hrange
  refine ⟨hsize, fun hkind i => ?_, ?_, castInt?_eq kind⟩
  · refine ⟨ofInt?_strict_eq hrange hkind i, ofInt?_of_holds .lenient hrange,
      range.wrap i, ofInt?_eq_wrap hrange hkind i, fun m => ?_, fun j k hk => ?_⟩
    · rw [← hsize]
      exact IntegerRange.eq_wrap_iff hle
    · rw [ofInt?_eq_wrap hrange hkind, Option.some.injEq] at hk
      rw [← hk, ← hsize, ofInt?_eq_wrap hrange hkind, ofInt?_eq_wrap hrange hkind,
        ofInt?_eq_wrap hrange hkind, ofInt?_eq_wrap hrange hkind, IntegerRange.wrap_add_wrap hle,
        IntegerRange.wrap_mul_wrap hle]
      exact ⟨IntegerRange.wrap_eq_wrap_iff hle, rfl, rfl⟩
  · rintro rfl mode i
    cases hrange
    refine ⟨_, ofInt?_clamped mode i, fun m => IntegerRange.eq_clamp_iff hle, ?_⟩
    intro mode' j k hk hij
    rw [ofInt?_clamped, Option.some.injEq] at hk
    rw [← hk]
    exact IntegerRange.clamp_mono hle hij

/-- The least 64-bit integer is congruent to zero, the greatest to minus one. -/
theorem Sample.integer_of_integer_extremes :
    int16.range? = some ⟨-32768, 32767⟩ ∧
      int16.ofInt? .strict (-9223372036854775808) = none ∧
      int16.ofInt? .lenient (-9223372036854775808) = some 0 ∧
      int16.ofInt? .lenient 9223372036854775807 = some (-1) ∧
      int16.castInt? .lenient 9223372036854775807 = some (-1) := by
  have hrange : int16.range? = some ⟨-32768, 32767⟩ := rfl
  obtain ⟨_, hexact, _, hcast⟩ := integer_of_integer hrange
  obtain ⟨hstrict, _, n, hn, hlow, _⟩ := hexact (by decide) (-9223372036854775808)
  obtain ⟨_, _, k, hk, hhigh, _⟩ := hexact (by decide) 9223372036854775807
  have hzero : 0 = n := (hlow 0).mpr ⟨⟨by decide, by decide⟩, by decide⟩
  have hone : -1 = k := (hhigh (-1)).mpr ⟨⟨by decide, by decide⟩, by decide⟩
  rw [← hzero] at hn
  rw [← hone] at hk
  exact ⟨hrange, hstrict, hn, hk, (hcast _ _).trans hk⟩

end PrimitiveKind

end ValueTypes
