import ValueTypes.Coercion
import ValueTypes.Proofs.Number.Equality

/-! The sign of zero. Doubles that are equal as numbers are one double, or zeros of different signs,
and no conversion tells those apart. -/

namespace ValueTypes

attribute [local instance (2000)] instPowNat

namespace Double

theorem units?_finite_not (s : Bool) (a : Magnitude binary64) :
    (finite (!s) a).units? = (finite s a).units?.map Neg.neg := by
  cases s with
  | false => rfl
  | true => exact congrArg some (Int.neg_neg _).symm

theorem natAbs_of_units?_finite {s : Bool} {a : Magnitude binary64} {u : Int}
    (h : (finite s a).units? = some u) : a.units = u.natAbs := by
  cases s with
  | false =>
      cases h
      rfl
  | true =>
      cases h
      rw [Int.natAbs_neg, Int.natAbs_natCast]

/-- Equal doubles are one, or zeros of different signs. -/
theorem eq_or_zero_of_numEq {f g : Double} (h : f.numEq g = true) :
    f = g ∨ ∃ s t a, f = finite s a ∧ g = finite t a ∧ a.units = 0 := by
  rcases (numEq_iff f g).mp h with ⟨negative, rfl, rfl⟩ | ⟨u, hf, hg⟩
  · exact .inl rfl
  · cases f with
    | nan => cases hf
    | infinity negative => cases hf
    | finite s a =>
        cases g with
        | nan => cases hg
        | infinity negative => cases hg
        | finite t b =>
            have hunits := natAbs_of_units?_finite hf
            cases Magnitude.eq_of_units (hunits.trans (natAbs_of_units?_finite hg).symm)
            by_cases hts : t = s
            · exact .inl (by rw [hts])
            · refine .inr ⟨s, t, a, rfl, rfl, ?_⟩
              rw [Bool.eq_not_of_ne hts, units?_finite_not, hf, Option.map_some] at hg
              have hzero : -u = u := Option.some.inj hg
              omega

theorem truncate?_eq_of_numEq {f g : Double} (h : f.numEq g = true) :
    f.truncate? = g.truncate? := by
  rcases (numEq_iff f g).mp h with ⟨negative, rfl, rfl⟩ | ⟨u, hf, hg⟩
  · rfl
  · rw [truncate?, truncate?, hf, hg]

/-- The text of a zero has no sign. -/
theorem textWith_eq_of_numEq (printer : Printer) {f g : Double} (h : f.numEq g = true) :
    f.textWith printer = g.textWith printer := by
  rcases eq_or_zero_of_numEq h with rfl | ⟨s, t, a, rfl, rfl, hzero⟩
  · rfl
  · have hwhole : ∀ s, (finite s a).textWith printer = printer.integer 0 := by
      intro s
      have hpos : 0 < 10 ^ (21 : Nat) * binary64.scale :=
        Nat.mul_pos (by decide) binary64.scale_pos
      rw [textWith, hzero, Nat.zero_mod, Nat.zero_div, if_pos ⟨rfl, hpos⟩]
      cases s <;> rfl
    rw [hwhole s, hwhole t]

/-- Rounding to single precision keeps a zero, and its sign. -/
theorem numEq_toSingle {f g : Double} (h : f.numEq g = true) :
    f.toSingle.numEq g.toSingle = true := by
  rcases eq_or_zero_of_numEq h with rfl | ⟨s, t, a, rfl, rfl, hzero⟩
  · refine (numEq_self _).mpr fun hnan => ?_
    cases f with
    | nan => cases h
    | infinity negative => cases hnan
    | finite s a =>
        rw [toSingle_finite] at hnan
        cases hround : binary32.round a.units binary64.scale with
        | none =>
            rw [hround] at hnan
            cases hnan
        | some b =>
            obtain ⟨_, heq, _⟩ := nearest_single s b
            rw [hround, Option.elim_some, heq] at hnan
            cases hnan
  · have hsingle : ∀ s, (finite s a).toSingle = finite s a := by
      intro s
      refine toSingle_of_isSingle (.finite s ⟨0, 0, by decide⟩ ?_)
      rw [hzero, Magnitude.units, Nat.zero_mul, Nat.zero_mul, Nat.zero_mul]
    rw [hsingle s, hsingle t]
    exact h

end Double

theorem IntegerRange.nearest_eq_of_numEq (range : IntegerRange) {f g : Double}
    (h : f.numEq g = true) : range.nearest f = range.nearest g := by
  rcases Double.eq_or_zero_of_numEq h with rfl | ⟨s, t, a, rfl, rfl, hzero⟩
  · rfl
  · have hround : roundHalfEven 0 binary64.scale = 0 := by
      have hmul := roundHalfEven_mul binary64.scale_pos 0
      rwa [Nat.zero_mul] at hmul
    have hnearest : ∀ s, range.nearest (.finite s a) = range.clamp 0 := by
      intro s
      rw [nearest, hzero, hround]
      cases s <;> rfl
    rw [hnearest s, hnearest t]

/-- Equal doubles convert to the same integer. -/
theorem PrimitiveKind.ofDouble?_eq_of_numEq (kind : PrimitiveKind) (mode : CoercionMode)
    {f g : Double} (h : f.numEq g = true) : kind.ofDouble? mode f = kind.ofDouble? mode g := by
  rw [ofDouble?, ofDouble?]
  refine Option.bind_congr fun range _ => ?_
  rw [range.nearest_eq_of_numEq h, Double.toInt?_eq_of_numEq h, Double.truncate?_eq_of_numEq h]

end ValueTypes
