import ValueTypes.Proofs.Number.Exact

/-! Numeric equality of doubles is equality of exact values. The integers that are doubles are
equal to one double up to the sign of zero; every other integer is equal to the double that it
rounds to, whose value is another one. -/

namespace ValueTypes.Double

/-! ### Equality of doubles -/

/-- Doubles are equal if their exact values are, or if they are the same infinity. -/
theorem numEq_iff (f g : Double) :
    f.numEq g = true ↔ (∃ negative, f = infinity negative ∧ g = infinity negative) ∨
      ∃ u, f.units? = some u ∧ g.units? = some u := by
  cases f with
  | nan => simp [numEq, units?]
  | infinity a =>
      cases g with
      | nan => simp [numEq, units?]
      | infinity b =>
          rw [numEq, beq_iff_eq]
          constructor
          · rintro rfl
            exact .inl ⟨a, rfl, rfl⟩
          · rintro (⟨_, ha, hb⟩ | ⟨_, ha, _⟩)
            · cases ha
              cases hb
              rfl
            · cases ha
      | finite t b => simp [numEq, units?]
  | finite s a =>
      have hs : ∃ u, (finite s a).units? = some u := by
        cases s with
        | false => exact ⟨_, rfl⟩
        | true => exact ⟨_, rfl⟩
      cases g with
      | nan => simp [numEq, units?]
      | infinity b => simp [numEq, units?]
      | finite t b =>
          obtain ⟨u, hu⟩ := hs
          rw [numEq, beq_iff_eq, hu]
          constructor
          · intro h
            exact .inr ⟨u, rfl, h.symm⟩
          · rintro (⟨_, ha, _⟩ | ⟨v, hv, hb⟩)
            · cases ha
            · rw [hv, hb]

theorem numEq_comm (f g : Double) : f.numEq g = g.numEq f := by
  rw [Bool.eq_iff_iff, numEq_iff, numEq_iff]
  constructor
  · rintro (⟨negative, hf, hg⟩ | ⟨u, hf, hg⟩)
    · exact .inl ⟨negative, hg, hf⟩
    · exact .inr ⟨u, hg, hf⟩
  · rintro (⟨negative, hf, hg⟩ | ⟨u, hf, hg⟩)
    · exact .inl ⟨negative, hg, hf⟩
    · exact .inr ⟨u, hg, hf⟩

theorem numEq_trans {f g h : Double} (hfg : f.numEq g = true) (hgh : g.numEq h = true) :
    f.numEq h = true := by
  rw [numEq_iff] at hfg hgh ⊢
  rcases hfg with ⟨negative, hf, hg⟩ | ⟨u, hf, hg⟩
  · rcases hgh with ⟨negative', hg', hh⟩ | ⟨v, hg', _⟩
    · rw [hg, infinity.injEq] at hg'
      exact .inl ⟨negative, hf, hg' ▸ hh⟩
    · rw [hg] at hg'
      cases hg'
  · rcases hgh with ⟨negative, hg', _⟩ | ⟨v, hg', hh⟩
    · rw [hg'] at hg
      cases hg
    · rw [hg, Option.some.injEq] at hg'
      exact .inr ⟨u, hf, hg' ▸ hh⟩

/-- Every double but not-a-number is equal to itself. -/
theorem numEq_self (f : Double) : f.numEq f = true ↔ f ≠ nan := by
  cases f with
  | nan => simp [numEq]
  | infinity negative => simp [numEq]
  | finite negative a => simp [numEq]

/-! ### Equality with integers -/

theorem one_pos : 0 < one :=
  Int.natCast_pos.mpr binary64.scale_pos

theorem toInt?_eq_some_iff (f : Double) (i : Int) :
    f.toInt? = some i ↔ f.units? = some (i * one) := by
  rw [toInt?]
  cases f.units? with
  | none => simp
  | some u =>
      rw [Option.bind_some, Option.some.injEq]
      constructor
      · intro h
        split at h
        · rename_i hdvd
          rw [← Option.some.inj h, Int.ediv_mul_cancel (Int.dvd_of_emod_eq_zero hdvd)]
        · cases h
      · rintro rfl
        rw [Int.mul_emod_left, if_pos rfl, Int.mul_ediv_cancel i one_pos.ne']

/-- A number that is equal to an integer loses nothing when the fraction is cut off. -/
theorem truncate?_of_toInt? {f : Double} {i : Int} (h : f.toInt? = some i) :
    f.truncate? = some i := by
  obtain ⟨u, hu, h⟩ := Option.bind_eq_some_iff.mp h
  split at h
  · rename_i hwhole
    cases h
    rw [truncate?, hu, Option.map_some, Int.tdiv_eq_ediv_of_dvd (Int.dvd_of_emod_eq_zero hwhole)]
  · cases h

/-- Doubles that are equal have the same integer value, if any. -/
theorem toInt?_eq_of_numEq {f g : Double} (h : f.numEq g = true) : f.toInt? = g.toInt? := by
  rcases (numEq_iff f g).mp h with ⟨negative, rfl, rfl⟩ | ⟨u, hf, hg⟩
  · rfl
  · rw [toInt?, toInt?, hf, hg]

/-- An integer whose magnitude is a magnitude of the format is converted without rounding. -/
theorem units?_ofInt {i : Int} {a : Magnitude binary64} (h : a.units = i.natAbs * binary64.scale) :
    (ofInt i).units? = some (i * one) := by
  have hround : ofInt i = finite (decide (i < 0)) a :=
    nearest_of_units _ a Nat.one_pos (by rw [h, Nat.mul_one])
  rw [hround]
  by_cases hi : i < 0
  · rw [decide_eq_true hi, units?, h, one, Int.natCast_mul, ← Int.neg_mul,
      Int.ofNat_natAbs_of_nonpos hi.le, Int.neg_neg]
  · rw [decide_eq_false hi, units?, h, one, Int.natCast_mul,
      Int.natAbs_of_nonneg (Int.not_lt.mp hi)]

/-- A double that is an integer is what the integer is converted to, up to the sign of zero. -/
theorem numEq_ofInt_of_toInt? {f : Double} {i : Int} (h : f.toInt? = some i) :
    (ofInt i).numEq f = true := by
  rw [toInt?_eq_some_iff] at h
  refine (numEq_iff _ _).mpr (.inr ⟨i * one, ?_, h⟩)
  cases f with
  | nan => cases h
  | infinity negative => cases h
  | finite negative a =>
      apply units?_ofInt (a := a)
      have habs : ((finite negative a).units?.map Int.natAbs) = some a.units := by
        cases negative <;> simp [units?]
      rw [h, Option.map_some, Option.some.injEq, Int.natAbs_mul, one, Int.natAbs_natCast] at habs
      exact habs.symm

/-- An integer and a double are equal as numbers exactly if their comparison after rounding is
that of exact values: always where the integer is a double, and never where the double is what
another integer rounds to. -/
theorem numEq_ofInt_iff (i : Int) (f : Double) :
    ((ofInt i).numEq f = true ↔ f.toInt? = some i) ↔
      ((ofInt i).toInt? = some i ∨ (ofInt i).numEq f = false) := by
  constructor
  · intro h
    cases hfi : (ofInt i).numEq f with
    | false => exact .inr rfl
    | true =>
        rw [toInt?_eq_of_numEq hfi]
        exact .inl (h.mp hfi)
  · rintro (hexact | hne)
    · refine ⟨fun h => ?_, numEq_ofInt_of_toInt?⟩
      rw [← toInt?_eq_of_numEq h]
      exact hexact
    · refine ⟨fun h => ?_, numEq_ofInt_of_toInt?⟩
      rw [hne] at h
      cases h

/-- The integers up to two to the 53rd power are doubles. -/
theorem toInt?_ofInt {i : Int} (h : i.natAbs ≤ 9007199254740992) :
    (ofInt i).toInt? = some i := by
  have hmagnitude : ∃ a : Magnitude binary64, a.units = i.natAbs * binary64.scale := by
    rw [BinaryFormat.scale]
    rcases Nat.lt_or_eq_of_le h with hlt | heq
    · exact binary64.exists_units_eq i.natAbs binary64.unitExponent hlt (by decide)
    · -- The last one has a digit too many, and takes the next binade.
      obtain ⟨a, ha⟩ := binary64.exists_units_eq 4503599627370496 (binary64.unitExponent + 1)
        (by decide) (by decide)
      refine ⟨a, ha.trans ?_⟩
      rw [heq, Nat.pow_succ]
      omega
  obtain ⟨a, ha⟩ := hmagnitude
  rw [toInt?_eq_some_iff, units?_ofInt ha]

end ValueTypes.Double
