import ValueTypes.Coercion
import ValueTypes.Proofs.Number.Exact

/-! What values a primitive kind holds: integers of its range, numbers of its precision, or values
of its own sort. Every conversion to a kind, in either mode, ends in a value that the kind holds
and leaves such values as they are, and the default is one of them. -/

namespace ValueTypes

/-- Whether an integer lies between the ends of a range. -/
def IntegerRange.Holds (range : IntegerRange) (i : Int) : Prop :=
  range.lo ≤ i ∧ i ≤ range.hi

/-- The values that a field of a kind can have. -/
inductive PrimitiveKind.Accepts : PrimitiveKind → Value → Prop where
  | integer {kind range i} (hrange : kind.range? = some range) (hi : range.Holds i) :
      Accepts kind (.int i)
  | single {f} (hf : f.IsSingle) : Accepts .float32 (.float f)
  | double (f) : Accepts .float64 (.float f)
  | string (s) : Accepts .string (.str s)
  | boolean (b) : Accepts .boolean (.bool b)
  | symbol (s) : Accepts .symbol (.symbol s)

/-! ### Integers -/

namespace IntegerRange

theorem contains_iff (range : IntegerRange) (i : Int) : range.contains i = true ↔ range.Holds i := by
  simp [contains, Holds]

theorem holds_clamp {range : IntegerRange} (h : range.lo ≤ range.hi) (i : Int) :
    range.Holds (range.clamp i) := by
  rw [clamp]
  split
  · exact ⟨le_rfl, h⟩
  · split
    · exact ⟨h, le_rfl⟩
    · exact ⟨by omega, by omega⟩

theorem clamp_of_holds {range : IntegerRange} {i : Int} (h : range.Holds i) :
    range.clamp i = i := by
  rw [clamp, if_neg (not_lt.mpr h.1), if_neg (not_lt.mpr h.2)]

theorem clamp_of_le {range : IntegerRange} (h : range.lo ≤ range.hi) {i : Int}
    (hi : i ≤ range.lo) : range.clamp i = range.lo := by
  rw [clamp]
  split <;> [rfl; split <;> omega]

theorem clamp_of_ge {range : IntegerRange} (h : range.lo ≤ range.hi) {i : Int}
    (hi : range.hi ≤ i) : range.clamp i = range.hi := by
  rw [clamp]
  split <;> [omega; split <;> omega]

theorem holds_wrap {range : IntegerRange} (h : range.lo ≤ range.hi) (i : Int) :
    range.Holds (range.wrap i) := by
  have hsize : 0 < range.hi - range.lo + 1 := by omega
  have hlo := Int.emod_nonneg (i - range.lo) hsize.ne'
  have hhi := Int.emod_lt_of_pos (i - range.lo) hsize
  rw [wrap, Holds]
  omega

theorem wrap_of_holds {range : IntegerRange} {i : Int} (h : range.Holds i) : range.wrap i = i := by
  obtain ⟨hlo, hhi⟩ := h
  have hmod : (i - range.lo) % (range.hi - range.lo + 1) = i - range.lo :=
    Int.emod_eq_of_lt (by omega) (by omega)
  rw [wrap, hmod]
  omega

theorem holds_nearest {range : IntegerRange} (h : range.Holds 0) (f : Double) :
    range.Holds (range.nearest f) := by
  have hle : range.lo ≤ range.hi := h.1.trans h.2
  cases f with
  | nan => exact h
  | infinity negative =>
      cases negative with
      | false => exact ⟨hle, le_rfl⟩
      | true => exact ⟨le_rfl, hle⟩
  | finite negative a => exact holds_clamp hle _

end IntegerRange

namespace PrimitiveKind

theorem range?_holds_zero {kind : PrimitiveKind} {range : IntegerRange}
    (h : kind.range? = some range) : range.Holds 0 := by
  cases kind <;> cases h <;> exact ⟨by decide, by decide⟩

theorem ofInt?_holds {kind : PrimitiveKind} {mode : CoercionMode} {i j : Int}
    (h : kind.ofInt? mode i = some j) : ∃ range, kind.range? = some range ∧ range.Holds j := by
  obtain ⟨range, hrange, h⟩ := Option.bind_eq_some_iff.mp h
  have hzero := range?_holds_zero hrange
  have hle : range.lo ≤ range.hi := hzero.1.trans hzero.2
  refine ⟨range, hrange, ?_⟩
  split at h
  · cases h
    exact IntegerRange.holds_clamp hle i
  · split at h
    · rename_i hin
      cases h
      exact (range.contains_iff i).mp hin
    · cases mode with
      | strict => cases h
      | lenient =>
          cases h
          exact IntegerRange.holds_wrap hle i

theorem ofInt?_of_holds {kind : PrimitiveKind} (mode : CoercionMode) {range : IntegerRange}
    (hrange : kind.range? = some range) {i : Int} (h : range.Holds i) :
    kind.ofInt? mode i = some i := by
  rw [ofInt?, hrange, Option.bind_some]
  split
  · rw [IntegerRange.clamp_of_holds h]
  · rw [if_pos ((range.contains_iff i).mpr h)]

theorem ofDouble?_holds {kind : PrimitiveKind} {mode : CoercionMode} {f : Double} {j : Int}
    (h : kind.ofDouble? mode f = some j) : ∃ range, kind.range? = some range ∧ range.Holds j := by
  obtain ⟨range, hrange, h⟩ := Option.bind_eq_some_iff.mp h
  have hzero := range?_holds_zero hrange
  have hle : range.lo ≤ range.hi := hzero.1.trans hzero.2
  refine ⟨range, hrange, ?_⟩
  split at h
  · cases h
    exact IntegerRange.holds_nearest hzero f
  · cases mode with
    | strict =>
        obtain ⟨_, hin⟩ := Option.filter_eq_some_iff.mp h
        exact (range.contains_iff j).mp hin
    | lenient =>
        cases h
        cases f.truncate? with
        | none => exact hzero
        | some i => exact IntegerRange.holds_wrap hle i

/-! ### Conversion -/

theorem toInteger?_accepts {kind : PrimitiveKind} {mode : CoercionMode} {v w : Value}
    (h : kind.toInteger? mode v = some w) : kind.Accepts w := by
  obtain ⟨number, _, h⟩ := Option.bind_eq_some_iff.mp h
  obtain ⟨j, hj, rfl⟩ := Option.map_eq_some_iff.mp h
  have hholds : ∃ range, kind.range? = some range ∧ range.Holds j := by
    cases number with
    | inl i => exact ofInt?_holds hj
    | inr f => exact ofDouble?_holds hj
  obtain ⟨range, hrange, hin⟩ := hholds
  exact .integer hrange hin

theorem toFloat?_accepts {kind : PrimitiveKind} {mode : CoercionMode} {v w : Value}
    (h : kind.toFloat? mode v = some w) : kind.Accepts w := by
  obtain ⟨number, _, h⟩ := Option.bind_eq_some_iff.mp h
  obtain ⟨f, hf, rfl⟩ := Option.map_eq_some_iff.mp h
  cases kind with
  | float32 =>
      cases hf
      exact .single (Double.isSingle_toSingle _)
  | float64 => exact .double f
  | _ => cases hf

theorem toString?_accepts {mode : CoercionMode} {v w : Value} (h : toString? mode v = some w) :
    string.Accepts w := by
  unfold toString? at h
  split at h
  · cases h
    exact .string _
  · split at h
    · obtain ⟨s, _, rfl⟩ := Option.map_eq_some_iff.mp h
      exact .string s
    · cases h

theorem toBoolean?_accepts {mode : CoercionMode} {v w : Value} (h : toBoolean? mode v = some w) :
    boolean.Accepts w := by
  unfold toBoolean? at h
  split at h
  · cases h
    exact .boolean _
  · split at h
    · cases h
      exact .boolean _
    · cases h

theorem toSymbol?_accepts {v w : Value} (h : toSymbol? v = some w) : symbol.Accepts w := by
  cases v with
  | symbol s =>
      cases h
      exact .symbol s
  | _ => cases h

theorem convert?_accepts {kind : PrimitiveKind} {mode : CoercionMode} {v w : Value}
    (h : kind.convert? mode v = some w) : kind.Accepts w := by
  unfold convert? at h
  split at h
  · exact toString?_accepts h
  · exact toBoolean?_accepts h
  · exact toSymbol?_accepts h
  · split at h
    · exact toInteger?_accepts h
    · exact toFloat?_accepts h

/-- What a conversion gives, whatever it is given and in either mode, is a value of the kind. -/
theorem coerce_accepts {kind : PrimitiveKind} {mode : CoercionMode} {field : String}
    {v w : Value} (h : kind.coerce mode field v = .ok w) : kind.Accepts w := by
  rw [coerce] at h
  split at h
  · rename_i w' hw
    cases h
    exact convert?_accepts hw
  · cases h

theorem convert?_of_range? {kind : PrimitiveKind} {range : IntegerRange}
    (h : kind.range? = some range) (mode : CoercionMode) (v : Value) :
    kind.convert? mode v = kind.toInteger? mode v := by
  cases kind <;> cases h <;> rfl

theorem toInteger?_int (kind : PrimitiveKind) (mode : CoercionMode) (i : ℤ) :
    kind.toInteger? mode (.int i) = (kind.ofInt? mode i).map .int := by
  rw [toInteger?, numberOf?, Option.bind_some, Sum.elim_inl]

theorem toInteger?_float (kind : PrimitiveKind) (mode : CoercionMode) (f : Double) :
    kind.toInteger? mode (.float f) = (kind.ofDouble? mode f).map .int := by
  rw [toInteger?, numberOf?, Option.bind_some, Sum.elim_inr]

theorem toFloat?_int (kind : PrimitiveKind) (mode : CoercionMode) (i : ℤ) :
    kind.toFloat? mode (.int i) = (kind.roundDouble? (.ofInt i)).map .float := by
  rw [toFloat?, numberOf?, Option.bind_some, Sum.elim_inl]

theorem toFloat?_float (kind : PrimitiveKind) (mode : CoercionMode) (f : Double) :
    kind.toFloat? mode (.float f) = (kind.roundDouble? f).map .float := by
  rw [toFloat?, numberOf?, Option.bind_some, Sum.elim_inr, id]

theorem convert?_float32 (mode : CoercionMode) (f : Double) :
    float32.convert? mode (.float f) = some (.float f.toSingle) := rfl

/-- Nothing of an instance shows in a conversion. -/
theorem convert?_inst (kind : PrimitiveKind) (mode : CoercionMode) (i j : Instance) :
    kind.convert? mode (.inst i) = kind.convert? mode (.inst j) := by
  cases kind <;> rfl

/-- Nothing of a struct shows in a conversion. -/
theorem convert?_struct (kind : PrimitiveKind) (mode : CoercionMode) (s t : StructInstance) :
    kind.convert? mode (.struct s) = kind.convert? mode (.struct t) := by
  cases kind <;> rfl

theorem coerce_of_convert? {kind : PrimitiveKind} {mode : CoercionMode} {v w : Value}
    (h : kind.convert? mode v = some w) (field : String) : kind.coerce mode field v = .ok w := by
  rw [coerce, h]

/-- A value that a kind holds converts to itself, in either mode. -/
theorem coerce_of_accepts {kind : PrimitiveKind} {v : Value} (h : kind.Accepts v)
    (mode : CoercionMode) (field : String) : kind.coerce mode field v = .ok v := by
  apply coerce_of_convert?
  cases h with
  | integer hrange hi =>
      rw [convert?_of_range? hrange, toInteger?_int, ofInt?_of_holds mode hrange hi,
        Option.map_some]
  | single hf => rw [convert?_float32, Double.toSingle_of_isSingle hf]
  | double f => rfl
  | string s => rfl
  | boolean b => rfl
  | symbol s => rfl

/-- Conversion is idempotent: what it gives is a value of the kind, which converts to itself whatever
the mode, so that the modes agree on results. -/
theorem coerce_idempotent {kind : PrimitiveKind} {mode : CoercionMode} {field : String}
    {v w : Value} (h : kind.coerce mode field v = .ok w) :
    kind.Accepts w ∧ ∀ mode' field', kind.coerce mode' field' w = .ok w := by
  have haccepts := coerce_accepts h
  exact ⟨haccepts, coerce_of_accepts haccepts⟩

/-- The text of a hexadecimal 500 converts by way of a double that wraps, and then no further. -/
theorem Sample.coerce_idempotent_wrapped :
    int8.coerce .lenient "x" (.str " 0x1F4 ") = .ok (.int (-12)) ∧
      int8.Accepts (.int (-12)) ∧ int8.coerce .strict "x" (.int (-12)) = .ok (.int (-12)) := by
  have hinteger : int8.ofDouble? .lenient (.ofText " 0x1F4 ") = some (-12) := by decide +kernel
  have hconvert : int8.convert? .lenient (.str " 0x1F4 ") = some (.int (-12)) :=
    congrArg (Option.map Value.int) hinteger
  have hcoerce : int8.coerce .lenient "x" (.str " 0x1F4 ") = .ok (.int (-12)) := by
    rw [coerce, hconvert]
  obtain ⟨haccepts, hagain⟩ := coerce_idempotent hcoerce
  exact ⟨hcoerce, haccepts, hagain .strict "x"⟩

theorem default?_of_range? {kind : PrimitiveKind} {range : IntegerRange}
    (h : kind.range? = some range) : kind.default? = some (.int 0) := by
  cases kind <;> cases h <;> rfl

theorem default?_of_isFloat {kind : PrimitiveKind} (h : kind.isFloat = true) :
    kind.default? = some (.float .zero) := by
  cases kind <;> simp_all [isFloat, default?]

theorem default?_accepts {kind : PrimitiveKind} {v : Value} (h : kind.default? = some v) :
    kind.Accepts v := by
  cases hrange : kind.range? with
  | some range =>
      rw [default?_of_range? hrange] at h
      cases h
      exact .integer hrange (range?_holds_zero hrange)
  | none =>
      cases kind with
      | float32 =>
          rw [default?_of_isFloat rfl, Option.some.injEq] at h
          rw [← h]
          exact .single Double.isSingle_zero
      | float64 =>
          rw [default?_of_isFloat rfl, Option.some.injEq] at h
          rw [← h]
          exact .double _
      | string =>
          cases h
          exact .string _
      | boolean =>
          cases h
          exact .boolean _
      | symbol => cases h
      | _ => cases hrange

theorem Accepts.isUndefined {kind : PrimitiveKind} {v : Value} (h : kind.Accepts v) :
    v.isUndefined = false := by
  cases h <;> rfl

/-- No kind is empty. -/
theorem exists_accepts (kind : PrimitiveKind) : ∃ v, kind.Accepts v := by
  cases h : kind.default? with
  | some v => exact ⟨v, default?_accepts h⟩
  | none =>
      cases kind with
      | symbol => exact ⟨_, .symbol ⟨0, none⟩⟩
      | _ => cases h

end PrimitiveKind

end ValueTypes
