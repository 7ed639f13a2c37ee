import ValueTypes.Proofs.Item
import ValueTypes.Proofs.Lenient.Definition
import ValueTypes.Proofs.Number.Equality
import ValueTypes.Proofs.Primitive.Acceptance

/-! Lenient conversion extends strict conversion: where a strict conversion to a kind gives a value,
the lenient one gives the same value. Wrapping keeps the integers of a range, and cutting off the
fraction keeps whole numbers. Conversion looks at no type, so it is the same for relaxed values. -/

namespace ValueTypes

namespace PrimitiveKind

variable {kind : PrimitiveKind} {mode : CoercionMode}

theorem ofInt?_lenient {i j : Int} (h : kind.ofInt? mode i = some j) :
    kind.ofInt? .lenient i = some j := by
  obtain ⟨range, hrange, h⟩ := Option.bind_eq_some_iff.mp h
  rw [ofInt?, hrange, Option.bind_some]
  by_cases hclamped : kind = uint8Clamped
  · rwa [if_pos hclamped] at h ⊢
  · rw [if_neg hclamped] at h ⊢
    by_cases hin : range.contains i = true
    · rwa [if_pos hin] at h ⊢
    · rw [if_neg hin] at h ⊢
      cases mode with
      | strict => cases h
      | lenient => exact h

/-- The two modes take different ways from a number to an integer; where the strict one arrives, the
number is an integer of the range already. -/
theorem ofDouble?_lenient {f : Double} {j : Int} (h : kind.ofDouble? mode f = some j) :
    kind.ofDouble? .lenient f = some j := by
  obtain ⟨range, hrange, h⟩ := Option.bind_eq_some_iff.mp h
  rw [ofDouble?, hrange, Option.bind_some]
  by_cases hclamped : kind = uint8Clamped
  · rwa [if_pos hclamped] at h ⊢
  · rw [if_neg hclamped] at h ⊢
    cases mode with
    | strict =>
        obtain ⟨hwhole, hin⟩ := Option.filter_eq_some_iff.mp h
        rw [Double.truncate?_of_toInt? hwhole, Option.elim_some,
          IntegerRange.wrap_of_holds ((range.contains_iff j).mp hin)]
    | lenient => exact h

theorem numberOf?_lenient {v : Value} {number : Int ⊕ Double}
    (h : numberOf? mode v = some number) : numberOf? .lenient v = some number := by
  cases mode with
  | strict =>
      cases v with
      | int i => exact h
      | float f => exact h
      | _ => cases h
  | lenient => exact h

/-! ### Values -/

theorem toInteger?_lenient {v w : Value} (h : kind.toInteger? mode v = some w) :
    kind.toInteger? .lenient v = some w := by
  obtain ⟨number, hnumber, h⟩ := Option.bind_eq_some_iff.mp h
  obtain ⟨j, hj, rfl⟩ := Option.map_eq_some_iff.mp h
  rw [toInteger?, numberOf?_lenient hnumber, Option.bind_some]
  cases number with
  | inl i => rw [Sum.elim_inl, ofInt?_lenient hj, Option.map_some]
  | inr f => rw [Sum.elim_inr, ofDouble?_lenient hj, Option.map_some]

theorem toFloat?_lenient {v w : Value} (h : kind.toFloat? mode v = some w) :
    kind.toFloat? .lenient v = some w := by
  obtain ⟨number, hnumber, h⟩ := Option.bind_eq_some_iff.mp h
  rw [toFloat?, numberOf?_lenient hnumber, Option.bind_some, h]

theorem toString?_lenient {v w : Value} (h : toString? mode v = some w) :
    toString? .lenient v = some w := by
  cases mode with
  | strict =>
      cases v with
      | str s => exact h
      | _ => cases h
  | lenient => exact h

theorem toBoolean?_lenient {v w : Value} (h : toBoolean? mode v = some w) :
    toBoolean? .lenient v = some w := by
  cases mode with
  | strict =>
      cases v with
      | bool b => exact h
      | _ => cases h
  | lenient => exact h

theorem convert?_lenient {v w : Value} (h : kind.convert? mode v = some w) :
    kind.convert? .lenient v = some w := by
  unfold convert? at h ⊢
  split at h
  · exact toString?_lenient h
  · exact toBoolean?_lenient h
  · exact h
  · split at h
    · rename_i hinteger
      rw [if_pos hinteger]
      exact toInteger?_lenient h
    · rename_i hinteger
      rw [if_neg hinteger]
      exact toFloat?_lenient h

/-! ### Relaxed values -/

theorem numberOf?_relax (mode : CoercionMode) (v : Value) :
    numberOf? mode v.relax = numberOf? mode v := by
  cases v <;> rfl

theorem convert?_relax (kind : PrimitiveKind) (mode : CoercionMode) (v : Value) :
    kind.convert? mode v.relax = kind.convert? mode v := by
  have hstring : toString? mode v.relax = toString? mode v := by
    cases v <;> rfl
  have hboolean : toBoolean? mode v.relax = toBoolean? mode v := by
    cases v <;> rfl
  have hsymbol : toSymbol? v.relax = toSymbol? v := by
    cases v <;> rfl
  unfold convert? toInteger? toFloat?
  rw [hstring, hboolean, hsymbol, numberOf?_relax]

end PrimitiveKind

theorem Value.Plain.relax_eq {v : Value} (h : v.Plain) : v.relax = v := by
  cases h <;> rfl

theorem PrimitiveKind.Accepts.relax_eq {kind : PrimitiveKind} {v : Value} (h : kind.Accepts v) :
    v.relax = v :=
  h.plain.relax_eq

namespace PrimitiveKind

/-- What conversion to a kind gives in any mode, it gives in lenient mode, for the relaxed value as
well. -/
theorem coerce_relax {kind : PrimitiveKind} {mode : CoercionMode} {name : String} {v w : Value}
    (h : kind.coerce mode name v = .ok w) : kind.coerce .lenient name v.relax = .ok w.relax := by
  rw [(coerce_accepts h).relax_eq]
  rw [coerce] at h ⊢
  cases hconvert : kind.convert? mode v with
  | none =>
      rw [hconvert] at h
      cases h
  | some w' =>
      rw [hconvert] at h
      cases h
      rw [convert?_relax, convert?_lenient hconvert]

theorem default?_relax {kind : PrimitiveKind} {v : Value} (h : kind.default? = some v) :
    v.relax = v :=
  (default?_accepts h).relax_eq

end PrimitiveKind

end ValueTypes
