import ValueTypes.Proofs.Value.Like
import ValueTypes.Proofs.World.Registration

/-! Construction respects equality in every run. Whether a zero has a sign, and of which realm a
nested instance is, shows in nothing that is constructed, be it in a lenient mode. -/

namespace ValueTypes

variable {μ : Type}

namespace World

/-- What is constructed from two equal instances, be it from any stores, fails with the same error,
or gives two instances that agree at all leaves: each path to a leaf of one leads to a leaf of the
other, and the two are equal, or both not-a-number. -/
theorem construct_respects_equals {w : World μ} (hw : w.Reachable) {i j : Instance}
    (hi : w.Present (.value (.inst i))) (hj : w.Present (.value (.inst j)))
    (h : i.equals j = true) {t : ValueType} (ht : w.Present (.type (.value t))) (σ τ : Store) :
    (∃ e, (t.construct (some (.inst i))).run σ = .error e ∧
      (t.construct (some (.inst j))).run τ = .error e) ∨
    ∃ x σ' y τ', (t.construct (some (.inst i))).run σ = .ok (x, σ') ∧
      (t.construct (some (.inst j))).run τ = .ok (y, τ') ∧ x.type = t ∧ y.type = t ∧
      σ'.LeavesAgree τ' (.inst x) (.inst y) ∧ τ'.LeavesAgree σ' (.inst y) (.inst x) := by
  have hrealms := hw.sound.realms
  have hknown : w.realms.scope.type t := by
    cases hw.sound.present ht with
    | valueType ht => exact ht
  have hparallel :=
    hrealms.construct_of_equals (hw.sound.present hi) (hw.sound.present hj) h hknown σ τ
  cases hrun : (t.construct (some (.inst i))).run σ with
  | error e => exact .inl ⟨e, rfl, (hparallel.error_iff e).mp hrun⟩
  | ok result =>
      obtain ⟨x, σ'⟩ := result
      obtain ⟨y, τ', hrun', _, _, hrelated⟩ := hparallel.of_ok hrun
      exact .inr ⟨x, σ', y, τ', rfl, hrun', ValueType.type_of_construct hrun,
        ValueType.type_of_construct hrun', hrelated.leavesAgree,
        (hrelated.symm fun _ _ => Value.Like.symm).leavesAgree⟩

namespace Sample

/-- A type of the first realm, which is strict, with a field for a double. -/
def measure : ValueType :=
  ⟨13, 1, ⟨25, some "M"⟩, .composite ⟨.value,
    [⟨"x", .value ⟨9, 1, ⟨9, some "float64"⟩, .primitive .float64, .strict, 0⟩, false, none⟩],
    0, 1⟩, .strict, 0⟩

/-- A type of the second realm, which is lenient, with a field of the same name for text. -/
def label : ValueType :=
  ⟨13, 2, ⟨26, some "L"⟩, .composite ⟨.value,
    [⟨"x", .value ⟨10, 2, ⟨22, some "string"⟩, .primitive .string, .lenient, 0⟩, false, none⟩],
    0, 1⟩, .lenient, 0⟩

/-- A zero of either sign. -/
def zero (negative : Bool) : Value :=
  .float (.finite negative ⟨0, 0, by decide⟩)

/-- A world with two instances whose only slots are zeros of different signs. -/
def zeros : World Unit :=
  start hashing
    |>.perform .newTable
    |>.perform (.newRealm {} 0)
    |>.perform (.newRealm { coercion := .lenient } 0)
    |>.perform (.definitions 1)
    |>.perform (.definitions 2)
    |>.perform (.valueType 1 ⟨25, some "M"⟩
      [⟨"x", .value ⟨9, 1, ⟨9, some "float64"⟩, .primitive .float64, .strict, 0⟩, false, none⟩])
    |>.perform (.valueType 2 ⟨26, some "L"⟩
      [⟨"x", .value ⟨10, 2, ⟨22, some "string"⟩, .primitive .string, .lenient, 0⟩, false, none⟩])
    |>.perform (.construct measure (some (.record [("x", zero false)])))
    |>.perform (.construct measure (some (.record [("x", zero true)])))

theorem zeros_reachable : zeros.Reachable := by
  refine ⟨hashing, .step (.step (.step (.step (.step (.step (.step (.step (.step .refl _ ?_) _ ?_)
    _ ?_) _ ?_) _ ?_) _ ?_) _ ?_) _ ?_) _ ?_⟩
  · exact List.forall_mem_nil _
  · exact List.forall_mem_singleton.mpr (.given (gave_at 0 0 rfl rfl))
  · exact List.forall_mem_singleton.mpr (.given (gave_at 1 0 rfl rfl))
  · exact List.forall_mem_singleton.mpr (.given (gave_at 1 0 rfl rfl))
  · exact List.forall_mem_singleton.mpr (.given (gave_at 1 0 rfl rfl))
  · exact List.forall_mem_cons.mpr ⟨.given (gave_at 3 0 rfl rfl),
      List.forall_mem_singleton.mpr (.given (gave_at 1 8 rfl rfl))⟩
  · exact List.forall_mem_cons.mpr ⟨.given (gave_at 3 0 rfl rfl),
      List.forall_mem_singleton.mpr (.given (gave_at 1 9 rfl rfl))⟩
  · exact List.forall_mem_cons.mpr ⟨.given (gave_at 1 0 rfl rfl),
      List.forall_mem_singleton.mpr (.plain (.float _))⟩
  · exact List.forall_mem_cons.mpr ⟨.given (gave_at 2 0 rfl rfl),
      List.forall_mem_singleton.mpr (.plain (.float _))⟩

/-- Zeros of different signs are equal, and convert to one text. -/
theorem construct_respects_equals_zeros : zeros.Reachable ∧
    zeros.Present (.value (.inst ⟨1, measure, [zero false]⟩)) ∧
    zeros.Present (.value (.inst ⟨2, measure, [zero true]⟩)) ∧
    (⟨1, measure, [zero false]⟩ : Instance).equals ⟨2, measure, [zero true]⟩ = true ∧
    zeros.Present (.type (.value label)) ∧
    ∃ x σ' y τ',
      (label.construct (some (.inst ⟨1, measure, [zero false]⟩))).run zeros.realms.store =
        .ok (x, σ') ∧
      (label.construct (some (.inst ⟨2, measure, [zero true]⟩))).run zeros.realms.store =
        .ok (y, τ') ∧
      σ'.LeavesAgree τ' (.inst x) (.inst y) ∧ (y.get? "x").bind Value.toStr? = some "0" := by
  have hleft : zeros.Present (.value (.inst ⟨1, measure, [zero false]⟩)) :=
    .given (gave_at 1 0 rfl rfl)
  have hright : zeros.Present (.value (.inst ⟨2, measure, [zero true]⟩)) :=
    .given (gave_at 0 0 rfl rfl)
  have hequal : (⟨1, measure, [zero false]⟩ : Instance).equals ⟨2, measure, [zero true]⟩ = true :=
    rfl
  have htype : zeros.Present (.type (.value label)) := .given (gave_at 2 0 rfl rfl)
  have htext : ((label.construct (some (.inst ⟨2, measure, [zero true]⟩))).run
      zeros.realms.store).toOption.bind (fun result => (result.1.get? "x").bind Value.toStr?) =
        some "0" := by decide +kernel
  refine ⟨zeros_reachable, hleft, hright, hequal, htype, ?_⟩
  rcases construct_respects_equals zeros_reachable hleft hright hequal htype zeros.realms.store
    zeros.realms.store with ⟨e, _, herror⟩ | ⟨x, σ', y, τ', hx, hy, _, _, hagree, _⟩
  · rw [herror] at htext
    cases htext
  · rw [hy] at htext
    exact ⟨x, σ', y, τ', hx, hy, hagree, htext⟩

end Sample

end World

end ValueTypes
