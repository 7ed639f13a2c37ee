import ValueTypes.Proofs.Construction.Correspondence
import ValueTypes.Proofs.Number.Zero

/-! Values that no conversion tells apart: equal leaves, not-a-number and itself, and instances of
types of one shape. Equal instances are alike in all that is read from them, and what is constructed
from them is alike again. -/

namespace ValueTypes

variable {μ : Type}

theorem Value.SameLeaf.symm {u v : Value} (h : u.SameLeaf v) : v.SameLeaf u := by
  cases h with
  | @float f g h =>
      rw [Double.numEq_comm] at h
      exact .float h
  | symbol h => exact .symbol h.symm
  | bool b => exact .bool b
  | int i => exact .int i
  | str s => exact .str s

/-! ### Conversion of like values -/

/-- Whether two values, the instances among them of known types, are alike by themselves. -/
inductive Value.Like (known : ValueType → Prop) : Value → Value → Prop where
  | leaf {u v} (h : u.SameLeaf v) : Like known u v
  | nan : Like known (.float .nan) (.float .nan)
  | inst {i j} (left : known i.type) (right : known j.type) (shape : i.type.shape = j.type.shape) :
      Like known (.inst i) (.inst j)

namespace PrimitiveKind

theorem convert?_symbol {kind : PrimitiveKind} (h : kind ≠ symbol) (mode : CoercionMode)
    (s t : Symbol) : kind.convert? mode (.symbol s) = kind.convert? mode (.symbol t) := by
  cases kind with
  | symbol => exact absurd rfl h
  | _ => rfl

/-- Equal doubles convert to the same value of a kind that holds no doubles. -/
theorem convert?_float_of_numEq {kind : PrimitiveKind} (h : kind.isFloat = false)
    (mode : CoercionMode) {f g : Double} (hfg : f.numEq g = true) :
    kind.convert? mode (.float f) = kind.convert? mode (.float g) := by
  cases hrange : kind.range? with
  | some range =>
      rw [convert?_of_range? hrange, convert?_of_range? hrange, toInteger?_float, toInteger?_float,
        kind.ofDouble?_eq_of_numEq mode hfg]
  | none =>
      cases kind with
      | string =>
          have htext : (Value.float f).text? = (Value.float g).text? :=
            congrArg some (Double.textWith_eq_of_numEq _ hfg)
          change (if mode = .lenient then (Value.float f).text?.map Value.str else none) =
            if mode = .lenient then (Value.float g).text?.map Value.str else none
          rw [htext]
      | boolean =>
          have htruthy : (Value.float f).truthy = (Value.float g).truthy := by
            rcases Double.eq_or_zero_of_numEq hfg with rfl | ⟨s, t, a, rfl, rfl, _⟩
            · rfl
            · have hzero : (Double.finite s a).numEq .zero = (Double.finite t a).numEq .zero := by
                rw [Bool.eq_iff_iff]
                rw [Double.numEq_comm] at hfg
                refine ⟨Double.numEq_trans hfg, Double.numEq_trans ?_⟩
                rw [Double.numEq_comm]
                exact hfg
              rw [Value.truthy, Value.truthy, hzero]
              rfl
          change (if mode = .lenient then some (Value.bool (Value.float f).truthy) else none) =
            if mode = .lenient then some (Value.bool (Value.float g).truthy) else none
          rw [htruthy]
      | symbol => rfl
      | float32 => cases h
      | float64 => cases h
      | _ => cases hrange

end PrimitiveKind

namespace Value.Like

variable {known : ValueType → Prop} {u v : Value}

theorem of_accepts {kind : PrimitiveKind} (h : kind.Accepts v) : v.Like known v := by
  by_cases hnan : v = .float .nan
  · rw [hnan]
    exact .nan
  · refine .leaf (.refl h.proper h.plain ?_)
    rintro f rfl hf
    exact hnan (congrArg Value.float hf)

theorem typeName_eq (h : u.Like known v) : u.typeName = v.typeName := by
  cases h with
  | leaf h => cases h <;> rfl
  | nan => rfl
  | inst => rfl

theorem convert?_self (kind : PrimitiveKind) (mode : CoercionMode) (v : Value) :
    Option.Rel (Like known) (kind.convert? mode v) (kind.convert? mode v) := by
  cases h : kind.convert? mode v with
  | none => exact .none
  | some w => exact .some (of_accepts (PrimitiveKind.convert?_accepts h))

/-- Like values convert to like values, in either mode. -/
theorem convert? (h : u.Like known v) (kind : PrimitiveKind) (mode : CoercionMode) :
    Option.Rel (Like known) (kind.convert? mode u) (kind.convert? mode v) := by
  cases h with
  | leaf h =>
      cases h with
      | @float f g hfg =>
          cases hkind : kind.isFloat with
          | false =>
              rw [PrimitiveKind.convert?_float_of_numEq hkind mode hfg]
              exact convert?_self kind mode _
          | true =>
              cases kind with
              | float32 =>
                  rw [PrimitiveKind.convert?_float32, PrimitiveKind.convert?_float32]
                  exact .some (.leaf (.float (Double.numEq_toSingle hfg)))
              | float64 => exact .some (.leaf (.float hfg))
              | _ => cases hkind
      | @symbol s t hst =>
          by_cases hkind : kind = .symbol
          · subst hkind
            exact .some (.leaf (.symbol hst))
          · rw [PrimitiveKind.convert?_symbol hkind mode s t]
            exact convert?_self kind mode _
      | _ => exact convert?_self kind mode _
  | nan => exact convert?_self kind mode _
  | @inst i j =>
      rw [kind.convert?_inst mode i j]
      exact convert?_self kind mode _

theorem live (h : u.Like known v) (σ τ : Store) : σ.Live u ∧ τ.Live v := by
  constructor
  · rintro s rfl
    cases h with
    | leaf h => cases h
  · rintro s rfl
    cases h with
    | leaf h => cases h

theorem isInstanceOf_eq (hknown : Faithful known) (h : u.Like known v) {t : ValueType}
    (ht : known t) : u.isInstanceOf t = v.isInstanceOf t := by
  cases h with
  | leaf h => cases h <;> rfl
  | nan => rfl
  | @inst i j left right shape =>
      change i.type.equivalent t = j.type.equivalent t
      rw [Bool.eq_iff_iff, ValueType.equivalent_iff_shape hknown left ht,
        ValueType.equivalent_iff_shape hknown right ht, shape]

theorem symm (h : u.Like known v) : v.Like known u := by
  cases h with
  | leaf h => exact .leaf h.symm
  | nan => exact .nan
  | inst left right shape => exact .inst right left shape.symm

end Value.Like

/-! ### Reading of like values -/

/-- Whether every path to a leaf of one value leads to a leaf of the other, which is equal to it or,
like it, not-a-number. -/
def Store.LeavesAgree (σ τ : Store) (v w : Value) : Prop :=
  ∀ path u, σ.read? v path = some u → u.Plain →
    ∃ u', τ.read? w path = some u' ∧ u'.Plain ∧
      (u.strictEquals u' = true ∨ u = .float .nan ∧ u' = .float .nan)

/-- Values that are alike wherever a path leads agree at their leaves. -/
theorem Store.Related.leavesAgree {known : ValueType → Prop} {σ τ : Store} {v w : Value}
    (h : Store.Related (Value.Like known) σ τ v w) : σ.LeavesAgree τ v w := by
  intro path u hu hplain
  obtain ⟨u', hu', hlike⟩ := exists_of_rel_left (h path) hu
  refine ⟨u', hu', ?_⟩
  cases hlike with
  | leaf hsame => exact ⟨hsame.plain, .inl hsame.strictEquals⟩
  | nan => exact ⟨.float .nan, .inr ⟨rfl, rfl⟩⟩
  | inst => cases hplain

theorem Store.Related.symm {R : Value → Value → Prop} (hR : ∀ u v, R u v → R v u) {σ τ : Store}
    {v w : Value} (h : Store.Related R σ τ v w) : Store.Related R τ σ w v := by
  intro path
  have hpath := h path
  generalize σ.read? v path = a at hpath ⊢
  generalize τ.read? w path = b at hpath ⊢
  cases hpath with
  | none => exact .none
  | some huv => exact .some (hR _ _ huv)

theorem Instance.Matches.symm {i j : Instance} {a b : Schema} (h : i.Matches j a b) :
    j.Matches i b a :=
  ⟨h.right, h.left, h.names', h.names, h.shapes.symm, h.slots', h.slots⟩

namespace Realms.Sound

variable {rs : Realms μ}

/-- Sound values of types of one shape are both plain, or both instances, of types of one shape. -/
theorem plain_or_inst (hrs : rs.Sound) {t t' : ValueType} (ht : rs.scope.type t)
    (ht' : rs.scope.type t') (hshape : t.shape = t'.shape) {u v : Value}
    (hu : rs.scope.Typed (.value t) u) (hv : rs.scope.Typed (.value t') v) :
    (u.Plain ∧ v.Plain) ∨
      ∃ i j, u = .inst i ∧ v = .inst j ∧ i.type.shape = j.type.shape := by
  rw [ValueType.shape, ValueType.shape] at hshape
  cases hu.typed with
  | primitive hlayout hu =>
      cases hv.typed with
      | primitive _ hv => exact .inl ⟨hu.plain, hv.plain⟩
      | composite hlayout' =>
          rw [hlayout, hlayout', Layout.shape_primitive, Layout.shape_composite] at hshape
          cases hshape
  | composite hlayout hut =>
      cases hv.typed with
      | primitive hlayout' =>
          rw [hlayout, hlayout', Layout.shape_primitive, Layout.shape_composite] at hshape
          cases hshape
      | composite hlayout' hvt =>
          cases u with
          | inst i =>
              cases v with
              | inst j =>
                  have hi := hu.sound.inst_type
                  have hj := hv.sound.inst_type
                  have hit := (ValueType.equivalent_iff_shape hrs.faithful hi ht).mp hut
                  have hjt := (ValueType.equivalent_iff_shape hrs.faithful hj ht').mp hvt
                  exact .inr ⟨i, j, rfl, rfl, hit.trans (hshape.trans hjt.symm)⟩
              | _ => cases hvt
          | _ => cases hut

/-- Sound instances of types of one shape are alike in all that is read from them, if they are so at
the leaves of the first. -/
theorem related_of_leaves (hrs : rs.Sound) (store : Store) {σ τ : Store} {i j : Instance}
    (hi : rs.scope.Sound (.value (.inst i))) (hj : rs.scope.Sound (.value (.inst j)))
    (hshape : i.type.shape = j.type.shape)
    (hleaves : ∀ path u, store.read? (.inst i) path = some u → u.Plain →
      ∃ v, store.read? (.inst j) path = some v ∧ u.Like rs.scope.type v) :
    Store.Related (Value.Like rs.scope.type) σ τ (.inst i) (.inst j) := by
  intro path
  induction path generalizing i j with
  | nil => exact .some (.inst hi.inst_type hj.inst_type hshape)
  | cons name path ih =>
      obtain ⟨a, b, hmatch⟩ := hrs.exists_matches hi hj hshape
      rw [Store.read?_cons, Store.read?_cons, Store.field?_inst, Store.field?_inst]
      cases hu : i.get? name with
      | none =>
          cases hv : j.get? name with
          | none => exact .none
          | some v =>
              obtain ⟨_, _, _, _, hother⟩ := hmatch.symm.exists_slot hv
              rw [hu] at hother
              cases hother
      | some u =>
          obtain ⟨k, v, hk, hk', hv⟩ := hmatch.exists_slot hu
          obtain ⟨f, hf, g, hg, hfields, hut, hvt, _, _⟩ := hmatch.fields hk hk'
          obtain ⟨t, ht, hft⟩ := hrs.exists_valueType hi.inst_type hmatch.left hf
          obtain ⟨t', ht', hgt⟩ := hrs.exists_valueType hj.inst_type hmatch.right hg
          rw [hft, hgt, FieldType.shape_value, FieldType.shape_value] at hfields
          rw [hft] at hut
          rw [hgt] at hvt
          have hu' := hi.slots u (List.mem_of_getElem? hk)
          have hv' := hj.slots v (List.mem_of_getElem? hk')
          have hbelow : ∀ path w, store.read? u path = some w → w.Plain →
              ∃ x, store.read? v path = some x ∧ w.Like rs.scope.type x := by
            intro path w hw hplain
            have hread := hleaves (name :: path) w
            rw [Store.read?_cons, Store.read?_cons, Store.field?_inst, Store.field?_inst, hu, hv]
              at hread
            exact hread hw hplain
          rw [hv]
          rcases hrs.plain_or_inst ht ht' hfields ⟨hu', hut⟩ ⟨hv', hvt⟩ with
            ⟨hplain, hplain'⟩ | ⟨i', j', rfl, rfl, htypes⟩
          · obtain ⟨x, hx, hlike⟩ := hbelow [] u rfl hplain
            cases hx
            exact Store.Related.of_plain hlike hplain hplain' path
          · exact ih hu' hv' htypes hbelow

/-- A sound value of a value type is like itself. -/
theorem related_self (hrs : rs.Sound) {t : ValueType} {v : Value}
    (hv : rs.scope.Typed (.value t) v) (σ τ : Store) :
    Store.Related (Value.Like rs.scope.type) σ τ v v := by
  cases hv.typed with
  | primitive _ haccepts => exact .of_plain (.of_accepts haccepts) haccepts.plain haccepts.plain
  | composite _ hinst =>
      cases v with
      | inst i =>
          have hi := hv.sound
          refine hrs.related_of_leaves σ hi hi rfl fun path u hu hplain => ⟨u, hu, ?_⟩
          obtain ⟨t', hu⟩ := (hrs.conforms hi i i.type rfl i.type.equivalent_refl).read? σ hu
          cases hu with
          | primitive _ haccepts => exact .of_accepts haccepts
          | inst => cases hplain
      | _ => cases hinst

/-- Equal instances are alike. -/
theorem related_of_equals (hrs : rs.Sound) {i j : Instance}
    (hi : rs.scope.Sound (.value (.inst i))) (hj : rs.scope.Sound (.value (.inst j)))
    (h : i.equals j = true) (σ τ : Store) :
    Store.Related (Value.Like rs.scope.type) σ τ (.inst i) (.inst j) := by
  obtain ⟨htypes, hagree⟩ := (hrs.equals_iff_agree rs.store hi hj).mp h
  refine hrs.related_of_leaves rs.store hi hj
    ((ValueType.equivalent_iff_shape hrs.faithful hi.inst_type hj.inst_type).mp htypes) ?_
  intro path u hu hplain
  obtain ⟨v, hv, hsame⟩ := hagree path u hu hplain
  exact ⟨v, hv, .leaf hsame⟩

/-! ### Construction from like sources -/

/-- The correspondence of like values. What is constructed are registered value types. -/
def likeness (hrs : rs.Sound) : Correspondence where
  types type := ∃ t, type = .value t ∧ rs.scope.type t
  stores _ _ := True
  pair _ _ := Value.Like rs.scope.type
  fields := by
    rintro _ ⟨t, rfl, ht⟩ f hf
    cases hlayout : t.layout with
    | primitive kind =>
        rw [FieldType.fields_primitive hlayout] at hf
        cases hf
    | composite schema =>
        rw [FieldType.fields_composite hlayout] at hf
        obtain ⟨u, hu, htype⟩ := hrs.exists_valueType ht hlayout hf
        exact ⟨u, htype, hu⟩
  grow _ _ _ := trivial
  pair_grow h _ _ := h
  live h := h.live _ _
  typeName h := h.typeName_eq
  isInstanceOf := by
    rintro _ _ u v _ ⟨t, heq, ht⟩ h
    cases heq
    exact h.isInstanceOf_eq hrs.faithful ht
  isStructOf := by
    rintro _ _ u v s ⟨t, heq, _⟩ _
    cases heq
  convert? h := h.convert?
  accepted _ _ := .of_accepts
  default := by
    rintro σ τ _ _ ⟨t, rfl, ht⟩ f hf d hd
    cases hlayout : t.layout with
    | primitive kind =>
        rw [FieldType.fields_primitive hlayout] at hf
        cases hf
    | composite schema =>
        rw [FieldType.fields_composite hlayout] at hf
        have htyped := ((hrs.closed t schema ht hlayout).field f hf).default d hd
        obtain ⟨u, _, htype⟩ := hrs.exists_valueType ht hlayout hf
        rw [htype] at htyped
        exact hrs.related_self htyped σ τ
  inst us vs _ := by
    rintro ⟨t, heq, ht⟩
    cases heq
    exact .inst ht ht rfl
  struct us vs _ := by
    rintro ⟨t, heq, _⟩
    cases heq

/-- Construction of a registered type from equal instances ends alike. -/
theorem construct_of_equals (hrs : rs.Sound) {i j : Instance}
    (hi : rs.scope.Sound (.value (.inst i))) (hj : rs.scope.Sound (.value (.inst j)))
    (h : i.equals j = true) {t : ValueType} (ht : rs.scope.type t) (σ τ : Store) :
    Build.Parallel σ τ (t.construct (some (.inst i))) (t.construct (some (.inst j)))
      fun σ' τ' x y =>
        Store.Related (Value.Like rs.scope.type) σ' τ' (.inst x) (.inst y) := by
  have hsources : hrs.likeness.Sources σ τ (some (.inst i)) (some (.inst j)) :=
    fun σ' τ' _ _ name => (hrs.related_of_equals hi hj h σ' τ').field? name
  have htype : hrs.likeness.types (.value t) := ⟨t, rfl, ht⟩
  exact (Correspondence.construct_parallel htype trivial hsources).of_map

end Realms.Sound

end ValueTypes
