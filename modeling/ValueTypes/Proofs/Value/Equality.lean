import ValueTypes.Proofs.Definition.Shape
import ValueTypes.Proofs.Number.Equality
import ValueTypes.Proofs.Primitive.Acceptance
import ValueTypes.Value.Equality

/-! Strict equality of values, case by case. It is symmetric, as equivalence of types is. Values
that are no instances are equal if they are the same number, or the same value of one sort. -/

namespace ValueTypes

/-! ### Equivalence of types is symmetric -/

theorem ValueType.same_comm (t u : ValueType) : t.same u = u.same t := by
  rw [same, same, BEq.comm, BEq.comm (a := t.id)]

theorem Symbol.beq_comm (a b : Symbol) : (a == b) = (b == a) := by
  rw [Bool.eq_iff_iff, beq_iff, beq_iff, eq_comm]

theorem fieldsEquivalent_comm (fs gs : List Field)
    (h : ∀ f ∈ fs, ∀ type, f.type.equivalent type = type.equivalent f.type) :
    fieldsEquivalent fs gs = fieldsEquivalent gs fs := by
  induction fs generalizing gs with
  | nil =>
      cases gs with
      | nil => rfl
      | cons g gs => cases g; rfl
  | cons f fs ih =>
      cases gs with
      | nil => cases f; rfl
      | cons g gs =>
          rw [fieldsEquivalent_cons, fieldsEquivalent_cons, BEq.comm (a := f.name),
            h f (List.mem_cons_self ..) g.type,
            ih gs fun f' hf' => h f' (List.mem_cons_of_mem f hf')]

theorem ValueType.equivalent_comm_of_layout {t u : ValueType}
    (h : t.layout.equivalent u.layout = u.layout.equivalent t.layout) :
    t.equivalent u = u.equivalent t := by
  rw [equivalent_eq, equivalent_eq, same_comm t u, Symbol.beq_comm t.symbol u.symbol, h]

theorem FieldType.equivalent_comm (a b : FieldType) : a.equivalent b = b.equivalent a := by
  induction a using FieldType.inductionOn generalizing b with
  | primitive t kind ht =>
      cases b with
      | value u =>
          apply ValueType.equivalent_comm_of_layout
          rw [ht]
          cases u.layout with
          | primitive other => exact BEq.comm
          | composite schema => cases schema; rfl
      | struct s => rfl
  | composite t schema ht ih =>
      cases b with
      | value u =>
          apply ValueType.equivalent_comm_of_layout
          rw [ht]
          cases u.layout with
          | primitive other => cases schema; rfl
          | composite other =>
              rw [Layout.equivalent_composite, Layout.equivalent_composite,
                fieldsEquivalent_comm schema.fields other.fields ih]
      | struct s => rfl
  | struct s _ =>
      cases b with
      | value u => rfl
      | struct other => exact BEq.comm

theorem ValueType.equivalent_comm (t u : ValueType) : t.equivalent u = u.equivalent t :=
  FieldType.equivalent_comm (.value t) (.value u)

/-! ### Values that are no instances -/

namespace Value

/-- The equality of two leaves: of one sort, and equal numbers, the same symbol, or the same text,
integer or truth value. -/
inductive SameLeaf : Value → Value → Prop where
  | bool (b) : SameLeaf (.bool b) (.bool b)
  | int (i) : SameLeaf (.int i) (.int i)
  | float {f g} (h : f.numEq g = true) : SameLeaf (.float f) (.float g)
  | str (s) : SameLeaf (.str s) (.str s)
  | symbol {s t : Symbol} (h : s.id = t.id) : SameLeaf (.symbol s) (.symbol t)

theorem strictEquals_of_not_inst {a : Value} (h : ∀ i, a ≠ .inst i) (b : Value) :
    a.strictEquals b = a.plainEquals b := by
  cases a with
  | inst i => exact absurd rfl (h i)
  | _ => rfl

theorem strictEquals_inst_left (i : Instance) {b : Value} (h : ∀ j, b ≠ .inst j) :
    (Value.inst i).strictEquals b = false := by
  cases i
  cases b with
  | inst j => exact absurd rfl (h j)
  | _ => rfl

theorem plainEquals_comm (a b : Value) : a.plainEquals b = b.plainEquals a := by
  cases a with
  | bool x =>
      cases b with
      | bool y => exact BEq.comm
      | _ => rfl
  | int x =>
      cases b with
      | int y => exact BEq.comm
      | _ => rfl
  | float x =>
      cases b with
      | float y => exact x.numEq_comm y
      | _ => rfl
  | str x =>
      cases b with
      | str y => exact BEq.comm
      | _ => rfl
  | symbol x =>
      cases b with
      | symbol y => exact x.beq_comm y
      | _ => rfl
  | record x _ =>
      cases b with
      | record y _ => exact BEq.comm
      | _ => rfl
  | struct x =>
      cases b with
      | struct y => exact BEq.comm
      | _ => rfl
  | _ => cases b <;> rfl

/-- Numbers that are equal to one number are equal, unless they are integers and the number between
them is the double that both round to. -/
theorem plainEquals_trans_or {a b c : Value} (hab : a.plainEquals b = true)
    (hbc : b.plainEquals c = true) :
    a.plainEquals c = true ∨ ∃ i f j, a = .int i ∧ b = .float f ∧ c = .int j := by
  cases a with
  | undefined =>
      cases b with
      | undefined => exact .inl hbc
      | _ => cases hab
  | bool x =>
      cases b with
      | bool y => exact .inl (eq_of_beq hab ▸ hbc)
      | _ => cases hab
  | int i =>
      cases b with
      | int j => exact .inl (eq_of_beq hab ▸ hbc)
      | float f =>
          cases c with
          | int j => exact .inr ⟨i, f, j, rfl, rfl, rfl⟩
          | float g => exact .inl (Double.numEq_trans hab hbc)
          | _ => cases hbc
      | _ => cases hab
  | float f =>
      cases b with
      | int i =>
          rw [plainEquals, Double.numEq_comm] at hab
          cases c with
          | int j =>
              rw [← eq_of_beq hbc, plainEquals, Double.numEq_comm]
              exact .inl hab
          | float g => exact .inl (Double.numEq_trans hab hbc)
          | _ => cases hbc
      | float g =>
          cases c with
          | int i =>
              rw [plainEquals, Double.numEq_comm] at hbc ⊢
              exact .inl (Double.numEq_trans hab hbc)
          | float h => exact .inl (Double.numEq_trans hab hbc)
          | _ => cases hbc
      | _ => cases hab
  | str x =>
      cases b with
      | str y => exact .inl (eq_of_beq hab ▸ hbc)
      | _ => cases hab
  | symbol x =>
      cases b with
      | symbol y =>
          cases c with
          | symbol z =>
              have hxy := (Symbol.beq_iff x y).mp hab
              have hyz := (Symbol.beq_iff y z).mp hbc
              exact .inl ((Symbol.beq_iff x z).mpr (hxy.trans hyz))
          | _ => cases hbc
      | _ => cases hab
  | record x _ =>
      cases b with
      | record y _ =>
          cases c with
          | record z _ => exact .inl (eq_of_beq hab ▸ hbc)
          | _ => cases hbc
      | _ => cases hab
  | struct x =>
      cases b with
      | struct y =>
          cases c with
          | struct z =>
              have hxy : x.address = y.address := eq_of_beq hab
              exact .inl ((congrArg (· == z.address) hxy).trans hbc)
          | _ => cases hbc
      | _ => cases hab
  | inst i => cases hab

theorem SameLeaf.strictEquals {a b : Value} (h : a.SameLeaf b) : a.strictEquals b = true := by
  cases h with
  | bool b => exact beq_self_eq_true b
  | int i => exact beq_self_eq_true i
  | float h => exact h
  | str s => exact beq_self_eq_true s
  | symbol h => exact (Symbol.beq_iff _ _).mpr h

/-- Values that one kind holds are of one sort, so they are equal as leaves or not at all. -/
theorem strictEquals_iff_sameLeaf {kind : PrimitiveKind} {a b : Value} (ha : kind.Accepts a)
    (hb : kind.Accepts b) : a.strictEquals b = true ↔ a.SameLeaf b := by
  refine ⟨fun h => ?_, SameLeaf.strictEquals⟩
  cases ha with
  | integer hrange =>
      cases hb with
      | integer =>
          cases eq_of_beq h
          exact .int _
      | _ => cases hrange
  | single =>
      cases hb with
      | integer hrange => cases hrange
      | single => exact .float h
  | double f =>
      cases hb with
      | integer hrange => cases hrange
      | double g => exact .float h
  | string s =>
      cases hb with
      | integer hrange => cases hrange
      | string t =>
          cases eq_of_beq h
          exact .str s
  | boolean b =>
      cases hb with
      | integer hrange => cases hrange
      | boolean c =>
          cases eq_of_beq h
          exact .bool b
  | symbol s =>
      cases hb with
      | integer hrange => cases hrange
      | symbol t => exact .symbol ((Symbol.beq_iff s t).mp h)

theorem SameLeaf.trans {a b c : Value} (hab : a.SameLeaf b) (hbc : b.SameLeaf c) :
    a.SameLeaf c := by
  cases hab with
  | bool b => exact hbc
  | int i => exact hbc
  | float hfg =>
      cases hbc with
      | float hgh => exact .float (Double.numEq_trans hfg hgh)
  | str s => exact hbc
  | symbol hst =>
      cases hbc with
      | symbol htu => exact .symbol (hst.trans htu)

end Value

/-! ### Instances -/

/-- Lists of slots are equal if they have as many slots, which are equal in pairs. -/
theorem slotsEqual_iff (us vs : List Value) :
    slotsEqual us vs = true ↔ us.length = vs.length ∧
      ∀ (k : Nat) u v, us[k]? = some u → vs[k]? = some v → u.strictEquals v = true := by
  induction us generalizing vs with
  | nil =>
      cases vs with
      | nil => simp [slotsEqual]
      | cons v vs => simp [slotsEqual]
  | cons u us ih =>
      cases vs with
      | nil => simp [slotsEqual]
      | cons v vs =>
          rw [slotsEqual_cons, Bool.and_eq_true, ih, List.length_cons, List.length_cons,
            Nat.add_right_cancel_iff]
          constructor
          · rintro ⟨hhead, hlength, htail⟩
            refine ⟨hlength, fun k u' v' hu hv => ?_⟩
            cases k with
            | zero =>
                cases hu
                cases hv
                exact hhead
            | succ k => exact htail k u' v' hu hv
          · rintro ⟨hlength, h⟩
            exact ⟨h 0 u v rfl rfl, hlength, fun k => h (k + 1)⟩

theorem slotsEqual_comm (us vs : List Value)
    (h : ∀ u ∈ us, ∀ v, u.strictEquals v = v.strictEquals u) :
    slotsEqual us vs = slotsEqual vs us := by
  induction us generalizing vs with
  | nil =>
      cases vs with
      | nil => rfl
      | cons v vs => rfl
  | cons u us ih =>
      cases vs with
      | nil => rfl
      | cons v vs =>
          rw [slotsEqual_cons, slotsEqual_cons, h u (List.mem_cons_self ..) v,
            ih vs fun w hw => h w (List.mem_cons_of_mem u hw)]

theorem Value.strictEquals_comm (a b : Value) : a.strictEquals b = b.strictEquals a := by
  induction a using Value.inductionOn generalizing b with
  | inst i ih =>
      by_cases hb : ∃ j, b = .inst j
      · obtain ⟨j, rfl⟩ := hb
        rw [strictEquals_inst, strictEquals_inst, Instance.equals, Instance.equals,
          ValueType.equivalent_comm, slotsEqual_comm i.slots j.slots ih]
      · have hb : ∀ j, b ≠ .inst j := fun j h => hb ⟨j, h⟩
        rw [strictEquals_inst_left i hb, strictEquals_of_not_inst hb, plainEquals_comm]
        cases b <;> rfl
  | other a ha =>
      rw [strictEquals_of_not_inst ha]
      by_cases hb : ∃ j, b = .inst j
      · obtain ⟨j, rfl⟩ := hb
        rw [strictEquals_inst_left j ha]
        cases a <;> rfl
      · rw [strictEquals_of_not_inst fun j h => hb ⟨j, h⟩, plainEquals_comm]

theorem Instance.equals_comm (i j : Instance) : i.equals j = j.equals i := by
  rw [← Value.strictEquals_inst, Value.strictEquals_comm, Value.strictEquals_inst]

end ValueTypes
