import ValueTypes.Proofs.Value.Conforms
import ValueTypes.Proofs.Value.Equality

/-! Values inside values, read along paths of field names. Two sound instances of equivalent types
are equal exactly if every path that leads to a leaf in the one leads to an equal leaf in the
other. -/

namespace ValueTypes

variable {μ : Type}

theorem Value.SameLeaf.plain {u v : Value} (h : u.SameLeaf v) : v.Plain := by
  cases h with
  | bool b => exact .bool b
  | int i => exact .int i
  | float _ => exact .float _
  | str s => exact .str s
  | symbol _ => exact .symbol _

/-- Every leaf but not-a-number is equal to itself. -/
theorem Value.SameLeaf.refl {v : Value} (hproper : v.Proper) (hplain : v.Plain)
    (hnumber : ∀ f, v = .float f → f ≠ .nan) : v.SameLeaf v := by
  cases hproper with
  | bool b => exact .bool b
  | int i => exact .int i
  | float f => exact .float ((Double.numEq_self f).mpr (hnumber f rfl))
  | str s => exact .str s
  | symbol s => exact .symbol rfl
  | inst i => cases hplain

namespace Store

/-- The present value of a field of an object; other values have no fields. -/
def field? (store : Store) (v : Value) (name : String) : Option Value :=
  (Source.ofValue? v).bind (·.get? store name)

/-- The value at the end of a path of field names. -/
def read? (store : Store) : Value → List String → Option Value
  | v, [] => some v
  | v, name :: path => (store.field? v name).bind fun w => store.read? w path

variable {store : Store}

theorem field?_inst (i : Instance) (name : String) : store.field? (.inst i) name = i.get? name :=
  rfl

theorem field?_plain {v : Value} (hv : v.Plain) (name : String) : store.field? v name = none := by
  cases hv <;> rfl

theorem read?_cons (v : Value) (name : String) (path : List String) :
    store.read? v (name :: path) = (store.field? v name).bind fun w => store.read? w path := rfl

/-! ### Agreement of leaves -/

/-- Whether every path to a leaf of one value leads to an equal leaf of the other. -/
def Agree (store : Store) (v w : Value) : Prop :=
  ∀ path u, store.read? v path = some u → u.Plain →
    ∃ u', store.read? w path = some u' ∧ u.SameLeaf u'

theorem Agree.trans {u v w : Value} (h : store.Agree u v) (h' : store.Agree v w) :
    store.Agree u w := by
  intro path x hx hplain
  rcases h path x hx hplain with ⟨y, hy, hxy⟩
  rcases h' path y hy hxy.plain with ⟨z, hz, hyz⟩
  exact ⟨z, hz, hxy.trans hyz⟩

theorem agree_of_plain {v : Value} (hv : v.Plain) (w : Value) :
    store.Agree v w ↔ v.SameLeaf w := by
  constructor
  · intro h
    rcases h [] v rfl hv with ⟨u, hu, hsame⟩
    cases hu
    exact hsame
  · intro h path u hu _
    cases path with
    | nil =>
        cases hu
        exact ⟨w, rfl, h⟩
    | cons name path =>
        rw [read?_cons, field?_plain hv] at hu
        cases hu

end Store

/-! ### Reading of conforming values -/

namespace Value.Conforms

variable {v : Value} {t : ValueType}

/-- The fields of a conforming value conform to types of their own. -/
theorem field? (h : v.Conforms t) (store : Store) {name : String} {u : Value}
    (hu : store.field? v name = some u) : ∃ t', u.Conforms t' := by
  by_cases hinst : ∃ i, v = .inst i
  · rcases hinst with ⟨i, rfl⟩
    rw [Store.field?_inst] at hu
    exact h.slots u (List.of_mem_zip (mem_of_lookup hu)).2
  · rw [Store.field?_plain (h.plain_of_not_inst fun i hi => hinst ⟨i, hi⟩)] at hu
    cases hu

/-- Whatever is read along a path conforms to a type. -/
theorem read? (h : v.Conforms t) (store : Store) {path : List String} {u : Value}
    (hu : store.read? v path = some u) : ∃ t', u.Conforms t' := by
  induction path generalizing v t with
  | nil =>
      cases hu
      exact ⟨t, h⟩
  | cons name path ih =>
      rw [Store.read?_cons] at hu
      rcases Option.bind_eq_some_iff.mp hu with ⟨w, hw, hu⟩
      rcases h.field? store hw with ⟨t', hw'⟩
      exact ih hw' hu

end Value.Conforms

/-! ### Slots in pairs -/

theorem exists_field_of_shapes {fs gs : List Field} (h : fieldShapes fs = fieldShapes gs) {k : Nat}
    {f : Field} (hf : fs[k]? = some f) :
    ∃ g, gs[k]? = some g ∧ g.name = f.name ∧ g.type.shape = f.type.shape := by
  rw [fieldShapes_eq_map, fieldShapes_eq_map] at h
  have hk := congrArg (fun shapes => shapes[k]?) h
  simp only [List.getElem?_map, hf, Option.map_some] at hk
  rcases Option.map_eq_some_iff.mp hk.symm with ⟨g, hg, heq⟩
  exact ⟨g, hg, (Prod.mk.inj heq).1, (Prod.mk.inj heq).2⟩

namespace Instance

/-- Whether two instances have schemas with the same names and shapes in the same order, and slots
for them. -/
structure Matches (i j : Instance) (a b : Schema) : Prop where
  left : i.type.layout = .composite a
  right : j.type.layout = .composite b
  names : a.names.Nodup
  names' : b.names.Nodup
  shapes : fieldShapes a.fields = fieldShapes b.fields
  slots : List.Forall₂ Field.Admits a.fields i.slots
  slots' : List.Forall₂ Field.Admits b.fields j.slots

namespace Matches

variable {i j : Instance} {a b : Schema} {store : Store}

theorem length_eq (h : i.Matches j a b) : i.slots.length = j.slots.length := by
  have hshapes := congrArg List.length h.shapes
  rw [fieldShapes_eq_map, fieldShapes_eq_map, List.length_map, List.length_map] at hshapes
  rw [← h.slots.length_eq, ← h.slots'.length_eq, hshapes]

/-- Slots at one place belong to fields of one name and one shape. -/
theorem fields (h : i.Matches j a b) {k : Nat} {u v : Value} (hu : i.slots[k]? = some u)
    (hv : j.slots[k]? = some v) :
    ∃ f ∈ a.fields, ∃ g ∈ b.fields, f.type.shape = g.type.shape ∧ u.HasType f.type ∧
      v.HasType g.type ∧ i.get? f.name = some u ∧ j.get? f.name = some v := by
  rcases exists_left_of_forall₂ h.slots hu with ⟨f, hf, hadmits⟩
  rcases exists_field_of_shapes h.shapes hf with ⟨g, hg, hname, hshape⟩
  refine ⟨f, List.mem_of_getElem? hf, g, List.mem_of_getElem? hg, hshape.symm, hadmits.typed,
    (forall₂_getElem? h.slots' hg hv).typed, ?_, ?_⟩
  · rw [get?_eq h.left h.names hf, hu]
  · rw [← hname, get?_eq h.right h.names' hg, hv]

/-- What one instance has under a name, the other has at the same place. -/
theorem exists_slot (h : i.Matches j a b) {name : String} {u : Value}
    (hu : i.get? name = some u) :
    ∃ (k : Nat) (v : Value), i.slots[k]? = some u ∧ j.slots[k]? = some v ∧
      j.get? name = some v := by
  have hname : name ∈ a.names := by
    by_contra hnot
    rw [get?_eq_none h.left hnot] at hu
    cases hu
  rcases List.mem_map.mp hname with ⟨f, hf, rfl⟩
  rcases List.mem_iff_getElem?.mp hf with ⟨k, hk⟩
  rw [get?_eq h.left h.names hk] at hu
  rcases List.getElem?_eq_some_iff.mp hu with ⟨hlt, _⟩
  rw [h.length_eq] at hlt
  have hv := List.getElem?_eq_getElem hlt
  rcases exists_field_of_shapes h.shapes hk with ⟨g, hg, hgname, _⟩
  refine ⟨k, _, hu, hv, ?_⟩
  rw [← hgname, get?_eq h.right h.names' hg, hv]

/-- Such instances agree if their slots agree in pairs. -/
theorem agree_iff (h : i.Matches j a b) :
    store.Agree (.inst i) (.inst j) ↔
      ∀ (k : Nat) u v, i.slots[k]? = some u → j.slots[k]? = some v → store.Agree u v := by
  constructor
  · intro hagree k u v hu hv path w hw hplain
    rcases h.fields hu hv with ⟨f, _, _, _, _, _, _, hi, hj⟩
    have hread : store.read? (.inst i) (f.name :: path) = some w := by
      rw [Store.read?_cons, Store.field?_inst, hi, Option.bind_some, hw]
    have hother := hagree (f.name :: path) w hread hplain
    rw [Store.read?_cons, Store.field?_inst, hj, Option.bind_some] at hother
    exact hother
  · intro hslots path w hw hplain
    cases path with
    | nil =>
        cases hw
        cases hplain
    | cons name path =>
        rw [Store.read?_cons, Store.field?_inst] at hw ⊢
        rcases Option.bind_eq_some_iff.mp hw with ⟨u, hu, hw⟩
        rcases h.exists_slot hu with ⟨k, v, hk, hk', hv⟩
        rw [hv, Option.bind_some]
        exact hslots k u v hk hk' path w hw hplain

end Matches

end Instance

/-! ### Sound instances -/

namespace Realms.Sound

variable {rs : Realms μ}

/-- The fields of registered types are of registered types. -/
theorem exists_valueType (hrs : rs.Sound) {t : ValueType} (ht : rs.scope.type t) {schema : Schema}
    (hlayout : t.layout = .composite schema) {f : Field} (hf : f ∈ schema.fields) :
    ∃ u, rs.scope.type u ∧ f.type = .value u := by
  cases htype : f.type with
  | value u => exact ⟨u, hrs.faithful.field t schema ht hlayout f hf u htype, rfl⟩
  | struct s =>
      have hvalue := hrs.isValue ht hlayout f hf
      rw [htype] at hvalue
      cases hvalue

/-- Sound instances of types of one shape match. -/
theorem exists_matches (hrs : rs.Sound) {i j : Instance} (hi : rs.scope.Sound (.value (.inst i)))
    (hj : rs.scope.Sound (.value (.inst j))) (h : i.type.shape = j.type.shape) :
    ∃ a b, i.Matches j a b := by
  rcases hi.layout with ⟨a, ha, hslots⟩
  rcases hj.layout with ⟨b, hb, hslots'⟩
  refine ⟨a, b, ha, hb, (hrs.closed i.type a hi.inst_type ha).names,
    (hrs.closed j.type b hj.inst_type hb).names, ?_, hslots, hslots'⟩
  rw [ValueType.shape, ValueType.shape, ha, hb, Layout.shape_composite,
    Layout.shape_composite] at h
  exact (Shape.composite.inj h).2

/-- Sound values of two types of one shape are equal exactly if they agree, once that is so of two
instances. -/
theorem strictEquals_iff_agree_of_inst (hrs : rs.Sound) {store : Store} {t t' : ValueType}
    (ht : rs.scope.type t) (ht' : rs.scope.type t') (hshape : t.shape = t'.shape) {u v : Value}
    (hu : rs.scope.Typed (.value t) u) (hv : rs.scope.Typed (.value t') v)
    (hinst : ∀ i j, u = .inst i → v = .inst j → i.type.shape = j.type.shape →
      (slotsEqual i.slots j.slots = true ↔ store.Agree (.inst i) (.inst j))) :
    u.strictEquals v = true ↔ store.Agree u v := by
  rw [ValueType.shape, ValueType.shape] at hshape
  cases hu.typed with
  | primitive hlayout hu =>
      cases hv.typed with
      | primitive hlayout' hv =>
          rw [hlayout, hlayout', Layout.shape_primitive, Layout.shape_primitive] at hshape
          cases (Shape.primitive.inj hshape).2
          rw [Store.agree_of_plain hu.plain, Value.strictEquals_iff_sameLeaf hu hv]
      | composite hlayout' =>
          rw [hlayout, hlayout', Layout.shape_primitive, Layout.shape_composite] at hshape
          cases hshape
  | composite hlayout hut =>
      cases hv.typed with
      | primitive hlayout' =>
          rw [hlayout, hlayout', Layout.shape_primitive, Layout.shape_composite] at hshape
          cases hshape
      | composite hlayout' hvt =>
          cases u with
          | inst i =>
              cases v with
              | inst j =>
                  have hi := hu.sound.inst_type
                  have hj := hv.sound.inst_type
                  have hit := (ValueType.equivalent_iff_shape hrs.faithful hi ht).mp hut
                  have hjt := (ValueType.equivalent_iff_shape hrs.faithful hj ht').mp hvt
                  have htypes : i.type.shape = j.type.shape := hit.trans (hshape.trans hjt.symm)
                  rw [Value.strictEquals_inst, Instance.equals,
                    (ValueType.equivalent_iff_shape hrs.faithful hi hj).mpr htypes, Bool.true_and]
                  exact hinst i j rfl rfl htypes
              | _ => cases hvt
          | _ => cases hut

/-- The slots of sound instances of types of one shape are equal exactly if the instances agree at
all leaves. The induction is on the soundness of the first: its slots are leaves, or instances that
are sound themselves. -/
theorem slotsEqual_iff_agree (hrs : rs.Sound) (store : Store) {x : Item}
    (hx : rs.scope.Sound x) :
    ∀ i j, x = .value (.inst i) → rs.scope.Sound (.value (.inst j)) →
      i.type.shape = j.type.shape →
        (slotsEqual i.slots j.slots = true ↔ store.Agree (.inst i) (.inst j)) := by
  induction hx with
  | @inst i schema htype hlayout hslots hsound ih =>
      rintro _ j ⟨⟩ hj hshape
      have hi : rs.scope.Sound (.value (.inst i)) := .inst htype hlayout hslots hsound
      rcases hrs.exists_matches hi hj hshape with ⟨a, b, hmatch⟩
      rw [slotsEqual_iff, hmatch.agree_iff, and_iff_right hmatch.length_eq]
      refine forall_congr' fun k => forall_congr' fun u => forall_congr' fun v =>
        forall_congr' fun hu => forall_congr' fun hv => ?_
      rcases hmatch.fields hu hv with ⟨f, hf, g, hg, hfields, hut, hvt, _, _⟩
      rcases hrs.exists_valueType hi.inst_type hmatch.left hf with ⟨t, ht, hft⟩
      rcases hrs.exists_valueType hj.inst_type hmatch.right hg with ⟨t', ht', hgt⟩
      rw [hft, hgt, FieldType.shape_value, FieldType.shape_value] at hfields
      rw [hft] at hut
      rw [hgt] at hvt
      have hu' := List.mem_of_getElem? hu
      have hv' := hj.slots v (List.mem_of_getElem? hv)
      refine hrs.strictEquals_iff_agree_of_inst ht ht' hfields ⟨hsound u hu', hut⟩ ⟨hv', hvt⟩ ?_
      rintro i' j' rfl rfl htypes
      exact ih _ hu' i' j' rfl hv' htypes
  | plain hplain =>
      rintro i j ⟨⟩
      cases hplain
  | _ =>
      rintro i j ⟨⟩

/-- Sound instances are equal exactly if their types are equivalent and they agree at all
leaves. -/
theorem equals_iff_agree (hrs : rs.Sound) (store : Store) {i j : Instance}
    (hi : rs.scope.Sound (.value (.inst i))) (hj : rs.scope.Sound (.value (.inst j))) :
    i.equals j = true ↔ i.type.equivalent j.type = true ∧ store.Agree (.inst i) (.inst j) := by
  rw [Instance.equals, Bool.and_eq_true]
  refine and_congr_right fun h => ?_
  exact hrs.slotsEqual_iff_agree store hi i j rfl hj
    ((ValueType.equivalent_iff_shape hrs.faithful hi.inst_type hj.inst_type).mp h)

theorem equals_trans (hrs : rs.Sound) {i j k : Instance}
    (hi : rs.scope.Sound (.value (.inst i))) (hj : rs.scope.Sound (.value (.inst j)))
    (hk : rs.scope.Sound (.value (.inst k))) (hij : i.equals j = true)
    (hjk : j.equals k = true) : i.equals k = true := by
  rw [hrs.equals_iff_agree rs.store hi hj] at hij
  rw [hrs.equals_iff_agree rs.store hj hk] at hjk
  rw [hrs.equals_iff_agree rs.store hi hk]
  have hshape := fun {a b : Instance} (ha : rs.scope.Sound (.value (.inst a)))
    (hb : rs.scope.Sound (.value (.inst b))) =>
      ValueType.equivalent_iff_shape hrs.faithful ha.inst_type hb.inst_type
  refine ⟨(hshape hi hk).mpr ?_, hij.2.trans hjk.2⟩
  exact ((hshape hi hj).mp hij.1).trans ((hshape hj hk).mp hjk.1)

/-- A sound instance is equal to itself exactly if no leaf of it is not-a-number. -/
theorem equals_self_iff (hrs : rs.Sound) (store : Store) {i : Instance}
    (hi : rs.scope.Sound (.value (.inst i))) :
    i.equals i = true ↔ ∀ path f, store.read? (.inst i) path = some (.float f) → f ≠ .nan := by
  rw [hrs.equals_iff_agree store hi hi, and_iff_right i.type.equivalent_refl]
  have hconforms := hrs.conforms hi i i.type rfl i.type.equivalent_refl
  constructor
  · intro hagree path f hf
    rcases hagree path (.float f) hf (.float f) with ⟨u, hu, hsame⟩
    rw [hf, Option.some.injEq] at hu
    subst hu
    cases hsame with
    | float hself => exact (Double.numEq_self f).mp hself
  · intro hnumber path u hu hplain
    rcases hconforms.read? store hu with ⟨_, hu'⟩
    refine ⟨u, hu, .refl hu'.proper_self hplain ?_⟩
    rintro f rfl
    exact hnumber path f hu

end Realms.Sound

end ValueTypes
