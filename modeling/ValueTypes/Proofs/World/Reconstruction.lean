import ValueTypes.Proofs.World.Congruence
import ValueTypes.Proofs.World.Dispatch

/-! Reconstruction: an instance serves as the source of a type that its own is equivalent to. Within
a realm the two types are one, and all slots are shared. Across realms only types without any
primitive type below them are equivalent, so that static defaults may differ in nothing but the
types of instances without leaves. -/

namespace ValueTypes

variable {μ : Type}

/-! ### Fields that are filled without a step -/

/-- A field that is given a value of its type takes that value, unless it is static. -/
theorem Field.fill_of_hasType {f : Field} (hstatic : f.isStatic = false) {i : Instance} {v : Value}
    (hget : i.get? f.name = some v) (htyped : v.HasType f.type) (owner : String)
    (mode : CoercionMode) : f.fill owner mode (some (.inst i)) = pure v := by
  have hgiven : readGiven (some (.inst i)) f.name = pure (some v) := by
    have hread : readGiven (some (.inst i)) f.name =
        pure ((i.get? f.name).filter fun v => !v.isUndefined) := rfl
    rw [hread, hget, Option.filter_some, htyped.isUndefined]
    rfl
  rw [fill, hstatic, hgiven]
  exact FieldType.coerce_of_hasType htyped mode f.name

/-- Fields that are filled without a step fill the slots without a step. -/
theorem fillSlots_of_pure {P : Field → Value → Prop} {source : Option Source} {owner : String}
    {mode : CoercionMode} {fields : List Field}
    (h : ∀ f ∈ fields, ∃ v, P f v ∧ f.fill owner mode source = pure v) :
    ∃ vs, List.Forall₂ P fields vs ∧ fillSlots fields owner mode source = pure vs := by
  induction fields with
  | nil => exact ⟨[], .nil, rfl⟩
  | cons f fields ih =>
      obtain ⟨v, hv, hfill⟩ := h f (List.mem_cons_self ..)
      obtain ⟨vs, hvs, hrest⟩ := ih fun g hg => h g (List.mem_cons_of_mem f hg)
      refine ⟨v :: vs, .cons hv hvs, ?_⟩
      rw [fillSlots_cons_fill, hfill, hrest]
      rfl

theorem ValueType.construct_of_pure {t : ValueType} {schema : Schema}
    (hlayout : t.layout = .composite schema) {source : Option Source} {vs : List Value}
    (h : fillSlots schema.fields t.name t.coercion source = pure vs) (σ : Store) :
    (t.construct source).run σ =
      .ok (⟨σ.nextId, t, vs⟩, { σ with nextId := σ.nextId + 1 }) := by
  rw [construct, hlayout]
  dsimp only
  rw [h]
  rfl

/-- Slots that are what an instance has under the names of their fields are its slots. -/
theorem Instance.slots_eq_of_get? {i : Instance} {schema : Schema}
    (hlayout : i.type.layout = .composite schema) (hnodup : schema.names.Nodup)
    (hlength : i.slots.length = schema.fields.length) {vs : List Value}
    (h : List.Forall₂ (fun f v => i.get? f.name = some v) schema.fields vs) : vs = i.slots := by
  refine List.ext_getElem? fun k => ?_
  cases hf : schema.fields[k]? with
  | none =>
      have hout := List.getElem?_eq_none_iff.mp hf
      rw [List.getElem?_eq_none (h.length_eq ▸ hout), List.getElem?_eq_none (hlength ▸ hout)]
  | some f =>
      obtain ⟨v, hv, hget⟩ := exists_right_of_forall₂ h hf
      rw [← get?_eq hlayout hnodup hf, hget, hv]

/-! ### What a reconstruction shows -/

/-- Whether two values are one, or instances of equivalent types. -/
inductive Value.SameOrEquivalent : Value → Value → Prop where
  | same (v) : SameOrEquivalent v v
  | inst {i j} (h : i.type.equivalent j.type = true) : SameOrEquivalent (.inst i) (.inst j)

theorem Store.Related.refl {R : Value → Value → Prop} (hR : ∀ v, R v v) {σ : Store} {v : Value} :
    Store.Related R σ σ v v := by
  intro path
  cases σ.read? v path with
  | none => exact .none
  | some w => exact .some (hR w)

/-- Leaves at the ends of the same paths are the same. -/
theorem Store.Related.read?_iff {σ τ : Store} {v w : Value}
    (h : Store.Related Value.SameOrEquivalent σ τ v w) (path : List String) {u : Value}
    (hu : u.Plain) : σ.read? v path = some u ↔ τ.read? w path = some u := by
  constructor
  · intro hread
    obtain ⟨_, hread', hsame⟩ := exists_of_rel_left (h path) hread
    cases hsame with
    | same => exact hread'
    | inst => cases hu
  · intro hread
    obtain ⟨_, hread', hsame⟩ := exists_of_rel_right (h path) hread
    cases hsame with
    | same => exact hread'
    | inst => cases hu

/-! ### An instance as the source of an equivalent type -/

namespace Realms.Sound

variable {rs : Realms μ}

/-- Sound values of a type are of every type of the same shape. -/
theorem hasType_of_shape (hrs : rs.Sound) {t u : ValueType} (ht : rs.scope.type t)
    (hu : rs.scope.type u) (hshape : t.shape = u.shape) {v : Value}
    (hv : rs.scope.Typed (.value t) v) : v.HasType (.value u) := by
  cases hv.typed with
  | primitive hlayout haccepts =>
      exact .primitive (ValueType.primitive_of_shape hlayout hshape).1 haccepts
  | composite hlayout hinst =>
      obtain ⟨_, hother, _, _⟩ := ValueType.composite_of_shape hlayout hshape
      cases v with
      | inst i =>
          have hi := hv.sound.inst_type
          have htypes := (ValueType.equivalent_iff_shape hrs.faithful hi ht).mp hinst
          exact .composite hother
            ((ValueType.equivalent_iff_shape hrs.faithful hi hu).mpr (htypes.trans hshape))
      | _ => cases hinst

/-- Each field of a type finds a value of its type in an instance of an equivalent type. -/
theorem exists_slot_of_shape (hrs : rs.Sound) {i : Instance}
    (hi : rs.scope.Sound (.value (.inst i))) {t : ValueType} (ht : rs.scope.type t)
    (hshape : i.type.shape = t.shape) {schema : Schema} (hlayout : t.layout = .composite schema)
    {f : Field} (hf : f ∈ schema.fields) :
    ∃ v, i.get? f.name = some v ∧ rs.scope.Sound (.value v) ∧ v.HasType f.type := by
  obtain ⟨a, ha, hslots⟩ := hi.layout
  obtain ⟨_, hother, _, hfields⟩ := ValueType.composite_of_shape ha hshape
  rw [hlayout] at hother
  cases hother
  obtain ⟨k, hk⟩ := List.mem_iff_getElem?.mp hf
  obtain ⟨g, hg, hname, hgshape⟩ := exists_field_of_shapes hfields.symm hk
  obtain ⟨v, hv, hadmits⟩ := exists_right_of_forall₂ hslots hg
  have hsound := hi.slots _ (List.mem_of_getElem? hv)
  have hget := Instance.get?_eq ha (hrs.closed i.type a hi.inst_type ha).names hg
  rw [hname, hv] at hget
  obtain ⟨p, hp, hgtype⟩ := hrs.exists_valueType hi.inst_type ha (List.mem_of_getElem? hg)
  obtain ⟨q, hq, hftype⟩ := hrs.exists_valueType ht hlayout hf
  have htyped := hadmits.typed
  rw [hgtype, hftype, FieldType.shape_value, FieldType.shape_value] at hgshape
  rw [hgtype] at htyped
  rw [hftype]
  exact ⟨v, hget, hsound, hrs.hasType_of_shape hp hq hgshape ⟨hsound, htyped⟩⟩

/-- From an instance of an equivalent type a field takes what it finds, without a step, unless it is
static; if the types are one, that is what the instance has in any case. -/
theorem fill_of_shape (hrs : rs.Sound) {i : Instance} (hi : rs.scope.Sound (.value (.inst i)))
    {t : ValueType} (ht : rs.scope.type t) (hshape : i.type.shape = t.shape) {schema : Schema}
    (hlayout : t.layout = .composite schema) :
    ∀ f ∈ schema.fields, ∃ v,
      (rs.scope.Sound (.value v) ∧ f.Admits v ∧ (i.type = t → i.get? f.name = some v)) ∧
      f.fill t.name t.coercion (some (.inst i)) = pure v := by
  intro f hf
  have hfield := (hrs.closed t schema ht hlayout).field f hf
  cases hstatic : f.isStatic with
  | true =>
      obtain ⟨d, hd⟩ := Option.isSome_iff_exists.mp (hfield.fixed hstatic)
      have htyped := hfield.default d hd
      refine ⟨d, ⟨htyped.sound, ⟨htyped.typed, fun _ => hd⟩, fun heq => ?_⟩, ?_⟩
      · rw [← heq] at hlayout
        obtain ⟨d', hd', hget⟩ := hi.get?_static hrs.closed hlayout hf hstatic
        rw [hd] at hd'
        cases hd'
        exact hget
      · rw [Field.fill, hstatic, hd]
        rfl
  | false =>
      obtain ⟨v, hget, hsound, htyped⟩ := hrs.exists_slot_of_shape hi ht hshape hlayout hf
      refine ⟨v, ⟨hsound, ⟨htyped, fun h => ?_⟩, fun _ => hget⟩, ?_⟩
      · rw [hstatic] at h
        cases h
      · exact Field.fill_of_hasType hstatic hget htyped t.name t.coercion

/-- Construction from an instance of an equivalent type gives a sound instance, which has the same
slots if the types are one. -/
theorem construct_of_shape (hrs : rs.Sound) {i : Instance} (hi : rs.scope.Sound (.value (.inst i)))
    {t : ValueType} (ht : rs.scope.type t) (hshape : i.type.shape = t.shape) (σ : Store) :
    ∃ slots, (t.construct (some (.inst i))).run σ =
        .ok (⟨σ.nextId, t, slots⟩, { σ with nextId := σ.nextId + 1 }) ∧
      rs.scope.Sound (.value (.inst ⟨σ.nextId, t, slots⟩)) ∧ (i.type = t → slots = i.slots) := by
  obtain ⟨a, ha, hslots⟩ := hi.layout
  obtain ⟨schema, hlayout, _, _⟩ := ValueType.composite_of_shape ha hshape
  obtain ⟨vs, hvs, hfill⟩ := fillSlots_of_pure (hrs.fill_of_shape hi ht hshape hlayout)
  refine ⟨vs, ValueType.construct_of_pure hlayout hfill σ, ?_, fun heq => ?_⟩
  · refine .inst ht hlayout (hvs.imp fun _ _ h => h.2.1) fun v hv => ?_
    obtain ⟨k, hk⟩ := List.mem_iff_getElem?.mp hv
    obtain ⟨_, _, hsound, _⟩ := exists_left_of_forall₂ hvs hk
    exact hsound
  · rw [heq, hlayout] at ha
    cases ha
    exact Instance.slots_eq_of_get? (heq ▸ hlayout) (hrs.closed t a ht hlayout).names
      hslots.length_eq.symm (hvs.imp fun _ _ h => h.2.2 heq)

/-! ### Instances without leaves -/

/-- A leaf of an instance is of a primitive type below the type of the instance. -/
theorem exists_primitive_of_leaf (hrs : rs.Sound) {store : Store} {path : List String}
    {i : Instance} (hi : rs.scope.Sound (.value (.inst i))) {u : Value}
    (hread : store.read? (.inst i) path = some u) (hu : u.Plain) :
    ∃ p kind, (FieldType.value i.type).Reaches (.value p) ∧ p.layout = .primitive kind := by
  induction path generalizing i with
  | nil =>
      cases hread
      cases hu
  | cons name path ih =>
      rw [Store.read?_cons, Store.field?_inst] at hread
      obtain ⟨v, hv, hread⟩ := Option.bind_eq_some_iff.mp hread
      obtain ⟨a, b, hmatch⟩ := hrs.exists_matches hi hi rfl
      obtain ⟨k, _, hk, _, _⟩ := hmatch.exists_slot hv
      obtain ⟨f, hf, _, _, _, htyped, _, _, _⟩ := hmatch.fields hk hk
      obtain ⟨t, ht, hftype⟩ := hrs.exists_valueType hi.inst_type hmatch.left hf
      have hreach : (FieldType.value i.type).Reaches (.value t) := by
        rw [← hftype]
        exact .field .refl (by rw [FieldType.fields_composite hmatch.left]; exact hf)
      rw [hftype] at htyped
      cases htyped with
      | primitive hkind _ => exact ⟨t, _, hreach, hkind⟩
      | composite _ hinst =>
          cases v with
          | inst j =>
              have hj := hi.slots _ (List.mem_of_getElem? hk)
              obtain ⟨p, kind, hp, hkind⟩ := ih hj hread
              have hshape := (ValueType.equivalent_iff_shape hrs.faithful hj.inst_type ht).mp hinst
              obtain ⟨q, hq, hqkind, _⟩ :=
                hrs.exists_primitive_of_shape hj.inst_type hshape hp hkind
              exact ⟨q, kind, hreach.trans hq, hqkind⟩
          | _ => cases hinst

/-- Types of one shape are one type, or instances of the first have no leaves. -/
theorem eq_or_leafless (hrs : rs.Sound) (hseeded : rs.Seeded) {i : Instance}
    (hi : rs.scope.Sound (.value (.inst i))) {t : ValueType} (ht : rs.scope.type t)
    (hshape : i.type.shape = t.shape) :
    i.type = t ∨ ∀ (store : Store) path u, store.read? (.inst i) path = some u → ¬ u.Plain := by
  by_cases hrealm : i.type.realm = t.realm
  · obtain ⟨hid, hmem⟩ := hrs.registered ht
    exact .inl ((hrs.registry hid).canonical _ (hrs.mem_of_realm_eq hid hi.inst_type hrealm) _ hmem
      hshape)
  · refine .inr fun store path u hread hu => hrealm ?_
    obtain ⟨p, kind, hp, hkind⟩ := hrs.exists_primitive_of_leaf hi hread hu
    exact (Realms.realm_eq_of_shape hseeded hrs hi.inst_type ht hshape hp hkind).symm

/-- Two instances of types of one shape show the same wherever a path leads, if they have the same
slots or the first has no leaves. -/
theorem related_of_eq_or_leafless (hrs : rs.Sound) {i j : Instance}
    (hi : rs.scope.Sound (.value (.inst i))) (hj : rs.scope.Sound (.value (.inst j)))
    (hshape : i.type.shape = j.type.shape) (store : Store)
    (h : i.type = j.type ∧ i.slots = j.slots ∨
      ∀ path u, store.read? (.inst i) path = some u → ¬ u.Plain) :
    Store.Related Value.SameOrEquivalent store store (.inst i) (.inst j) := by
  have hequivalent : ∀ {a b : ValueType}, rs.scope.type a → rs.scope.type b →
      a.shape = b.shape → a.equivalent b = true :=
    fun ha hb => (ValueType.equivalent_iff_shape hrs.faithful ha hb).mpr
  rcases h with ⟨htype, hslots⟩ | hleafless
  · refine .of_fields (.inst (hequivalent hi.inst_type hj.inst_type hshape)) fun name => ?_
    have hget : i.get? name = j.get? name := by
      rw [Instance.get?, Instance.get?, Instance.fields, Instance.fields, htype, hslots]
    rw [Store.field?_inst, Store.field?_inst, hget]
    cases j.get? name with
    | none => exact .none
    | some v => exact .some (.refl .same)
  · have hlike : Store.Related (Value.Like rs.scope.type) store store (.inst i) (.inst j) :=
      hrs.related_of_leaves store hi hj hshape fun path u hu hplain =>
        absurd hplain (hleafless path u hu)
    intro path
    have hpath := hlike path
    have hleaf := hleafless path
    generalize store.read? (.inst i) path = a at hpath hleaf ⊢
    generalize store.read? (.inst j) path = b at hpath ⊢
    cases hpath with
    | none => exact .none
    | some huv =>
        cases huv with
        | inst ha hb hshape => exact .some (.inst (hequivalent ha hb hshape))
        | nan => exact absurd (.float .nan) (hleaf _ rfl)
        | leaf hsame => exact absurd hsame.symm.plain (hleaf _ rfl)

end Realms.Sound

namespace World

/-- An instance as the source of any type that its own is equivalent to, of any realm and in either
mode, makes an instance of that type with the same leaves: the same value is at the end of each path
to a leaf in either of them, and elsewhere paths lead to instances of equivalent types. The slots
are the same if the types are one. So it does not show whether a field shares the instance or has a
new one made of it. -/
theorem construct_of_equivalent {w : World μ} (hw : w.Reachable) {i : Instance}
    (hi : w.Present (.value (.inst i))) {t : ValueType} (ht : w.Present (.type (.value t)))
    (h : i.type.equivalent t = true) (σ : Store) :
    ∃ j σ', (t.construct (some (.inst i))).run σ = .ok (j, σ') ∧ j.type = t ∧
      (∀ path u, u.Plain →
        (σ'.read? (.inst i) path = some u ↔ σ'.read? (.inst j) path = some u)) ∧
      Store.Related Value.SameOrEquivalent σ' σ' (.inst i) (.inst j) ∧
      (t.same i.type = true → j.slots = i.slots) ∧
      (∀ mode name, ((FieldType.value t).coerce mode name (.inst i)).run σ = .ok (.inst i, σ)) ∧
      (t.coerce (.inst i)).run σ = .ok (.inst j, σ') := by
  have hrealms := hw.sound.realms
  have hi := hw.sound.present hi
  have hknown : w.realms.scope.type t := by
    cases hw.sound.present ht with
    | valueType ht => exact ht
  have hshape := (ValueType.equivalent_iff_shape hrealms.faithful hi.inst_type hknown).mp h
  obtain ⟨slots, hrun, hj, hslots⟩ := hrealms.construct_of_shape hi hknown hshape σ
  have hrelated := hrealms.related_of_eq_or_leafless hi hj hshape { σ with nextId := σ.nextId + 1 }
    ((hrealms.eq_or_leafless hw.seeded hi hknown hshape).imp
      (fun heq => ⟨heq, (hslots heq).symm⟩) fun hleaf => hleaf _)
  obtain ⟨_, ha, _⟩ := hi.layout
  obtain ⟨schema, hlayout, _, _⟩ := ValueType.composite_of_shape ha hshape
  refine ⟨_, _, hrun, rfl, fun path u hu => hrelated.read?_iff path hu, hrelated, fun hsame => ?_,
    fun mode name => ?_, ?_⟩
  · exact hslots (hrealms.faithful.eq_of_same t i.type hknown hi.inst_type hsame).symm
  · have htyped : (Value.inst i).HasType (.value t) := .composite hlayout h
    rw [FieldType.coerce_of_hasType htyped]
    rfl
  · rw [ValueType.coerce_of_composite hlayout]
    change (do return Value.inst (← t.construct (some (.inst i)))).run σ = _
    rw [StateT.run_bind, hrun]
    rfl

namespace Sample

/-- An instance of one realm makes an instance of the equivalent type of another realm, and an
instance with a static field makes its like. -/
theorem construct_of_equivalent_samples : mixed.Reachable ∧
    mixed.Present (.value (.inst ⟨1, unit 1, []⟩)) ∧ mixed.Present (.type (.value (unit 2))) ∧
    (unit 1).equivalent (unit 2) = true ∧ (unit 2).same (unit 1) = false ∧
    (∃ j σ', ((unit 2).construct (some (.inst ⟨1, unit 1, []⟩))).run mixed.realms.store =
        .ok (j, σ') ∧
      j.type = unit 2 ∧
      Store.Related Value.SameOrEquivalent σ' σ' (.inst ⟨1, unit 1, []⟩) (.inst j)) ∧
    shots.Reachable ∧ shots.Present (.value (.inst shot)) ∧ shots.Present (.type (.value pixel)) ∧
    pixel.equivalent pixel = true ∧
    ∃ j σ', (pixel.construct (some (.inst shot))).run shots.realms.store = .ok (j, σ') ∧
      j.slots = [.inst ⟨1, color, [.int 0]⟩, .int 7] := by
  have hunit : mixed.Present (.value (.inst ⟨1, unit 1, []⟩)) := .given (gave_at 1 0 rfl rfl)
  have htype : mixed.Present (.type (.value (unit 2))) := .given (gave_at 5 0 rfl rfl)
  have hshot : shots.Present (.value (.inst shot)) := .given (gave_at 0 0 rfl rfl)
  have hpixel : shots.Present (.type (.value pixel)) := .given (gave_at 1 0 rfl rfl)
  obtain ⟨j, σ', hrun, hj, _, hrelated, _⟩ :=
    construct_of_equivalent mixed_reachable hunit htype rfl mixed.realms.store
  obtain ⟨j', τ', hrun', _, _, _, hslots, _⟩ :=
    construct_of_equivalent shots_reachable hshot hpixel rfl shots.realms.store
  exact ⟨mixed_reachable, hunit, htype, rfl, rfl, ⟨j, σ', hrun, hj, hrelated⟩, shots_reachable,
    hshot, hpixel, rfl, j', τ', hrun', hslots rfl⟩

end Sample

end World

end ValueTypes
