import ValueTypes.Proofs.World.Methods
import ValueTypes.Proofs.World.Registration

/-! Methods of nested instances. A field holds an instance of a type equivalent to its own. Mostly
that is the type itself, and then its realm finds the methods that were attached to it; but types
without any primitive type below them have equivalents in other realms, whose instances are shared,
and a realm finds no method for those. -/

namespace ValueTypes

variable {μ : Type} {Δ : Demands}

/-! ### Types of one shape -/

/-- What a type of values reaches, a type of the same shape reaches up to shape. -/
theorem FieldType.reaches_of_shape {a b c : FieldType} (ha : ∀ d, a.Reaches d → d.isValue = true)
    (hshape : a.shape = b.shape) (h : a.Reaches c) : ∃ d, b.Reaches d ∧ c.shape = d.shape := by
  induction h with
  | refl => exact ⟨b, .refl, hshape⟩
  | @field c f hreach hf ih =>
      obtain ⟨d, hd, hcd⟩ := ih
      cases c with
      | struct s =>
          have hvalue := ha _ hreach
          cases hvalue
      | value t =>
          obtain ⟨u, rfl, htu⟩ := value_of_shape ((shape_value t).symm.trans hcd)
          cases hlayout : t.layout with
          | primitive kind =>
              rw [fields_primitive hlayout] at hf
              cases hf
          | composite schema =>
              rw [fields_composite hlayout] at hf
              obtain ⟨other, hother, _, hfields⟩ := ValueType.composite_of_shape hlayout htu
              obtain ⟨k, hk⟩ := List.mem_iff_getElem?.mp hf
              obtain ⟨g, hg, _, hgshape⟩ := exists_field_of_shapes hfields hk
              have hmem : g ∈ (value u).fields := by
                rw [fields_composite hother]
                exact List.mem_of_getElem? hg
              exact ⟨g.type, hd.field hmem, hgshape.symm⟩

/-- Equivalent types have fields of the same names. -/
theorem Schema.names_of_shapes {a b : Schema} (h : fieldShapes a.fields = fieldShapes b.fields) :
    a.names = b.names := by
  have hnames := congrArg (List.map Prod.fst) h
  rwa [fieldShapes_eq_map, fieldShapes_eq_map, List.map_map, List.map_map] at hnames

/-! ### Types of one realm -/

namespace Realms

variable {rs : Realms μ}

/-- Primitive types under one symbol are of one realm. -/
theorem Seeded.realm_eq (h : rs.Seeded) (hrs : rs.Sound Δ) {p q : ValueType}
    (hp : rs.scope.type p) (hq : rs.scope.type q) {kind : PrimitiveKind}
    (hpkind : p.layout = .primitive kind) (hqkind : q.layout = .primitive kind)
    (hsymbol : p.symbol.id = q.symbol.id) : p.realm = q.realm := by
  have hblock : ∀ t, rs.scope.type t → t.layout = .primitive kind →
      t.symbol.id = (rs.realm t.realm).registry.firstSymbol + kind.index := by
    intro t ht hkind
    obtain ⟨hid, hmem⟩ := hrs.registered ht
    conv_lhs => rw [h.eq_primitive _ (realm_mem hid) t hmem kind hkind]
    rfl
  have hindex := kind.index_lt
  have hapart : ∀ t u : ValueType, rs.scope.type t → rs.scope.type u → t.realm < u.realm →
      (rs.realm t.realm).registry.firstSymbol + 12 ≤ (rs.realm u.realm).registry.firstSymbol := by
    intro t u ht hu hlt
    obtain ⟨ht, _⟩ := hrs.registered ht
    obtain ⟨hu, _⟩ := hrs.registered hu
    exact h.apart _ _ _ _ (getElem?_realm ht) (getElem?_realm hu)
      (Nat.sub_lt_sub_right ht.1 hlt)
  have hpblock := hblock p hp hpkind
  have hqblock := hblock q hq hqkind
  rcases Nat.lt_trichotomy p.realm q.realm with hlt | heq | hgt
  · have hle := hapart p q hp hq hlt
    omega
  · exact heq
  · have hle := hapart q p hq hp hgt
    omega

end Realms

/-! ### Reading a method -/

/-- What an instance has no field for is read from the methods. -/
theorem Realm.getProperty_of_get?_eq_none {realm : Realm μ} {i : Instance} {name : String}
    (h : i.get? name = none) (σ : Store) :
    realm.getProperty σ (.inst i) name =
      (realm.registry.method? i.type name).elim .missing fun body => .method ⟨i, name, body⟩ := by
  rw [getProperty, h]

theorem Realms.callMethod_eq (rs : Realms μ)
    (invoke : μ → Realm μ → Instance → List Value → Build Value) (id : RealmId) (i : Instance)
    (name : String) (args : List Value) :
    rs.callMethod invoke id i name args =
      ((rs.realm id).registry.method? i.type name).elim
        (.error (.notCallable i.type.name name), rs)
        fun body => rs.build (invoke body (rs.realm id) i args) := by
  rw [callMethod, Realm.methodOf]
  cases (rs.realm id).registry.method? i.type name <;> rfl

/-- Types of one shape have primitive types below them of the same kinds and under the same symbols.
-/
theorem Realms.Sound.exists_primitive_of_shape {rs : Realms μ} (hrs : rs.Sound) {t u : ValueType}
    (ht : rs.scope.type t) (hshape : t.shape = u.shape) {p : ValueType} {kind : PrimitiveKind}
    (hp : (FieldType.value t).Reaches (.value p)) (hkind : p.layout = .primitive kind) :
    ∃ q, (FieldType.value u).Reaches (.value q) ∧ q.layout = .primitive kind ∧
      p.symbol.id = q.symbol.id := by
  obtain ⟨hid, hmem⟩ := hrs.registered ht
  have hvalue : ∀ d, (FieldType.value t).Reaches d → d.isValue = true := by
    intro d hd
    obtain ⟨_, _, rfl, _⟩ := (hrs.registry hid).reaches hmem hd
    rfl
  rw [← FieldType.shape_value, ← FieldType.shape_value u] at hshape
  obtain ⟨d, hd, hpd⟩ := FieldType.reaches_of_shape hvalue hshape hp
  obtain ⟨q, rfl, hpq⟩ := FieldType.value_of_shape ((FieldType.shape_value p).symm.trans hpd)
  exact ⟨q, hd, ValueType.primitive_of_shape hkind hpq⟩

/-- Equivalent types with a primitive type below them are of one realm: the primitive type is below
both, under one symbol, and tells the realm. -/
theorem Realms.realm_eq_of_shape {rs : Realms μ} (hseeded : rs.Seeded) (hrs : rs.Sound)
    {t u : ValueType} (ht : rs.scope.type t) (hu : rs.scope.type u) (hshape : t.shape = u.shape)
    {p : ValueType} {kind : PrimitiveKind} (hreach : (FieldType.value t).Reaches (.value p))
    (hkind : p.layout = .primitive kind) : u.realm = t.realm := by
  obtain ⟨htid, htmem⟩ := hrs.registered ht
  obtain ⟨huid, humem⟩ := hrs.registered hu
  obtain ⟨q, hreach', hqkind, hsymbol⟩ := hrs.exists_primitive_of_shape ht hshape hreach hkind
  obtain ⟨_, hp, heq, _⟩ := (hrs.registry htid).reaches htmem hreach
  cases heq
  obtain ⟨_, hq, heq, _⟩ := (hrs.registry huid).reaches humem hreach'
  cases heq
  have hpq := hseeded.realm_eq hrs (Realms.type_of_realm htid hp) (Realms.type_of_realm huid hq)
    hkind hqkind hsymbol
  have hprealm : p.realm = t.realm :=
    ((hrs.registry htid).owned p hp).1.trans (hrs.realm_id htid)
  have hqrealm : q.realm = u.realm :=
    ((hrs.registry huid).owned q hq).1.trans (hrs.realm_id huid)
  rw [← hqrealm, ← hpq, hprealm]

namespace World

/-- What is in a field of a composite type: an instance of an equivalent type, with fields of the
same names, and of that type itself if it is of the same realm. -/
theorem nested_instance {w : World μ} (hw : w.Reachable) {v : Instance}
    (hv : w.Present (.value (.inst v))) {schema : Schema} (hlayout : v.type.layout = .composite schema)
    {f : Field} (hf : f ∈ schema.fields) {t : ValueType} (htype : f.type = .value t)
    {other : Schema} (ht : t.layout = .composite other) :
    ∃ j : Instance, v.get? f.name = some (.inst j) ∧ w.realms.scope.type j.type ∧
      w.realms.scope.type t ∧ t.realm = v.type.realm ∧ t.shape = j.type.shape ∧
      (∀ name, name ∉ other.names → j.get? name = none) ∧
      (j.type.realm = v.type.realm → j.type = t) := by
  have hrealms := hw.sound.realms
  have hsound := hw.sound.present hv
  obtain ⟨hid, hmem⟩ := hrealms.registered hsound.inst_type
  have hwf := hrealms.registry hid
  obtain ⟨_, hlayout', hslots⟩ := hsound.layout
  rw [hlayout] at hlayout'
  cases hlayout'
  obtain ⟨k, hk⟩ := List.mem_iff_getElem?.mp hf
  obtain ⟨x, hslot, hadmits⟩ := exists_right_of_forall₂ hslots hk
  have hget := Instance.get?_eq hlayout (hrealms.closed _ _ hsound.inst_type hlayout).names hk
  have htyped := hadmits.typed
  have hinside := hsound.slots _ (List.mem_of_getElem? hslot)
  rw [htype] at htyped
  obtain ⟨u, hu, hfield, _⟩ := hwf.closed v.type hmem schema hlayout f hf
  rw [htype] at hfield
  cases hfield
  cases htyped with
  | primitive hprimitive =>
      rw [ht] at hprimitive
      cases hprimitive
  | composite _ hinst =>
      cases x with
      | inst j =>
          have hj := hinside.inst_type
          have htknown := Realms.type_of_realm hid hu
          have hshape : t.shape = j.type.shape :=
            ((ValueType.equivalent_iff_shape hrealms.faithful hj htknown).mp hinst).symm
          refine ⟨j, hget.trans hslot, hj, htknown, ?_, hshape, fun name hname => ?_, fun h => ?_⟩
          · exact (hwf.owned t hu).1.trans (hwf.owned v.type hmem).1.symm
          · obtain ⟨schema', hschema', _, hfields⟩ := ValueType.composite_of_shape ht hshape
            rw [Schema.names_of_shapes hfields] at hname
            exact Instance.get?_eq_none hschema' hname
          · exact hwf.canonical _ (hrealms.mem_of_realm_eq hid hj h) _ hu hshape.symm
      | _ => cases hinst

/-- Methods reach nested instances of the realm. What a field of a composite type holds is an
instance of an equivalent type. If that is of the same realm, it is the type of the field, and the
realm finds for it what was attached last to that type; this is so whenever there is a primitive
type below the type of the field. If it is of another realm, whose instance was shared, the realm
finds no method. -/
theorem nested_methods {w : World μ} (hw : w.Reachable) {id : RealmId} (hid : w.Gave (.realm id))
    {v : Instance} (hv : w.Present (.value (.inst v)))
    (hrealm : v.type ∈ (w.realms.realm id).registry.definitions) {schema : Schema}
    (hlayout : v.type.layout = .composite schema) {f : Field} (hf : f ∈ schema.fields)
    {t : ValueType} (htype : f.type = .value t) {other : Schema} (ht : t.layout = .composite other)
    {name : String} (hname : name ∉ other.names) :
    ∃ j : Instance, v.get? f.name = some (.inst j) ∧ j.type.equivalent t = true ∧
      (j.type.realm = id → j.type = t ∧
        (∀ σ, (w.realms.realm id).getProperty σ (.inst j) name =
          (w.attached? id t name).elim .missing fun body => .method ⟨j, name, body⟩) ∧
        ∀ invoke args, w.realms.callMethod invoke id j name args =
          (w.attached? id t name).elim (.error (.notCallable t.name name), w.realms)
            fun body => w.realms.build (invoke body (w.realms.realm id) j args)) ∧
      (j.type.realm ≠ id →
        (∀ σ, (w.realms.realm id).getProperty σ (.inst j) name = .missing) ∧
        ∀ invoke args, w.realms.callMethod invoke id j name args =
          (.error (.notCallable j.type.name name), w.realms)) ∧
      ∀ p kind, (FieldType.value t).Reaches (.value p) → p.layout = .primitive kind →
        j.type.realm = id := by
  have hrealms := hw.sound.realms
  have hscope := (hw.sound.gave _ hid).realm_of
  have hwf := hrealms.registry hscope
  have hvrealm : v.type.realm = id := (hwf.owned _ hrealm).1.trans (hrealms.realm_id hscope)
  obtain ⟨j, hget, hj, htknown, htrealm, hshape, hnone, hsame⟩ :=
    nested_instance hw hv hlayout hf htype ht
  rw [hvrealm] at hsame htrealm
  have hequivalent := (ValueType.equivalent_iff_shape hrealms.faithful hj htknown).mpr hshape.symm
  have hmethod := hw.method?_eq hid j.type name
  refine ⟨j, hget, hequivalent, fun h => ?_, fun h => ?_, fun p kind hreach hkind => ?_⟩
  · have htt := hsame h
    rw [if_pos h, htt] at hmethod
    refine ⟨htt, fun σ => ?_, fun invoke args => ?_⟩
    · rw [Realm.getProperty_of_get?_eq_none (hnone name hname), htt, hmethod]
    · rw [Realms.callMethod_eq, htt, hmethod]
  · rw [if_neg h] at hmethod
    refine ⟨fun σ => ?_, fun invoke args => ?_⟩
    · rw [Realm.getProperty_of_get?_eq_none (hnone name hname), hmethod]
      rfl
    · rw [Realms.callMethod_eq, hmethod]
      rfl
  · rw [Realms.realm_eq_of_shape hw.seeded hrealms htknown hj hshape hreach hkind, htrealm]

namespace Sample

/-- A type without fields, of which both realms have one under the same symbol. -/
def unit (realm : RealmId) : ValueType :=
  ⟨13, realm, ⟨25, some "E"⟩, .composite ⟨.value, [], 0, 1⟩, .strict, 0⟩

/-- A type of the second realm with a field of its own type without fields. -/
def wrapper : ValueType :=
  ⟨14, 2, ⟨26, some "W"⟩, .composite ⟨.value, [⟨"e", .value (unit 2), false, none⟩], 0, 2⟩,
    .strict, 0⟩

/-- A world with two realms that share a symbol table, in which the second has attached a method. -/
def tagged : World Unit :=
  ((((((((((start hashing).perform .newTable).perform (.newRealm {} 0)).perform
    (.newRealm {} 0)).perform (.symbolFor 0 "E")).perform
    (.valueType 1 ⟨25, some "E"⟩ [])).perform (.valueType 2 ⟨25, some "E"⟩ [])).perform
    (.symbolFor 0 "W")).perform
    (.valueType 2 ⟨26, some "W"⟩ [⟨"e", .value (unit 2), false, none⟩])).perform
    (.attach 2 (unit 2) ⟨[("m", ())]⟩))

/-- The world in which the field was given its default. -/
def wrapped : World Unit :=
  tagged.perform (.construct wrapper none)

/-- The world in which the field was given an instance of the first realm. -/
def mixed : World Unit :=
  (tagged.perform (.construct (unit 1) none)).perform
    (.construct wrapper (some (.record [("e", .inst ⟨1, unit 1, []⟩)])))

theorem tagged_reachable : tagged.Reachable := by
  refine ⟨hashing, .step (.step (.step (.step (.step (.step (.step (.step (.step .refl _ ?_) _ ?_)
    _ ?_) _ ?_) _ ?_) _ ?_) _ ?_) _ ?_) _ ?_⟩
  · exact List.forall_mem_nil _
  · exact List.forall_mem_singleton.mpr (.given (gave_at 0 0 rfl rfl))
  · exact List.forall_mem_singleton.mpr (.given (gave_at 1 0 rfl rfl))
  · exact List.forall_mem_singleton.mpr (.given (gave_at 2 0 rfl rfl))
  · exact List.forall_mem_singleton.mpr (.given (gave_at 2 0 rfl rfl))
  · exact List.forall_mem_singleton.mpr (.given (gave_at 2 0 rfl rfl))
  · exact List.forall_mem_singleton.mpr (.given (gave_at 5 0 rfl rfl))
  · exact List.forall_mem_cons.mpr ⟨.given (gave_at 4 0 rfl rfl),
      List.forall_mem_singleton.mpr (.given (gave_at 1 0 rfl rfl))⟩
  · exact List.forall_mem_cons.mpr ⟨.given (gave_at 5 0 rfl rfl),
      List.forall_mem_singleton.mpr (.given (gave_at 2 0 rfl rfl))⟩

theorem wrapped_reachable : wrapped.Reachable := by
  refine tagged_reachable.leads (.step .refl _ ?_)
  exact List.forall_mem_singleton.mpr (.given (gave_at 1 0 rfl rfl))

theorem mixed_reachable : mixed.Reachable := by
  refine tagged_reachable.leads (.step (.step .refl _ ?_) _ ?_)
  · exact List.forall_mem_singleton.mpr (.given (gave_at 4 0 rfl rfl))
  · exact List.forall_mem_cons.mpr ⟨.given (gave_at 2 0 rfl rfl),
      List.forall_mem_singleton.mpr (.given (gave_at 0 0 rfl rfl))⟩

/-- A realm does not find what it attached for an instance that was shared from another realm. -/
theorem nested_methods_shared : ¬ ∀ (w : World Unit) id (v j : Instance) schema f t other name,
    w.Reachable → w.Gave (.realm id) → w.Present (.value (.inst v)) →
    v.type ∈ (w.realms.realm id).registry.definitions → v.type.layout = .composite schema →
    f ∈ schema.fields → f.type = .value t → t.layout = .composite other → name ∉ other.names →
    v.get? f.name = some (.inst j) →
      (w.realms.realm id).getProperty w.realms.store (.inst j) name =
        (w.attached? id t name).elim .missing fun body => .method ⟨j, name, body⟩ := by
  intro h
  have hmem : wrapper ∈ (mixed.realms.realm 2).registry.definitions :=
    List.mem_of_getElem? (i := 13) rfl
  have hfound := h mixed 2 ⟨2, wrapper, [.inst ⟨1, unit 1, []⟩]⟩ ⟨1, unit 1, []⟩ _
    ⟨"e", .value (unit 2), false, none⟩ (unit 2) _ "m" mixed_reachable (gave_at 8 0 rfl rfl)
    (.given (gave_at 0 0 rfl rfl)) hmem rfl (List.mem_singleton.mpr rfl) rfl rfl
    List.not_mem_nil rfl
  have hmissing : (mixed.realms.realm 2).getProperty mixed.realms.store
      (.inst ⟨1, unit 1, []⟩) "m" = .missing := rfl
  have hattached : mixed.attached? 2 (unit 2) "m" = some () := rfl
  rw [hmissing, hattached] at hfound
  cases hfound

/-- Where the field holds an instance of its own type, the method is found. -/
theorem nested_methods_wrapped : wrapped.Reachable ∧ wrapped.Gave (.realm 2) ∧
    wrapped.Present (.value (.inst ⟨2, wrapper, [.inst ⟨1, unit 2, []⟩]⟩)) ∧
    wrapper ∈ (wrapped.realms.realm 2).registry.definitions ∧
    wrapped.attached? 2 (unit 2) "m" = some () ∧
    (wrapped.realms.realm 2).getProperty wrapped.realms.store (.inst ⟨1, unit 2, []⟩) "m" =
      .method ⟨⟨1, unit 2, []⟩, "m", ()⟩ := by
  have hgave : wrapped.Gave (.realm 2) := gave_at 7 0 rfl rfl
  have hpresent : wrapped.Present (.value (.inst ⟨2, wrapper, [.inst ⟨1, unit 2, []⟩]⟩)) :=
    .given (gave_at 0 0 rfl rfl)
  have hmem : wrapper ∈ (wrapped.realms.realm 2).registry.definitions :=
    List.mem_of_getElem? (i := 13) rfl
  have hattached : wrapped.attached? 2 (unit 2) "m" = some () := rfl
  have hfield : (⟨"e", .value (unit 2), false, none⟩ : Field) ∈
      [⟨"e", .value (unit 2), false, none⟩] := List.mem_singleton.mpr rfl
  have hname : "m" ∉ Schema.names ⟨.value, [], 0, 1⟩ := List.not_mem_nil
  obtain ⟨j, hget, _, hown, _⟩ :=
    nested_methods wrapped_reachable hgave hpresent hmem rfl hfield rfl rfl hname
  have hj : j = ⟨1, unit 2, []⟩ := by
    have hslot : Instance.get? ⟨2, wrapper, [.inst ⟨1, unit 2, []⟩]⟩ "e" =
      some (.inst ⟨1, unit 2, []⟩) := rfl
    rw [hslot] at hget
    cases hget
    rfl
  subst hj
  refine ⟨wrapped_reachable, hgave, hpresent, hmem, hattached, ?_⟩
  rw [(hown rfl).2.1, hattached]
  rfl

end Sample

end World

end ValueTypes
