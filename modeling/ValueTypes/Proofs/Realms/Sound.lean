import ValueTypes.Proofs.Registry.Canonical
import ValueTypes.Proofs.Schema.Sound
import ValueTypes.Realms

/-! Soundness of all realms together. Every action keeps it, only adds realms and definitions, and
gives results that are sound in the realms it leaves behind. -/

namespace ValueTypes

/-- What can be asked of schemas and of struct types, beyond what is true of all of them. -/
structure Demands where
  schema : Schema → Prop := fun _ => True
  structType : StructType → Prop := fun _ => True

namespace Realms

variable {μ α : Type} {Δ : Demands}

/-- The realms that are there, the value types that are registered in one of them, the struct types
whose numbers have been given, and the structs in the store. -/
def scope (rs : Realms μ) (Δ : Demands := {}) : Scope where
  realm id := 0 < id ∧ id ≤ rs.members.size
  type t := ∃ realm ∈ rs.members, t ∈ realm.registry.definitions
  schema := Δ.schema
  structType s := s.id < rs.nextStruct ∧ Δ.structType s
  structAt := rs.store.typeAt?

/-- What holds of the realms in every run. -/
structure Sound (rs : Realms μ) (Δ : Demands := {}) : Prop where
  wellFormed : ∀ realm ∈ rs.members, realm.registry.WellFormed
  numbered : ∀ k realm, rs.members[k]? = some realm → realm.id = k + 1
  closed : (rs.scope Δ).Closed
  cells : (rs.scope Δ).Cells rs.store

/-- Whether realms and structs have only been added, and definitions only been appended. -/
structure Extends (rs rs' : Realms μ) : Prop where
  members : ∀ (k : Nat) (realm : Realm μ), rs.members[k]? = some realm → ∃ realm' : Realm μ,
    rs'.members[k]? = some realm' ∧ realm.registry.definitions <+: realm'.registry.definitions
  store : rs.store.Extends rs'.store
  nextStruct : rs.nextStruct ≤ rs'.nextStruct

/-! ### Look-up -/

theorem getElem?_realm {rs : Realms μ} {id : RealmId} (h : rs.scope.realm id) :
    rs.members[id - 1]? = some (rs.realm id) := by
  have hlt : id - 1 < rs.members.size := Nat.sub_one_lt_of_le h.1 h.2
  rw [realm, Array.getD_eq_getD_getElem?, Array.getElem?_eq_getElem hlt]
  rfl

theorem realm_mem {rs : Realms μ} {id : RealmId} (h : rs.scope.realm id) :
    rs.realm id ∈ rs.members :=
  Array.mem_of_getElem? (getElem?_realm h)

theorem type_of_realm {rs : Realms μ} {id : RealmId} (h : rs.scope.realm id) {t : ValueType}
    (ht : t ∈ (rs.realm id).registry.definitions) : rs.scope.type t :=
  ⟨rs.realm id, realm_mem h, ht⟩

namespace Sound

variable {rs : Realms μ}

theorem registry (hrs : rs.Sound Δ) {id : RealmId} (h : rs.scope.realm id) :
    (rs.realm id).registry.WellFormed :=
  hrs.wellFormed _ (realm_mem h)

theorem realm_id (hrs : rs.Sound Δ) {id : RealmId} (h : rs.scope.realm id) :
    (rs.realm id).registry.realm = id := by
  have hnumber := hrs.numbered (id - 1) (rs.realm id) (getElem?_realm h)
  rw [Realm.id, Nat.sub_add_cancel h.1] at hnumber
  exact hnumber

/-- A type that names a realm is registered there. -/
theorem mem_of_realm_eq (hrs : rs.Sound Δ) {id : RealmId} (h : rs.scope.realm id) {t : ValueType}
    (ht : rs.scope.type t) (hrealm : t.realm = id) :
    t ∈ (rs.realm id).registry.definitions := by
  rcases ht with ⟨realm, hmem, ht⟩
  rcases Array.mem_iff_getElem?.mp hmem with ⟨k, hk⟩
  have howner := ((hrs.wellFormed realm hmem).owned t ht).1
  have hnumber := hrs.numbered k realm hk
  rw [Realm.id] at hnumber
  rw [howner, hnumber] at hrealm
  have heq := getElem?_realm h
  rw [← hrealm, Nat.add_sub_cancel, hk] at heq
  rw [← hrealm, ← Option.some.inj heq]
  exact ht

/-- The registered types of all realms form a faithful collection. -/
theorem faithful (hrs : rs.Sound Δ) : Faithful rs.scope.type where
  eq_of_same t u ht hu h := by
    simp only [ValueType.same, Bool.and_eq_true, beq_iff_eq] at h
    rcases ht with ⟨realm, hmem, ht⟩
    rcases Array.mem_iff_getElem?.mp hmem with ⟨k, hk⟩
    rcases Array.getElem?_eq_some_iff.mp hk with ⟨hlt, _⟩
    have hid : rs.scope.realm (k + 1) := ⟨Nat.succ_pos k, hlt⟩
    have hrealm : t.realm = k + 1 :=
      ((hrs.wellFormed realm hmem).owned t ht).1.trans (hrs.numbered k realm hk)
    exact (hrs.registry hid).eq_of_id (hrs.mem_of_realm_eq hid ⟨realm, hmem, ht⟩ hrealm)
      (hrs.mem_of_realm_eq hid hu (h.1.symm.trans hrealm)) h.2
  field t schema ht hschema f hf u hu := by
    rcases ht with ⟨realm, hmem, ht⟩
    rcases (hrs.wellFormed realm hmem).closed t ht schema hschema f hf with ⟨u', hu', htype, _⟩
    rw [hu] at htype
    cases htype
    exact ⟨realm, hmem, hu'⟩

/-- The drafts that a caller can have are known to every realm. -/
theorem knows (hrs : rs.Sound Δ) {id : RealmId} (h : rs.scope.realm id) {d : Draft}
    (hd : (rs.scope Δ).Sound (.schema d.schema)) : (rs.realm id).registry.Knows d := by
  intro f hf u htype hrealm
  have hsound := hd.types f hf
  rw [htype] at hsound
  rw [hrs.realm_id h] at hrealm
  cases hsound with
  | valueType hu => exact hrs.mem_of_realm_eq h hu hrealm

end Sound

/-! ### Growth -/

namespace Extends

variable {rs rs' rs'' : Realms μ}

theorem of_members (h : rs'.members = rs.members) (hstore : rs.store.Extends rs'.store)
    (hnext : rs.nextStruct ≤ rs'.nextStruct) : rs.Extends rs' := by
  refine ⟨fun k realm hk => ⟨realm, ?_, List.prefix_refl _⟩, hstore, hnext⟩
  rw [h]
  exact hk

theorem refl (rs : Realms μ) : rs.Extends rs :=
  of_members rfl (.refl _) (Nat.le_refl _)

theorem trans (h : rs.Extends rs') (h' : rs'.Extends rs'') : rs.Extends rs'' := by
  refine ⟨fun k realm hk => ?_, h.store.trans h'.store, h.nextStruct.trans h'.nextStruct⟩
  rcases h.members k realm hk with ⟨realm', hk', hgrows⟩
  rcases h'.members k realm' hk' with ⟨realm'', hk'', hgrows'⟩
  exact ⟨realm'', hk'', hgrows.trans hgrows'⟩

theorem realm (h : rs.Extends rs') {id : RealmId} (hid : rs.scope.realm id) :
    rs'.scope.realm id := by
  rcases h.members (id - 1) (rs.realm id) (getElem?_realm hid) with ⟨realm', hk, _⟩
  rcases Array.getElem?_eq_some_iff.mp hk with ⟨hlt, _⟩
  exact ⟨hid.1, Nat.le_of_pred_lt hlt⟩

theorem size_le (h : rs.Extends rs') : rs.members.size ≤ rs'.members.size := by
  by_contra hlt
  have hk := Array.getElem?_eq_getElem (Nat.lt_of_not_le hlt)
  rcases h.members _ _ hk with ⟨realm', hk', _⟩
  exact Nat.lt_irrefl _ (Array.getElem?_eq_some_iff.mp hk').1

theorem definitions (h : rs.Extends rs') {id : RealmId} (hid : rs.scope.realm id) :
    (rs.realm id).registry.definitions <+: (rs'.realm id).registry.definitions := by
  rcases h.members (id - 1) (rs.realm id) (getElem?_realm hid) with ⟨realm', hk, hgrows⟩
  rw [getElem?_realm (h.realm hid)] at hk
  cases hk
  exact hgrows

theorem within (h : rs.Extends rs') : (rs.scope Δ).Within (rs'.scope Δ) where
  realm _ hid := h.realm hid
  type t ht := by
    rcases ht with ⟨realm, hmem, ht⟩
    rcases Array.mem_iff_getElem?.mp hmem with ⟨k, hk⟩
    rcases h.members k realm hk with ⟨realm', hk', hgrows⟩
    exact ⟨realm', Array.mem_of_getElem? hk', hgrows.subset ht⟩
  schema _ hschema := hschema
  structType _ hs := ⟨Nat.lt_of_lt_of_le hs.1 h.nextStruct, hs.2⟩
  structAt := h.store

end Extends

/-! ### Actions -/

/-- Whether an action leaves sound realms behind, which extend those it began with, and whether
what it gives has a property there. -/
structure Advances (rs : Realms μ) (r : Except Error α × Realms μ) (Q : Realms μ → α → Prop)
    (Δ : Demands := {}) : Prop where
  sound : r.2.Sound Δ
  grows : rs.Extends r.2
  answer : ∀ a, r.1 = .ok a → Q r.2 a

namespace Advances

variable {rs : Realms μ} {Q : Realms μ → α → Prop}

theorem error (hrs : rs.Sound Δ) (e : Error) : rs.Advances (.error e, rs) Q Δ :=
  ⟨hrs, .refl rs, fun _ h => nomatch h⟩

/-- Actions that touch no realm and no struct. -/
theorem of_same {r : Except Error α × Realms μ} (hrs : rs.Sound Δ)
    (hmembers : r.2.members = rs.members) (hstore : r.2.store = rs.store)
    (hnext : rs.nextStruct ≤ r.2.nextStruct) (hanswer : ∀ a, r.1 = .ok a → Q r.2 a) :
    rs.Advances r Q Δ := by
  have hextends : rs.Extends r.2 := .of_members hmembers (hstore ▸ .refl _) hnext
  refine ⟨⟨?_, ?_, ?_, ?_⟩, hextends, hanswer⟩
  · rw [hmembers]
    exact hrs.wellFormed
  · rw [hmembers]
    exact hrs.numbered
  · rintro t schema ⟨realm, hmem, ht⟩ hlayout
    rw [hmembers] at hmem
    exact (hrs.closed t schema ⟨realm, hmem, ht⟩ hlayout).mono hextends.within
  · rw [hstore]
    exact hrs.cells.mono hextends.within

end Advances

/-- The larger scope that a computation ends in is that of the realms with the new store. -/
theorem scope_eq_of_grows {rs : Realms μ} {Θ : Scope} {σ : Store} (hΘ : (rs.scope Δ).Grows Θ)
    (hσ : Θ.Describes σ) : Θ = { rs with store := σ }.scope Δ := by
  cases Θ with
  | mk realm type schema structType structAt =>
      cases hΘ.realm
      cases hΘ.type
      cases hΘ.schema
      cases hΘ.structType
      cases funext hσ.structAt
      rfl

/-- A computation that keeps the store sound advances the realms. -/
theorem build_advances {rs : Realms μ} (hrs : rs.Sound Δ) {b : Build α} {Q : Scope → α → Prop}
    (hb : Build.Ensures (rs.scope Δ) b Q) :
    rs.Advances (rs.build b) (fun rs' a => rs'.members = rs.members ∧ Q (rs'.scope Δ) a) Δ := by
  rw [build]
  cases hrun : b.run rs.store with
  | error e => exact .error hrs e
  | ok result =>
      rcases result with ⟨a, store⟩
      rcases hb rs.store a store ⟨fun _ => rfl, hrs.cells⟩ hrun with ⟨Θ, hΘ, hstore, hQ⟩
      have hscope := scope_eq_of_grows hΘ hstore
      subst hscope
      refine ⟨⟨hrs.wellFormed, hrs.numbered, hΘ.closed hrs.closed, hstore.cells⟩,
        .of_members rfl hΘ.structAt (Nat.le_refl _), ?_⟩
      intro _ heq
      cases heq
      exact ⟨rfl, hQ⟩

theorem getElem?_setRegistry (rs : Realms μ) (id : RealmId) (registry : Registry μ) (k : Nat) :
    (rs.setRegistry id registry).members[k]? =
      if id - 1 = k then rs.members[k]?.map fun realm => { realm with registry := registry }
      else rs.members[k]? := by
  rw [setRegistry, Array.getElem?_modify]

theorem realm_setRegistry {rs : Realms μ} {id : RealmId} (h : rs.scope.realm id)
    (registry : Registry μ) :
    (rs.setRegistry id registry).realm id = { rs.realm id with registry := registry } := by
  rw [realm, Array.getD_eq_getD_getElem?, getElem?_setRegistry, if_pos rfl, getElem?_realm h]
  rfl

theorem realm_setRegistry_of_ne {rs : Realms μ} {id other : RealmId} (h : rs.scope.realm id)
    (hother : rs.scope.realm other) (hne : id ≠ other) (registry : Registry μ) :
    (rs.setRegistry id registry).realm other = rs.realm other := by
  have hplace : id - 1 ≠ other - 1 := fun heq => hne (Nat.sub_one_cancel h.1 hother.1 heq)
  rw [realm, Array.getD_eq_getD_getElem?, getElem?_setRegistry, if_neg hplace, realm,
    Array.getD_eq_getD_getElem?]

theorem setRegistry_extends {rs : Realms μ} {id : RealmId} (h : rs.scope.realm id)
    {registry : Registry μ}
    (hgrows : (rs.realm id).registry.definitions <+: registry.definitions) :
    rs.Extends (rs.setRegistry id registry) := by
  refine ⟨fun k realm hk => ?_, .refl _, Nat.le_refl _⟩
  by_cases hid : id - 1 = k
  · have heq := getElem?_realm h
    rw [hid, hk] at heq
    refine ⟨{ realm with registry := registry }, ?_, ?_⟩
    · rw [getElem?_setRegistry, if_pos hid, hk]
      rfl
    · rw [Option.some.inj heq]
      exact hgrows
  · refine ⟨realm, ?_, List.prefix_refl _⟩
    rw [getElem?_setRegistry, if_neg hid]
    exact hk

/-- The members after a registry is replaced: the realm it belongs to, and the others. -/
theorem mem_setRegistry {rs : Realms μ} {id : RealmId} {registry : Registry μ} {realm : Realm μ}
    (h : realm ∈ (rs.setRegistry id registry).members) :
    realm.registry = registry ∨ realm ∈ rs.members := by
  rcases Array.mem_iff_getElem?.mp h with ⟨k, hk⟩
  rw [getElem?_setRegistry] at hk
  split at hk
  · rcases Option.map_eq_some_iff.mp hk with ⟨_, _, rfl⟩
    exact .inl rfl
  · exact .inr (Array.mem_of_getElem? hk)

/-- Replacing a registry by one that extends it keeps the realms sound, if the schemas of the
definitions that are new in it are sound. -/
theorem setRegistry_sound {rs : Realms μ} (hrs : rs.Sound Δ) {id : RealmId}
    (h : rs.scope.realm id) {registry : Registry μ} (hregistry : registry.WellFormed)
    (hrealm : registry.realm = id)
    (hgrows : (rs.realm id).registry.definitions <+: registry.definitions)
    (hnew : ∀ t ∈ registry.definitions, t ∉ (rs.realm id).registry.definitions →
      ∀ schema, t.layout = .composite schema → (rs.scope Δ).Sound (.schema schema)) :
    (rs.setRegistry id registry).Sound Δ := by
  have hwithin : (rs.scope Δ).Within ((rs.setRegistry id registry).scope Δ) :=
    (setRegistry_extends h hgrows).within
  refine ⟨?_, ?_, ?_, hrs.cells.mono hwithin⟩
  · intro realm hmem
    rcases mem_setRegistry hmem with heq | hmem
    · rw [heq]
      exact hregistry
    · exact hrs.wellFormed realm hmem
  · intro k realm hk
    rw [getElem?_setRegistry] at hk
    split at hk
    · rename_i hid
      rcases Option.map_eq_some_iff.mp hk with ⟨_, _, rfl⟩
      rw [Realm.id, hrealm, ← hid, Nat.sub_add_cancel h.1]
    · exact hrs.numbered k realm hk
  · rintro t schema ⟨realm, hmem, ht⟩ hlayout
    -- A type that some realm had before keeps its sound schema, whichever registry it is found in.
    by_cases hold : rs.scope.type t
    · exact (hrs.closed t schema hold hlayout).mono hwithin
    · rcases mem_setRegistry hmem with heq | hmem
      · rw [heq] at ht
        exact (hnew t ht (fun hmem => hold (type_of_realm h hmem)) schema hlayout).mono hwithin
      · exact absurd ⟨realm, hmem, ht⟩ hold

/-- What interning a draft leaves behind: the definition that the draft stands for. -/
structure Interned (rs : Realms μ) (id : RealmId) (d : Draft) (t : ValueType) : Prop where
  realm : rs.scope.realm id
  resolves : (rs.realm id).registry.Resolves d t

theorem Interned.mono {rs rs' : Realms μ} {id : RealmId} {d : Draft} {t : ValueType}
    (h : rs.Interned id d t) (hextends : rs.Extends rs') : rs'.Interned id d t :=
  ⟨hextends.realm h.realm, h.resolves.mono (hextends.definitions h.realm)⟩

theorem Interned.sound {rs : Realms μ} {id : RealmId} {d : Draft} {t : ValueType}
    (h : rs.Interned id d t) : (rs.scope Δ).Sound (.type (.value t)) :=
  .valueType (type_of_realm h.realm h.resolves.mem)

theorem intern_advances {rs : Realms μ} (hrs : rs.Sound Δ) {id : RealmId}
    (h : rs.scope.realm id) {d : Draft} (hd : (rs.scope Δ).Sound (.schema d.schema)) :
    rs.Advances (rs.intern id d) (fun rs' t => rs'.Interned id d t) Δ := by
  rw [intern]
  cases hintern : (rs.realm id).registry.intern d with
  | error e => exact .error hrs e
  | ok result =>
      rcases result with ⟨t, registry⟩
      have hwf := hrs.registry h
      rcases Registry.intern_answers hwf (hrs.knows h hd) hintern with ⟨hfits, hanswers⟩
      have hgrows := hanswers.definitions_grow
      have hextends := setRegistry_extends h hgrows
      refine ⟨setRegistry_sound hrs h (hanswers.wellFormed hwf hfits) ?_ hgrows ?_, hextends, ?_⟩
      · rw [hanswers.realm_eq, hrs.realm_id h]
      · intro u hu hold schema hlayout
        cases hanswers with
        | known => exact absurd hu hold
        | new =>
            rcases List.mem_append.mp hu with hu | hu
            · exact absurd hu hold
            · rw [List.mem_singleton.mp hu] at hlayout
              cases hlayout
              exact hd
      · intro _ heq
        cases heq
        refine ⟨hextends.realm h, ?_⟩
        rw [realm_setRegistry h registry]
        exact hanswers.resolves hfits

/-- A draft is answered with an earlier definition, or with a new one that has its schema. -/
theorem intern_layout {rs : Realms μ} (hrs : rs.Sound) {id : RealmId} (h : rs.scope.realm id)
    {d : Draft} (hd : rs.scope.Sound (.schema d.schema)) {t : ValueType}
    (ht : (rs.intern id d).1 = .ok t) :
    t ∈ (rs.realm id).registry.definitions ∨ t.layout = .composite d.schema := by
  rw [intern] at ht
  cases hintern : (rs.realm id).registry.intern d with
  | error e =>
      rw [hintern] at ht
      cases ht
  | ok result =>
      rcases result with ⟨u, registry⟩
      rw [hintern] at ht
      cases ht
      cases (Registry.intern_answers (hrs.registry h) (hrs.knows h hd) hintern).2 with
      | known mem => exact .inl mem
      | new => exact .inr rfl

/-- To make a schema and intern it fails as making the schema does, or comes to interning the draft
of the schema that is made. -/
theorem internSchema_cases (rs : Realms μ) (id : RealmId) (symbol : Symbol)
    (schema : Build Schema) :
    (∃ e rs', rs.build schema = (.error e, rs') ∧
      rs.internSchema id symbol schema = (.error e, rs')) ∨
    ∃ s rs', rs.build schema = (.ok s, rs') ∧
      rs.internSchema id symbol schema = rs'.intern id ⟨symbol, s⟩ := by
  rw [internSchema]
  rcases rs.build schema with ⟨e | s, rs'⟩
  · exact .inl ⟨e, rs', rfl, rfl⟩
  · exact .inr ⟨s, rs', rfl, rfl⟩

theorem internSchema_eq_ok {rs : Realms μ} {id : RealmId} {symbol : Symbol}
    {schema : Build Schema} {t : ValueType} (h : (rs.internSchema id symbol schema).1 = .ok t) :
    ∃ s rs', rs.build schema = (.ok s, rs') ∧
      rs.internSchema id symbol schema = rs'.intern id ⟨symbol, s⟩ := by
  rcases internSchema_cases rs id symbol schema with ⟨e, rs', _, hintern⟩ | hmade
  · rw [hintern] at h
    cases h
  · exact hmade

theorem internSchema_advances {rs : Realms μ} (hrs : rs.Sound Δ) {id : RealmId}
    (h : rs.scope.realm id) (symbol : Symbol) {schema : Build Schema}
    (hschema : Build.Ensures (rs.scope Δ) schema fun Θ s => Θ.Sound (.schema s)) :
    rs.Advances (rs.internSchema id symbol schema)
      (fun rs' t => (rs'.scope Δ).Sound (.type (.value t))) Δ := by
  have hbuild := build_advances hrs hschema
  rw [internSchema]
  cases hrun : rs.build schema with
  | mk result rs' =>
      rw [hrun] at hbuild
      cases result with
      | error e => exact ⟨hbuild.sound, hbuild.grows, fun _ h => nomatch h⟩
      | ok s =>
          have hintern := intern_advances hbuild.sound (hbuild.grows.realm h)
            (d := ⟨symbol, s⟩) (hbuild.answer s rfl).2
          exact ⟨hintern.sound, hbuild.grows.trans hintern.grows,
            fun t ht => (hintern.answer t ht).sound⟩

/-- The number of a new struct type is greater than those of all struct types before it. -/
theorem structType_advances {rs : Realms μ} (hrs : rs.Sound Δ) {id : RealmId}
    (hpolicy : (rs.realm id).policy.Meets (rs.scope Δ)) (name : String)
    {drafts : List FieldDraft} (hdrafts : ∀ draft ∈ drafts, draft.Sound (rs.scope Δ))
    (hmade : ∀ s, (rs.structType id name drafts).1 = .ok s → Δ.structType s) :
    rs.Advances (rs.structType id name drafts)
      (fun rs' s => (rs'.scope Δ).Sound (.type (.struct s))) Δ := by
  have hbuild := build_advances hrs
    (SchemaPolicy.makeSchema_ensures hrs.closed hpolicy .struct hdrafts)
  rw [structType] at hmade ⊢
  cases hrun : rs.build ((rs.realm id).makeSchema .struct drafts) with
  | mk result rs' =>
      rw [hrun] at hmade
      rw [Realm.makeSchema] at hrun
      rw [hrun] at hbuild
      cases result with
      | error e => exact ⟨hbuild.sound, hbuild.grows, fun _ h => nomatch h⟩
      | ok schema =>
          have hschema := (hbuild.answer schema rfl).2.1
          have hsame := Advances.of_same (Q := fun _ (_ : StructType) => True)
            (r := (.ok ⟨rs'.nextStruct, id, name, schema, (rs'.realm id).config.coercion⟩,
              { rs' with nextStruct := rs'.nextStruct + 1 })) hbuild.sound rfl rfl
            (Nat.le_succ _) fun _ _ => trivial
          refine ⟨hsame.sound, hbuild.grows.trans hsame.grows, ?_⟩
          intro _ heq
          cases heq
          refine .structType (hschema.mono hsame.grows.within)
            ⟨Nat.lt_succ_self _, hmade _ rfl⟩ ?_
          intro f hf u hu
          have htype := hschema.types f hf
          rw [hu] at htype
          exact htype.struct_made.1

theorem attach_advances {rs : Realms μ} (hrs : rs.Sound Δ) {id : RealmId}
    (h : rs.scope.realm id) (t : ValueType) (methods : MethodTable μ) :
    rs.Advances (rs.attach id t methods) (fun _ _ => True) Δ := by
  rw [attach]
  cases hattach : (rs.realm id).registry.attach t methods with
  | error e => exact .error hrs e
  | ok registry =>
      rcases Registry.attach_wellFormed (hrs.registry h) hattach with ⟨hwf, hdefinitions, hrealm⟩
      have hgrows : (rs.realm id).registry.definitions <+: registry.definitions :=
        hdefinitions ▸ List.prefix_refl _
      refine ⟨setRegistry_sound hrs h hwf ?_ hgrows ?_, setRegistry_extends h hgrows,
        fun _ _ => trivial⟩
      · rw [hrealm, hrs.realm_id h]
      · intro u hu hold
        rw [hdefinitions] at hu
        exact absurd hu hold

theorem newRealm_advances {rs : Realms μ} (hrs : rs.Sound Δ) (config : RealmConfig)
    (table : TableId) :
    (rs.newRealm config table).2.Sound Δ ∧ rs.Extends (rs.newRealm config table).2 ∧
      (rs.newRealm config table).2.scope.realm (rs.newRealm config table).1 := by
  have hextends : rs.Extends (rs.newRealm config table).2 := by
    refine ⟨fun k realm hk => ⟨realm, ?_, List.prefix_refl _⟩, .refl _, Nat.le_refl _⟩
    rcases Array.getElem?_eq_some_iff.mp hk with ⟨hlt, _⟩
    rw [newRealm, Array.getElem?_push_lt hlt, ← hk, Array.getElem?_eq_getElem hlt]
  have hmem : ∀ realm ∈ (rs.newRealm config table).2.members, realm ∈ rs.members ∨
      realm.registry = .new rs.hashing (rs.members.size + 1) config.coercion rs.nextSymbol := by
    intro realm hmem
    rcases Array.mem_push.mp hmem with hmem | rfl
    · exact .inl hmem
    · exact .inr rfl
  refine ⟨⟨?_, ?_, ?_, hrs.cells.mono hextends.within⟩, hextends, ?_⟩
  · intro realm h
    rcases hmem realm h with h | heq
    · exact hrs.wellFormed realm h
    · rw [heq]
      exact Registry.new_wellFormed ..
  · intro k realm hk
    rw [newRealm, Array.getElem?_push] at hk
    split at hk
    · rename_i hsize
      cases hk
      rw [hsize]
      rfl
    · exact hrs.numbered k realm hk
  · rintro t schema ⟨realm, h, ht⟩ hlayout
    rcases hmem realm h with h | heq
    · exact (hrs.closed t schema ⟨realm, h, ht⟩ hlayout).mono hextends.within
    · rw [heq] at ht
      rcases List.mem_map.mp ht with ⟨kind, _, rfl⟩
      cases hlayout
  · refine ⟨Nat.succ_pos _, ?_⟩
    rw [newRealm, Array.size_push]

end Realms

/-- Where nothing more is asked, every policy will do. -/
theorem SchemaPolicy.meets_nothing {μ : Type} (policy : SchemaPolicy) (rs : Realms μ) :
    policy.Meets rs.scope :=
  fun _ _ _ _ _ _ _ => trivial

end ValueTypes
