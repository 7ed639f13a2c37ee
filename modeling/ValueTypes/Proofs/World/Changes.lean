import ValueTypes.Proofs.World.Sound

/-! What one operation can change in the realms, apart from structs and symbol tables: it adds a
realm, registers one definition in a realm, or attaches methods in a realm. Everything else about a
realm is as it was when the realm was made. -/

namespace ValueTypes

variable {μ α : Type}

/-! ### Actions -/

namespace Registry

theorem intern_eq_ok {r r' : Registry μ} {d : Draft} {t : ValueType}
    (h : r.intern d = .ok (t, r')) : r' = r ∨ r' = r.register d := by
  rw [intern] at h
  split at h
  · cases h
  · split at h
    · cases h
      exact .inl rfl
    · rename_i hfind
      rw [registerUnlessPresent, hfind] at h
      cases h
      exact .inr rfl

end Registry

namespace Realms

theorem build_members (rs : Realms μ) (b : Build α) :
    (rs.build b).2.members = rs.members ∧ (rs.build b).2.nextSymbol = rs.nextSymbol := by
  rw [build]
  split <;> exact ⟨rfl, rfl⟩

theorem setRegistry_self (rs : Realms μ) (id : RealmId) :
    (rs.setRegistry id (rs.realm id).registry).members = rs.members := by
  refine Array.ext_getElem? fun k => ?_
  rw [getElem?_setRegistry]
  split
  · rename_i hk
    cases hrealm : rs.members[k]? with
    | none => rfl
    | some realm =>
        rw [Realms.realm, Array.getD_eq_getD_getElem?, hk, hrealm]
        rfl
  · rfl

end Realms

/-! ### Operations -/

/-- How an operation leaves the realms. -/
inductive Operation.Changes (rs : Realms μ) (op : Operation μ) (rs' : Realms μ) : Prop where
  | rest (members : rs'.members = rs.members) (nextSymbol : rs.nextSymbol ≤ rs'.nextSymbol)
  | newRealm (config table) (realms : rs' = (rs.newRealm config table).2)
  | register (id d)
      (members : rs'.members = (rs.setRegistry id ((rs.realm id).registry.register d)).members)
      (nextSymbol : rs'.nextSymbol = rs.nextSymbol)
  | attach {id t methods registry} (attaches : op = .attach id t methods)
      (attached : (rs.realm id).registry.attach t methods = .ok registry)
      (members : rs'.members = (rs.setRegistry id registry).members)
      (nextSymbol : rs'.nextSymbol = rs.nextSymbol)

namespace Operation

theorem changes_of_build (rs : Realms μ) (op : Operation μ) (b : Build α)
    (items : α → List Item) : op.Changes rs (hand items (rs.build b)).2 :=
  .rest (rs.build_members b).1 (rs.build_members b).2.ge

/-- Interning registers at most one draft, also when a computation was run just before. -/
theorem changes_of_intern {rs rs' : Realms μ} (hmembers : rs'.members = rs.members)
    (hnext : rs'.nextSymbol = rs.nextSymbol) (op : Operation μ) (id : RealmId) (d : Draft) :
    op.Changes rs (rs'.intern id d).2 := by
  have hrealm : rs'.realm id = rs.realm id := by rw [Realms.realm, hmembers, Realms.realm]
  have hset : ∀ registry, (rs'.setRegistry id registry).members =
      (rs.setRegistry id registry).members := by
    intro registry
    rw [Realms.setRegistry, hmembers, Realms.setRegistry]
  rw [Realms.intern, hrealm]
  cases hintern : (rs.realm id).registry.intern d with
  | error e => exact .rest hmembers hnext.ge
  | ok result =>
      obtain ⟨t, registry⟩ := result
      rcases Registry.intern_eq_ok hintern with rfl | rfl
      · exact .rest ((hset _).trans (rs.setRegistry_self id)) hnext.ge
      · exact .register id d (hset _) hnext

theorem changes_of_internSchema (rs : Realms μ) (op : Operation μ) (id : RealmId)
    (symbol : Symbol) (schema : Build Schema) :
    op.Changes rs (rs.internSchema id symbol schema).2 := by
  have hbuild := rs.build_members schema
  rw [Realms.internSchema]
  cases hrun : rs.build schema with
  | mk result rs' =>
      rw [hrun] at hbuild
      obtain ⟨hmembers, hnext⟩ := hbuild
      cases result with
      | error e => exact .rest hmembers hnext.ge
      | ok s => exact changes_of_intern hmembers hnext op id ⟨symbol, s⟩

theorem run_changes (rs : Realms μ) (op : Operation μ) : op.Changes rs (op.run rs).2 := by
  cases op with
  | newSymbol description => exact .rest rfl (Nat.le_succ _)
  | newTable => exact .rest rfl (Nat.le_refl _)
  | symbolFor table key =>
      refine .rest rfl ?_
      change rs.nextSymbol ≤ ((rs.table table).symbolFor key rs.nextSymbol).2.2
      rw [SymbolTable.symbolFor]
      split
      · exact Nat.le_refl _
      · exact Nat.le_succ _
  | newRealm config table => exact .newRealm config table rfl
  | makeSchema id kind drafts => exact changes_of_build rs _ _ _
  | makeArraySchema id kind element length => exact changes_of_build rs _ _ _
  | intern id draft => exact changes_of_intern rfl rfl _ id draft
  | valueType id symbol drafts => exact changes_of_internSchema rs _ id symbol _
  | arrayType id symbol element length => exact changes_of_internSchema rs _ id symbol _
  | structType id name drafts =>
      have hbuild := rs.build_members ((rs.realm id).makeSchema .struct drafts)
      rw [run, hand, Realms.structType]
      cases hrun : rs.build ((rs.realm id).makeSchema .struct drafts) with
      | mk result rs' =>
          rw [hrun] at hbuild
          obtain ⟨hmembers, hnext⟩ := hbuild
          cases result with
          | error e => exact .rest hmembers hnext.ge
          | ok schema => exact .rest hmembers hnext.ge
  | attach id t methods =>
      rw [run, hand, Realms.attach]
      cases hattach : (rs.realm id).registry.attach t methods with
      | error e => exact .rest rfl (Nat.le_refl _)
      | ok registry => exact .attach rfl hattach rfl rfl
  | definitions id => exact .rest rfl (Nat.le_refl _)
  | newRecord entries => exact changes_of_build rs _ _ _
  | construct t source => exact changes_of_build rs _ _ _
  | constructStruct s source => exact changes_of_build rs _ _ _
  | coerce t v => exact changes_of_build rs _ _ _
  | setProperty target name v => exact changes_of_build rs _ _ _
  | inspect x => exact .rest rfl (Nat.le_refl _)

end Operation

/-! ### What stays -/

/-- Whether two realms are one in all that is settled when a realm is made. -/
structure Realm.Keeps (realm realm' : Realm μ) : Prop where
  config : realm'.config = realm.config
  table : realm'.table = realm.table
  id : realm'.id = realm.id
  coercion : realm'.registry.coercion = realm.registry.coercion
  hashing : realm'.registry.hashing = realm.registry.hashing
  firstSymbol : realm'.registry.firstSymbol = realm.registry.firstSymbol

namespace Realm.Keeps

variable {realm realm' realm'' : Realm μ}

theorem refl (realm : Realm μ) : realm.Keeps realm :=
  ⟨rfl, rfl, rfl, rfl, rfl, rfl⟩

theorem trans (h : realm.Keeps realm') (h' : realm'.Keeps realm'') : realm.Keeps realm'' :=
  ⟨h'.config.trans h.config, h'.table.trans h.table, h'.id.trans h.id,
    h'.coercion.trans h.coercion, h'.hashing.trans h.hashing, h'.firstSymbol.trans h.firstSymbol⟩

theorem primitive (h : realm.Keeps realm') (kind : PrimitiveKind) :
    realm'.primitive kind = realm.primitive kind := by
  have hid : realm'.registry.realm = realm.registry.realm := h.id
  rw [Realm.primitive, Registry.primitive, h.coercion, h.hashing, h.firstSymbol, hid]
  rfl

end Realm.Keeps

/-- What an operation makes of the realm at a place: it registers at most one definition there, and
changes the methods only if it attaches some to a type of that realm. -/
structure Operation.Grows (op : Operation μ) (k : Nat) (realm realm' : Realm μ) : Prop
    extends realm.Keeps realm' where
  definitions : realm'.registry.definitions = realm.registry.definitions ∨
    ∃ d, realm'.registry.definitions = realm.registry.definitions ++ [realm.registry.next d]
  methods : realm'.registry.methods = realm.registry.methods ∨ ∃ id t added,
    op = .attach id t added ∧ id - 1 = k ∧ realm.registry.attach t added = .ok realm'.registry

theorem Operation.Grows.refl (op : Operation μ) (k : Nat) (realm : Realm μ) :
    op.Grows k realm realm :=
  ⟨.refl realm, .inl rfl, .inl rfl⟩

theorem Realms.realm_of_getElem? {rs : Realms μ} {id : RealmId} {realm : Realm μ}
    (h : rs.members[id - 1]? = some realm) : rs.realm id = realm := by
  rw [Realms.realm, Array.getD_eq_getD_getElem?, h]
  rfl

/-- A realm was there before the operation, or the operation has made it, with primitive types
under symbols that are new as well. -/
theorem Operation.Changes.realm_cases {rs rs' : Realms μ} {op : Operation μ}
    (h : op.Changes rs rs') {k : Nat} {realm' : Realm μ} (hk : rs'.members[k]? = some realm') :
    (∃ realm, rs.members[k]? = some realm ∧ op.Grows k realm realm') ∨
      k = rs.members.size ∧ rs'.nextSymbol = rs.nextSymbol + 12 ∧
        realm'.registry = .new rs.hashing (k + 1) realm'.config.coercion rs.nextSymbol := by
  have hset : ∀ id registry, rs'.members = (rs.setRegistry id registry).members →
      (∀ realm, rs.realm id = realm → id - 1 = k →
        op.Grows k realm { realm with registry := registry }) →
      ∃ realm, rs.members[k]? = some realm ∧ op.Grows k realm realm' := by
    intro id registry hmembers hgrows
    rw [hmembers, Realms.getElem?_setRegistry] at hk
    split at hk
    · rename_i hid
      obtain ⟨realm, hrealm, heq⟩ := Option.map_eq_some_iff.mp hk
      subst heq
      rw [← hid] at hrealm
      exact ⟨realm, hid ▸ hrealm, hgrows realm (Realms.realm_of_getElem? hrealm) hid⟩
    · exact ⟨realm', hk, .refl op k realm'⟩
  cases h with
  | rest members nextSymbol =>
      rw [members] at hk
      exact .inl ⟨realm', hk, .refl op k realm'⟩
  | newRealm config table realms =>
      rw [realms, Realms.newRealm, Array.getElem?_push] at hk
      split at hk
      · rename_i hsize
        cases hk
        refine .inr ⟨hsize, ?_, ?_⟩
        · rw [realms]
          rfl
        · rw [hsize]
      · exact .inl ⟨realm', hk, .refl op k realm'⟩
  | register id d members nextSymbol =>
      refine .inl (hset id _ members ?_)
      rintro realm rfl hid
      exact ⟨⟨rfl, rfl, rfl, rfl, rfl, rfl⟩, .inr ⟨d, rfl⟩, .inl rfl⟩
  | @attach id t methods registry attaches attached members nextSymbol =>
      refine .inl (hset id _ members ?_)
      rintro realm rfl hid
      have hmethods : ∃ place t added, op = .attach place t added ∧ place - 1 = k ∧
          (rs.realm id).registry.attach t added = .ok registry :=
        ⟨id, t, methods, attaches, hid, attached⟩
      rw [Registry.attach] at attached
      split at attached
      · cases attached
        exact ⟨⟨rfl, rfl, rfl, rfl, rfl, rfl⟩, .inl rfl, .inr hmethods⟩
      · cases attached

namespace World

theorem Sound.perform_keeps {w : World μ} (hw : w.Sound) {op : Operation μ} (hop : w.Admits op)
    {id : RealmId} (hid : w.realms.scope.realm id) :
    (w.realms.realm id).Keeps ((w.perform op).realms.realm id) := by
  have hgrows := (hw.run_advances hop).grows
  have hk := Realms.getElem?_realm (hgrows.realm hid)
  rcases (op.run_changes w.realms).realm_cases hk with ⟨realm, hrealm, h⟩ | ⟨hsize, _⟩
  · rw [Realms.realm_of_getElem? hrealm]
    exact h.toKeeps
  · have hlt := Nat.sub_one_lt_of_le hid.1 hid.2
    omega

/-- Realms and definitions only become more in a run. -/
theorem Sound.leads_extends {w w' : World μ} (hw : w.Sound) (h : w.Leads w') :
    w.realms.Extends w'.realms := by
  induction h with
  | refl => exact .refl _
  | step run op admits ih => exact ih.trans ((hw.leads run).run_advances admits).grows

/-- What is settled when a realm is made stays for good. -/
theorem Sound.leads_keeps {w w' : World μ} (hw : w.Sound) (h : w.Leads w') {id : RealmId}
    (hid : w.realms.scope.realm id) : (w.realms.realm id).Keeps (w'.realms.realm id) := by
  induction h with
  | refl => exact .refl _
  | step run op admits ih =>
      exact ih.trans ((hw.leads run).perform_keeps admits ((hw.leads_extends run).realm hid))

end World

/-! ### Primitive types -/

/-- Whether the primitive types of each realm are the only ones, and realms have no symbol of a
primitive type in common. -/
structure Realms.Seeded (rs : Realms μ) : Prop where
  eq_primitive : ∀ realm ∈ rs.members, ∀ t ∈ realm.registry.definitions, ∀ kind,
    t.layout = .primitive kind → t = realm.primitive kind
  below : ∀ realm ∈ rs.members, realm.registry.firstSymbol + 12 ≤ rs.nextSymbol
  apart : ∀ (k l : Nat) realm realm', rs.members[k]? = some realm → rs.members[l]? = some realm' →
    k < l → realm.registry.firstSymbol + 12 ≤ realm'.registry.firstSymbol

theorem Operation.Changes.nextSymbol_le {rs rs' : Realms μ} {op : Operation μ}
    (h : op.Changes rs rs') : rs.nextSymbol ≤ rs'.nextSymbol := by
  cases h with
  | rest members nextSymbol => exact nextSymbol
  | newRealm config table realms =>
      rw [realms]
      exact Nat.le_add_right ..
  | register id d members nextSymbol => exact nextSymbol.ge
  | attach attaches attached members nextSymbol => exact nextSymbol.ge

theorem Realms.Seeded.changes {rs rs' : Realms μ} (hrs : rs.Seeded) {op : Operation μ}
    (h : op.Changes rs rs') : rs'.Seeded where
  eq_primitive realm' hmem t ht kind hkind := by
    obtain ⟨k, hk⟩ := Array.mem_iff_getElem?.mp hmem
    rcases h.realm_cases hk with ⟨realm, hrealm, hgrows⟩ | ⟨_, _, hnew⟩
    · have hold : ∀ t ∈ realm.registry.definitions, t.layout = .primitive kind →
          t = realm'.primitive kind := by
        intro t ht hkind
        rw [hgrows.primitive kind]
        exact hrs.eq_primitive realm (Array.mem_of_getElem? hrealm) t ht kind hkind
      rcases hgrows.definitions with hsame | ⟨d, hnext⟩
      · exact hold t (hsame ▸ ht) hkind
      · rw [hnext] at ht
        rcases List.mem_append.mp ht with ht | ht
        · exact hold t ht hkind
        · rw [List.mem_singleton.mp ht] at hkind
          cases hkind
    · rw [hnew] at ht
      obtain ⟨kind', _, rfl⟩ := List.mem_map.mp ht
      cases hkind
      rw [Realm.primitive, hnew]
      rfl
  below realm' hmem := by
    obtain ⟨k, hk⟩ := Array.mem_iff_getElem?.mp hmem
    have hnext := h.nextSymbol_le
    rcases h.realm_cases hk with ⟨realm, hrealm, hgrows⟩ | ⟨_, hsymbol, hnew⟩
    · rw [hgrows.firstSymbol]
      exact (hrs.below realm (Array.mem_of_getElem? hrealm)).trans hnext
    · rw [hnew, hsymbol]
      exact Nat.le_refl _
  apart k l realm realm' hk hl hlt := by
    rcases h.realm_cases hk with ⟨old, hold, hgrows⟩ | ⟨hsize, _⟩ <;>
      rcases h.realm_cases hl with ⟨old', hold', hgrows'⟩ | ⟨hsize', _, hnew'⟩
    · rw [hgrows.firstSymbol, hgrows'.firstSymbol]
      exact hrs.apart k l old old' hold hold' hlt
    · rw [hgrows.firstSymbol, hnew']
      exact hrs.below old (Array.mem_of_getElem? hold)
    · obtain ⟨hsize', _⟩ := Array.getElem?_eq_some_iff.mp hold'
      omega
    · omega

theorem World.Reachable.seeded {w : World μ} (hw : w.Reachable) : w.realms.Seeded := by
  obtain ⟨hashing, hrun⟩ := hw
  induction hrun with
  | refl =>
      refine ⟨fun realm h => ?_, fun realm h => ?_, fun k l realm realm' h => ?_⟩
      · simp [World.start] at h
      · simp [World.start] at h
      · simp [World.start] at h
  | step _ op _ ih => exact ih.changes (op.run_changes _)

/-! ### Modes -/

/-- The registry of every realm is in the mode of the realm. -/
theorem World.Reachable.coercion_eq {w : World μ} (hw : w.Reachable) :
    ∀ realm ∈ w.realms.members, realm.registry.coercion = realm.config.coercion := by
  obtain ⟨hashing, hrun⟩ := hw
  induction hrun with
  | refl => simp [World.start]
  | step _ op _ ih =>
      intro realm' hmem
      obtain ⟨k, hk⟩ := Array.mem_iff_getElem?.mp hmem
      rcases (op.run_changes _).realm_cases hk with ⟨realm, hrealm, hgrows⟩ | ⟨_, _, hnew⟩
      · rw [hgrows.coercion, hgrows.config]
        exact ih realm (Array.mem_of_getElem? hrealm)
      · rw [hnew]
        rfl

end ValueTypes
