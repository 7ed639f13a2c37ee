import ValueTypes.Proofs.Attempt.Construction
import ValueTypes.Proofs.Schema.Nesting
import ValueTypes.Proofs.World.Basic

/-! Operations as attempts. Where an operation builds values, its changes of the store last even if
it fails. No number of a definition or a struct type is taken, and nothing is registered, before all
that can fail has passed: in particular a schema that a realm has made is never refused by its
registry. -/

namespace ValueTypes

variable {μ α β : Type}

/-! ### Schemas that are made and registered -/

/-- A registry takes all drafts over value types of its realm. -/
theorem Registry.check_of_fields {r : Registry μ} {d : Draft}
    (h : ∀ f ∈ d.schema.fields, ∃ t : ValueType, f.type = .value t ∧ t.realm = r.realm) :
    r.check d = .ok () := by
  have hfaults : (d.schema.fields.findSome? fun f =>
      (r.fault? f.type).map (Error.invalidFieldType f.name)) = none := by
    refine List.findSome?_eq_none_iff.mpr fun f hf => ?_
    obtain ⟨t, htype, hrealm⟩ := h f hf
    rw [htype, fault?, if_pos hrealm]
    rfl
  rw [check, hfaults]

/-- The registry of a realm takes the schemas of values that the realm makes. -/
theorem Realm.check_of_makeSchema {realm : Realm μ} {drafts : List FieldDraft} {schema : Schema}
    {σ σ' : Store} (h : (realm.makeSchema .value drafts).run σ = .ok (schema, σ'))
    (symbol : Symbol) : realm.registry.check ⟨symbol, schema⟩ = .ok () := by
  obtain ⟨hcheck, htypes⟩ := SchemaPolicy.makeSchema_eq_ok h
  obtain ⟨_, hfaults⟩ := SchemaPolicy.check_eq_ok hcheck
  refine Registry.check_of_fields fun f hf => ?_
  have hf' : f.type ∈ drafts.map (·.type) := htypes ▸ List.mem_map_of_mem hf
  obtain ⟨draft, hdraft, heq⟩ := List.mem_map.mp hf'
  obtain ⟨hrealm, hvalue⟩ := SchemaPolicy.realm_of_fault? (hfaults draft hdraft)
  rw [← heq]
  cases htype : draft.type with
  | value t =>
      rw [htype] at hrealm
      exact ⟨t, rfl, hrealm⟩
  | struct s =>
      have hstruct := hvalue rfl
      rw [htype] at hstruct
      cases hstruct

namespace Realms

/-! ### Attempts in realms -/

/-- Makes an attempt in the store of some realms. -/
def attempt (rs : Realms μ) (a : Attempt α) : Except Error α × Realms μ :=
  ((a.outcome rs.store).1, { rs with store := (a.outcome rs.store).2 })

/-- Attempts to make a schema and intern it under a symbol. -/
def attemptType (rs : Realms μ) (id : RealmId) (symbol : Symbol) (schema : Attempt Schema) :
    Except Error ValueType × Realms μ :=
  match rs.attempt schema with
  | (.error e, rs) => (.error e, rs)
  | (.ok schema, rs) => rs.intern id ⟨symbol, schema⟩

/-- Attempts to make the schema of a new struct type. -/
def attemptStructType (rs : Realms μ) (id : RealmId) (name : String) (schema : Attempt Schema) :
    Except Error StructType × Realms μ :=
  match rs.attempt schema with
  | (.error e, rs) => (.error e, rs)
  | (.ok schema, rs) =>
    (.ok ⟨rs.nextStruct, id, name, schema, (rs.realm id).config.coercion⟩,
      { rs with nextStruct := rs.nextStruct + 1 })

/-- Whether an attempt and an action in the same realms end alike: with one result and the same
realms, or with one error, when the action leaves the realms as they were, and the attempt too, but
for structs that it has added. -/
inductive Ends (rs : Realms μ) :
    Except Error α × Realms μ → Except Error α × Realms μ → Prop where
  | done {x rs'} : Ends rs (.ok x, rs') (.ok x, rs')
  | failed {e store} (h : rs.store.Keeps store) :
      Ends rs (.error e, { rs with store := store }) (.error e, rs)

variable {rs : Realms μ}

theorem attempt_ends {a : Attempt α} {b : Build α} (h : a.Follows b) :
    rs.Ends (rs.attempt a) (rs.build b) := by
  have hends := h rs.store
  rw [attempt, build]
  generalize a.outcome rs.store = out at hends
  generalize b.run rs.store = result at hends
  cases hends with
  | done _ => exact .done
  | failed hkeeps => exact .failed hkeeps

theorem intern_of_check {id : RealmId} {d : Draft} (h : (rs.realm id).registry.check d = .ok ()) :
    ∃ t rs', rs.intern id d = (.ok t, rs') := by
  have hintern : ∃ t registry, (rs.realm id).registry.intern d = .ok (t, registry) := by
    rw [Registry.intern, h]
    cases (rs.realm id).registry.find? d with
    | some t => exact ⟨t, _, rfl⟩
    | none => exact ⟨_, _, rfl⟩
  obtain ⟨t, registry, hintern⟩ := hintern
  rw [intern, hintern]
  exact ⟨t, _, rfl⟩

/-- Only schemas can keep a type from being made, once its registry takes them. -/
theorem attemptType_ends {id : RealmId} {symbol : Symbol} {a : Attempt Schema} {b : Build Schema}
    (h : a.Follows b) (hcheck : ∀ schema σ, b.run rs.store = .ok (schema, σ) →
      (rs.realm id).registry.check ⟨symbol, schema⟩ = .ok ()) :
    rs.Ends (rs.attemptType id symbol a) (rs.internSchema id symbol b) := by
  have hends := h rs.store
  rw [attemptType, internSchema, attempt, build]
  generalize a.outcome rs.store = out at hends
  cases hrun : b.run rs.store with
  | error e =>
      rw [hrun] at hends
      cases hends with
      | failed hkeeps => exact .failed hkeeps
  | ok result =>
      -- The structs of the schema's defaults are there for good now, so nothing may fail from here.
      obtain ⟨schema, σ⟩ := result
      rw [hrun] at hends
      cases hends with
      | done _ =>
          have hlater : ({ rs with store := σ }.realm id).registry.check ⟨symbol, schema⟩ =
              .ok () := hcheck schema σ hrun
          obtain ⟨t, rs', hintern⟩ := intern_of_check hlater
          dsimp only
          rw [hintern]
          exact .done

theorem attemptStructType_ends {id : RealmId} {name : String} {drafts : List FieldDraft}
    {a : Attempt Schema} (h : a.Follows ((rs.realm id).makeSchema .struct drafts)) :
    rs.Ends (rs.attemptStructType id name a) (rs.structType id name drafts) := by
  have hends : rs.Ends (rs.attempt a) _ := attempt_ends h
  rw [attemptStructType, structType]
  generalize rs.attempt a = out at hends
  generalize rs.build ((rs.realm id).makeSchema .struct drafts) = result at hends
  cases hends with
  | done => exact .done
  | failed hkeeps => exact .failed hkeeps

/-- Actions that cannot fail halfway are attempts themselves. -/
theorem Ends.of_unchanged {r : Except Error α × Realms μ} (h : ∀ e, r.1 = .error e → r.2 = rs) :
    rs.Ends r r := by
  obtain ⟨result, rs'⟩ := r
  cases result with
  | ok x => exact .done
  | error e =>
      cases h e rfl
      exact .failed (.refl _)

theorem Ends.hand {items : α → List Item} {r r' : Except Error α × Realms μ} (h : rs.Ends r r') :
    rs.Ends (Operation.hand items r) (Operation.hand items r') := by
  cases h with
  | done => exact .done
  | failed hkeeps => exact .failed hkeeps

theorem intern_error {id : RealmId} {d : Draft} {e : Error} (h : (rs.intern id d).1 = .error e) :
    (rs.intern id d).2 = rs := by
  rw [intern] at h ⊢
  cases hintern : (rs.realm id).registry.intern d with
  | error e => rfl
  | ok result =>
      rw [hintern] at h
      cases h

theorem attach_error {id : RealmId} {t : ValueType} {added : MethodTable μ} {e : Error}
    (h : (rs.attach id t added).1 = .error e) : (rs.attach id t added).2 = rs := by
  rw [attach] at h ⊢
  cases hattach : (rs.realm id).registry.attach t added with
  | error e => rfl
  | ok registry =>
      rw [hattach] at h
      cases h

end Realms

namespace Operation

/-- Performs an operation as an attempt, whose changes of the store last even if it fails. -/
def attempt (rs : Realms μ) : Operation μ → Except Error (List Item) × Realms μ
  | makeSchema realm kind drafts =>
    hand (fun schema => [.schema schema])
      (rs.attempt (Attempt.makeSchema (rs.realm realm).policy kind drafts))
  | makeArraySchema realm kind element length =>
    hand (fun schema => [.schema schema])
      (rs.attempt (Attempt.makeSchema (rs.realm realm).policy kind
        (arrayFields element length ((rs.realm realm).primitive .uint32))))
  | valueType realm symbol drafts =>
    hand (fun t => [.type (.value t)])
      (rs.attemptType realm symbol (Attempt.makeSchema (rs.realm realm).policy .value drafts))
  | arrayType realm symbol element length =>
    hand (fun t => [.type (.value t)])
      (rs.attemptType realm symbol (Attempt.makeSchema (rs.realm realm).policy .value
        (arrayFields element length ((rs.realm realm).primitive .uint32))))
  | structType realm name drafts =>
    hand (fun s => [.type (.struct s)])
      (rs.attemptStructType realm name
        (Attempt.makeSchema (rs.realm realm).policy .struct drafts))
  | newRecord entries => hand (fun v => [.value v]) (rs.attempt (Attempt.newRecord entries))
  | construct type source =>
    hand (fun i => [.value (.inst i)]) (rs.attempt (Attempt.construct type source))
  | constructStruct type source =>
    hand (fun s => [.value (.struct s)]) (rs.attempt (Attempt.constructStruct type source))
  | coerce type v => hand (fun v => [.value v]) (rs.attempt (Attempt.coerce type v))
  | setProperty target name v =>
    hand (fun _ => []) (rs.attempt (Attempt.setProperty target name v))
  | op => op.run rs

/-- Every operation comes to the same as its attempt, and if it fails, it leaves the realms as they
were. -/
theorem attempt_ends (rs : Realms μ) (op : Operation μ) : rs.Ends (op.attempt rs) (op.run rs) := by
  cases op with
  | makeSchema id kind drafts =>
      exact (Realms.attempt_ends (Attempt.makeSchema_adds _ kind drafts).follows).hand
  | makeArraySchema id kind element length =>
      exact (Realms.attempt_ends (Attempt.makeSchema_adds _ kind _).follows).hand
  | valueType id symbol drafts =>
      exact (Realms.attemptType_ends (Attempt.makeSchema_adds _ .value drafts).follows
        fun _ _ h => Realm.check_of_makeSchema h symbol).hand
  | arrayType id symbol element length =>
      exact (Realms.attemptType_ends (Attempt.makeSchema_adds _ .value _).follows
        fun _ _ h => Realm.check_of_makeSchema h symbol).hand
  | structType id name drafts =>
      exact (Realms.attemptStructType_ends (Attempt.makeSchema_adds _ .struct drafts).follows).hand
  | newRecord entries =>
      exact (Realms.attempt_ends (Attempt.Adds.newRecord entries).follows).hand
  | construct t source =>
      exact (Realms.attempt_ends (Attempt.construct_adds t source).follows).hand
  | constructStruct s source =>
      exact (Realms.attempt_ends (Attempt.constructStruct_adds s source).follows).hand
  | coerce t v => exact (Realms.attempt_ends (Attempt.coerce_adds t v).follows).hand
  | setProperty target name v =>
      exact (Realms.attempt_ends (Attempt.setProperty_follows target name v)).hand
  | intern id d => exact (Realms.Ends.of_unchanged fun _ => Realms.intern_error).hand
  | attach id t added => exact (Realms.Ends.of_unchanged fun _ => Realms.attach_error).hand
  | newSymbol description => exact .done
  | newTable => exact .done
  | symbolFor table key => exact .done
  | newRealm config table => exact .done
  | definitions id => exact .done
  | inspect x => exact .done

end Operation

end ValueTypes
