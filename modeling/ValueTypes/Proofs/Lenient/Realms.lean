import ValueTypes.Method.Body
import ValueTypes.Proofs.Lenient.Construction
import ValueTypes.Realms

/-! Realms with every mode lenient. Registries answer the same requests with corresponding
definitions, properties and methods are found where they were, and whatever succeeds in realms
succeeds in the relaxed ones. -/

namespace ValueTypes

variable {μ : Type}

/-! ### Registries -/

/-- The buckets with all definitions lenient. -/
def Buckets.relax (buckets : Buckets) : Buckets :=
  ⟨buckets.entries.map fun entry => (entry.1, entry.2.map ValueType.relax)⟩

@[simp]
theorem Buckets.relax_bucket (buckets : Buckets) (symbol : Symbol) :
    buckets.relax.bucket symbol = (buckets.bucket symbol).map ValueType.relax := by
  rw [bucket, relax, Entries.lookup_map, bucket]
  cases buckets.entries.lookup symbol <;> rfl

theorem Buckets.relax_push (buckets : Buckets) (symbol : Symbol) (t : ValueType) :
    buckets.relax.push symbol t.relax = (buckets.push symbol t).relax := by
  rw [push, relax_bucket, ← List.map_singleton, ← List.map_append, relax, Entries.insert_map]
  rfl

namespace Registry

/-- The registry with lenient mode, in all its definitions as well. -/
def relax (registry : Registry μ) : Registry μ :=
  { registry with
    coercion := .lenient
    definitions := registry.definitions.map ValueType.relax
    buckets := registry.buckets.relax }

variable (registry : Registry μ)

@[simp]
theorem relax_realm : registry.relax.realm = registry.realm := rfl

@[simp]
theorem relax_methods : registry.relax.methods = registry.methods := rfl

theorem new_relax (hashing : Hashing) (realm : RealmId) (coercion : CoercionMode)
    (firstSymbol : Nat) :
    (new hashing realm coercion firstSymbol : Registry μ).relax =
      new hashing realm .lenient firstSymbol := by
  have hprimitives : (PrimitiveKind.all.map (primitiveType hashing realm coercion firstSymbol)).map
      ValueType.relax = PrimitiveKind.all.map (primitiveType hashing realm .lenient firstSymbol) := by
    simp [primitiveType, Function.comp_def]
  have hbuckets : ∀ (ts : List ValueType) (buckets : Buckets),
      (ts.map ValueType.relax).foldl (fun buckets t => buckets.push t.symbol t) buckets.relax =
        (ts.foldl (fun buckets t => buckets.push t.symbol t) buckets).relax := by
    intro ts buckets
    rw [List.foldl_map]
    refine List.foldl_hom Buckets.relax fun buckets t => ?_
    rw [ValueType.relax_symbol, Buckets.relax_push]
  rw [new, relax, new, ← hprimitives, ← hbuckets]
  rfl

@[simp]
theorem relax_primitive (kind : PrimitiveKind) :
    registry.relax.primitive kind = (registry.primitive kind).relax := by
  simp [primitive, primitiveType, relax]

@[simp]
theorem relax_definitionsOf (symbol : Symbol) :
    registry.relax.definitionsOf symbol =
      (registry.definitionsOf symbol).map ValueType.relax :=
  registry.buckets.relax_bucket symbol

@[simp]
theorem relax_contains (t : ValueType) : registry.relax.contains t.relax = registry.contains t := by
  simp [contains, Function.comp_def]

theorem relax_check (draft : Draft) : registry.relax.check draft.relax = registry.check draft := by
  have hfault : ∀ type : FieldType, registry.relax.fault? type.relax = registry.fault? type := by
    rintro (t | s) <;> simp [fault?]
  simp [check, List.findSome?_map, Function.comp_def, hfault]

theorem relax_find? (draft : Draft) :
    registry.relax.find? draft.relax = (registry.find? draft).map ValueType.relax := by
  rw [find?, find?, Draft.relax_symbol, relax_definitionsOf, List.find?_map]
  simp only [Function.comp_def, ValueType.matchesDraft_relax]

theorem relax_next (draft : Draft) :
    registry.relax.next draft.relax = (registry.next draft).relax := by
  rw [next, next, ValueType.relax_define]
  rfl

theorem relax_register (draft : Draft) :
    registry.relax.register draft.relax = (registry.register draft).relax := by
  rw [register, relax_next, Draft.relax_symbol, register]
  simp [relax, Buckets.relax_push]

/-- A draft that is answered with a definition is answered with the corresponding one. -/
theorem relax_intern {draft : Draft} {t : ValueType} {after : Registry μ}
    (h : registry.intern draft = .ok (t, after)) :
    registry.relax.intern draft.relax = .ok (t.relax, after.relax) := by
  rw [intern, registerUnlessPresent] at h ⊢
  rw [relax_check, relax_find?, relax_next, relax_register]
  cases hcheck : registry.check draft with
  | error e =>
      rw [hcheck] at h
      cases h
  | ok _ =>
      rw [hcheck] at h
      cases hfind : registry.find? draft with
      | some t' =>
          rw [hfind] at h
          cases h
          rfl
      | none =>
          rw [hfind] at h
          cases h
          rfl

@[simp]
theorem relax_methodsFor? (t : ValueType) :
    registry.relax.methodsFor? t.relax = registry.methodsFor? t := by
  simp [methodsFor?]

@[simp]
theorem relax_method? (t : ValueType) (name : String) :
    registry.relax.method? t.relax name = registry.method? t name := by
  simp [method?]

theorem relax_attach {t : ValueType} {added : MethodTable μ} {after : Registry μ}
    (h : registry.attach t added = .ok after) :
    registry.relax.attach t.relax added = .ok after.relax := by
  rw [attach, relax_contains, ValueType.relax_id, ValueType.relax_name]
  rw [attach] at h
  split at h
  · rename_i hcontains
    cases h
    rw [if_pos hcontains]
    rfl
  · cases h

end Registry

/-! ### Realms -/

def RealmConfig.relax (config : RealmConfig) : RealmConfig :=
  { config with coercion := .lenient }

def BoundMethod.relax (m : BoundMethod μ) : BoundMethod μ :=
  { m with receiver := m.receiver.relax }

def Property.relax : Property μ → Property μ
  | field v => .field v.relax
  | method m => .method m.relax
  | missing => .missing

theorem Property.relax_toValue (p : Property μ) : p.relax.toValue = p.toValue.relax := by
  cases p <;> rfl

namespace Realm

/-- The realm made lenient. -/
def relax (realm : Realm μ) : Realm μ :=
  ⟨realm.config.relax, realm.table, realm.registry.relax⟩

variable (realm : Realm μ)

theorem relax_primitive (kind : PrimitiveKind) :
    realm.relax.primitive kind = (realm.primitive kind).relax :=
  realm.registry.relax_primitive kind

theorem relax_primitiveOfName? (name : String) :
    realm.relax.primitiveOfName? name = (realm.primitiveOfName? name).map ValueType.relax := by
  rw [primitiveOfName?, primitiveOfName?, funext realm.relax_primitive, Option.map_map]
  rfl

theorem makeSchema_relaxes (kind : SchemaKind) (drafts : List FieldDraft) :
    (realm.makeSchema kind drafts).Relaxes
      (realm.relax.makeSchema kind (drafts.map FieldDraft.relax)) Schema.relax :=
  realm.policy.makeSchema_relaxes kind drafts

theorem makeArraySchema_relaxes (kind : SchemaKind) (element : FieldType) (length : Nat) :
    (realm.makeArraySchema kind element length).Relaxes
      (realm.relax.makeArraySchema kind element.relax length) Schema.relax := by
  rw [makeArraySchema, makeArraySchema, relax_primitive, ← arrayFields_relax]
  exact realm.makeSchema_relaxes kind _

theorem relax_getProperty (store : Store) (target : Value) (name : String) :
    realm.relax.getProperty store.relax target.relax name =
      (realm.getProperty store target name).relax := by
  cases target with
  | inst i =>
      simp only [getProperty, Value.relax_inst, Instance.relax_get?, Instance.relax_type, relax,
        Registry.relax_method?]
      cases i.get? name with
      | some v => rfl
      | none => cases realm.registry.method? i.type name <;> rfl
  | struct s =>
      simp only [getProperty, Value.relax_struct, Store.relax_get?]
      cases store.get? s name <;> rfl
  | record id entries =>
      simp only [getProperty, Value.relax_record, lookup_map_relax]
      cases entries.lookup name <;> rfl
  | _ => rfl

theorem relax_methodOf (receiver : Instance) (name : String) :
    realm.relax.methodOf receiver.relax name = realm.methodOf receiver name := by
  simp [methodOf, relax]

end Realm

/-! ### Method bodies -/

namespace MethodBody

theorem nameOf_relax (v : Value) : nameOf v.relax = nameOf v := by
  cases v <;> rfl

theorem sumOf_relax (vs : List Value) : sumOf (vs.map Value.relax) = sumOf vs := by
  have hnumber : ∀ v : Value, v.relax.toDouble? = v.toDouble? := by
    intro v
    cases v <;> rfl
  simp [sumOf, List.filterMap_map, hnumber]

theorem replaceFirst_relax (entries : List (String × Value)) (v : Value) :
    replaceFirst (entries.map relaxEntry) v.relax = (replaceFirst entries v).map relaxEntry := by
  cases entries <;> rfl

theorem headD_relax (args : List Value) :
    (args.map Value.relax).headD .undefined = (args.headD .undefined).relax := by
  cases args <;> rfl

theorem getLastD_relax (args : List Value) :
    (args.map Value.relax).getLastD .undefined = (args.getLastD .undefined).relax := by
  rw [List.getLastD_eq_getLast?, List.getLastD_eq_getLast?, List.getLast?_map]
  cases args.getLast? <;> rfl

/-- A body does the same in lenient realms, once the bodies do that it calls with the arguments
left. -/
theorem run_relaxes_of_call {realm : Realm MethodBody} {receiver : Instance} {args : List Value}
    (h : ∀ v vs, args = v :: vs → ∀ next : MethodBody,
      (next.run realm receiver vs).Relaxes
        (next.run realm.relax receiver.relax (vs.map Value.relax)) Value.relax)
    (body : MethodBody) :
    (body.run realm receiver args).Relaxes
      (body.run realm.relax receiver.relax (args.map Value.relax)) Value.relax := by
  rw [run.eq_def realm receiver args, run.eq_def realm.relax]
  dsimp only
  rw [List.length_map]
  refine .bind (r := id) (.lift fun _ h => h) fun _ => ?_
  cases body with
  | zero => exact .pure rfl
  | self => exact .pure rfl
  | sum =>
      refine .pure ?_
      rw [Instance.relax_slots, sumOf_relax]
      rfl
  | withFirst =>
      have hconstruct := receiver.type.construct_relaxes
        (some (.record (replaceFirst receiver.fields (args.headD .undefined))))
      rw [← Instance.relax_type, Option.map_some, Source.relax, ← replaceFirst_relax,
        ← Instance.relax_fields, ← headD_relax] at hconstruct
      exact hconstruct.bind fun i => .pure rfl
  | echo => exact .pure (getLastD_relax args)
  | prop =>
      refine .read fun σ => ?_
      rw [headD_relax, nameOf_relax, ← Value.relax_inst, Realm.relax_getProperty,
        Property.relax_toValue]
  | call =>
      cases args with
      | nil => exact .pure rfl
      | cons v vs =>
          refine .bind (r := id) (.lift fun next hnext => ?_) fun next => h v vs rfl next
          rw [nameOf_relax, Realm.relax_methodOf, hnext, id]
  | write => exact .bind (r := id) (.throw _ _) fun _ => .pure rfl

/-- Bodies do the same in lenient realms. The induction is on the arguments: a call of another
method takes the first one off. -/
theorem run_relaxes (realm : Realm MethodBody) (receiver : Instance) (args : List Value)
    (body : MethodBody) :
    (body.run realm receiver args).Relaxes
      (body.run realm.relax receiver.relax (args.map Value.relax)) Value.relax := by
  induction args generalizing body with
  | nil =>
      refine run_relaxes_of_call (fun v vs heq => ?_) body
      cases heq
  | cons v vs ih =>
      refine run_relaxes_of_call (fun v' vs' heq next => ?_) body
      cases heq
      exact ih next

end MethodBody

/-! ### All realms -/

namespace Realms

/-- The realms with all of them lenient. -/
def relax (rs : Realms μ) : Realms μ :=
  { rs with members := rs.members.map Realm.relax, store := rs.store.relax }

/-- Whether a number is that of one of the first `n` realms. -/
def Numbers (n : Nat) (id : RealmId) : Prop :=
  0 < id ∧ id ≤ n

theorem Numbers.mono {n n' : Nat} (h : n ≤ n') {id : RealmId} (hid : Numbers n id) :
    Numbers n' id :=
  ⟨hid.1, Nat.le_trans hid.2 h⟩

/-- Numbers that no realm has read as a strict realm in any case, so only those of realms read as
relaxed ones. -/
theorem relax_realm {rs : Realms μ} {n : Nat} (hn : n ≤ rs.members.size) {id : RealmId}
    (hid : Numbers n id) : rs.relax.realm id = (rs.realm id).relax := by
  have hlt : id - 1 < rs.members.size :=
    Nat.lt_of_lt_of_le (Nat.sub_one_lt_of_le hid.1 hid.2) hn
  simp [realm, relax, Array.getD, hlt]

theorem relax_setRegistry (rs : Realms μ) (id : RealmId) (registry : Registry μ) :
    rs.relax.setRegistry id registry.relax = (rs.setRegistry id registry).relax := by
  have hmembers : ∀ members : Array (Realm μ),
      ((members.map Realm.relax).modify (id - 1) fun realm =>
        { realm with registry := registry.relax }) =
      (members.modify (id - 1) fun realm =>
        { realm with registry := registry }).map Realm.relax := fun members =>
    modify_map_comm (fun realm => by rfl) members (id - 1)
  simp only [setRegistry, relax, hmembers]

theorem relax_newRealm (rs : Realms μ) (config : RealmConfig) (table : TableId) :
    rs.relax.newRealm config.relax table =
      ((rs.newRealm config table).1, (rs.newRealm config table).2.relax) := by
  simp [newRealm, relax, Realm.relax, RealmConfig.relax, Registry.new_relax]

/-! ### Actions -/

variable {α β γ δ : Type}

/-- Whether an action that succeeds does so on the relaxed realms as well, with the corresponding
result and realms, and leaves at least `n` realms. -/
def Relaxes (n : Nat) (x : Except Error α × Realms μ) (x' : Except Error β × Realms μ)
    (r : α → β) : Prop :=
  ∀ a rs', x = (.ok a, rs') → x' = (.ok (r a), rs'.relax) ∧ n ≤ rs'.members.size

theorem build_relaxes {n : Nat} {rs : Realms μ} (hn : n ≤ rs.members.size) {b : Build α}
    {b' : Build β} {r : α → β} (h : b.Relaxes b' r) :
    Relaxes n (rs.build b) (rs.relax.build b') r := by
  intro a rs' hrun
  rw [build] at hrun
  cases hb : b.run rs.store with
  | error e =>
      rw [hb] at hrun
      cases hrun
  | ok result =>
      rw [hb] at hrun
      cases hrun
      have hb' := h rs.store _ _ hb
      rw [build, show rs.relax.store = rs.store.relax from rfl, hb']
      exact ⟨rfl, hn⟩

theorem intern_relaxes {n : Nat} {rs : Realms μ} (hn : n ≤ rs.members.size) {id : RealmId}
    (hid : Numbers n id) (draft : Draft) :
    Relaxes n (rs.intern id draft) (rs.relax.intern id draft.relax) ValueType.relax := by
  intro t rs' hrun
  rw [intern] at hrun ⊢
  rw [relax_realm hn hid, Realm.relax]
  cases hintern : (rs.realm id).registry.intern draft with
  | error e =>
      rw [hintern] at hrun
      cases hrun
  | ok result =>
      rw [hintern] at hrun
      cases hrun
      rw [Registry.relax_intern _ hintern]
      refine ⟨?_, ?_⟩
      · rw [← relax_setRegistry]
      · simpa [setRegistry] using hn

theorem internSchema_relaxes {n : Nat} {rs : Realms μ} (hn : n ≤ rs.members.size) {id : RealmId}
    (hid : Numbers n id) (symbol : Symbol) {b b' : Build Schema} (h : b.Relaxes b' Schema.relax) :
    Relaxes n (rs.internSchema id symbol b) (rs.relax.internSchema id symbol b')
      ValueType.relax := by
  intro t rs'' hrun
  rw [internSchema] at hrun ⊢
  rcases hbuild : rs.build b with ⟨e | schema, rs'⟩
  · rw [hbuild] at hrun
    cases hrun
  · rw [hbuild] at hrun
    obtain ⟨hbuild', hn'⟩ := build_relaxes hn h schema rs' hbuild
    rw [hbuild']
    exact intern_relaxes hn' hid ⟨symbol, schema⟩ t rs'' hrun

theorem valueType_relaxes {n : Nat} {rs : Realms μ} (hn : n ≤ rs.members.size) {id : RealmId}
    (hid : Numbers n id) (symbol : Symbol) (drafts : List FieldDraft) :
    Relaxes n (rs.valueType id symbol drafts)
      (rs.relax.valueType id symbol (drafts.map FieldDraft.relax)) ValueType.relax := by
  rw [valueType, valueType, relax_realm hn hid]
  exact internSchema_relaxes hn hid symbol ((rs.realm id).makeSchema_relaxes .value drafts)

theorem arrayType_relaxes {n : Nat} {rs : Realms μ} (hn : n ≤ rs.members.size) {id : RealmId}
    (hid : Numbers n id) (symbol : Symbol) (element : FieldType) (length : Nat) :
    Relaxes n (rs.arrayType id symbol element length)
      (rs.relax.arrayType id symbol element.relax length) ValueType.relax := by
  rw [arrayType, arrayType, relax_realm hn hid]
  exact internSchema_relaxes hn hid symbol
    ((rs.realm id).makeArraySchema_relaxes .value element length)

theorem structType_relaxes {n : Nat} {rs : Realms μ} (hn : n ≤ rs.members.size) {id : RealmId}
    (hid : Numbers n id) (name : String) (drafts : List FieldDraft) :
    Relaxes n (rs.structType id name drafts)
      (rs.relax.structType id name (drafts.map FieldDraft.relax)) StructType.relax := by
  intro s rs'' hrun
  rw [structType] at hrun ⊢
  rw [relax_realm hn hid]
  rcases hbuild : rs.build ((rs.realm id).makeSchema .struct drafts) with ⟨e | schema, rs'⟩
  · rw [hbuild] at hrun
    cases hrun
  · rw [hbuild] at hrun
    cases hrun
    obtain ⟨hbuild', hn'⟩ := build_relaxes hn ((rs.realm id).makeSchema_relaxes .struct drafts)
      schema rs' hbuild
    rw [hbuild']
    refine ⟨?_, hn'⟩
    dsimp only
    rw [relax_realm hn' hid]
    rfl

theorem attach_relaxes {n : Nat} {rs : Realms μ} (hn : n ≤ rs.members.size) {id : RealmId}
    (hid : Numbers n id) (t : ValueType) (added : MethodTable μ) :
    Relaxes n (rs.attach id t added) (rs.relax.attach id t.relax added) fun done => done := by
  intro _ rs' hrun
  rw [attach] at hrun ⊢
  rw [relax_realm hn hid, Realm.relax]
  cases hattach : (rs.realm id).registry.attach t added with
  | error e =>
      rw [hattach] at hrun
      cases hrun
  | ok registry =>
      rw [hattach] at hrun
      cases hrun
      rw [Registry.relax_attach _ hattach]
      refine ⟨?_, ?_⟩
      · rw [← relax_setRegistry]
      · simpa [setRegistry] using hn

/-- Calls of methods correspond if what runs their bodies does. -/
theorem callMethod_relaxes {n : Nat} {rs : Realms μ} (hn : n ≤ rs.members.size)
    {invoke : μ → Realm μ → Instance → List Value → Build Value}
    (hinvoke : ∀ body realm receiver args, (invoke body realm receiver args).Relaxes
      (invoke body realm.relax receiver.relax (args.map Value.relax)) Value.relax)
    {id : RealmId} (hid : Numbers n id) (receiver : Instance) (name : String)
    (args : List Value) :
    Relaxes n (rs.callMethod invoke id receiver name args)
      (rs.relax.callMethod invoke id receiver.relax name (args.map Value.relax)) Value.relax := by
  rw [callMethod, callMethod, relax_realm hn hid, Realm.relax_methodOf]
  cases (rs.realm id).methodOf receiver name with
  | error e =>
      intro v rs' hrun
      cases hrun
  | ok body => exact build_relaxes hn (hinvoke body (rs.realm id) receiver args)

theorem callBound_relaxes {n : Nat} {rs : Realms μ} (hn : n ≤ rs.members.size)
    {invoke : μ → Realm μ → Instance → List Value → Build Value}
    (hinvoke : ∀ body realm receiver args, (invoke body realm receiver args).Relaxes
      (invoke body realm.relax receiver.relax (args.map Value.relax)) Value.relax)
    {id : RealmId} (hid : Numbers n id) (m : BoundMethod μ) (args : List Value) :
    Relaxes n (rs.callBound invoke id m args)
      (rs.relax.callBound invoke id m.relax (args.map Value.relax)) Value.relax := by
  rw [callBound, callBound, relax_realm hn hid]
  exact build_relaxes hn (hinvoke m.body (rs.realm id) m.receiver args)

end Realms

end ValueTypes
