import ValueTypes.Proofs.Definition.Fingerprint
import ValueTypes.Proofs.World.Changes
import ValueTypes.Proofs.World.Registration

/-! Fingerprints in every run. Registered types and schemas store the fingerprints that the hash
functions of the run give, so comparing fingerprints before fields never tells equivalent schemas
apart. -/

namespace ValueTypes

variable {μ α : Type}

/-! ### Hash functions stay -/

namespace Realms

theorem build_hashing (rs : Realms μ) (b : Build α) : (rs.build b).2.hashing = rs.hashing := by
  rw [build]
  split <;> rfl

theorem intern_hashing (rs : Realms μ) (id : RealmId) (d : Draft) :
    (rs.intern id d).2.hashing = rs.hashing := by
  rw [intern]
  split <;> rfl

theorem internSchema_hashing (rs : Realms μ) (id : RealmId) (symbol : Symbol)
    (schema : Build Schema) : (rs.internSchema id symbol schema).2.hashing = rs.hashing := by
  have hbuild := rs.build_hashing schema
  rw [internSchema]
  cases hrun : rs.build schema with
  | mk result rs' =>
      rw [hrun] at hbuild
      cases result with
      | error e => exact hbuild
      | ok schema => exact (rs'.intern_hashing id ⟨symbol, schema⟩).trans hbuild

theorem structType_hashing (rs : Realms μ) (id : RealmId) (name : String)
    (drafts : List FieldDraft) : (rs.structType id name drafts).2.hashing = rs.hashing := by
  have hbuild := rs.build_hashing ((rs.realm id).makeSchema .struct drafts)
  rw [structType]
  cases hrun : rs.build ((rs.realm id).makeSchema .struct drafts) with
  | mk result rs' =>
      rw [hrun] at hbuild
      cases result with
      | error e => exact hbuild
      | ok schema => exact hbuild

theorem attach_hashing (rs : Realms μ) (id : RealmId) (t : ValueType) (added : MethodTable μ) :
    (rs.attach id t added).2.hashing = rs.hashing := by
  rw [attach]
  split <;> rfl

end Realms

/-- No operation changes the hash functions. -/
theorem Operation.run_hashing (rs : Realms μ) (op : Operation μ) :
    (op.run rs).2.hashing = rs.hashing := by
  cases op with
  | newSymbol description => rfl
  | newTable => rfl
  | symbolFor table key => rfl
  | newRealm config table => rfl
  | makeSchema id kind drafts => exact rs.build_hashing _
  | makeArraySchema id kind element length => exact rs.build_hashing _
  | intern id d => exact rs.intern_hashing id d
  | valueType id symbol drafts => exact rs.internSchema_hashing id symbol _
  | arrayType id symbol element length => exact rs.internSchema_hashing id symbol _
  | structType id name drafts => exact rs.structType_hashing id name drafts
  | attach id t methods => exact rs.attach_hashing id t methods
  | definitions id => rfl
  | newRecord entries => exact rs.build_hashing (Build.newRecord entries)
  | construct t source => exact rs.build_hashing _
  | constructStruct s source => exact rs.build_hashing _
  | coerce t v => exact rs.build_hashing _
  | setProperty target name v => exact rs.build_hashing _
  | inspect x => rfl

/-! ### Stored fingerprints -/

/-- Whether all realms hash with the functions that they share, and registered types store the
fingerprints that these give. -/
structure Realms.Hashed (rs : Realms μ) : Prop where
  hashing : ∀ realm ∈ rs.members, realm.registry.hashing = rs.hashing
  fingerprint : ∀ realm ∈ rs.members, ∀ t ∈ realm.registry.definitions,
    t.fingerprint = rs.hashing.definition t.symbol.id (t.layout.fingerprint rs.hashing)

theorem Realms.Hashed.changes {rs rs' : Realms μ} (hrs : rs.Hashed) {op : Operation μ}
    (h : op.Changes rs rs') (hsame : rs'.hashing = rs.hashing) : rs'.Hashed where
  hashing realm' hmem := by
    obtain ⟨k, hk⟩ := Array.mem_iff_getElem?.mp hmem
    rcases h.realm_cases hk with ⟨realm, hrealm, hgrows⟩ | ⟨_, _, hnew⟩
    · rw [hgrows.hashing, hsame]
      exact hrs.hashing realm (Array.mem_of_getElem? hrealm)
    · rw [hnew, hsame]
      rfl
  fingerprint realm' hmem t ht := by
    rw [hsame]
    obtain ⟨k, hk⟩ := Array.mem_iff_getElem?.mp hmem
    rcases h.realm_cases hk with ⟨realm, hrealm, hgrows⟩ | ⟨_, _, hnew⟩
    · have hmem := Array.mem_of_getElem? hrealm
      rcases hgrows.definitions with hdefinitions | ⟨d, hnext⟩
      · exact hrs.fingerprint realm hmem t (hdefinitions ▸ ht)
      · rw [hnext] at ht
        rcases List.mem_append.mp ht with ht | ht
        · exact hrs.fingerprint realm hmem t ht
        · rw [List.mem_singleton.mp ht, ← hrs.hashing realm hmem]
          rfl
    · rw [hnew] at ht
      obtain ⟨kind, _, rfl⟩ := List.mem_map.mp ht
      rfl

namespace World

/-- What is asked of the schemas of a run that hashes with given functions. -/
def hashed (hashing : Hashing) : Demands where
  schema schema := schema.fingerprint = hashing.ofFields schema.fields

/-- All types and schemas of a run store the fingerprints that its hash functions give. The
induction is on the run: the policies of realms hash with the functions that the run began with. -/
theorem Reachable.sound_hashed {w : World μ} (hw : w.Reachable) :
    w.realms.Hashed ∧ w.Sound (hashed w.realms.hashing) := by
  obtain ⟨hashing, hrun⟩ := hw
  have hrun : w.realms.hashing = hashing ∧ w.realms.Hashed ∧ w.Sound (hashed hashing) := by
    induction hrun with
    | refl =>
        refine ⟨rfl, ⟨fun realm h => ?_, fun realm h => ?_⟩, .start hashing⟩
        · simp [World.start] at h
        · simp [World.start] at h
    | @step w run op admits ih =>
        obtain ⟨hsame, hhashed, hsound⟩ := ih
        have hstep := op.run_hashing w.realms
        refine ⟨hstep.trans hsame, hhashed.changes (op.run_changes _) hstep, ?_⟩
        refine hsound.perform admits ⟨fun id hid => ?_, fun _ _ _ _ _ _ => trivial⟩
        intro kind drafts depth fields _ _ _
        have hpolicy : (w.realms.realm id).policy.hashing = hashing := by
          rw [← hsame]
          exact hhashed.hashing _ (Realms.realm_mem hid)
        rw [hpolicy]
        rfl
  rw [hrun.1]
  exact hrun.2

/-- The types of a run store the fingerprints that its hash functions give. -/
theorem Reachable.fits {w : World μ} (hw : w.Reachable) :
    w.realms.hashing.Fits fun type =>
      (w.realms.scope (hashed w.realms.hashing)).Sound (.type type) := by
  obtain ⟨hhashed, hsound⟩ := hw.sound_hashed
  have hschema : ∀ t schema, (w.realms.scope (hashed w.realms.hashing)).Sound (.type (.value t)) →
      t.layout = .composite schema →
        (w.realms.scope (hashed w.realms.hashing)).Sound (.schema schema) := by
    intro t schema ht hlayout
    exact hsound.realms.closed t schema ht.type_of hlayout
  refine ⟨fun t ht => ?_, fun t schema ht hlayout => (hschema t schema ht hlayout).schema_made,
    fun t schema ht hlayout => (hschema t schema ht hlayout).types⟩
  obtain ⟨realm, hmem, ht⟩ := ht.type_of
  exact hhashed.fingerprint realm hmem t ht

theorem Present.fields_sound {w : World μ} (hw : w.Reachable) {schema : Schema}
    (h : w.Present (.schema schema)) :
    ∀ f ∈ schema.fields, (w.realms.scope (hashed w.realms.hashing)).Sound (.type f.type) :=
  (hw.sound_hashed.2.present h).types

theorem Present.schema_hashed {w : World μ} (hw : w.Reachable) {schema : Schema}
    (h : w.Present (.schema schema)) :
    schema.fingerprint = w.realms.hashing.ofFields schema.fields :=
  (hw.sound_hashed.2.present h).schema_made

/-- Schemas are equivalent exactly if the names and shapes of their fields are the same. -/
theorem Present.equivalent_iff_shapes {w : World μ} (hw : w.Reachable) {a b : Schema}
    (ha : w.Present (.schema a)) (hb : w.Present (.schema b)) :
    a.equivalent b = true ↔ fieldShapes a.fields = fieldShapes b.fields := by
  have hwithin : ∀ {type : FieldType},
      (w.realms.scope (hashed w.realms.hashing)).Sound (.type type) →
        type.Within w.realms.scope.type := by
    rintro type htype t rfl
    exact htype.type_of
  apply fieldsEquivalent_iff_shape
  intro f hf g hg
  apply FieldType.equivalent_iff_shape hw.sound.realms.faithful
  · exact hwithin (ha.fields_sound hw f hf)
  · exact hwithin (hb.fields_sound hw g hg)

theorem Present.fingerprint_of_shapes {w : World μ} (hw : w.Reachable) {a b : Schema}
    (ha : w.Present (.schema a)) (hb : w.Present (.schema b))
    (h : fieldShapes a.fields = fieldShapes b.fields) : a.fingerprint = b.fingerprint := by
  rw [ha.schema_hashed hw, hb.schema_hashed hw]
  apply Hashing.ofFields_of_shapes h
  intro f hf g hg
  exact FieldType.fingerprint_of_shape hw.fits f.type g.type (ha.fields_sound hw f hf)
    (hb.fields_sound hw g hg)

/-- Equality compares fingerprints first, and loses nothing by that. -/
theorem Present.same_iff {w : World μ} (hw : w.Reachable) {a b : Schema}
    (ha : w.Present (.schema a)) (hb : w.Present (.schema b)) :
    a.same b = true ↔ a.equivalent b = true := by
  rw [Schema.same, Bool.and_eq_true, beq_iff_eq, and_iff_right_iff_imp]
  intro h
  exact ha.fingerprint_of_shapes hw hb ((ha.equivalent_iff_shapes hw hb).mp h)

theorem Present.fingerprint_of_equivalent {w : World μ} (hw : w.Reachable) {t u : ValueType}
    (ht : w.Present (.type (.value t))) (hu : w.Present (.type (.value u)))
    (h : t.equivalent u = true) : t.fingerprint = u.fingerprint := by
  have hsound := hw.sound_hashed.2
  have hshape := (ValueType.equivalent_iff_shape hw.sound.realms.faithful
    (hsound.present ht).type_of (hsound.present hu).type_of).mp h
  apply FieldType.fingerprint_of_shape hw.fits (.value t) (.value u) (hsound.present ht)
    (hsound.present hu)
  rw [FieldType.shape_value, FieldType.shape_value, hshape]

/-- Schemas of any realms and kinds, whatever their static flags and defaults, are equal exactly if
they are equivalent, so the fingerprints that are compared first never tell equivalent schemas
apart. Equality is an equivalence relation, equal schemas are hashed alike by every hasher, and
equivalent value types have one fingerprint, be they of different realms. -/
theorem schemas_same_iff_equivalent {w : World μ} (hw : w.Reachable) :
    (∀ a b, w.Present (.schema a) → w.Present (.schema b) →
      (a.same b = true ↔ a.equivalent b = true)) ∧
    Equivalence (fun a b : { s : Schema // w.Present (.schema s) } => a.1.same b.1 = true) ∧
    (∀ a b : Schema, a.same b = true → ∀ (η : Type) (write : η → UInt64 → η) (state : η),
      a.hash write state = b.hash write state) ∧
    ∀ t u : ValueType, w.Present (.type (.value t)) → w.Present (.type (.value u)) →
      t.equivalent u = true → t.fingerprint = u.fingerprint := by
  have hshapes : ∀ a b : { s : Schema // w.Present (.schema s) },
      a.1.same b.1 = true ↔ fieldShapes a.1.fields = fieldShapes b.1.fields := by
    intro a b
    rw [a.2.same_iff hw b.2, a.2.equivalent_iff_shapes hw b.2]
  refine ⟨fun a b ha hb => ha.same_iff hw hb,
    ⟨fun a => ?_, fun {a b} h => ?_, fun {a b c} h h' => ?_⟩, ?_,
    fun t u ht hu => ht.fingerprint_of_equivalent hw hu⟩
  · exact (hshapes a a).mpr rfl
  · exact (hshapes b a).mpr ((hshapes a b).mp h).symm
  · exact (hshapes a c).mpr (((hshapes a b).mp h).trans ((hshapes b c).mp h'))
  · intro a b h η write state
    rw [Schema.same, Bool.and_eq_true, beq_iff_eq] at h
    rw [Schema.hash, Schema.hash, h.1]

namespace Sample

/-- Hash functions that add up what they are given. -/
def adding : Hashing where
  kind kind := .ofNat kind.index
  struct id := .ofNat id
  fields fields := fields.foldl (fun hash (field : String × UInt64) => hash + field.2)
    (.ofNat fields.length)
  definition symbol layout := .ofNat symbol + layout

/-- A type without fields, of which both realms have one under the same symbol. -/
def sign (realm : RealmId) : ValueType :=
  ⟨13, realm, ⟨25, some "E"⟩, .composite ⟨.value, [], 0, 1⟩, .strict, 25⟩

/-- A world with two realms, and a schema in each for a field of that type: for values, where the
field is static, and for structs. -/
def signs : World Unit :=
  start adding
    |>.perform .newTable
    |>.perform (.newRealm {} 0)
    |>.perform (.newRealm {} 0)
    |>.perform (.valueType 1 ⟨25, some "E"⟩ [])
    |>.perform (.valueType 2 ⟨25, some "E"⟩ [])
    |>.perform (.makeSchema 1 .value [⟨"e", .value (sign 1), true, none⟩])
    |>.perform (.makeSchema 2 .struct [⟨"e", .value (sign 2), false, none⟩])

theorem signs_reachable : signs.Reachable := by
  refine ⟨adding, .step (.step (.step (.step (.step (.step (.step .refl _ ?_) _ ?_) _ ?_) _ ?_)
    _ ?_) _ ?_) _ ?_⟩
  · exact List.forall_mem_nil _
  · exact List.forall_mem_singleton.mpr (.given (gave_at 0 0 rfl rfl))
  · exact List.forall_mem_singleton.mpr (.given (gave_at 1 0 rfl rfl))
  · exact List.forall_mem_singleton.mpr (.given (gave_at 1 0 rfl rfl))
  · exact List.forall_mem_singleton.mpr (.given (gave_at 1 0 rfl rfl))
  · exact List.forall_mem_cons.mpr ⟨.given (gave_at 3 0 rfl rfl),
      List.forall_mem_singleton.mpr (.given (gave_at 1 0 rfl rfl))⟩
  · exact List.forall_mem_cons.mpr ⟨.given (gave_at 3 0 rfl rfl),
      List.forall_mem_singleton.mpr (.given (gave_at 1 0 rfl rfl))⟩

/-- The schemas are equal, though they are of different realms and kinds, and differ in a flag and a
default, and the types of their fields have one fingerprint. -/
theorem schemas_same_iff_equivalent_signs : signs.Reachable ∧
    signs.Present (.schema ⟨.value, [⟨"e", .value (sign 1), true,
      some (.inst ⟨1, sign 1, []⟩)⟩], 26, 2⟩) ∧
    signs.Present (.schema ⟨.struct, [⟨"e", .value (sign 2), false, none⟩], 26, 2⟩) ∧
    Schema.same ⟨.value, [⟨"e", .value (sign 1), true, some (.inst ⟨1, sign 1, []⟩)⟩], 26, 2⟩
      ⟨.struct, [⟨"e", .value (sign 2), false, none⟩], 26, 2⟩ = true ∧
    (sign 1).fingerprint = (sign 2).fingerprint := by
  have hfirst : signs.Present (.schema ⟨.value, [⟨"e", .value (sign 1), true,
      some (.inst ⟨1, sign 1, []⟩)⟩], 26, 2⟩) := .given (gave_at 1 0 rfl rfl)
  have hsecond : signs.Present (.schema ⟨.struct, [⟨"e", .value (sign 2), false, none⟩], 26, 2⟩) :=
    .given (gave_at 0 0 rfl rfl)
  obtain ⟨hsame, _, _, htypes⟩ := schemas_same_iff_equivalent signs_reachable
  exact ⟨signs_reachable, hfirst, hsecond, (hsame _ _ hfirst hsecond).mpr (by decide),
    htypes (sign 1) (sign 2) (.given (gave_at 3 0 rfl rfl)) (.given (gave_at 2 0 rfl rfl))
      (by decide)⟩

end Sample

end World

end ValueTypes
