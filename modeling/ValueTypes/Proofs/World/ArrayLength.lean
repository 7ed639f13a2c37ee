import Mathlib.Data.List.Nodup
import ValueTypes.Proofs.World.Inhabited

/-! The length of arrays. An array type is asked for with a static field `length`, but interning
looks at the names and types of fields only, so it can be answered with an earlier type whose
`length` is another field. The instances of the answer have the length asked for exactly if its own
`length` is static with that default. -/

namespace ValueTypes

variable {μ : Type}

/-! ### What is asked for -/

/-- The last field of an array. -/
def lengthDraft (length : Nat) (lengthType : ValueType) : FieldDraft :=
  ⟨"length", .value lengthType, true, some (.int length)⟩

theorem lengthDraft_mem (element : FieldType) (length : Nat) (lengthType : ValueType) :
    lengthDraft length lengthType ∈ arrayFields element length lengthType :=
  List.mem_append_right _ (List.mem_singleton.mpr rfl)

theorem uint32_accepts {n : Nat} (h : n < 2 ^ 32) : PrimitiveKind.uint32.Accepts (.int n) := by
  refine .integer rfl ⟨?_, ?_⟩
  · exact Int.natCast_nonneg n
  · change (n : Int) ≤ 4294967295
    omega

/-- The schema of an array has a static field `length` whose default is the length. -/
theorem exists_length_field {Θ : Scope} {element : FieldType} {n : Nat} (hn : n < 2 ^ 32)
    {lengthType : ValueType} (hlength : lengthType.layout = .primitive .uint32)
    {fields : List Field}
    (h : List.Forall₂ (FieldDraft.Makes Θ) (arrayFields element n lengthType) fields) :
    ∃ f ∈ fields, f.name = "length" ∧ f.type = .value lengthType ∧ f.isStatic = true ∧
      f.default = some (.int n) := by
  rcases List.mem_iff_getElem?.mp (lengthDraft_mem element n lengthType) with ⟨k, hk⟩
  rcases exists_right_of_forall₂ h hk with ⟨f, hf, hmakes⟩
  exact ⟨f, List.mem_of_getElem? hf, hmakes.name, hmakes.type, hmakes.isStatic,
    hmakes.kept _ rfl (.primitive hlength (uint32_accepts hn))⟩

/-! ### What is answered -/

theorem Schema.eq_of_name {schema : Schema} (hnodup : schema.names.Nodup) {f g : Field}
    (hf : f ∈ schema.fields) (hg : g ∈ schema.fields) (h : f.name = g.name) : f = g :=
  List.inj_on_of_nodup_map hnodup hf hg h

theorem Schema.field?_of_mem {schema : Schema} (hnodup : schema.names.Nodup) {f : Field}
    (hf : f ∈ schema.fields) : schema.field? f.name = some f := by
  cases hfind : schema.field? f.name with
  | none =>
      have hne := List.find?_eq_none.mp hfind f hf
      exact absurd (beq_self_eq_true _) hne
  | some g =>
      have hname : g.name = f.name := by
        simpa using List.find?_some (p := fun g : Field => g.name == f.name) hfind
      have hg := List.mem_of_find?_eq_some hfind
      rw [eq_of_name hnodup hg hf hname]

/-- A type that answers a draft has a field for each field of the draft, of the same name and of
the same registered type. -/
theorem Registry.WellFormed.exists_field {r : Registry μ} (hr : r.WellFormed) {d : Draft}
    {t : ValueType} (ht : t ∈ r.definitions) (hshape : t.shape = d.shape) {f : Field}
    (hf : f ∈ d.schema.fields) {u : ValueType} (hu : u ∈ r.definitions)
    (htype : f.type = .value u) :
    ∃ schema, t.layout = .composite schema ∧
      ∃ g ∈ schema.fields, g.name = f.name ∧ g.type = .value u := by
  rcases exists_schema_of_shape hshape with ⟨schema, hlayout, _, hfields⟩
  rw [fieldShapes_eq_map, fieldShapes_eq_map] at hfields
  have hmem := List.mem_map_of_mem (f := fun g : Field => (g.name, g.type.shape)) hf
  rw [← hfields] at hmem
  rcases List.mem_map.mp hmem with ⟨g, hg, heq⟩
  rcases Prod.mk.inj heq with ⟨hname, hgshape⟩
  rcases hr.closed t ht schema hlayout g hg with ⟨v, hv, hgtype, _⟩
  rw [hgtype, htype, FieldType.shape_value, FieldType.shape_value] at hgshape
  rw [hr.canonical v hv u hu hgshape] at hgtype
  exact ⟨schema, hlayout, g, hg, hname, hgtype⟩

/-- The type that answers a request for an array has a field `length` of the right type; if it is
new, the field is the one that was asked for. -/
theorem Realms.arrayType_answer {rs : Realms μ} (hrs : rs.Sound) {id : RealmId}
    (hid : rs.scope.realm id) (symbol : Symbol) {element : FieldType}
    (helement : rs.scope.Sound (.type element)) {n : Nat} (hn : n < 2 ^ 32) {t : ValueType}
    (ht : (rs.arrayType id symbol element n).1 = .ok t) :
    t ∈ ((rs.arrayType id symbol element n).2.realm id).registry.definitions ∧
    ∃ schema, t.layout = .composite schema ∧ ∃ f ∈ schema.fields, f.name = "length" ∧
      f.type = .value ((rs.realm id).primitive .uint32) ∧
      (t ∉ (rs.realm id).registry.definitions →
        f.isStatic = true ∧ f.default = some (.int n)) := by
  have hprimitive := (hrs.registry hid).primitive_mem .uint32
  have hadvance := build_advances hrs (SchemaPolicy.makeSchema_ensures hrs.closed
    ((rs.realm id).policy.meets_nothing rs) .value
    (arrayFields_sound helement n (primitive_sound hrs hid .uint32)))
  rcases internSchema_eq_ok ht with ⟨schema, rs', hbuild, hintern⟩
  rw [Realm.makeArraySchema, Realm.makeSchema] at hbuild
  rw [hbuild] at hadvance
  rcases hadvance.answer schema rfl with ⟨hmembers, hschema, hmakes⟩
  have hsame : rs'.realm id = rs.realm id := by
    rw [realm, realm, hmembers]
  have hid' := hadvance.grows.realm hid
  rw [arrayType, hintern] at ht ⊢
  have hadvance' := intern_advances hadvance.sound hid' (d := ⟨symbol, schema⟩) hschema
  have hinterned := hadvance'.answer t ht
  have hwf := hadvance'.sound.registry hinterned.realm
  have hgrows := hadvance'.grows.definitions hid'
  rw [hsame] at hgrows
  -- Here `f` is the field that was asked for and `g` the one of the answer. Their names and types
  -- agree in any case, their defaults only if the answer is new.
  rcases exists_length_field hn rfl hmakes with ⟨f, hf, hname, htype, hstatic, hdefault⟩
  obtain ⟨other, hlayout, g, hg, hgname, hgtype⟩ := hwf.exists_field hinterned.resolves.mem
    hinterned.resolves.shape hf (hgrows.subset hprimitive) htype
  refine ⟨hinterned.resolves.mem, other, hlayout, g, hg, hgname.trans hname, hgtype, fun hnew => ?_⟩
  rcases intern_layout hadvance.sound hid' (d := ⟨symbol, schema⟩) hschema ht with hold | hlayout'
  · rw [hsame] at hold
    exact absurd hold hnew
  · rw [hlayout] at hlayout'
    cases hlayout'
    rw [Schema.eq_of_name hschema.names hg hf hgname]
    exact ⟨hstatic, hdefault⟩

/-! ### Instances with other values -/

namespace World

/-- Callers can go on to hold all definitions of a realm that they hold. -/
theorem exists_stocks {w : World μ} (hw : w.Reachable) {id : RealmId}
    (hid : w.Holds (.realm id)) :
    ∃ w', w.Leads w' ∧ w'.Stocks (w.realms.realm id).registry := by
  have hrun : w.Leads (w.perform (.definitions id)) :=
    .step .refl _ (List.forall_mem_singleton.mpr hid)
  have hanswer : ((Operation.definitions id).run w.realms).1 =
      .ok ((w.realms.realm id).registry.definitions.map fun t => .type (.value t)) := rfl
  exact ⟨_, hrun, hw.leads hrun, fun t ht => gave_of_run hanswer _ (List.mem_map_of_mem ht)⟩

/-- Where a field is not static with a given default, some instance has another value there, if the
type of the field has another. -/
theorem Stocks.exists_get?_ne {w : World μ} {r : Registry μ} (hw : w.Stocks r)
    (hr : r.WellFormed) {t : ValueType} (ht : t ∈ r.definitions) {schema : Schema}
    (hlayout : t.layout = .composite schema) {f : Field} (hf : f ∈ schema.fields)
    {v other : Value} (hne : other ≠ v) (hplain : other.Plain)
    (hdefined : other.isUndefined = false) (htyped : other.HasType f.type)
    (h : ¬ (f.isStatic = true ∧ f.default = some v)) :
    ∃ w' i, w.Leads w' ∧ w'.Gave (.value (.inst i)) ∧ i.type = t ∧ i.get? f.name ≠ some v := by
  have hschema := hw.schema ht hlayout
  have hprovides : ∀ g ∈ schema.fields, ∀ w : World μ, w.Stocks r → w.Provides g.type := by
    intro g hg
    rcases hr.closed t ht schema hlayout g hg with ⟨u, hu, htype, _⟩
    exact Stocks.provides hr g.type ⟨u, hu, htype⟩
  rcases exists_entries hschema.names hprovides hw with ⟨w', entries, hrun, hheld, hsupplies⟩
  -- The other value is put first, so that a look-up finds it before the one that was there.
  have hsupplies' : Supplies ((f.name, other) :: entries) schema.fields := by
    intro g hg
    by_cases hname : g.name = f.name
    · rw [Schema.eq_of_name hschema.names hg hf hname]
      exact ⟨other, List.lookup_cons_self, hdefined, htyped⟩
    · rw [List.lookup_cons, beq_false_of_ne hname]
      exact hsupplies g hg
  obtain ⟨w'', id, hrun', hgave⟩ := (hw.leads hrun).construct ht hlayout
    (List.forall_mem_cons.mpr ⟨.plain hplain, hheld⟩) hsupplies'
  refine ⟨w'', _, hrun.trans hrun', hgave, rfl, fun hget => h ?_⟩
  rcases List.mem_iff_getElem?.mp hf with ⟨k, hk⟩
  rw [Instance.get?_eq hlayout hschema.names hk, List.getElem?_map, hk, Option.map_some,
    Option.some.injEq, Field.filled] at hget
  cases hstatic : f.isStatic with
  | true =>
      rcases Option.isSome_iff_exists.mp ((hschema.field f hf).fixed hstatic) with ⟨d, hd⟩
      rw [hstatic, if_pos rfl, hd] at hget
      rw [hd]
      exact ⟨rfl, congrArg some hget⟩
  | false =>
      rw [hstatic, List.lookup_cons_self] at hget
      exact absurd hget hne

/-- The type that answers a request for an array of `n` elements has a field `length`. All its
instances, whatever they come about from, have the length `n` exactly if that field is static with
the default `n`, and so it is unless the type was registered before. -/
theorem arrayType_length {w : World μ} (hw : w.Reachable) {id : RealmId} {symbol : Symbol}
    {element : FieldType} {n : Nat} (hn : n < 2 ^ 32)
    (hop : w.Admits (.arrayType id symbol element n)) {t : ValueType}
    (ht : (w.realms.arrayType id symbol element n).1 = .ok t) :
    ∃ schema f, t.layout = .composite schema ∧ schema.field? "length" = some f ∧
      f.type = .value ((w.realms.realm id).primitive .uint32) ∧
      ((∀ w' i, (w.perform (.arrayType id symbol element n)).Leads w' →
          w'.Gave (.value (.inst i)) → i.type = t → i.get? "length" = some (.int n)) ↔
        f.isStatic = true ∧ f.default = some (.int n)) ∧
      (t ∉ (w.realms.realm id).registry.definitions →
        f.isStatic = true ∧ f.default = some (.int n)) := by
  have hsound := hw.sound
  have hid : w.realms.scope.realm id :=
    Operation.realm_of_uses fun x hx => hsound.holds (hop x hx)
  have helement := hsound.holds (hop (.type element) (by simp [Operation.uses]))
  obtain ⟨hmem, schema, hlayout, f, hf, hname, htype, hfresh⟩ :=
    Realms.arrayType_answer hsound.realms hid symbol helement hn ht
  have hrun : w.Leads (w.perform (.arrayType id symbol element n)) := .step .refl _ hop
  have hreachable := hw.leads hrun
  have hrealms := hreachable.sound.realms
  have hid' := (hsound.run_advances hop).grows.realm hid
  have hnodup := (hrealms.closed t schema (Realms.type_of_realm hid' hmem) hlayout).names
  refine ⟨schema, f, hlayout, ?_, htype, ⟨fun hall => ?_, ?_⟩, hfresh⟩
  · rw [← hname]
    exact Schema.field?_of_mem hnodup hf
  · by_contra hnot
    have hholds := (hop (.realm id) (List.mem_cons_self ..)).leads hrun
    rcases exists_stocks hreachable hholds with ⟨w', hrun', hstocks⟩
    -- An instance that was given another length refutes that all have the length `n`.
    have hother : PrimitiveKind.uint32.Accepts (.int (if n = 0 then 1 else 0 : Nat)) :=
      uint32_accepts (by split <;> decide)
    have hne : Value.int (if n = 0 then 1 else 0 : Nat) ≠ .int n := by
      intro heq
      have hlength := Int.ofNat.inj (Value.int.inj heq)
      split at hlength <;> omega
    obtain ⟨w'', i, hrun'', hgave, hi, hget⟩ := hstocks.exists_get?_ne
      (hrealms.registry hid') hmem hlayout hf hne hother.plain hother.isUndefined
      (by rw [htype]; exact .primitive rfl hother) hnot
    rw [hname] at hget
    exact hget (hall w'' i (hrun'.trans hrun'') hgave hi)
  · rintro ⟨hstatic, hdefault⟩ w' i hrun' hgave rfl
    have hsound' := (hreachable.leads hrun').sound
    obtain ⟨d, hd, hget⟩ := (hsound'.gave _ hgave).get?_static hsound'.realms.closed hlayout hf
      hstatic
    rw [hname] at hget
    rw [hget, ← hd, hdefault]

namespace Sample

/-- The seventh type of the first realm. -/
def word : ValueType :=
  ⟨7, 1, ⟨7, some "uint32"⟩, .primitive .uint32, .strict, 0⟩

/-- A type with the fields of an array of one element, where `length` is given. -/
def listed (isStatic : Bool) (default : Option Value) : ValueType :=
  ⟨13, 1, ⟨13, some "C"⟩, .composite ⟨.value, [⟨"0", .value byte, false, none⟩,
    ⟨"length", .value word, isStatic, default⟩], 0, 1⟩, .strict, 0⟩

/-- Where a value type was made first, an array of one element is of that type, and has the
length 0. -/
def lists : World Unit :=
  ((schemas.perform (.valueType 1 ⟨13, some "C"⟩
    [⟨"0", .value byte, false, none⟩, ⟨"length", .value word, false, none⟩])).perform
    (.arrayType 1 ⟨13, some "C"⟩ (.value byte) 1)).perform
    (.construct (listed false none) none)

theorem lists_reachable : lists.Reachable := by
  refine schemas_reachable.leads (.step (.step (.step .refl _ ?_) _ ?_) _ ?_)
  · exact List.forall_mem_cons.mpr ⟨.given (gave_at 3 0 rfl rfl),
      List.forall_mem_cons.mpr ⟨.given (gave_at 2 1 rfl rfl),
        List.forall_mem_singleton.mpr (.given (gave_at 2 6 rfl rfl))⟩⟩
  · exact List.forall_mem_cons.mpr ⟨.given (gave_at 4 0 rfl rfl),
      List.forall_mem_singleton.mpr (.given (gave_at 3 1 rfl rfl))⟩
  · exact List.forall_mem_singleton.mpr (.given (gave_at 0 0 rfl rfl))

/-- The length of an array is not always the one that was asked for. -/
theorem arrayType_length_taken : ¬ ∀ (w : World Unit) id symbol element n t, w.Reachable →
    n < 2 ^ 32 → w.Answered (.arrayType id symbol element n) [.type (.value t)] →
    ∀ i : Instance, w.Gave (.value (.inst i)) → i.type = t →
      i.get? "length" = some (.int n) := by
  intro h
  have hlength := h lists 1 ⟨13, some "C"⟩ (.value byte) 1 (listed false none) lists_reachable
    (by decide) (List.mem_of_getElem? (i := 1) rfl)
    ⟨1, listed false none, [.int 0, .int 0]⟩ (gave_at 0 0 rfl rfl) rfl
  have hzero : Instance.get? ⟨1, listed false none, [.int 0, .int 0]⟩ "length" =
      some (.int 0) := rfl
  rw [hzero] at hlength
  cases hlength

/-- Where the type is new, its `length` is static, and has the default that was asked for. -/
theorem arrayType_length_fresh : schemas.Reachable ∧ 1 < 2 ^ 32 ∧
    schemas.Admits (.arrayType 1 ⟨13, some "C"⟩ (.value byte) 1) ∧
    (schemas.realms.arrayType 1 ⟨13, some "C"⟩ (.value byte) 1).1 =
      .ok (listed true (some (.int 1))) ∧
    ∃ f : Field, f.isStatic = true ∧ f.default = some (.int 1) ∧ ∀ w' i,
      (schemas.perform (.arrayType 1 ⟨13, some "C"⟩ (.value byte) 1)).Leads w' →
        w'.Gave (.value (.inst i)) → i.type = listed true (some (.int 1)) →
          i.get? "length" = some (.int 1) := by
  have hadmits : schemas.Admits (.arrayType 1 ⟨13, some "C"⟩ (.value byte) 1) :=
    List.forall_mem_cons.mpr ⟨.given (gave_at 3 0 rfl rfl),
      List.forall_mem_singleton.mpr (.given (gave_at 2 1 rfl rfl))⟩
  have hanswer : (schemas.realms.arrayType 1 ⟨13, some "C"⟩ (.value byte) 1).1 =
      .ok (listed true (some (.int 1))) := rfl
  obtain ⟨_, f, _, _, _, hiff, hfresh⟩ :=
    arrayType_length schemas_reachable (by decide) hadmits hanswer
  have hnew : listed true (some (.int 1)) ∉ (schemas.realms.realm 1).registry.definitions := by
    intro hmem
    have hid := List.mem_map_of_mem (f := ValueType.id) hmem
    revert hid
    decide
  exact ⟨schemas_reachable, by decide, hadmits, hanswer, f, (hfresh hnew).1, (hfresh hnew).2,
    hiff.mpr (hfresh hnew)⟩

end Sample

end World

end ValueTypes
