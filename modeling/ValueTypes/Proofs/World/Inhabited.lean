import ValueTypes.Proofs.Value.Conforms

/-! Every registered value type has values: whatever has happened, callers can go on to construct
an instance of it, from a record that gives each field a value of its type. -/

namespace ValueTypes

variable {μ : Type}

/-! ### Records that give every field a value -/

/-- Whether a record gives each of some fields a value of its type. -/
def Supplies (entries : List (String × Value)) (fields : List Field) : Prop :=
  ∀ f ∈ fields, ∃ v, entries.lookup f.name = some v ∧ v.isUndefined = false ∧ v.HasType f.type

/-- What a field has in an instance that is constructed from such a record. -/
def Field.filled (entries : List (String × Value)) (f : Field) : Value :=
  ((if f.isStatic then f.default else entries.lookup f.name)).getD .undefined

theorem readGiven_record (entries : List (String × Value)) (name : String) :
    readGiven (some (.record entries)) name =
      pure ((entries.lookup name).filter fun v => !v.isUndefined) := rfl

theorem resolveField_supplied {entries : List (String × Value)} {f : Field}
    (hfixed : f.isStatic = true → f.default.isSome) {v : Value}
    (hlookup : entries.lookup f.name = some v) (hdefined : v.isUndefined = false)
    (htyped : v.HasType f.type) (owner : String) (mode : CoercionMode) :
    resolveField f.isStatic f.default (readGiven (some (.record entries)) f.name)
      (fun v => f.type.coerce mode f.name v) (f.type.defaultValue owner f.name) =
        pure (f.filled entries) := by
  rw [Field.filled]
  cases hstatic : f.isStatic with
  | true =>
      rcases Option.isSome_iff_exists.mp (hfixed hstatic) with ⟨d, hd⟩
      rw [hd]
      rfl
  | false =>
      have hgiven : (some v).filter (fun v => !v.isUndefined) = some v := by
        rw [Option.filter_some, hdefined]
        rfl
      rw [readGiven_record, hlookup, hgiven]
      exact FieldType.coerce_of_hasType htyped mode f.name

theorem fillSlots_supplied {entries : List (String × Value)} {fields : List Field}
    (hfixed : ∀ f ∈ fields, f.isStatic = true → f.default.isSome)
    (h : Supplies entries fields) (owner : String) (mode : CoercionMode) :
    fillSlots fields owner mode (some (.record entries)) =
      pure (fields.map (Field.filled entries)) := by
  induction fields with
  | nil => rfl
  | cons f fields ih =>
      rcases h f (List.mem_cons_self ..) with ⟨v, hlookup, hdefined, htyped⟩
      have hfields := ih (fun g hg => hfixed g (List.mem_cons_of_mem f hg))
        fun g hg => h g (List.mem_cons_of_mem f hg)
      rw [fillSlots_cons, hfields, resolveField_supplied (hfixed f (List.mem_cons_self ..)) hlookup
        hdefined htyped]
      rfl

/-- Construction from such a record succeeds. -/
theorem ValueType.construct_supplied {t : ValueType} {schema : Schema}
    (hlayout : t.layout = .composite schema)
    (hfixed : ∀ f ∈ schema.fields, f.isStatic = true → f.default.isSome)
    {entries : List (String × Value)} (h : Supplies entries schema.fields) (σ : Store) :
    (t.construct (some (.record entries))).run σ =
      .ok (⟨σ.nextId, t, schema.fields.map (Field.filled entries)⟩,
        { σ with nextId := σ.nextId + 1 }) := by
  rw [construct, hlayout]
  dsimp only
  rw [fillSlots_supplied hfixed h]
  rfl

/-! ### Continuations -/

namespace World

/-- Whether callers hold all definitions of a registry. -/
structure Stocks (w : World μ) (r : Registry μ) : Prop where
  reachable : w.Reachable
  gave : ∀ t ∈ r.definitions, w.Gave (.type (.value t))

theorem Stocks.leads {w w' : World μ} {r : Registry μ} (h : w.Stocks r) (hrun : w.Leads w') :
    w'.Stocks r :=
  ⟨h.reachable.leads hrun, fun t ht => (h.gave t ht).leads hrun⟩

theorem Stocks.schema {w : World μ} {r : Registry μ} (h : w.Stocks r) {t : ValueType}
    (ht : t ∈ r.definitions) {schema : Schema} (hlayout : t.layout = .composite schema) :
    w.realms.scope.Sound (.schema schema) := by
  have hsound := h.reachable.sound
  exact hsound.realms.closed t schema (hsound.gave _ (h.gave t ht)).type_of hlayout

/-- An instance can be constructed from any record that gives each field a value of its type. -/
theorem Stocks.construct {w : World μ} {r : Registry μ} (h : w.Stocks r) {t : ValueType}
    (ht : t ∈ r.definitions) {schema : Schema} (hlayout : t.layout = .composite schema)
    {entries : List (String × Value)} (hheld : ∀ e ∈ entries, w.Holds (.value e.2))
    (hsupplies : Supplies entries schema.fields) :
    ∃ w' id, w.Leads w' ∧
      w'.Gave (.value (.inst ⟨id, t, schema.fields.map (Field.filled entries)⟩)) := by
  have hrun := ValueType.construct_supplied hlayout
    (fun f hf => ((h.schema ht hlayout).field f hf).fixed) hsupplies w.realms.store
  have hadmits : w.Admits (.construct t (some (.record entries))) := by
    refine List.forall_mem_cons.mpr ⟨.given (h.gave t ht), fun x hx => ?_⟩
    rcases List.mem_map.mp hx with ⟨e, he, rfl⟩
    exact hheld e he
  have hanswer : ((Operation.construct t (some (.record entries))).run w.realms).1 =
      .ok [.value (.inst ⟨w.realms.store.nextId, t,
        schema.fields.map (Field.filled entries)⟩)] := by
    rw [Operation.run, Operation.hand, Realms.build, hrun]
    rfl
  exact ⟨_, _, .step .refl _ hadmits, gave_of_run hanswer _ (List.mem_singleton.mpr rfl)⟩

/-- Whether callers can go on to hold a value of a type. -/
def Provides (w : World μ) (type : FieldType) : Prop :=
  ∃ w' v, w.Leads w' ∧ w'.Holds (.value v) ∧ v.isUndefined = false ∧ v.HasType type

theorem exists_entries {r : Registry μ} {fields : List Field}
    (hnodup : (fields.map (·.name)).Nodup)
    (hprovides : ∀ f ∈ fields, ∀ w : World μ, w.Stocks r → w.Provides f.type) {w : World μ}
    (hw : w.Stocks r) :
    ∃ w' entries, w.Leads w' ∧ (∀ e ∈ entries, w'.Holds (.value e.2)) ∧
      Supplies entries fields := by
  induction fields generalizing w with
  | nil => exact ⟨w, [], .refl, List.forall_mem_nil _, List.forall_mem_nil _⟩
  | cons f fields ih =>
      rcases List.nodup_cons.mp hnodup with ⟨hname, hnodup⟩
      rcases hprovides f (List.mem_cons_self ..) w hw with ⟨w', v, hrun, hv, hdefined, htyped⟩
      -- Each value may take a run of its own, so the other fields are supplied after that run.
      obtain ⟨w'', entries, hrun', hheld, hsupplies⟩ :=
        ih hnodup (fun g hg => hprovides g (List.mem_cons_of_mem f hg)) (hw.leads hrun)
      refine ⟨w'', (f.name, v) :: entries, hrun.trans hrun', ?_, ?_⟩
      · exact List.forall_mem_cons.mpr ⟨hv.leads hrun', hheld⟩
      · intro g hg
        rcases List.mem_cons.mp hg with rfl | hg
        · exact ⟨v, List.lookup_cons_self, hdefined, htyped⟩
        · rcases hsupplies g hg with ⟨u, hlookup, hu⟩
          refine ⟨u, ?_, hu⟩
          have hne : g.name ≠ f.name := by
            intro heq
            have hmem := List.mem_map_of_mem (f := Field.name) hg
            rw [heq] at hmem
            exact hname hmem
          rw [List.lookup_cons, beq_false_of_ne hne]
          exact hlookup

/-- Callers can go on to hold a value of any registered type. -/
theorem Stocks.provides {r : Registry μ} (hr : r.WellFormed) (type : FieldType)
    (htype : ∃ t ∈ r.definitions, type = .value t) :
    ∀ w : World μ, w.Stocks r → w.Provides type := by
  induction type using FieldType.inductionOn with
  | primitive t kind ht =>
      intro w hw
      rcases kind.exists_accepts with ⟨v, hv⟩
      exact ⟨w, v, .refl, .plain hv.plain, hv.isUndefined, .primitive ht hv⟩
  | composite t schema ht ih =>
      intro w hw
      rcases htype with ⟨_, hmem, heq⟩
      cases heq
      have hschema := hw.schema hmem ht
      have hprovides : ∀ f ∈ schema.fields, ∀ w : World μ, w.Stocks r → w.Provides f.type := by
        intro f hf
        rcases hr.closed t hmem schema ht f hf with ⟨u, hu, htype, _⟩
        exact ih f hf ⟨u, hu, htype⟩
      rcases exists_entries hschema.names hprovides hw with ⟨w', entries, hrun, hheld, hsupplies⟩
      rcases (hw.leads hrun).construct hmem ht hheld hsupplies with ⟨w'', id, hrun', hgave⟩
      exact ⟨w'', _, hrun.trans hrun', .given hgave, rfl, .composite ht t.equivalent_refl⟩
  | struct s =>
      rcases htype with ⟨_, _, htype⟩
      cases htype

end World

end ValueTypes
