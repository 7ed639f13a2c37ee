import ValueTypes.Proofs.Construction.Nesting
import ValueTypes.Proofs.Value.Nesting
import ValueTypes.Proofs.World.Registration

/-! Nesting in every run. No type embeds itself, the depth that a schema tells is that of the plain
recursion and within the limit, and the instances of a type are nested exactly as deep as the type,
so that neither their construction nor their comparison goes deeper. -/

namespace ValueTypes

variable {μ : Type} {Δ : Demands}

/-! ### Levels of instances -/

theorem slotLevels_eq {fields : List Field} {slots : List Value}
    (hslots : List.Forall₂ Field.Admits fields slots)
    (h : ∀ f ∈ fields, ∀ v ∈ slots, v.HasType f.type → v.levels = f.type.depth) :
    slotLevels slots + 1 = fieldsDepth fields := by
  rw [fieldsDepth_eq]
  induction hslots with
  | nil => rfl
  | @cons f v fields slots hv _ ih =>
      have hhead := h f (List.mem_cons_self ..) v (List.mem_cons_self ..) hv.typed
      have htail := ih fun g hg w hw => h g (List.mem_cons_of_mem f hg) w (List.mem_cons_of_mem v hw)
      rw [slotLevels, List.map_cons, depthAbove_cons, ← htail, hhead]
      omega

namespace Realms.Sound

variable {rs : Realms μ}

/-- Equivalent types are equally deep. -/
theorem depth_eq_of_equivalent (hrs : rs.Sound Δ) {t u : ValueType} (ht : rs.scope.type t)
    (hu : rs.scope.type u) (h : t.equivalent u = true) :
    (FieldType.value t).depth = (FieldType.value u).depth := by
  obtain ⟨hid, hmem⟩ := hrs.registered ht
  have hshape := (ValueType.equivalent_iff_shape hrs.faithful ht hu).mp h
  rw [← FieldType.shape_value, ← FieldType.shape_value u] at hshape
  refine FieldType.depth_eq_of_shape (fun c hc => ?_) hshape
  obtain ⟨v, _, rfl, _⟩ := (hrs.registry hid).reaches hmem hc
  rfl

/-- A sound instance is nested exactly as deep as its type. The induction is on the instance: what is
in a slot is of a type equivalent to that of the field, so as deep as that. -/
theorem levels_eq (hrs : rs.Sound Δ) (v : Value) (hv : (rs.scope Δ).Sound (.value v)) :
    ∀ i, v = .inst i → v.levels = (FieldType.value i.type).depth := by
  induction v using Value.inductionOn with
  | other v hother => exact fun i hi => absurd hi (hother i)
  | inst i ih =>
      rintro _ ⟨⟩
      obtain ⟨schema, hlayout, hslots⟩ := hv.layout
      obtain ⟨hwf, hmem⟩ := hrs.value_sound (.valueType hv.inst_type)
      rw [Value.levels_inst, FieldType.depth_composite hlayout]
      refine slotLevels_eq hslots fun f hf v hslot htyped => ?_
      obtain ⟨u, hu, htype, _⟩ := hwf.closed i.type hmem schema hlayout f hf
      rw [htype] at htyped ⊢
      cases htyped with
      | primitive hprimitive haccepts =>
          rw [FieldType.depth_primitive hprimitive]
          refine Value.levels_eq_zero ?_
          rintro j rfl
          cases haccepts
      | composite _ hinst =>
          cases v with
          | inst j =>
              have hj := hv.slots _ hslot
              rw [ih _ hslot hj j rfl]
              obtain ⟨hid, _⟩ := hrs.registered hv.inst_type
              exact hrs.depth_eq_of_equivalent hj.inst_type (type_of_realm hid hu) hinst
          | _ => cases hinst

end Realms.Sound

namespace World

/-! ### Depths of schemas -/

theorem Present.schema_depth {w : World μ} (hw : w.Reachable) {schema : Schema}
    (h : w.Present (.schema schema)) : schema.depth = fieldsDepth schema.fields :=
  (hw.sound_demands.present h).schema_made.1

theorem Present.schema {w : World μ} {t : ValueType} (h : w.Present (.type (.value t)))
    {schema : Schema} (hlayout : t.layout = .composite schema) : w.Present (.schema schema) := by
  refine h.part ?_
  rw [Item.parts, ValueType.schema?, hlayout]
  exact List.mem_singleton.mpr rfl

theorem Present.composite_depth {w : World μ} (hw : w.Reachable) {t : ValueType}
    (h : w.Present (.type (.value t))) {schema : Schema} (hlayout : t.layout = .composite schema) :
    schema.depth = (FieldType.value t).depth := by
  rw [(h.schema hlayout).schema_depth hw, FieldType.depth_composite hlayout]

theorem Present.struct_depth {w : World μ} (hw : w.Reachable) {s : StructType}
    (h : w.Present (.type (.struct s))) : s.schema.depth = (FieldType.struct s).depth := by
  have hschema : w.Present (.schema s.schema) := h.part (List.mem_singleton.mpr rfl)
  rw [hschema.schema_depth hw, FieldType.depth_struct]

/-- A registered definition respects the limit of its realm, unless the realm lets nothing through.
A schema without fields may come from a realm with another limit, and has depth one. -/
theorem depth_le_of_registered {w : World μ} (hw : w.Reachable) {id : RealmId}
    (hid : w.Gave (.realm id)) {t : ValueType} (ht : t ∈ (w.realms.realm id).registry.definitions)
    {schema : Schema} (hlayout : t.layout = .composite schema)
    (hlimit : 1 ≤ (w.realms.realm id).config.maxNestingDepth) :
    schema.depth ≤ (w.realms.realm id).config.maxNestingDepth := by
  have hpresent : w.Present (.type (.value t)) := .registered hid ht
  have hsound := hw.sound_demands
  have hmade := (hsound.present (hpresent.schema hlayout)).schema_made
  obtain ⟨hdepth, other, hrealm, hle⟩ := hmade
  have hwf := hsound.realms.registry (hsound.gave _ hid).realm_of
  cases hfields : schema.fields with
  | nil =>
      rw [hdepth, hfields]
      exact hlimit
  | cons f fields =>
      have hf : f ∈ schema.fields := by
        rw [hfields]
        exact List.mem_cons_self ..
      obtain ⟨u, hu, htype, _⟩ := hwf.closed t ht schema hlayout f hf
      have hother : other = id := by
        rw [← hrealm f hf, htype]
        exact (hwf.owned u hu).1.trans (hsound.realms.realm_id (hsound.gave _ hid).realm_of)
      rwa [hother] at hle

/-! ### All together -/

/-- Definitions and struct types refer only to what was made before them. So no schema is refused
since a type embeds itself: a survey with one memory finds the depths of the plain recursion. A schema
that is made tells that depth and is within the limit of the realm; all schemas tell it, and all
definitions of a realm that lets anything through are within its limit. The instances of a type have
as many levels as its schema tells; as many levels of construction make one, as many levels of
comparison decide whether two are equal, and one more decides whether their types are equivalent. -/
theorem nesting_depth {w : World μ} (hw : w.Reachable) {id : RealmId} (hid : w.Gave (.realm id)) :
    (∀ t ∈ (w.realms.realm id).registry.definitions, ∀ f ∈ (FieldType.value t).fields,
      ∃ u ∈ (w.realms.realm id).registry.definitions, f.type = .value u ∧ u.id < t.id) ∧
    (∀ s, w.Present (.type (.struct s)) → ∀ f ∈ s.schema.fields, ∀ u, f.type = .struct u →
      u.id < s.id) ∧
    (∀ kind drafts, (∀ draft ∈ drafts, w.Present (.type draft.type)) →
      (∀ name type, (w.realms.realm id).policy.check kind drafts ≠
        .error (.invalidFieldType name (.embedsItself type))) ∧
      ∀ σ schema σ', ((w.realms.realm id).makeSchema kind drafts).run σ = .ok (schema, σ') →
        schema.depth = depthAbove (drafts.map (·.type)) ∧
        schema.depth = fieldsDepth schema.fields ∧
        schema.depth ≤ (w.realms.realm id).config.maxNestingDepth) ∧
    (∀ types : List FieldType, (∀ type ∈ types, w.Present (.type type) ∧ type.realm = id) →
      ∃ s, (types.mapM (m := StateT Survey (Except FieldFault)) FieldType.survey).run {} =
        .ok (types.map FieldType.depth, s)) ∧
    (∀ t schema, w.Present (.type (.value t)) → t.layout = .composite schema →
      schema.depth = (FieldType.value t).depth) ∧
    (∀ s, w.Present (.type (.struct s)) → s.schema.depth = (FieldType.struct s).depth) ∧
    (1 ≤ (w.realms.realm id).config.maxNestingDepth →
      ∀ t ∈ (w.realms.realm id).registry.definitions, ∀ schema, t.layout = .composite schema →
        schema.depth ≤ (w.realms.realm id).config.maxNestingDepth) ∧
    ∀ t schema, w.Present (.type (.value t)) → t.layout = .composite schema →
      (∀ stop source, FieldType.constructWith^[schema.depth] stop (.value t) source =
        FieldType.construct (.value t) source) ∧
      (∀ stop u, FieldType.equivalentWith^[schema.depth + 1] stop (.value t) u =
        FieldType.equivalent (.value t) u) ∧
      ∀ i, w.Present (.value (.inst i)) → i.type.equivalent t = true →
        (Value.inst i).levels = schema.depth ∧
        ∀ stop j, Instance.equalsWith^[schema.depth] stop i j = i.equals j := by
  have hsound := hw.sound_demands
  have hrealm : w.realms.scope.realm id := (hsound.gave _ hid).realm_of
  have hwf := hsound.realms.registry hrealm
  have hkeyed := hw.keyed hsound.realms id
  have hpolicy : (w.realms.realm id).policy.realm = id := hsound.realms.realm_id hrealm
  refine ⟨fun t ht f hf => hwf.field ht hf, fun s hs => (hsound.present hs).struct_below,
    fun kind drafts hdrafts => ?_, fun types htypes => ?_,
    fun t schema ht hlayout => ht.composite_depth hw hlayout, fun s hs => hs.struct_depth hw,
    fun hlimit t ht schema hlayout => depth_le_of_registered hw hid ht hlayout hlimit,
    fun t schema ht hlayout => ?_⟩
  · have hknown : ∀ draft ∈ drafts, draft.type.realm = (w.realms.realm id).policy.realm →
        (w.realms.scope w.demands).Sound (.type draft.type) ∧ draft.type.realm = id :=
      fun draft hdraft h => ⟨hsound.present (hdrafts draft hdraft), h.trans hpolicy⟩
    refine ⟨SchemaPolicy.check_ne_embedsItself hkeyed hknown kind, fun σ schema σ' hmade => ?_⟩
    obtain ⟨hcheck, htypes⟩ := SchemaPolicy.makeSchema_eq_ok hmade
    obtain ⟨hdepth, hlimit⟩ := nestingDepth_eq_ok hkeyed
      (fun draft hdraft => hknown draft hdraft (realm_of_check hcheck draft hdraft))
      (SchemaPolicy.nestingDepth_of_check hcheck)
    refine ⟨hdepth, ?_, hlimit⟩
    rw [hdepth, fieldsDepth_eq, htypes]
  · exact surveys_find hkeyed
      (fun type htype => ⟨hsound.present (htypes type htype).1, (htypes type htype).2⟩)
      (Survey.valid_start _) rfl
  · have hdepth := ht.composite_depth hw hlayout
    have hpositive : 1 ≤ (FieldType.value t).depth := by
      rw [FieldType.depth_composite hlayout]
      exact one_le_fieldsDepth _
    refine ⟨fun stop source => ?_, fun stop u => ?_, fun i hi hequivalent => ?_⟩
    · exact FieldType.constructWith_iterate stop hdepth.ge hpositive source
    · exact FieldType.equivalentWith_iterate stop hdepth.ge u
    · have hinst := hsound.present hi
      have hlevels : (Value.inst i).levels = schema.depth := by
        cases hsound.present ht with
        | valueType htype =>
            rw [hsound.realms.levels_eq _ hinst i rfl, hdepth]
            exact hsound.realms.depth_eq_of_equivalent hinst.inst_type htype hequivalent
      exact ⟨hlevels, fun stop j => Instance.equalsWith_iterate stop hlevels.le j⟩

namespace Sample

set_option maxRecDepth 4000 in
/-- A type with a field of another type, and an instance of it. -/
theorem nesting_depth_frame : frames.Reachable ∧ frames.Gave (.realm 1) ∧
    frames.Present (.type (.value framed)) ∧ frames.Present (.value (.inst frame)) ∧
    (FieldType.value framed).depth = 2 ∧ (Value.inst frame).levels = 2 ∧
    FieldType.constructWith^[2] (fun _ _ => throw (.missingField "" "")) (.value framed) none =
      FieldType.construct (.value framed) none ∧
    Instance.equalsWith^[2] (fun _ _ => false) frame frame = true := by
  have hgave : frames.Gave (.realm 1) := gave_at 9 0 rfl rfl
  have hframed : frames.Present (.type (.value framed)) := .given (gave_at 3 0 rfl rfl)
  have hframe : frames.Present (.value (.inst frame)) := .given (gave_at 0 0 rfl rfl)
  obtain ⟨-, -, -, -, hdepth, -, -, hlevels⟩ := nesting_depth frames_reachable hgave
  obtain ⟨hconstruct, -, hinstances⟩ := hlevels framed _ hframed rfl
  obtain ⟨hlevels, hequals⟩ := hinstances frame hframe framed.equivalent_refl
  refine ⟨frames_reachable, hgave, hframed, hframe, (hdepth framed _ hframed rfl).symm, hlevels,
    hconstruct _ none, ?_⟩
  rw [show Instance.equalsWith^[2] (fun _ _ => false) frame frame = frame.equals frame from
    hequals _ frame]
  rfl

end Sample

end World

end ValueTypes
