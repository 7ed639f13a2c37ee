import ValueTypes.Proofs.Definition.Depth
import ValueTypes.Proofs.Schema.Sound

/-! Surveys find the depths of types. Where a key leads to one depth and never comes back below
itself, a survey finds no type that embeds itself, and what it remembers and answers are the depths
of the plain recursion. -/

namespace ValueTypes

/-- What identifies a type in a survey; a survey does not look at primitive types. -/
def FieldType.key? : FieldType → Option TypeKey
  | .value t => t.schema?.map fun _ => .value t.id
  | .struct s => some (.struct s.id)

theorem FieldType.eq_of_key?_value {t : ValueType} {key : TypeKey}
    (h : (FieldType.value t).key? = some key) : key = .value t.id := by
  obtain ⟨_, _, hkey⟩ := Option.map_eq_some_iff.mp h
  exact hkey.symm

theorem FieldType.key?_composite {t : ValueType} {schema : Schema}
    (h : t.layout = .composite schema) : (FieldType.value t).key? = some (.value t.id) := by
  simp [key?, ValueType.schema?, h]

/-- A collection of types that holds what is below its members, where types with one key have one
depth, and no key comes back below a type that has it. -/
structure Keyed (known : FieldType → Prop) : Prop where
  field : ∀ a, known a → ∀ f ∈ a.fields, known f.type
  depth_eq : ∀ a b key, known a → known b → a.key? = some key → b.key? = some key →
    a.depth = b.depth
  below : ∀ a key, known a → a.key? = some key → ∀ f ∈ a.fields, ∀ b, f.type.Reaches b →
    b.key? ≠ some key

theorem Keyed.reaches {known : FieldType → Prop} (h : Keyed known) {a b : FieldType} (ha : known a)
    (hb : a.Reaches b) : known b := by
  induction hb with
  | refl => exact ha
  | field _ hf ih => exact h.field _ ih _ hf

namespace Survey

/-- Whether all depths that a survey remembers are right. -/
def Valid (known : FieldType → Prop) (s : Survey) : Prop :=
  ∀ key depth, s.done.lookup key = some depth → ∀ a, known a → a.key? = some key → a.depth = depth

/-- Whether a survey is not inside a type with the key of a given one, or of one below it. -/
def Clear (s : Survey) (type : FieldType) : Prop :=
  ∀ b, type.Reaches b → ∀ key, b.key? = some key → key ∉ s.path

/-- Whether a visit ends with the right depth, on the path that it began on. -/
def Finds (known : FieldType → Prop) (s : Survey) (depth : Nat)
    (r : Except FieldFault (Nat × Survey)) : Prop :=
  ∃ s', r = .ok (depth, s') ∧ s'.path = s.path ∧ s'.Valid known

variable {known : FieldType → Prop} {s : Survey}

theorem Clear.field {type : FieldType} (h : s.Clear type) {f : Field} (hf : f ∈ type.fields) :
    s.Clear f.type :=
  fun b hb => h b (.of_field hf hb)

/-- Below a type its own key is on the path, and does not come back. -/
theorem Clear.enter (hknown : Keyed known) {type : FieldType} (htype : known type)
    {key : TypeKey} (hkey : type.key? = some key) (h : s.Clear type) {f : Field}
    (hf : f ∈ type.fields) : { s with path := key :: s.path }.Clear f.type := by
  intro b hb other hother hmem
  rcases List.mem_cons.mp hmem with rfl | hmem
  · exact hknown.below type other htype hkey f hf b hb hother
  · exact h.field hf b hb other hother hmem

theorem Valid.remember (hs : s.Valid known) (hknown : Keyed known) {type : FieldType}
    (htype : known type) {key : TypeKey} (hkey : type.key? = some key) (path : List TypeKey) :
    Valid known ⟨path, (key, type.depth) :: s.done⟩ := by
  intro other depth hlookup a ha hother
  rw [List.lookup_cons] at hlookup
  by_cases hsame : other = key
  · subst hsame
    rw [beq_self_eq_true] at hlookup
    cases hlookup
    exact hknown.depth_eq a type other ha htype hother hkey
  · rw [beq_false_of_ne hsame] at hlookup
    exact hs other depth hlookup a ha hother

/-- A visit finds the depth of a type, if what it does below the type finds the depth there. -/
theorem visit_finds (hknown : Keyed known) {type : FieldType} (htype : known type)
    {key : TypeKey} (hkey : type.key? = some key) (hs : s.Valid known) (hclear : s.Clear type)
    {below : Survey → Except FieldFault (Nat × Survey)}
    (hbelow : Finds known { s with path := key :: s.path } type.depth
      (below { s with path := key :: s.path })) (name : String) :
    s.Finds known type.depth (s.visit key name below) := by
  rw [visit]
  cases hdone : s.done.lookup key with
  | some depth =>
      have hdepth := hs key depth hdone type htype hkey
      exact ⟨s, by rw [hdepth], rfl, hs⟩
  | none =>
      obtain ⟨after, hrun, hpath, hafter⟩ := hbelow
      dsimp only
      rw [if_neg (hclear type .refl key hkey), hrun]
      dsimp only
      refine ⟨_, rfl, ?_, hafter.remember hknown htype hkey _⟩
      rw [hpath, List.erase_cons_head]

end Survey

/-! ### Surveys of types -/

open Survey

theorem surveyFields_finds {known : FieldType → Prop} {fields : List Field}
    (h : ∀ f ∈ fields, ∀ s : Survey, s.Valid known → s.Clear f.type →
      s.Finds known f.type.depth (f.type.survey s))
    {s : Survey} (hs : s.Valid known) (hclear : ∀ f ∈ fields, s.Clear f.type) (depth : Nat)
    (hdepth : 1 ≤ depth) :
    s.Finds known (max depth (fieldsDepth fields)) (surveyFields fields depth s) := by
  induction fields generalizing s depth with
  | nil =>
      refine ⟨s, ?_, rfl, hs⟩
      rw [surveyFields, fieldsDepth, Nat.max_eq_left hdepth]
  | cons f fields ih =>
      obtain ⟨s', hrun, hpath, hs'⟩ := h f (List.mem_cons_self ..) s hs
        (hclear f (List.mem_cons_self ..))
      have hclear' : ∀ g ∈ fields, s'.Clear g.type := by
        intro g hg b hb key hkey
        rw [hpath]
        exact hclear g (List.mem_cons_of_mem f hg) b hb key hkey
      obtain ⟨s'', hrun', hpath', hs''⟩ := ih (fun g hg => h g (List.mem_cons_of_mem f hg)) hs'
        hclear' (max depth (f.type.depth + 1)) (by omega)
      refine ⟨s'', ?_, hpath'.trans hpath, hs''⟩
      obtain ⟨name, type, isStatic, default⟩ := f
      simp only [surveyFields, hrun, hrun', fieldsDepth]
      rw [Nat.max_assoc]

/-- A survey of a known type finds its depth. The induction is on the type: below it the survey is
on a path that has the key of the type as well. -/
theorem FieldType.survey_finds {known : FieldType → Prop} (hknown : Keyed known)
    (type : FieldType) (htype : known type) {s : Survey} (hs : s.Valid known)
    (hclear : s.Clear type) : s.Finds known type.depth (type.survey s) := by
  have hfields : ∀ (type : FieldType) (key : TypeKey), known type → type.key? = some key →
      (∀ f ∈ type.fields, known f.type → ∀ s : Survey, s.Valid known → s.Clear f.type →
        s.Finds known f.type.depth (f.type.survey s)) →
      type.depth = fieldsDepth type.fields → ∀ s : Survey, s.Valid known → s.Clear type →
        Finds known { s with path := key :: s.path } type.depth
          (surveyFields type.fields 1 { s with path := key :: s.path }) := by
    intro type key htype hkey ih hdepth s hs hclear
    have hfinds := surveyFields_finds (s := { s with path := key :: s.path })
      (fun f hf => ih f hf (hknown.field type htype f hf)) hs
      (fun f hf => hclear.enter hknown htype hkey hf) 1 (Nat.le_refl 1)
    rwa [Nat.max_eq_right (one_le_fieldsDepth _), ← hdepth] at hfinds
  induction type using FieldType.inductionOn generalizing s with
  | primitive t kind ht =>
      refine ⟨s, ?_, rfl, hs⟩
      rw [survey_primitive ht, depth_primitive ht]
  | composite t schema ht ih =>
      have hkey := key?_composite ht
      have hbelow := hfields _ _ htype hkey
      rw [fields_composite ht] at hbelow
      have hvisit := visit_finds hknown htype hkey hs hclear
        (hbelow (fun f hf hft s hs hc => ih f hf hft hs hc) (depth_composite ht) s hs hclear) t.name
      rw [survey_composite ht]
      exact hvisit
  | struct t ih =>
      have hkey : (struct t).key? = some (.struct t.id) := rfl
      have hvisit := visit_finds hknown htype hkey hs hclear
        (hfields _ _ htype hkey (fun f hf hft s hs hc => ih f hf hft hs hc) (depth_struct t) s hs
          hclear) t.name
      rw [survey_struct]
      exact hvisit

/-- What a survey remembers at the start is right, and it is inside no type. -/
theorem Survey.valid_start (known : FieldType → Prop) : ({} : Survey).Valid known := by
  intro key depth h
  cases h

theorem Survey.clear_of_path {s : Survey} (h : s.path = []) (type : FieldType) :
    s.Clear type := by
  intro b _ key _
  rw [h]
  exact List.not_mem_nil

/-- Surveys of known types, one after another and with one memory, find the depth of each. -/
theorem surveys_find {known : FieldType → Prop} (hknown : Keyed known) {types : List FieldType}
    (htypes : ∀ type ∈ types, known type) {s : Survey} (hs : s.Valid known) (hpath : s.path = []) :
    ∃ s', (types.mapM (m := StateT Survey (Except FieldFault)) FieldType.survey).run s =
      .ok (types.map FieldType.depth, s') := by
  induction types generalizing s with
  | nil => exact ⟨s, rfl⟩
  | cons type types ih =>
      obtain ⟨s', hrun, hpath', hs'⟩ := type.survey_finds hknown
        (htypes type (List.mem_cons_self ..)) hs (clear_of_path hpath type)
      obtain ⟨s'', hrun'⟩ := ih (fun other hother => htypes other (List.mem_cons_of_mem type hother))
        hs' (hpath'.trans hpath)
      refine ⟨s'', ?_⟩
      have hhead : StateT.run (m := Except FieldFault) type.survey s = .ok (type.depth, s') := hrun
      rw [List.mapM_cons, StateT.run_bind, hhead]
      change StateT.run (types.mapM (m := StateT Survey (Except FieldFault)) FieldType.survey >>=
        fun depths => pure (type.depth :: depths)) s' = _
      rw [StateT.run_bind, hrun']
      rfl

/-! ### The depth of a schema -/

/-- Whether a name is that of the first field of maximal depth. Without any field it is empty. -/
inductive FirstDeepest : List FieldDraft → String → Prop where
  | nil : FirstDeepest [] ""
  | field {drafts : List FieldDraft} {k draft} (hdraft : drafts[k]? = some draft)
      (deepest : draft.type.depth + 1 = depthAbove (drafts.map (·.type)))
      (before : ∀ other ∈ drafts.take k, other.type.depth < draft.type.depth) :
      FirstDeepest drafts draft.name

/-- A field of less depth in front changes nothing. -/
theorem FirstDeepest.cons {draft : FieldDraft} {drafts : List FieldDraft} {name : String}
    (h : FirstDeepest drafts name)
    (hdepth : draft.type.depth + 1 < depthAbove (drafts.map (·.type))) :
    FirstDeepest (draft :: drafts) name := by
  cases h with
  | nil =>
      rw [List.map_nil, depthAbove_nil] at hdepth
      omega
  | @field _ k deepest hdeepest hmaximal hbefore =>
      refine .field (k := k + 1) hdeepest ?_ fun other hother => ?_
      · rw [List.map_cons, depthAbove_cons, hmaximal]
        omega
      · rcases List.mem_cons.mp hother with rfl | hother
        · omega
        · exact hbefore other hother

/-- The walk over the fields ends with the greater of the depth that it began with and that of the
fields, and with the name of the first field that is deeper than what it began with. -/
theorem deepestField_eq {known : FieldType → Prop} (hknown : Keyed known)
    {drafts : List FieldDraft} (hdrafts : ∀ draft ∈ drafts, known draft.type) (depth : Nat)
    (hdepth : 1 ≤ depth) (deepest : String) {s : Survey} (hs : s.Valid known)
    (hpath : s.path = []) :
    ∃ name, deepestField drafts depth deepest s =
        .ok (max depth (depthAbove (drafts.map (·.type))), name) ∧
      (depth < depthAbove (drafts.map (·.type)) → FirstDeepest drafts name) ∧
      (depthAbove (drafts.map (·.type)) ≤ depth → name = deepest) := by
  induction drafts generalizing depth deepest s with
  | nil =>
      refine ⟨deepest, ?_, fun hlt => ?_, fun _ => rfl⟩
      · rw [deepestField, List.map_nil, depthAbove_nil, Nat.max_eq_left hdepth]
      · rw [List.map_nil, depthAbove_nil] at hlt
        omega
  | cons draft drafts ih =>
      obtain ⟨s', hrun, hpath', hs'⟩ := draft.type.survey_finds hknown
        (hdrafts draft (List.mem_cons_self ..)) hs (clear_of_path hpath draft.type)
      have hrest := fun depth hdepth deepest => ih
        (fun other hother => hdrafts other (List.mem_cons_of_mem draft hother)) depth hdepth deepest
        hs' (hpath'.trans hpath)
      rw [deepestField, hrun, List.map_cons, depthAbove_cons]
      dsimp only
      split
      · obtain ⟨name, hname, hdeeper, hsame⟩ := hrest (draft.type.depth + 1) (by omega) draft.name
        refine ⟨name, ?_, fun _ => ?_, fun hle => by omega⟩
        · rw [hname]
          congr 2
          omega
        · by_cases hlt : draft.type.depth + 1 < depthAbove (drafts.map (·.type))
          · exact (hdeeper hlt).cons hlt
          · rw [hsame (Nat.le_of_not_lt hlt)]
            refine .field (k := 0) rfl ?_ (List.forall_mem_nil _)
            rw [List.map_cons, depthAbove_cons]
            omega
      · obtain ⟨name, hname, hdeeper, hsame⟩ := hrest depth hdepth deepest
        refine ⟨name, ?_, fun hlt => (hdeeper (by omega)).cons (by omega), fun hle => hsame (by omega)⟩
        rw [hname]
        congr 2
        omega

/-- The nesting depth of fields of known types is that of the plain recursion, or is beyond the
limit, and then the first field of that depth is named. -/
theorem nestingDepth_eq {known : FieldType → Prop} (hknown : Keyed known)
    {drafts : List FieldDraft} (hdrafts : ∀ draft ∈ drafts, known draft.type) (limit : Nat) :
    ∃ name, FirstDeepest drafts name ∧ nestingDepth drafts limit =
      if limit < depthAbove (drafts.map (·.type)) then
        .error (.invalidFieldType name (.tooDeep (depthAbove (drafts.map (·.type))) limit))
      else .ok (depthAbove (drafts.map (·.type))) := by
  obtain ⟨name, hname, hdeeper, hsame⟩ := deepestField_eq hknown hdrafts 1 (Nat.le_refl 1)
    (drafts.head?.elim "" (·.name)) (valid_start known) rfl
  have hone := one_le_depthAbove (drafts.map (·.type))
  rw [Nat.max_eq_right hone] at hname
  refine ⟨name, ?_, ?_⟩
  · by_cases hlt : 1 < depthAbove (drafts.map (·.type))
    · exact hdeeper hlt
    · -- No field is deeper than a primitive one, so the first field is the one that is named.
      rw [hsame (Nat.le_of_not_lt hlt)]
      cases drafts with
      | nil => exact .nil
      | cons draft drafts =>
          refine .field (k := 0) rfl ?_ (List.forall_mem_nil _)
          rw [List.map_cons, depthAbove_cons] at hlt ⊢
          omega
  · rw [nestingDepth, hname]

theorem nestingDepth_eq_ok {known : FieldType → Prop} (hknown : Keyed known)
    {drafts : List FieldDraft} (hdrafts : ∀ draft ∈ drafts, known draft.type) {limit depth : Nat}
    (h : nestingDepth drafts limit = .ok depth) :
    depth = depthAbove (drafts.map (·.type)) ∧ depth ≤ limit := by
  obtain ⟨name, _, heq⟩ := nestingDepth_eq hknown hdrafts limit
  rw [heq] at h
  split at h
  · cases h
  · rename_i hle
    cases h
    exact ⟨rfl, Nat.le_of_not_lt hle⟩

namespace SchemaPolicy

theorem nestingDepth_of_check {policy : SchemaPolicy} {kind : SchemaKind}
    {drafts : List FieldDraft} {depth : Nat} (h : policy.check kind drafts = .ok depth) :
    nestingDepth drafts policy.maxDepth = .ok depth := by
  rw [check] at h
  split at h
  · cases h
  · split at h
    · cases h
    · exact h

theorem realm_of_fault? {policy : SchemaPolicy} {kind : SchemaKind} {type : FieldType}
    (h : policy.fault? kind type = none) :
    type.realm = policy.realm ∧ (kind = .value → type.isValue = true) := by
  rw [fault?] at h
  split at h
  · cases h
  · rename_i hrealm
    split at h
    · cases h
    · rename_i hvalue
      refine ⟨not_not.mp hrealm, fun hkind => ?_⟩
      by_contra htype
      exact hvalue ⟨hkind, htype⟩

/-- The types that a check surveys are of the realm, so it finds none that embeds itself. -/
theorem check_ne_embedsItself {known : FieldType → Prop} (hknown : Keyed known)
    {policy : SchemaPolicy} {drafts : List FieldDraft}
    (hdrafts : ∀ draft ∈ drafts, draft.type.realm = policy.realm → known draft.type)
    (kind : SchemaKind) (name type : String) :
    policy.check kind drafts ≠ .error (.invalidFieldType name (.embedsItself type)) := by
  intro h
  rw [check] at h
  split at h
  · cases h
  · split at h
    · rename_i e hfound
      cases h
      obtain ⟨draft, _, hfault⟩ := List.exists_of_findSome?_eq_some hfound
      obtain ⟨fault, hfault, heq⟩ := Option.map_eq_some_iff.mp hfault
      cases heq
      rw [fault?] at hfault
      split at hfault
      · cases hfault
      · split at hfault <;> cases hfault
    · rename_i hnone
      have htypes : ∀ draft ∈ drafts, known draft.type := by
        intro draft hdraft
        have hfault := Option.map_eq_none_iff.mp (List.findSome?_eq_none_iff.mp hnone draft hdraft)
        exact hdrafts draft hdraft (realm_of_fault? hfault).1
      obtain ⟨deepest, _, heq⟩ := nestingDepth_eq hknown htypes policy.maxDepth
      rw [heq] at h
      split at h <;> cases h

theorem fields_types {policy : SchemaPolicy} {drafts : List FieldDraft} {fields : List Field}
    {σ σ' : Store} (h : (policy.fields drafts).run σ = .ok (fields, σ')) :
    fields.map (·.type) = drafts.map (·.type) := by
  induction drafts generalizing fields σ with
  | nil =>
      cases h
      rfl
  | cons draft drafts ih =>
      obtain ⟨f, σf, hf, hrest⟩ := Build.bind_eq_ok h
      obtain ⟨_, _, _, hdefault⟩ := Build.bind_eq_ok hf
      cases hdefault
      obtain ⟨rest, σr, hr, hcons⟩ := Build.bind_eq_ok hrest
      cases hcons
      rw [List.map_cons, List.map_cons, ih hr]

/-- A schema that is made has passed the check, which has given it its depth. -/
theorem makeSchema_eq_ok {policy : SchemaPolicy} {kind : SchemaKind} {drafts : List FieldDraft}
    {schema : Schema} {σ σ' : Store}
    (h : (policy.makeSchema kind drafts).run σ = .ok (schema, σ')) :
    policy.check kind drafts = .ok schema.depth ∧
      schema.fields.map (·.type) = drafts.map (·.type) := by
  obtain ⟨depth, σd, hcheck, hrest⟩ := Build.bind_eq_ok h
  obtain ⟨fields, σf, hfields, hschema⟩ := Build.bind_eq_ok hrest
  cases hschema
  refine ⟨?_, fields_types hfields⟩
  cases hc : policy.check kind drafts with
  | error e =>
      rw [hc] at hcheck
      cases hcheck
  | ok found =>
      rw [hc] at hcheck
      cases hcheck
      rfl

end SchemaPolicy

end ValueTypes
