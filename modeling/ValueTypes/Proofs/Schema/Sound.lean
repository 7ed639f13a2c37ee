import ValueTypes.Definition.Schema
import ValueTypes.Proofs.Construction.Sound

/-! Schemas are sound: no name is repeated, and each default is a sound value of the type of its
field, whatever was given for it. -/

namespace ValueTypes

variable {Θ : Scope}

theorem firstRepeated?_eq_none {seen names : List String}
    (h : firstRepeated? seen names = none) : names.Nodup ∧ ∀ name ∈ names, name ∉ seen := by
  induction names generalizing seen with
  | nil => exact ⟨List.nodup_nil, fun name hname => nomatch hname⟩
  | cons name names ih =>
      rw [firstRepeated?] at h
      split at h
      · cases h
      · rename_i hname
        obtain ⟨hnodup, hseen⟩ := ih h
        refine ⟨List.nodup_cons.mpr ⟨fun hmem => ?_, hnodup⟩, fun other hother => ?_⟩
        · exact hseen name hmem (List.mem_cons_self ..)
        · rcases List.mem_cons.mp hother with rfl | hother
          · exact hname
          · exact fun hmem => hseen other hother (List.mem_cons_of_mem _ hmem)

/-- Whether what is asked for in a field is sound. -/
structure FieldDraft.Sound (Θ : Scope) (draft : FieldDraft) : Prop where
  type : Θ.Sound (.type draft.type)
  default : ∀ v, draft.default = some v → Θ.Sound (.value v)

theorem FieldDraft.Sound.mono {Θ' : Scope} (hΘ : Θ.Within Θ') {draft : FieldDraft}
    (h : draft.Sound Θ) : draft.Sound Θ' :=
  ⟨h.type.mono hΘ, fun v hv => (h.default v hv).mono hΘ⟩

/-- Whether a field is what a draft asks for, with a sound default, which is the one that was given
if that was of the type already. -/
structure FieldDraft.Makes (Θ : Scope) (draft : FieldDraft) (f : Field) : Prop where
  name : f.name = draft.name
  type : f.type = draft.type
  isStatic : f.isStatic = draft.isStatic
  sound : f.Sound Θ
  kept : ∀ v, draft.default = some v → v.HasType draft.type → f.default = some v

theorem FieldDraft.Makes.mono {Θ' : Scope} (hΘ : Θ.Within Θ') {draft : FieldDraft} {f : Field}
    (h : draft.Makes Θ f) : draft.Makes Θ' f :=
  ⟨h.name, h.type, h.isStatic, h.sound.mono hΘ, h.kept⟩

namespace SchemaPolicy

theorem check_eq_ok {policy : SchemaPolicy} {kind : SchemaKind} {drafts : List FieldDraft}
    {depth : Nat} (h : policy.check kind drafts = .ok depth) :
    (drafts.map (·.name)).Nodup ∧ ∀ draft ∈ drafts, policy.fault? kind draft.type = none := by
  rw [check] at h
  split at h
  · cases h
  · rename_i hnames
    split at h
    · cases h
    · rename_i hfaults
      refine ⟨(firstRepeated?_eq_none hnames).1, fun draft hdraft => ?_⟩
      exact Option.map_eq_none_iff.mp (List.findSome?_eq_none_iff.mp hfaults draft hdraft)

/-- Whether a default is what a draft asks for. -/
structure Defaults (Θ : Scope) (draft : FieldDraft) (default : Option Value) : Prop where
  typed : ∀ d, default = some d → Θ.Typed draft.type d
  fixed : draft.isStatic = true → default.isSome
  kept : ∀ v, draft.default = some v → v.HasType draft.type → default = some v

theorem default_ensures (hΘ : Θ.Closed) (policy : SchemaPolicy) {draft : FieldDraft}
    (hdraft : draft.Sound Θ) :
    Build.Ensures Θ (policy.default draft) fun Θ' => Defaults Θ' draft := by
  have hconverts := hΘ.converts draft.type hdraft.type
  have hsome : ∀ (Θ' : Scope) d, Θ'.Typed draft.type d →
      ∀ d', some d = some d' → Θ'.Typed draft.type d' := by
    rintro Θ' d hd _ ⟨⟩
    exact hd
  rw [SchemaPolicy.default]
  split
  · rename_i v hv
    by_cases htyped : v.HasType draft.type
    · rw [FieldType.coerce_of_hasType htyped]
      exact .pure ⟨hsome Θ v ⟨hdraft.default v hv, htyped⟩, fun _ => rfl, fun w hw _ => hv ▸ hw⟩
    · refine .map ((hconverts.coerce Θ (.refl Θ) policy.coercion draft.name v
        (hdraft.default v hv)).mono ?_)
      refine fun Θ' d hd => ⟨hsome Θ' d hd, fun _ => rfl, fun w hw htyped' => ?_⟩
      rw [hv] at hw
      cases hw
      exact absurd htyped' htyped
  · rename_i hnone
    have hkept : ∀ default : Option Value, ∀ v, draft.default = some v →
        v.HasType draft.type → default = some v := by
      intro default v hv
      rw [hnone] at hv
      cases hv
    split
    · refine .map ((hconverts.default Θ (.refl Θ) "static field" draft.name).mono ?_)
      exact fun Θ' d hd => ⟨hsome Θ' d hd, fun _ => rfl, hkept (some d)⟩
    · rename_i hstatic
      exact .pure ⟨(fun d hd => nomatch hd), fun h => absurd h hstatic, hkept none⟩

theorem field_ensures (hΘ : Θ.Closed) (policy : SchemaPolicy) {draft : FieldDraft}
    (hdraft : draft.Sound Θ) :
    Build.Ensures Θ (policy.field draft) fun Θ' => draft.Makes Θ' := by
  refine (default_ensures hΘ policy hdraft).bind fun Θ' _ default h => ?_
  exact .pure ⟨rfl, rfl, rfl, ⟨h.typed, h.fixed⟩, h.kept⟩

theorem fields_ensures (hΘ : Θ.Closed) (policy : SchemaPolicy) {drafts : List FieldDraft}
    (hdrafts : ∀ draft ∈ drafts, draft.Sound Θ) :
    Build.Ensures Θ (policy.fields drafts)
      fun Θ' fields => List.Forall₂ (FieldDraft.Makes Θ') drafts fields := by
  induction drafts generalizing Θ with
  | nil => exact .pure .nil
  | cons draft drafts ih =>
      refine (field_ensures hΘ policy (hdrafts draft (List.mem_cons_self ..))).bind ?_
      intro Θ' hΘ' f hf
      refine (ih (hΘ'.closed hΘ) fun other hother =>
        (hdrafts other (List.mem_cons_of_mem draft hother)).mono hΘ'.within).bind ?_
      exact fun Θ'' hΘ'' fields hfields => .pure (.cons (hf.mono hΘ''.within) hfields)

end SchemaPolicy

/-! ### Fields made of drafts -/

theorem FieldDraft.names_eq {drafts : List FieldDraft} {fields : List Field}
    (h : List.Forall₂ (FieldDraft.Makes Θ) drafts fields) :
    fields.map (·.name) = drafts.map (·.name) := by
  induction h with
  | nil => rfl
  | cons hf _ ih => rw [List.map_cons, List.map_cons, hf.name, ih]

theorem FieldDraft.exists_draft {drafts : List FieldDraft} {fields : List Field}
    (h : List.Forall₂ (FieldDraft.Makes Θ) drafts fields) :
    ∀ f ∈ fields, ∃ draft ∈ drafts, draft.Makes Θ f := by
  induction h with
  | nil => exact List.forall_mem_nil _
  | @cons draft f drafts fields hmakes _ ih =>
      intro g hg
      rcases List.mem_cons.mp hg with rfl | hg
      · exact ⟨draft, List.mem_cons_self .., hmakes⟩
      · obtain ⟨other, hother, hmakes'⟩ := ih g hg
        exact ⟨other, List.mem_cons_of_mem draft hother, hmakes'⟩

theorem FieldDraft.types_eq {drafts : List FieldDraft} {fields : List Field}
    (h : List.Forall₂ (FieldDraft.Makes Θ) drafts fields) :
    fields.map (·.type) = drafts.map (·.type) := by
  induction h with
  | nil => rfl
  | cons hf _ ih => rw [List.map_cons, List.map_cons, hf.type, ih]

/-- Whether every schema that a policy lets through is as the scope asks. -/
def SchemaPolicy.Meets (policy : SchemaPolicy) (Θ : Scope) : Prop :=
  ∀ kind (drafts : List FieldDraft) depth (fields : List Field),
    (∀ draft ∈ drafts, Θ.Sound (.type draft.type)) → policy.check kind drafts = .ok depth →
      fields.map (·.type) = drafts.map (·.type) →
        Θ.schema ⟨kind, fields, policy.hashing.ofFields fields, depth⟩

/-- A schema that is made of sound drafts is sound. -/
theorem SchemaPolicy.makeSchema_ensures (hΘ : Θ.Closed) {policy : SchemaPolicy}
    (hpolicy : policy.Meets Θ) (kind : SchemaKind) {drafts : List FieldDraft}
    (hdrafts : ∀ draft ∈ drafts, draft.Sound Θ) :
    Build.Ensures Θ (policy.makeSchema kind drafts)
      fun Θ' schema => Θ'.Sound (.schema schema) ∧
        List.Forall₂ (FieldDraft.Makes Θ') drafts schema.fields := by
  refine Build.Ensures.bind
    (Q := fun Θ' depth => (drafts.map (·.name)).Nodup ∧ ∀ fields : List Field,
      fields.map (·.type) = drafts.map (·.type) →
        Θ'.schema ⟨kind, fields, policy.hashing.ofFields fields, depth⟩)
    (.lift fun depth h => ⟨(check_eq_ok h).1, fun fields =>
      hpolicy kind drafts depth fields (fun draft hdraft => (hdrafts draft hdraft).type) h⟩) ?_
  rintro Θ' hΘ' depth ⟨hnodup, hmade⟩
  have hdrafts' := fun draft hdraft => (hdrafts draft hdraft).mono hΘ'.within
  refine (fields_ensures (hΘ'.closed hΘ) policy hdrafts').bind fun Θ'' hΘ'' fields hfields =>
    .pure ⟨?_, hfields⟩
  have hsound : ∀ f ∈ fields, f.Sound Θ'' := by
    intro f hf
    obtain ⟨_, _, hmakes⟩ := FieldDraft.exists_draft hfields f hf
    exact hmakes.sound
  refine .schema (hΘ''.within.schema _ (hmade fields (FieldDraft.types_eq hfields))) ?_
    (fun f hf => ?_) (fun f hf d hd => ((hsound f hf).default d hd).sound)
    (fun f hf d hd => ((hsound f hf).default d hd).typed) fun f hf => (hsound f hf).fixed
  · rw [Schema.names, FieldDraft.names_eq hfields]
    exact hnodup
  · obtain ⟨draft, hdraft, hmakes⟩ := FieldDraft.exists_draft hfields f hf
    rw [hmakes.type]
    exact (hdrafts' draft hdraft).type.mono hΘ''.within

end ValueTypes
