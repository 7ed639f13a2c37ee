import ValueTypes.Proofs.Schema.Acceptance
import ValueTypes.Proofs.World.Fieldwise

/-! Schemas in every run. A realm makes a schema of exactly the valid lists of fields, and refuses any
other list with the error of the first condition that it violates. -/

namespace ValueTypes

variable {μ : Type}

namespace World

/-- Whether all that a drafted field is made of is there. -/
structure Drafts (w : World μ) (draft : FieldDraft) : Prop where
  type : w.Present (.type draft.type)
  default : ∀ v, draft.default = some v → w.There v

theorem There.sound {w : World μ} (hw : w.Reachable) {v : Value} (h : w.There v) :
    w.realms.scope.Sound (.value v) :=
  h.elim (fun hplain => .plain hplain) fun hpresent => hw.sound.present hpresent

theorem Drafts.drafted {w : World μ} (hw : w.Reachable) {drafts : List FieldDraft}
    (h : ∀ draft ∈ drafts, w.Drafts draft) :
    hw.inventory.twins.Drafted w.realms.store drafts where
  types draft hdraft := (h draft hdraft).type
  stores hσ := ⟨hσ.retains _, .refl _ _⟩
  given hσ draft hdraft v hv :=
    hw.inventory.related (hσ.retains _) (.refl _ _) ((h draft hdraft).default v hv)

/-- A schema that is made of what is there has no field without the default that it needs, and only
defaults of the types of their fields. -/
theorem Drafts.schema_field {w : World μ} (hw : w.Reachable) (id : RealmId) {kind : SchemaKind}
    {drafts : List FieldDraft} (h : ∀ draft ∈ drafts, w.Drafts draft) {schema : Schema} {σ : Store}
    (hmade : ((w.realms.realm id).makeSchema kind drafts).run w.realms.store = .ok (schema, σ)) :
    ∀ f ∈ schema.fields, (f.isStatic = true → f.default.isSome) ∧
      ∀ d, f.default = some d → d.HasType f.type := by
  have hrealms := hw.sound.realms
  have hdrafts : ∀ draft ∈ drafts, draft.Sound w.realms.scope := fun draft hdraft =>
    ⟨hw.sound.present (h draft hdraft).type, fun v hv => ((h draft hdraft).default v hv).sound hw⟩
  have hensures := SchemaPolicy.makeSchema_ensures hrealms.closed
    ((w.realms.realm id).policy.meets_nothing w.realms) kind hdrafts
  obtain ⟨_, _, _, hschema, _⟩ := hensures _ _ _ ⟨fun _ => rfl, hrealms.cells⟩ hmade
  exact fun f hf => ⟨(hschema.field f hf).fixed, fun d hd => ((hschema.field f hf).default d hd).typed⟩

/-- A realm makes a schema of a list of fields exactly if no name is repeated, all types are of the
realm and fit the kind, the nesting is within its limit, every default that is given converts to the
type of its field, and the type of every static field without one has a default. The schema has the
fields in order, as they were asked for, with defaults that are of their types and go together with
the conversions of each by itself. Any other list of fields is refused with the error of the first
condition that it violates, for the first field that violates it. -/
theorem makeSchema_accepts_valid {w : World μ} (hw : w.Reachable) {id : RealmId}
    (hid : w.Gave (.realm id)) (kind : SchemaKind) {drafts : List FieldDraft}
    (hdrafts : ∀ draft ∈ drafts, w.Drafts draft) :
    (w.realms.realm id).policy.realm = id ∧
    ((∃ r, ((w.realms.realm id).makeSchema kind drafts).run w.realms.store = .ok r) ↔
      (w.realms.realm id).policy.Accepts w.realms.store kind drafts) ∧
    (∀ schema σ,
      ((w.realms.realm id).makeSchema kind drafts).run w.realms.store = .ok (schema, σ) →
        schema.kind = kind ∧ schema.depth = depthAbove (drafts.map (·.type)) ∧
        List.Forall₂ ((w.realms.realm id).policy.Makes w.realms.store fun τ =>
          Store.Related (Value.Twin w.There w.realms.store) σ τ) drafts schema.fields ∧
        ∀ f ∈ schema.fields, (f.isStatic = true → f.default.isSome) ∧
          ∀ d, f.default = some d → d.HasType f.type) ∧
    ∀ e, ((w.realms.realm id).makeSchema kind drafts).run w.realms.store = .error e ↔
      (w.realms.realm id).policy.Refuses w.realms.store kind drafts e := by
  have hsound := hw.sound_demands
  have hrealm : (w.realms.realm id).policy.realm = id :=
    hsound.realms.realm_id (hsound.gave _ hid).realm_of
  have hkeyed := hw.keyed hsound.realms id
  have hknown : ∀ draft ∈ drafts, draft.type.realm = (w.realms.realm id).policy.realm →
      (w.realms.scope w.demands).Sound (.type draft.type) ∧ draft.type.realm = id :=
    fun draft hdraft h => ⟨hsound.present (hdrafts draft hdraft).type, h.trans hrealm⟩
  have hdrafted := Drafts.drafted hw hdrafts
  refine ⟨hrealm, SchemaPolicy.exists_makeSchema_iff hkeyed hknown hdrafted,
    fun schema σ hmade => ?_, SchemaPolicy.makeSchema_error_iff hkeyed hknown hdrafted⟩
  obtain ⟨hkind, hdepth, hmakes⟩ := SchemaPolicy.makeSchema_makes hkeyed hknown hdrafted hmade
  refine ⟨hkind, hdepth, hmakes.imp fun draft f hf => ?_, Drafts.schema_field hw id hdrafts hmade⟩
  exact hf.imp fun τ u v hrel => hrel.imp fun _ _ htwin => htwin.1

namespace Sample

/-- A static field without a default, a field with the old box as its default, and one with the
crate, which is made into a new box. -/
def stock : List FieldDraft :=
  [{ name := "n", type := .value byte, isStatic := true },
    { name := "b", type := .struct box, default := some (.struct ⟨0, box⟩) },
    { name := "c", type := .struct box, default := some (.struct ⟨1, crate⟩) }]

/-- The same with a repeated name at the end, whose default does not convert either. -/
def overstock : List FieldDraft :=
  stock ++ [{ name := "b", type := .value byte, default := some (.int 300) }]

set_option maxRecDepth 4000 in
/-- The first list makes a schema for structs, but not for values, and the second list none, since
its names are looked at first. -/
theorem makeSchema_accepts_valid_stock : crates.Reachable ∧ crates.Gave (.realm 1) ∧
    (∀ draft ∈ overstock, crates.Drafts draft) ∧
    (crates.realms.realm 1).policy.Accepts crates.realms.store .struct stock ∧
    (crates.realms.realm 1).policy.Refuses crates.realms.store .value stock
      (.invalidFieldType "b" (.structInValue "B")) ∧
    (crates.realms.realm 1).policy.Refuses crates.realms.store .value overstock
      (.duplicateFieldName "b") := by
  have hgave : crates.Gave (.realm 1) := gave_at 10 0 rfl rfl
  have hbyte : crates.Present (.type (.value byte)) := .given (gave_at 9 1 rfl rfl)
  have hbox : crates.Present (.type (.struct box)) := .given (gave_at 3 0 rfl rfl)
  have hdrafts : ∀ draft ∈ overstock, crates.Drafts draft := by
    simp only [overstock, stock, List.cons_append, List.nil_append, List.mem_cons,
      List.not_mem_nil, or_false]
    rintro draft (rfl | rfl | rfl | rfl)
    · exact ⟨hbyte, by rintro v ⟨⟩⟩
    · exact ⟨hbox, by rintro v ⟨⟩; exact .inr (.given (gave_at 2 0 rfl rfl))⟩
    · exact ⟨hbox, by rintro v ⟨⟩; exact .inr (.given (gave_at 0 0 rfl rfl))⟩
    · exact ⟨hbyte, by rintro v ⟨⟩; exact .inl (.int 300)⟩
  have hstock : ∀ draft ∈ stock, crates.Drafts draft :=
    fun draft hdraft => hdrafts draft (List.mem_append_left _ hdraft)
  obtain ⟨_, haccepts, _⟩ := makeSchema_accepts_valid crates_reachable hgave .struct hstock
  obtain ⟨_, _, _, hrefuses⟩ := makeSchema_accepts_valid crates_reachable hgave .value hstock
  obtain ⟨_, _, _, hrepeats⟩ := makeSchema_accepts_valid crates_reachable hgave .value hdrafts
  exact ⟨crates_reachable, hgave, hdrafts, haccepts.mp ⟨_, rfl⟩, (hrefuses _).mp rfl,
    (hrepeats _).mp rfl⟩

end Sample

end World

end ValueTypes
