import ValueTypes.Proofs.World.Definitions
import ValueTypes.Proofs.World.Structs

/-! Registries in every run: definitions are numbered from one on without gaps, the primitive types
first, each realm tells its own types from those of other realms, and nothing that was registered
changes or moves. -/

namespace ValueTypes

variable {μ : Type}

/-! ### Definitions in order -/

theorem PrimitiveKind.index_lt (kind : PrimitiveKind) : kind.index < 12 := by
  cases kind <;> decide

namespace Registry.WellFormed

variable {r : Registry μ}

theorem take_primitives (hr : r.WellFormed) :
    r.definitions.take 12 = PrimitiveKind.all.map r.primitive :=
  (List.prefix_iff_eq_take.mp hr.seeded).symm

/-- Definitions after the first twelve have greater numbers than those. -/
theorem lt_id_of_mem_drop (hr : r.WellFormed) {t : ValueType} (ht : t ∈ r.definitions.drop 12) :
    12 < t.id := by
  obtain ⟨k, hk⟩ := List.mem_iff_getElem?.mp ht
  rw [List.getElem?_drop] at hk
  rw [hr.numbered _ t hk]
  exact Nat.lt_succ_of_le (Nat.le_add_right 12 k)

/-- Where all primitive types are the realm's own, composite types follow the first twelve. -/
theorem composite_of_mem_drop (hr : r.WellFormed) (hprimitive : ∀ t ∈ r.definitions, ∀ kind,
    t.layout = .primitive kind → t = r.primitive kind) :
    ∀ t ∈ r.definitions.drop 12, ∃ schema, t.layout = .composite schema := by
  intro t ht
  cases hlayout : t.layout with
  | primitive kind =>
      have hlt := hr.lt_id_of_mem_drop ht
      rw [hprimitive t (List.mem_of_mem_drop ht) kind hlayout] at hlt
      exact absurd hlt (Nat.not_lt_of_le kind.index_lt)
  | composite schema => exact ⟨schema, rfl⟩

end Registry.WellFormed

theorem Registry.contains_iff {r : Registry μ} (hr : r.WellFormed) {t : ValueType}
    (ht : t.realm = r.realm → t ∈ r.definitions) : r.contains t = true ↔ t.realm = r.realm := by
  rw [contains, Bool.and_eq_true, beq_iff_eq, List.any_eq_true]
  constructor
  · exact fun h => h.1
  · intro h
    exact ⟨h, t, hr.mem_definitionsOf.mpr ⟨ht h, rfl⟩, t.same_refl⟩

/-- What the default of a definition contains is the same in every store. -/
theorem Realms.Sound.content_default {rs : Realms μ} (hrs : rs.Sound) {t : ValueType}
    (ht : rs.scope.type t) {schema : Schema} (hlayout : t.layout = .composite schema) {f : Field}
    (hf : f ∈ schema.fields) {d : Value} (hd : f.default = some d) (σ : Store) :
    σ.content d = rs.store.content d := by
  have hdefault := ((hrs.closed t schema ht hlayout).field f hf).default d hd
  have hfits := hrs.fits hdefault
  have hvalue := hrs.isValue ht hlayout f hf
  cases htype : f.type with
  | value u =>
      rw [htype] at hfits
      cases hfits with
      | value hconforms => exact hconforms.content_eq _ _
  | struct s =>
      rw [htype] at hvalue
      cases hvalue

/-! ### What there is in a world -/

namespace World

/-- Whether an item is there: it was handed out, or is registered in a realm, or can be read off
something that is there. -/
inductive Present (w : World μ) : Item → Prop where
  | given {x} (h : w.Gave x) : Present w x
  | registered {id t} (hid : w.Gave (.realm id))
      (ht : t ∈ (w.realms.realm id).registry.definitions) : Present w (.type (.value t))
  | part {x y} (h : Present w x) (hy : y ∈ x.parts w.realms.store) : Present w y

theorem Sound.present {Δ : Demands} {w : World μ} (hw : w.Sound Δ) {x : Item} (h : w.Present x) :
    (w.realms.scope Δ).Sound x := by
  induction h with
  | given h => exact hw.gave _ h
  | registered hid ht => exact .valueType (Realms.type_of_realm (hw.gave _ hid).realm_of ht)
  | part _ hy ih => exact Item.parts_sound hw.realms.closed hw.realms.cells ih _ hy

/-! ### Registries -/

/-- Every registry is well formed. Its definitions are numbered from one on, the twelve primitive
types first and composite types behind them. Each of them is in one bucket, that of its symbol; no
two buckets are of one symbol, each is in order and holds definitions of its symbol only, and a
look-up by symbol finds all of these. It contains exactly the handles that name its realm. What a
definition reaches is registered there as well, and what a struct type reaches is of its realm. In
the course of a run definitions are only appended, to their buckets too, so that none is changed or
moved, nor what its defaults contain. -/
theorem registry_wellFormed {w : World μ} (hw : w.Reachable) {id : RealmId}
    (hid : w.Gave (.realm id)) :
    (w.realms.realm id).registry.definitions.map (·.id) =
      List.range' 1 (w.realms.realm id).registry.definitions.length ∧
    (w.realms.realm id).registry.definitions.take 12 =
      PrimitiveKind.all.map (w.realms.realm id).registry.primitive ∧
    (∀ t ∈ (w.realms.realm id).registry.definitions.drop 12,
      ∃ schema, t.layout = .composite schema) ∧
    ((w.realms.realm id).registry.buckets.entries.Pairwise fun a b => a.1.id ≠ b.1.id) ∧
    (∀ t ∈ (w.realms.realm id).registry.definitions,
      ∃! e, e ∈ (w.realms.realm id).registry.buckets.entries ∧ t ∈ e.2) ∧
    (∀ e ∈ (w.realms.realm id).registry.buckets.entries,
      (∀ t ∈ e.2, t ∈ (w.realms.realm id).registry.definitions ∧ t.symbol.id = e.1.id) ∧
      (e.2.Pairwise fun t u => t.id < u.id) ∧
      (w.realms.realm id).registry.definitionsOf e.1 = e.2) ∧
    (∀ symbol, (w.realms.realm id).registry.definitionsOf symbol =
      (w.realms.realm id).registry.definitions.filter (·.symbol == symbol)) ∧
    (∀ t ∈ (w.realms.realm id).registry.definitions, ∀ symbol,
      t ∈ (w.realms.realm id).registry.definitionsOf symbol ↔ t.symbol.id = symbol.id) ∧
    (∀ symbol, (w.realms.realm id).registry.definitionsOf symbol ⊆
        (w.realms.realm id).registry.definitions ∧
      ((w.realms.realm id).registry.definitionsOf symbol).Pairwise fun t u => t.id < u.id) ∧
    (∀ t, w.Present (.type (.value t)) →
      ((w.realms.realm id).registry.contains t = true ↔ t.realm = id)) ∧
    (∀ t ∈ (w.realms.realm id).registry.definitions, ∀ b, (FieldType.value t).Reaches b →
      ∃ u ∈ (w.realms.realm id).registry.definitions, b = .value u) ∧
    (∀ s, w.Present (.type (.struct s)) → s.realm = id → ∀ b, (FieldType.struct s).Reaches b →
      b.realm = id ∧ ∀ t, b = .value t → t ∈ (w.realms.realm id).registry.definitions) ∧
    ∀ w', w.Leads w' →
      (w.realms.realm id).registry.definitions <+: (w'.realms.realm id).registry.definitions ∧
      (∀ symbol, (w.realms.realm id).registry.definitionsOf symbol <+:
        (w'.realms.realm id).registry.definitionsOf symbol) ∧
      ∀ t ∈ (w.realms.realm id).registry.definitions, ∀ schema, t.layout = .composite schema →
        ∀ f ∈ schema.fields, ∀ d, f.default = some d →
          w'.realms.store.content d = w.realms.store.content d := by
  have hsound := hw.sound_demands
  have hrealm : w.realms.scope.realm id := (hsound.gave _ hid).realm_of
  have hwf := hsound.realms.registry hrealm
  have hrealmId := hsound.realms.realm_id hrealm
  have hmem : ∀ t, w.Present (.type (.value t)) → t.realm = id →
      t ∈ (w.realms.realm id).registry.definitions := by
    intro t ht htrealm
    have hregistered := (hsound.realms.value_sound (hsound.present ht)).2
    rwa [htrealm] at hregistered
  refine ⟨hwf.map_id, hwf.take_primitives, hwf.composite_of_mem_drop
      (hw.seeded.eq_primitive _ (Realms.realm_mem hrealm)), hwf.bucketed.pairwise_key,
    fun t ht => hwf.bucketed.existsUnique_entry ht, fun e he => ?_, hwf.definitionsOf_eq,
    fun t ht symbol => ?_, fun symbol => ⟨fun t ht => (hwf.mem_definitionsOf.mp ht).1,
      hwf.pairwise_definitionsOf symbol⟩, fun t ht => ?_, fun t ht b hb => ?_,
    fun s hs hsrealm b hb => ?_, fun w' hrun => ?_⟩
  · rw [← hwf.definitionsOf_entry he]
    exact ⟨fun t ht => hwf.mem_definitionsOf.mp ht, hwf.pairwise_definitionsOf e.1, rfl⟩
  · rw [hwf.mem_definitionsOf, and_iff_right ht]
  · rw [Registry.contains_iff hwf (fun h => hmem t ht (h.trans hrealmId)), hrealmId]
  · obtain ⟨u, hu, hb, _⟩ := hwf.reaches ht hb
    exact ⟨u, hu, hb⟩
  · obtain ⟨hbsound, hbrealm⟩ := (hw.keyed hsound.realms id).reaches
      ⟨hsound.present hs, hsrealm⟩ hb
    refine ⟨hbrealm, ?_⟩
    rintro t rfl
    have hregistered := (hsound.realms.value_sound hbsound).2
    rwa [show t.realm = id from hbrealm] at hregistered
  · have hgrows := (hw.sound.leads_extends hrun).definitions hrealm
    have hsound' := (hw.leads hrun).sound
    have hwf' := hsound'.realms.registry (hsound'.gave _ (hid.leads hrun)).realm_of
    exact ⟨hgrows, hwf.definitionsOf_prefix hwf' hgrows, fun t ht schema hlayout f hf d hd =>
      hw.sound.realms.content_default (Realms.type_of_realm hrealm ht) hlayout hf hd _⟩

namespace Sample

set_option maxRecDepth 4000 in
/-- A realm with fourteen definitions, and a struct type that reaches one of them. -/
theorem registry_wellFormed_crates : crates.Reachable ∧ crates.Gave (.realm 1) ∧
    (crates.realms.realm 1).registry.definitions.length = 14 ∧
    (crates.realms.realm 1).registry.definitions.map (·.id) = List.range' 1 14 ∧
    (∃! e, e ∈ (crates.realms.realm 1).registry.buckets.entries ∧ framed ∈ e.2) ∧
    (crates.realms.realm 1).registry.contains framed = true ∧
    byte ∈ (crates.realms.realm 1).registry.definitions ∧
    (crates.realms.realm 1).registry.definitions <+:
      (nested.realms.realm 1).registry.definitions := by
  have hgave : crates.Gave (.realm 1) := gave_at 10 0 rfl rfl
  have hwrite : crates.Leads nested := by
    refine .step .refl _ ?_
    exact List.forall_mem_cons.mpr ⟨.given (gave_at 0 0 rfl rfl),
      List.forall_mem_singleton.mpr (.given (gave_at 0 0 rfl rfl))⟩
  obtain ⟨hids, -, -, -, hbucket, -, -, -, -, hcontains, -, hreaches, hgrows⟩ :=
    registry_wellFormed crates_reachable hgave
  have hframed : crates.Present (.type (.value framed)) := .given (gave_at 4 0 rfl rfl)
  have hcrate : crates.Present (.type (.struct crate)) := .given (gave_at 1 0 rfl rfl)
  have hbyte : (FieldType.struct crate).Reaches (.value byte) := by
    have hfield : (⟨"r", .value byte, false, none⟩ : Field) ∈ (FieldType.struct crate).fields :=
      List.mem_of_getElem? (i := 1) rfl
    exact .of_field hfield .refl
  have hmem : framed ∈ (crates.realms.realm 1).registry.definitions :=
    List.mem_of_getElem? (i := 13) rfl
  exact ⟨crates_reachable, hgave, rfl, hids, hbucket framed hmem,
    (hcontains framed hframed).mpr rfl, (hreaches crate hcrate rfl _ hbyte).2 byte rfl,
    (hgrows nested hwrite).1⟩

end Sample

end World

end ValueTypes
