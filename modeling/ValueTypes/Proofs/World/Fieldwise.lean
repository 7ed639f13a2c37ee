import ValueTypes.Proofs.Construction.Fieldwise
import ValueTypes.Proofs.Construction.Twins
import ValueTypes.Proofs.World.Registration

/-! Construction in a run is local to fields. Whatever the source is, a record, an instance or a
struct, only its answers for the names of the fields count, and each field is resolved as if it were
alone. -/

namespace ValueTypes

variable {μ : Type}

namespace World

/-- Whether a value is plain, or there in a world. -/
def There (w : World μ) (v : Value) : Prop :=
  v.Plain ∨ w.Present (.value v)

theorem There.part {w : World μ} {v : Value} (h : w.There v) (hv : ¬ v.Plain) {u : Value}
    (hu : Item.value u ∈ (Item.value v).parts w.realms.store) : w.There u :=
  h.elim (fun hplain => absurd hplain hv) fun hpresent => .inr (.part hpresent hu)

/-- A field of a type that is there is one of a schema that is there. -/
theorem Present.exists_schema {w : World μ} {type : FieldType} (h : w.Present (.type type))
    {f : Field} (hf : f ∈ type.fields) :
    ∃ schema, w.Present (.schema schema) ∧ f ∈ schema.fields := by
  cases type with
  | value t =>
      cases hlayout : t.layout with
      | primitive kind =>
          rw [FieldType.fields_primitive hlayout] at hf
          cases hf
      | composite schema =>
          rw [FieldType.fields_composite hlayout] at hf
          refine ⟨schema, .part h ?_, hf⟩
          rw [Item.parts, ValueType.schema?, hlayout]
          exact List.mem_singleton.mpr rfl
  | struct s => exact ⟨s.schema, .part h (List.mem_singleton.mpr rfl), hf⟩

theorem Present.field {w : World μ} {type : FieldType} (h : w.Present (.type type)) {f : Field}
    (hf : f ∈ type.fields) {x : Item}
    (hx : x ∈ .type f.type :: (f.default.map Item.value).toList) : w.Present x := by
  obtain ⟨schema, hschema, hf⟩ := h.exists_schema hf
  exact .part hschema (List.mem_flatMap.mpr ⟨f, hf, hx⟩)

/-- What is there in a world, with all that can be read off it. -/
theorem Reachable.inventory {w : World μ} (hw : w.Reachable) :
    Inventory w.realms.store w.There fun type => w.Present (.type type) where
  plain _ hv := .inl hv
  entries id entries h e he :=
    h.part (by rintro ⟨⟩) (List.mem_map_of_mem (f := fun e : String × Value => Item.value e.2) he)
  slots i h v hv :=
    h.part (by rintro ⟨⟩) (List.mem_cons_of_mem _ (List.mem_map_of_mem (f := Item.value) hv))
  cell s h := by
    have hpresent : w.Present (.value (.struct s)) := by
      rcases h with hplain | hpresent
      · cases hplain
      · exact hpresent
    obtain ⟨cell, hcell, _⟩ := Realms.exists_cell (hw.sound.present hpresent)
    refine ⟨cell, hcell, fun v hv => h.part (by rintro ⟨⟩) (List.mem_cons_of_mem _ ?_)⟩
    rw [hcell]
    exact List.mem_map_of_mem hv
  fields type h f hf := h.field hf (List.mem_cons_self ..)
  default type h f hf d hd := by
    refine .inr (h.field hf (List.mem_cons_of_mem _ ?_))
    rw [hd]
    exact List.mem_singleton.mpr rfl

/-- Whether all that a source is made of is there. -/
def Offers (w : World μ) (source : Source) : Prop :=
  ∀ v, .value v ∈ source.items → w.There v

theorem Offers.live {w : World μ} (hw : w.Reachable) {source : Source} (h : w.Offers source) :
    ∀ s, source = .struct s → ∃ cell, w.realms.store.cell? s = some cell := by
  rintro s rfl
  obtain ⟨cell, hcell, _⟩ := hw.inventory.cell s (h _ (List.mem_singleton.mpr rfl))
  exact ⟨cell, hcell⟩

theorem Offers.answer {w : World μ} (hw : w.Reachable) {source : Source} (h : w.Offers source)
    (name : String) : w.There (source.answer w.realms.store name) := by
  rw [Source.answer]
  cases hget : source.get? w.realms.store name with
  | none => exact .inl .undefined
  | some v =>
      cases source with
      | record entries => exact h v (List.mem_map.mpr ⟨_, mem_of_lookup hget, rfl⟩)
      | inst i => exact hw.inventory.field? (h _ (List.mem_singleton.mpr rfl)) hget
      | struct s => exact hw.inventory.field? (h _ (List.mem_singleton.mpr rfl)) hget

/-- A source is steady, since what is there when a construction begins stays as it is. -/
theorem Offers.steady {w : World μ} (hw : w.Reachable) {source : Source} (h : w.Offers source) :
    hw.inventory.twins.Steady w.realms.store source where
  live := h.live hw
  stores hσ := ⟨hσ.retains _, .refl _ _⟩
  rel hσ name := hw.inventory.related (hσ.retains _) (.refl _ _) (h.answer hw name)

/-- What a field of a type takes, by itself, from what a source answers for its name. -/
def resolution (w : World μ) (type : FieldType) (source : Source) (f : Field) : Build Value :=
  f.resolve type.name type.coercion (source.answer w.realms.store f.name)

/-- Construction of a composite type or a struct type from any source, field by field, each resolved
by itself from what the source answers for its name. It fails exactly with the error of the first
field in order that fails, and succeeds exactly if none does. The object that it gives has the
values of the fields in order: the same value where a field takes one without a step, such as a
static default, and else a value from which paths lead to the same values that were there before, or
to new objects of the same types. Any other source with the same answers for the fields that are not
static comes to the same. -/
theorem construct_fieldwise {w : World μ} (hw : w.Reachable) {type : FieldType}
    (htype : w.Present (.type type)) (hobjects : type.HasObjects) {source : Source}
    (hsource : w.Offers source) :
    (∀ e, (type.construct (some source)).run w.realms.store = .error e ↔
      ∃ (k : Nat) (f : Field), type.fields[k]? = some f ∧
        (w.resolution type source f).run w.realms.store = .error e ∧
        ∀ g ∈ type.fields.take k, ∃ r, (w.resolution type source g).run w.realms.store = .ok r) ∧
    ((∃ r, (type.construct (some source)).run w.realms.store = .ok r) ↔
      ∀ f ∈ type.fields, ∃ r, (w.resolution type source f).run w.realms.store = .ok r) ∧
    (∀ v σ, (type.construct (some source)).run w.realms.store = .ok (v, σ) →
      ∃ slots, σ.Object slots type v ∧ List.Forall₂ (fun f u =>
        (∀ x, w.resolution type source f = pure x → u = x) ∧
          ∃ x τ, (w.resolution type source f).run w.realms.store = .ok (x, τ) ∧
            Store.Related (Value.Twin w.There w.realms.store) σ τ u x) type.fields slots) ∧
    ∀ other, w.Offers other →
      (∀ f ∈ type.fields, f.isStatic = false →
        source.answer w.realms.store f.name = other.answer w.realms.store f.name) →
      (type.construct (some other)).run w.realms.store =
        (type.construct (some source)).run w.realms.store := by
  have hassembled := Correspondence.construct_assembled htype hobjects (hsource.steady hw)
  refine ⟨hassembled.error_iff, hassembled.exists_ok_iff, fun v σ hrun => ?_,
    fun other hother hsame => ?_⟩
  · rw [hrun] at hassembled
    cases hassembled with
    | done hobject hslots =>
        refine ⟨_, hobject, hslots.imp fun f u hu => ⟨hu.1, ?_⟩⟩
        obtain ⟨x, τ, hx, hrel⟩ := hu.2
        exact ⟨x, τ, hx, hrel.imp fun _ _ htwin => htwin.1⟩
  · have hfixed : ∀ f ∈ type.fields, f.isStatic = true → f.default.isSome := by
      intro f hf
      obtain ⟨schema, hschema, hf⟩ := htype.exists_schema hf
      exact ((hw.sound.present hschema).field f hf).fixed
    exact (Correspondence.construct_congr htype hfixed (hsource.steady hw) (hother.steady hw)
      hsame).symm

namespace Sample

/-- A record with the fields of the second struct in another order, and one more. -/
def listing : Source :=
  .record [("z", .int 1), ("r", .int 7), ("b", .struct ⟨0, box⟩)]

/-- A record that gives the second field of a crate a text. -/
def misprint : Source :=
  .record [("r", .str "r")]

set_option maxRecDepth 4000 in
/-- A crate and a record with the same answers come to the same, a new crate with the old box in it.
The text is refused as it is by the field alone, after a new box was made for the first field. -/
theorem construct_fieldwise_crates : crates.Reachable ∧
    crates.Present (.type (.struct crate)) ∧ (FieldType.struct crate).HasObjects ∧
    crates.Offers (.struct ⟨1, crate⟩) ∧ crates.Offers listing ∧ crates.Offers misprint ∧
    ((FieldType.struct crate).construct (some listing)).run crates.realms.store =
      ((FieldType.struct crate).construct (some (.struct ⟨1, crate⟩))).run crates.realms.store ∧
    (∃ σ, ((FieldType.struct crate).construct (some listing)).run crates.realms.store =
      .ok (.struct ⟨2, crate⟩, σ) ∧ σ.cells[2]? = some ⟨crate, [.struct ⟨0, box⟩, .int 7]⟩) ∧
    ((FieldType.struct crate).construct (some misprint)).run crates.realms.store =
      .error (.typeMismatch "r" "uint8" "string") := by
  have htype : crates.Present (.type (.struct crate)) := .given (gave_at 1 0 rfl rfl)
  have hbox : crates.Present (.value (.struct ⟨0, box⟩)) := .given (gave_at 2 0 rfl rfl)
  have hcrate : crates.Offers (.struct ⟨1, crate⟩) := by
    intro v hv
    rw [Item.value.inj (List.mem_singleton.mp hv)]
    exact .inr (.given (gave_at 0 0 rfl rfl))
  have hlisting : crates.Offers listing := by
    intro v hv
    obtain ⟨entry, hentry, heq⟩ := List.mem_map.mp hv
    cases heq
    simp only [List.mem_cons, List.not_mem_nil, or_false] at hentry
    rcases hentry with rfl | rfl | rfl
    · exact .inl (.int 1)
    · exact .inl (.int 7)
    · exact .inr hbox
  have hmisprint : crates.Offers misprint := by
    intro v hv
    rw [Item.value.inj (List.mem_singleton.mp hv)]
    exact .inl (.str "r")
  obtain ⟨_, _, _, hother⟩ := construct_fieldwise crates_reachable htype (.struct crate) hcrate
  obtain ⟨herror, _⟩ := construct_fieldwise crates_reachable htype (.struct crate) hmisprint
  refine ⟨crates_reachable, htype, .struct crate, hcrate, hlisting, hmisprint, ?_, ⟨_, rfl, rfl⟩, ?_⟩
  · refine hother listing hlisting fun f hf _ => ?_
    rcases List.mem_cons.mp hf with rfl | hf
    · rfl
    · rw [List.mem_singleton.mp hf]
      rfl
  · refine (herror _).mpr ⟨1, _, rfl, rfl, fun g hg => ?_⟩
    rw [List.mem_singleton.mp hg]
    exact ⟨_, rfl⟩

end Sample

end World

end ValueTypes
