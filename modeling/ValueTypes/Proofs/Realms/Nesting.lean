import ValueTypes.Proofs.Realms.Sound
import ValueTypes.Proofs.Schema.Nesting

/-! What is below the types of realms. What a value type reaches is registered in its own realm, with
a smaller number; what a struct type reaches is sound, and the struct types among it have smaller
numbers. So surveys within a realm find the depths of types. -/

namespace ValueTypes

variable {μ : Type} {Θ : Scope} {Δ : Demands}

/-! ### Fields of sound types -/

namespace Scope.Closed

theorem field (hΘ : Θ.Closed) {a : FieldType} (ha : Θ.Sound (.type a)) {f : Field}
    (hf : f ∈ a.fields) : Θ.Sound (.type f.type) := by
  cases a with
  | value t =>
      cases ha with
      | valueType ht =>
          cases hlayout : t.layout with
          | primitive kind =>
              rw [FieldType.fields_primitive hlayout] at hf
              cases hf
          | composite schema =>
              rw [FieldType.fields_composite hlayout] at hf
              exact (hΘ t schema ht hlayout).types f hf
  | struct s => exact ha.struct_schema.types f hf

theorem reaches (hΘ : Θ.Closed) {a b : FieldType} (ha : Θ.Sound (.type a)) (h : a.Reaches b) :
    Θ.Sound (.type b) := by
  induction h with
  | refl => exact ha
  | field _ hf ih => exact hΘ.field ih hf

end Scope.Closed

/-! ### Value types -/

namespace Registry.WellFormed

variable {r : Registry μ}

theorem field (hr : r.WellFormed) {t : ValueType} (ht : t ∈ r.definitions) {f : Field}
    (hf : f ∈ (FieldType.value t).fields) : ∃ u ∈ r.definitions, f.type = .value u ∧ u.id < t.id := by
  cases hlayout : t.layout with
  | primitive kind =>
      rw [FieldType.fields_primitive hlayout] at hf
      cases hf
  | composite schema =>
      rw [FieldType.fields_composite hlayout] at hf
      exact hr.closed t ht schema hlayout f hf

/-- A definition reaches only definitions of its registry, none of which comes after it. -/
theorem reaches (hr : r.WellFormed) {t : ValueType} (ht : t ∈ r.definitions) {b : FieldType}
    (h : (FieldType.value t).Reaches b) : ∃ u ∈ r.definitions, b = .value u ∧ u.id ≤ t.id := by
  induction h with
  | refl => exact ⟨t, ht, rfl, Nat.le_refl _⟩
  | field _ hf ih =>
      obtain ⟨u, hu, rfl, hle⟩ := ih
      obtain ⟨v, hv, htype, hlt⟩ := hr.field hu hf
      exact ⟨v, hv, htype, hlt.le.trans hle⟩

end Registry.WellFormed

namespace Realms.Sound

variable {rs : Realms μ}

/-- A type of some realm is registered in the realm that it names. -/
theorem registered (hrs : rs.Sound Δ) {t : ValueType} (ht : rs.scope.type t) :
    rs.scope.realm t.realm ∧ t ∈ (rs.realm t.realm).registry.definitions := by
  obtain ⟨realm, hmem, hdefined⟩ := ht
  obtain ⟨k, hk⟩ := Array.mem_iff_getElem?.mp hmem
  have hrealm : t.realm = k + 1 :=
    ((hrs.wellFormed realm hmem).owned t hdefined).1.trans (hrs.numbered k realm hk)
  have hid : rs.scope.realm t.realm := by
    rw [hrealm]
    exact ⟨Nat.succ_pos k, (Array.getElem?_eq_some_iff.mp hk).1⟩
  exact ⟨hid, hrs.mem_of_realm_eq hid ⟨realm, hmem, hdefined⟩ rfl⟩

theorem value_sound (hrs : rs.Sound Δ) {t : ValueType}
    (ht : (rs.scope Δ).Sound (.type (.value t))) :
    (rs.realm t.realm).registry.WellFormed ∧ t ∈ (rs.realm t.realm).registry.definitions := by
  cases ht with
  | valueType htype =>
      obtain ⟨hid, hmem⟩ := hrs.registered htype
      exact ⟨hrs.registry hid, hmem⟩

/-! ### Struct types -/

/-- A struct type is reached by struct types only, and by none that was made before it. -/
theorem struct_le (hrs : rs.Sound Δ) {a : FieldType} (ha : (rs.scope Δ).Sound (.type a))
    {u : StructType} (h : a.Reaches (.struct u)) : ∃ s, a = .struct s ∧ u.id ≤ s.id := by
  generalize hb : FieldType.struct u = b at h
  induction h generalizing u with
  | refl => exact ⟨u, hb.symm, Nat.le_refl _⟩
  | @field b f hreach hf ih =>
      have hsound := hrs.closed.reaches ha hreach
      cases b with
      | value t =>
          obtain ⟨hwf, hmem⟩ := hrs.value_sound hsound
          obtain ⟨_, _, htype, _⟩ := hwf.field hmem hf
          rw [htype] at hb
          cases hb
      | struct v =>
          obtain ⟨s, rfl, hle⟩ := ih rfl
          exact ⟨s, rfl, (hsound.struct_below f hf u hb.symm).le.trans hle⟩

/-- Where struct types differ in their numbers, types of one realm differ in their keys. -/
theorem eq_of_key? (hrs : rs.Sound Δ)
    (hunique : ∀ s s', Δ.structType s → Δ.structType s' → s.id = s'.id → s = s')
    {a b : FieldType} (ha : (rs.scope Δ).Sound (.type a)) (hb : (rs.scope Δ).Sound (.type b))
    (hrealm : b.realm = a.realm) {key : TypeKey} (hkey : a.key? = some key)
    (hkey' : b.key? = some key) : a = b := by
  cases a with
  | value t =>
      cases FieldType.eq_of_key?_value hkey
      cases b with
      | value u =>
          have hid := TypeKey.value.inj (FieldType.eq_of_key?_value hkey')
          have hrealm' : u.realm = t.realm := hrealm
          obtain ⟨hwf, hmem⟩ := hrs.value_sound ha
          obtain ⟨_, hmem'⟩ := hrs.value_sound hb
          rw [hrealm'] at hmem'
          rw [hwf.eq_of_id hmem hmem' hid]
      | struct s => cases hkey'
  | struct s =>
      cases hkey
      cases b with
      | value u => cases FieldType.eq_of_key?_value hkey'
      | struct s' =>
          have hid : s'.id = s.id := TypeKey.struct.inj (Option.some.inj hkey')
          rw [hunique s s' ha.struct_made.2 hb.struct_made.2 hid.symm]

/-- Where struct types differ in their numbers, and have fields of their own realm only, no number
comes back below a type of a realm. -/
theorem keyed (hrs : rs.Sound Δ)
    (hunique : ∀ s s', Δ.structType s → Δ.structType s' → s.id = s'.id → s = s')
    (hrealm : ∀ s, Δ.structType s → ∀ f ∈ s.schema.fields, f.type.realm = s.realm)
    (id : RealmId) :
    Keyed fun type => (rs.scope Δ).Sound (.type type) ∧ type.realm = id where
  field a ha f hf := by
    obtain ⟨hsound, rfl⟩ := ha
    refine ⟨hrs.closed.field hsound hf, ?_⟩
    cases a with
    | value t =>
        obtain ⟨hwf, hmem⟩ := hrs.value_sound hsound
        obtain ⟨u, hu, htype, _⟩ := hwf.field hmem hf
        rw [htype]
        exact (hwf.owned u hu).1.trans (hwf.owned t hmem).1.symm
    | struct s => exact hrealm s hsound.struct_made.2 f hf
  depth_eq a b key ha hb hkey hkey' := by
    have hrealms : b.realm = a.realm := hb.2.trans ha.2.symm
    rw [hrs.eq_of_key? hunique ha.1 hb.1 hrealms hkey hkey']
  below a key ha hkey f hf b hreach hkey' := by
    obtain ⟨ha, -⟩ := ha
    cases a with
    | value t =>
        obtain ⟨hwf, hmem⟩ := hrs.value_sound ha
        obtain ⟨u, hu, htype, hlt⟩ := hwf.field hmem hf
        rw [htype] at hreach
        obtain ⟨v, _, rfl, hle⟩ := hwf.reaches hu hreach
        rw [FieldType.eq_of_key?_value hkey] at hkey'
        have hid := TypeKey.value.inj (FieldType.eq_of_key?_value hkey')
        exact absurd hid (hle.trans_lt hlt).ne'
    | struct s =>
        cases hkey
        cases b with
        | value u => cases FieldType.eq_of_key?_value hkey'
        | struct s' =>
            have hid : s'.id = s.id := TypeKey.struct.inj (Option.some.inj hkey')
            obtain ⟨v, htype, hle⟩ := hrs.struct_le (hrs.closed.field ha hf) hreach
            have hlt := ha.struct_below f hf v htype
            exact absurd hid (hle.trans_lt hlt).ne

end Realms.Sound

end ValueTypes
