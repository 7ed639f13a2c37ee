import ValueTypes.Proofs.Schema.Array
import ValueTypes.Proofs.World.ArrayLength
import ValueTypes.Proofs.World.Fieldwise

/-! Array schemas in every run. A realm makes one for each length of 32 bits, unless the type of the
elements or the depth is refused, and the instances of types with such a schema have their elements
under the decimal indices below the length, and nothing under any other. -/

namespace ValueTypes

variable {μ : Type}

/-! ### Elements of instances -/

theorem names_of_fieldsEquivalent {fs gs : List Field} (h : fieldsEquivalent fs gs = true) :
    fs.map (·.name) = gs.map (·.name) := by
  induction fs generalizing gs with
  | nil =>
      cases gs with
      | nil => rfl
      | cons g gs => simp [fieldsEquivalent] at h
  | cons f fs ih =>
      cases gs with
      | nil => cases f; simp [fieldsEquivalent] at h
      | cons g gs =>
          simp only [fieldsEquivalent_cons, Bool.and_eq_true, beq_iff_eq] at h
          obtain ⟨⟨hname, _⟩, hrest⟩ := h
          rw [List.map_cons, List.map_cons, hname, ih hrest]

theorem Schema.names_of_equivalent {a b : Schema} (h : a.equivalent b = true) :
    a.names = b.names :=
  names_of_fieldsEquivalent h

namespace Schema.IsArray

variable {schema : Schema} {element : FieldType} {length : ℕ} {lengthType : ValueType}

theorem names_of_lt (h : schema.IsArray element length lengthType) {i : ℕ} (hi : i < length) :
    schema.names[i]? = some (toString i) :=
  getElem?_names (h.element i hi)

theorem names_length (h : schema.IsArray element length lengthType) :
    schema.names[length]? = some "length" :=
  getElem?_names h.last

/-- No index from the length on is the name of a field. -/
theorem toString_notMem (h : schema.IsArray element length lengthType) {i : ℕ}
    (hi : length ≤ i) : toString i ∉ schema.names := by
  intro hmem
  obtain ⟨k, hk⟩ := List.mem_iff_getElem?.mp hmem
  have hle : k ≤ length := by
    have hlt := (List.getElem?_eq_some_iff.mp hk).1
    rw [names, List.length_map, h.size] at hlt
    omega
  rcases Nat.lt_or_eq_of_le hle with hlt | rfl
  · rw [h.names_of_lt hlt] at hk
    have hik := toString_injective (Option.some.inj hk)
    omega
  · rw [h.names_length] at hk
    exact toString_ne_length i (Option.some.inj hk).symm

/-- The elements of an instance are its slots up to the length. -/
theorem getIndex?_eq (h : schema.IsArray element length lengthType) {i : Instance} {other : Schema}
    (hlayout : i.type.layout = .composite other) (hnames : other.names = schema.names)
    (hnodup : other.names.Nodup) (index : ℕ) :
    i.getIndex? index = if index < length then i.slots[index]? else none := by
  rw [Instance.getIndex?]
  split
  · rename_i hlt
    have hname := h.names_of_lt hlt
    rw [← hnames, names, List.getElem?_map] at hname
    obtain ⟨f, hf, hfname⟩ := Option.map_eq_some_iff.mp hname
    rw [← hfname]
    exact Instance.get?_eq hlayout hnodup hf
  · rename_i hge
    apply Instance.get?_eq_none hlayout
    rw [hnames]
    exact h.toString_notMem (Nat.le_of_not_lt hge)

end Schema.IsArray

/-! ### Schemas that are made -/

namespace World

/-- Whether a realm refuses to make a schema of an array. -/
def RefusesArray (w : World μ) (id : RealmId) (kind : SchemaKind) (element : FieldType) (n : ℕ) :
    Prop :=
  (0 < n ∧ (element.realm ≠ id ∨ kind = .value ∧ ∃ s, element = .struct s)) ∨
    (w.realms.realm id).config.maxNestingDepth < arrayDepth element n

/-- A request for an array schema in a run is refused for the type of a field, or else met with the
fields that were asked for. -/
theorem makeArraySchema_cases {w : World μ} (hw : w.Reachable) {id : RealmId}
    (hid : w.Gave (.realm id)) (kind : SchemaKind) {element : FieldType}
    (helement : w.Present (.type element)) {n : ℕ} (hn : n < 2 ^ 32) :
    (w.RefusesArray id kind element n ∧ ∃ name fault,
      ((w.realms.realm id).makeArraySchema kind element n).run w.realms.store =
        .error (.invalidFieldType name fault)) ∨
    (¬ w.RefusesArray id kind element n ∧ ∃ schema : Schema,
      ((w.realms.realm id).makeArraySchema kind element n).run w.realms.store =
        .ok (schema, w.realms.store) ∧
      schema.kind = kind ∧ schema.depth = arrayDepth element n ∧
      schema.fields =
        (arrayFields element n ((w.realms.realm id).primitive .uint32)).map FieldDraft.kept) := by
  have hsound := hw.sound_demands
  have hgave := (hsound.gave _ hid).realm_of
  have hrealm : (w.realms.realm id).policy.realm = id := hsound.realms.realm_id hgave
  have hprimitive := (hsound.realms.registry hgave).primitive_mem .uint32
  have hlength : w.Present (.type (.value ((w.realms.realm id).primitive .uint32))) :=
    .registered hid hprimitive
  have hmade := SchemaPolicy.makeSchema_arrayFields kind (hw.keyed hsound.realms id)
    (fun h => ⟨hsound.present helement, h.trans hrealm⟩) rfl rfl
    ⟨hsound.present hlength, hrealm⟩ (uint32_accepts hn) w.realms.store
  rw [hrealm] at hmade
  have hstruct : element.isValue = false ↔ ∃ s, element = .struct s := by
    cases element <;> simp [FieldType.isValue]
  rw [Realm.makeArraySchema, Realm.makeSchema, RefusesArray, ← hstruct, hmade]
  split
  · rename_i hforeign
    exact .inl ⟨.inl ⟨hforeign.1, .inl hforeign.2⟩, _, _, rfl⟩
  · rename_i hforeign
    split
    · rename_i hkind
      exact .inl ⟨.inl ⟨hkind.1, .inr hkind.2⟩, _, _, rfl⟩
    · rename_i hkind
      split
      · rename_i hdeep
        exact .inl ⟨.inr hdeep, _, _, rfl⟩
      · rename_i hdeep
        refine .inr ⟨?_, _, rfl, rfl, rfl, rfl⟩
        rintro (⟨hpos, hown | hvalue⟩ | h)
        · exact hforeign ⟨hpos, hown⟩
        · exact hkind ⟨hpos, hvalue⟩
        · exact hdeep h

/-- An instance of a type whose schema is that of an array has a slot for each element and one for
the length, and the elements are what it has under indices. -/
theorem elements_of_present {w : World μ} (hw : w.Reachable) {i : Instance}
    (hi : w.Present (.value (.inst i))) {schema other : Schema} {element : FieldType} {n : ℕ}
    {lengthType : ValueType} (h : schema.IsArray element n lengthType)
    (hlayout : i.type.layout = .composite other) (hequivalent : other.equivalent schema = true) :
    i.slots.length = n + 1 ∧
      ∀ index, i.getIndex? index = if index < n then i.slots[index]? else none := by
  have hnames := Schema.names_of_equivalent hequivalent
  have hsound := hw.sound.present hi
  have hnodup := (hw.sound.realms.closed i.type other hsound.inst_type hlayout).names
  obtain ⟨found, hfound, hslots⟩ := hsound.layout
  rw [hlayout] at hfound
  cases hfound
  refine ⟨?_, h.getIndex?_eq hlayout hnames hnodup⟩
  have hlength := congrArg List.length hnames
  rw [Schema.names, Schema.names, List.length_map, List.length_map, h.size] at hlength
  rw [← hslots.length_eq, hlength]

/-- A request for an array schema fails only for the type of a field: if the array has elements, and
these are of another realm or are structs in a schema for values, or if it is too deep. The schema
that is made has one field more than the array has elements. The element fields are found under
their indices, in order and without defaults, and the last field is the length, static and with the
length asked for. Every instance of a type with that schema, up to static flags and defaults, has
the elements in its slots under their indices, and has nothing under any other index. -/
theorem makeArraySchema_wellFormed {w : World μ} (hw : w.Reachable) {id : RealmId}
    (hid : w.Gave (.realm id)) (kind : SchemaKind) {element : FieldType}
    (helement : w.Present (.type element)) {n : ℕ} (hn : n < 2 ^ 32) :
    let made := ((w.realms.realm id).makeArraySchema kind element n).run w.realms.store
    (∀ e, made = .error e → ∃ name fault, e = .invalidFieldType name fault) ∧
    ((∃ e, made = .error e) ↔ w.RefusesArray id kind element n) ∧
    ∀ schema σ, made = .ok (schema, σ) → σ = w.realms.store ∧ schema.kind = kind ∧
      schema.depth = arrayDepth element n ∧
      schema.IsArray element n ((w.realms.realm id).primitive .uint32) ∧
      ((w.realms.realm id).primitive .uint32).layout = .primitive .uint32 ∧
      ∀ w', w.Leads w' → ∀ i : Instance, w'.Present (.value (.inst i)) → ∀ other,
        i.type.layout = .composite other → other.equivalent schema = true →
          i.slots.length = n + 1 ∧
            ∀ index, i.getIndex? index = if index < n then i.slots[index]? else none := by
  intro made
  rcases makeArraySchema_cases hw hid kind helement hn with
    ⟨hrefused, name, fault, herror⟩ | ⟨hrefused, made', hok, hkind, hdepth, hfields⟩
  · have herror : made = .error (.invalidFieldType name fault) := herror
    rw [herror]
    refine ⟨?_, iff_of_true ⟨_, rfl⟩ hrefused, ?_⟩
    · rintro e ⟨⟩
      exact ⟨name, fault, rfl⟩
    · rintro schema σ ⟨⟩
  · have hok : made = .ok (made', w.realms.store) := hok
    have harray := Schema.isArray_of_fields hfields
    rw [hok]
    refine ⟨?_, iff_of_false ?_ hrefused, ?_⟩
    · rintro e ⟨⟩
    · rintro ⟨e, ⟨⟩⟩
    · rintro schema σ ⟨⟩
      refine ⟨rfl, hkind, hdepth, harray, rfl, fun w' hrun i hi other hlayout hother => ?_⟩
      exact elements_of_present (hw.leads hrun) hi harray hlayout hother

namespace Sample

/-- The type of arrays of eleven bytes. -/
def strip : ValueType :=
  ⟨13, 1, ⟨13, some "C"⟩, .composite ⟨.value,
    (List.range 11).map (fun k => ⟨toString k, .value byte, false, none⟩) ++
      [⟨"length", .value word, true, some (.int 11)⟩], 0, 1⟩, .strict, 0⟩

/-- The elements by index. -/
def bytes : List (String × Value) :=
  (List.range 11).map fun k => (toString k, .int (20 + k))

/-- What is made from them. -/
def filledStrip : Instance :=
  ⟨1, strip, (List.range 11).map (fun k => .int (20 + k)) ++ [.int 11]⟩

def strips : World Unit :=
  (schemas.perform (.arrayType 1 ⟨13, some "C"⟩ (.value byte) 11)).perform
    (.construct strip (some (.record bytes)))

theorem strips_reachable : strips.Reachable := by
  refine schemas_reachable.leads (.step (.step .refl _ ?_) _ ?_)
  · exact List.forall_mem_cons.mpr ⟨.given (gave_at 3 0 rfl rfl),
      List.forall_mem_singleton.mpr (.given (gave_at 2 1 rfl rfl))⟩
  · refine List.forall_mem_cons.mpr ⟨.given (gave_at 0 0 rfl rfl), fun x hx => ?_⟩
    obtain ⟨entry, hentry, rfl⟩ := List.mem_map.mp hx
    obtain ⟨k, _, rfl⟩ := List.mem_map.mp hentry
    exact .plain (.int _)

set_option maxRecDepth 4000 in
/-- An array has its elements under their indices, of one digit or of two, and nothing behind them.
Structs are refused as elements of an array of values. -/
theorem makeArraySchema_wellFormed_strips : strips.Reachable ∧ strips.Gave (.realm 1) ∧
    strips.Present (.type (.value byte)) ∧ 11 < 2 ^ 32 ∧
    (∀ index : ℕ, filledStrip.getIndex? index =
      if index < 11 then some (.int (20 + index)) else none) ∧
    crates.RefusesArray 1 .value (.struct box) 1 := by
  have hgave : strips.Gave (.realm 1) := gave_at 5 0 rfl rfl
  have hbyte : strips.Present (.type (.value byte)) := .given (gave_at 4 1 rfl rfl)
  have hbox : crates.Present (.type (.struct box)) := .given (gave_at 3 0 rfl rfl)
  obtain ⟨_, _, hmade⟩ :=
    makeArraySchema_wellFormed strips_reachable hgave .value hbyte (n := 11) (by decide)
  obtain ⟨_, _, _, _, _, hinstances⟩ := hmade _ _ rfl
  obtain ⟨_, helements⟩ := hinstances strips .refl filledStrip
    (.given (gave_at 0 0 rfl rfl)) _ rfl rfl
  have hslots : ∀ index : ℕ, (if index < 11 then filledStrip.slots[index]? else none) =
      if index < 11 then some (.int (20 + index)) else none := by
    intro index
    split
    · rename_i hlt
      rw [filledStrip, List.getElem?_append_left (by simpa using hlt), List.getElem?_map,
        List.getElem?_range hlt, Option.map_some]
    · rfl
  obtain ⟨_, hrefused, _⟩ := makeArraySchema_wellFormed crates_reachable (gave_at 10 0 rfl rfl)
    .value hbox (n := 1) (by decide)
  exact ⟨strips_reachable, hgave, hbyte, by decide, fun index => (helements index).trans
    (hslots index), hrefused.mp ⟨_, rfl⟩⟩

end Sample

end World

end ValueTypes
