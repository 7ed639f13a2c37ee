import ValueTypes.Proofs.Definition.Shape
import ValueTypes.Proofs.Item
import ValueTypes.Proofs.Store.Ensures

/-! Construction is sound: whatever the source, and in either mode, each slot that is filled gets
a sound value of the type of its field, and a static slot gets the default of its field. -/

namespace ValueTypes

variable {Θ : Scope}

theorem mem_of_lookup {α : Type} {entries : List (String × α)} {name : String} {v : α}
    (h : entries.lookup name = some v) : (name, v) ∈ entries := by
  obtain ⟨before, after, heq, _⟩ := List.lookup_eq_some_iff.mp h
  rw [heq]
  exact List.mem_append_right before (List.mem_cons_self ..)

/-! ### Reading -/

/-- Whether what is read from a source is sound. -/
def Source.Sound (Θ : Scope) : Source → Prop
  | record entries => ∀ e ∈ entries, Θ.Sound (.value e.2)
  | inst i => Θ.Sound (.value (.inst i))
  | struct s => Θ.Sound (.value (.struct s))

theorem Source.Sound.mono {Θ' : Scope} (hΘ : Θ.Within Θ') {source : Source}
    (h : source.Sound Θ) : source.Sound Θ' := by
  cases source with
  | record entries => exact fun e he => (h e he).mono hΘ
  | inst i => exact Scope.Sound.mono hΘ h
  | struct s => exact Scope.Sound.mono hΘ h

theorem Source.none_sound (Θ : Scope) : ∀ s, (none : Option Source) = some s → s.Sound Θ := by
  intro s heq
  cases heq

theorem Source.some_sound {source : Source} (h : source.Sound Θ) :
    ∀ s, some source = some s → s.Sound Θ := by
  intro s heq
  cases heq
  exact h

theorem Source.ofValue?_sound {v : Value} {source : Source} (hv : Θ.Sound (.value v))
    (h : Source.ofValue? v = some source) : source.Sound Θ := by
  cases v with
  | record id entries =>
      cases h
      exact hv.entries
  | inst i =>
      cases h
      exact hv
  | struct s =>
      cases h
      exact hv
  | _ => cases h

theorem Scope.Cells.get?_sound {store : Store} (hcells : Θ.Cells store) {s : StructInstance}
    {name : String} {v : Value} (h : store.get? s name = some v) : Θ.Sound (.value v) := by
  obtain ⟨cell, hcell, hget⟩ := Option.bind_eq_some_iff.mp h
  obtain ⟨_, hv⟩ := List.of_mem_zip (mem_of_lookup hget)
  exact (hcells cell (Array.mem_of_getElem? hcell)).fills.sound v hv

theorem Source.get?_sound {store : Store} (hcells : Θ.Cells store) {source : Source}
    (hsource : source.Sound Θ) {name : String} {v : Value}
    (h : source.get? store name = some v) : Θ.Sound (.value v) := by
  cases source with
  | record entries => exact hsource _ (mem_of_lookup h)
  | inst i =>
      obtain ⟨_, hv⟩ := List.of_mem_zip (mem_of_lookup h)
      exact hsource.slots v hv
  | struct s => exact hcells.get?_sound h

theorem readGiven_ensures {source : Option Source} (hsource : ∀ s, source = some s → s.Sound Θ)
    (name : String) :
    Build.Ensures Θ (readGiven source name)
      fun Θ' given => ∀ v, given = some v → Θ'.Sound (.value v) := by
  refine .read fun σ hσ v hv => ?_
  obtain ⟨hread, _⟩ := Option.filter_eq_some_iff.mp hv
  obtain ⟨s, hs, hget⟩ := Option.bind_eq_some_iff.mp hread
  exact Source.get?_sound hσ (hsource s hs) hget

/-! ### Fields -/

/-- A sound value of a type. -/
structure Scope.Typed (Θ : Scope) (type : FieldType) (v : Value) : Prop where
  sound : Θ.Sound (.value v)
  typed : v.HasType type

theorem Scope.Typed.mono {Θ' : Scope} (hΘ : Θ.Within Θ') {type : FieldType} {v : Value}
    (h : Θ.Typed type v) : Θ'.Typed type v :=
  ⟨h.sound.mono hΘ, h.typed⟩

/-- What a field demands of its default. -/
structure Field.Sound (Θ : Scope) (f : Field) : Prop where
  default : ∀ d, f.default = some d → Θ.Typed f.type d
  fixed : f.isStatic = true → f.default.isSome

theorem Field.Sound.mono {Θ' : Scope} (hΘ : Θ.Within Θ') {f : Field} (h : f.Sound Θ) :
    f.Sound Θ' :=
  ⟨fun d hd => (h.default d hd).mono hΘ, h.fixed⟩

theorem Scope.Sound.field {schema : Schema} (h : Θ.Sound (.schema schema)) :
    ∀ f ∈ schema.fields, f.Sound Θ := by
  cases h with
  | schema _ _ _ defaults typed fixed =>
      intro f hf
      exact ⟨fun d hd => ⟨defaults f hf d hd, typed f hf d hd⟩, fixed f hf⟩

/-- All four ways to the value of a field end in a sound value that the field admits. -/
theorem resolveField_ensures {f : Field} (hf : f.Sound Θ) {given : Build (Option Value)}
    {coerce : Value → Build Value} {defaulted : Build Value}
    (hgiven : Build.Ensures Θ given
      fun Θ' given => ∀ v, given = some v → Θ'.Sound (.value v))
    (hcoerce : ∀ Θ', Θ.Grows Θ' → ∀ v, Θ'.Sound (.value v) →
      Build.Ensures Θ' (coerce v) fun Θ'' => Θ''.Typed f.type)
    (hdefaulted : ∀ Θ', Θ.Grows Θ' → Build.Ensures Θ' defaulted fun Θ'' => Θ''.Typed f.type) :
    Build.Ensures Θ (resolveField f.isStatic f.default given coerce defaulted)
      fun Θ' v => Θ'.Sound (.value v) ∧ f.Admits v := by
  cases hstatic : f.isStatic with
  | true =>
      obtain ⟨d, hd⟩ := Option.isSome_iff_exists.mp (hf.fixed hstatic)
      have htyped := hf.default d hd
      rw [hd]
      exact .pure ⟨htyped.sound, htyped.typed, fun _ => hd⟩
  | false =>
      have admits : ∀ (Θ' : Scope) v, Θ'.Typed f.type v → Θ'.Sound (.value v) ∧ f.Admits v := by
        intro Θ' v hv
        refine ⟨hv.sound, hv.typed, fun h => ?_⟩
        rw [hstatic] at h
        cases h
      refine hgiven.bind fun Θ' hΘ' given hsound => ?_
      cases given with
      | some v => exact (hcoerce Θ' hΘ' v (hsound v rfl)).mono admits
      | none =>
          cases hdefault : f.default with
          | some d => exact .pure (admits Θ' d ((hf.default d hdefault).mono hΘ'.within))
          | none => exact (hdefaulted Θ' hΘ').mono admits

/-- Whether conversion to a type, and its default, give sound values of the type, however many
structs there are by then. -/
structure FieldType.Converts (Θ : Scope) (type : FieldType) : Prop where
  coerce : ∀ Θ', Θ.Grows Θ' → ∀ mode name v, Θ'.Sound (.value v) →
    Build.Ensures Θ' (type.coerce mode name v) fun Θ'' => Θ''.Typed type
  default : ∀ Θ', Θ.Grows Θ' → ∀ owner name,
    Build.Ensures Θ' (type.defaultValue owner name) fun Θ'' => Θ''.Typed type

theorem FieldType.Converts.grow {Θ' : Scope} (hΘ : Θ.Grows Θ') {type : FieldType}
    (h : type.Converts Θ) : type.Converts Θ' :=
  ⟨fun Θ'' hΘ' => h.coerce Θ'' (hΘ.trans hΘ'), fun Θ'' hΘ' => h.default Θ'' (hΘ.trans hΘ')⟩

/-- The slots of an instance are filled with one sound value for each field. -/
theorem fillSlots_ensures {fields : List Field} (hfields : ∀ f ∈ fields, f.Sound Θ)
    (hconverts : ∀ f ∈ fields, f.type.Converts Θ) (owner : String) (mode : CoercionMode)
    {source : Option Source} (hsource : ∀ s, source = some s → s.Sound Θ) :
    Build.Ensures Θ (fillSlots fields owner mode source) fun Θ' => Θ'.Fills fields := by
  induction fields generalizing Θ with
  | nil => exact .pure ⟨.nil, fun v hv => nomatch hv⟩
  | cons f fields ih =>
      have hf := hconverts f (List.mem_cons_self ..)
      rw [fillSlots_cons]
      refine (resolveField_ensures (hfields f (List.mem_cons_self ..))
        (readGiven_ensures hsource f.name) (fun Θ' hΘ' => hf.coerce Θ' hΘ' mode f.name)
        (fun Θ' hΘ' => hf.default Θ' hΘ' owner f.name)).bind fun Θ' hΘ' v hv => ?_
      -- The first field may have added structs, and the others are filled with those in place.
      refine (ih (fun g hg => (hfields g (List.mem_cons_of_mem f hg)).mono hΘ'.within)
        (fun g hg => (hconverts g (List.mem_cons_of_mem f hg)).grow hΘ')
        fun s hs => (hsource s hs).mono hΘ'.within).bind fun Θ'' hΘ'' vs hvs => .pure ?_
      refine ⟨.cons hv.2 hvs.admits, fun w hw => ?_⟩
      rcases List.mem_cons.mp hw with rfl | hw
      · exact hv.1.mono hΘ''.within
      · exact hvs.sound w hw

/-! ### Instances and structs -/

theorem sourceOf_ensures {v : Value} (hv : Θ.Sound (.value v)) (field expected : String) :
    Build.Ensures Θ (sourceOf field expected v) fun Θ' source => source.Sound Θ' := by
  rw [sourceOf]
  cases hsource : Source.ofValue? v with
  | some source => exact .pure (Source.ofValue?_sound hv hsource)
  | none => exact .throw _

theorem newInstance_ensures {t : ValueType} {schema : Schema} (ht : Θ.type t)
    (hlayout : t.layout = .composite schema) {slots : Build (List Value)}
    (hslots : Build.Ensures Θ slots fun Θ' => Θ'.Fills schema.fields) :
    Build.Ensures Θ (Build.newInstance t slots)
      fun Θ' i => i.type = t ∧ Θ'.Sound (.value (.inst i)) := by
  refine hslots.bind fun Θ' hΘ' slots hfills => ?_
  refine Build.Ensures.newId.bind fun Θ'' hΘ'' id _ => .pure ⟨rfl, ?_⟩
  have ht' := (hΘ'.trans hΘ'').within.type t ht
  exact .inst ht' hlayout hfills.admits fun v hv => (hfills.sound v hv).mono hΘ''.within

/-- Allocation of a struct makes the scope larger by one struct. -/
theorem newStruct_ensures {s : StructType} (hs : Θ.Sound (.type (.struct s)))
    {slots : Build (List Value)}
    (hslots : Build.Ensures Θ slots fun Θ' => Θ'.Fills s.schema.fields) :
    Build.Ensures Θ (Build.newStruct s slots)
      fun Θ' i => i.type = s ∧ Θ'.Sound (.value (.struct i)) := by
  refine hslots.bind fun Θ' hΘ' slots hfills => .modifyGet fun σ hσ => ?_
  have hgrows : Θ'.Grows { Θ' with
      structAt := { σ with cells := σ.cells.push ⟨s, slots⟩ }.typeAt? } := by
    refine ⟨rfl, rfl, rfl, rfl, fun k u hu => σ.extends_push ⟨s, slots⟩ k u ?_⟩
    rw [← hσ.structAt]
    exact hu
  have hs' := hs.mono (hΘ'.trans hgrows).within
  refine ⟨_, hgrows, ⟨fun k => rfl, fun cell hcell => ?_⟩, rfl, .struct hs' (σ.typeAt?_push _)⟩
  rcases Array.mem_push.mp hcell with hcell | rfl
  · exact (hσ.cells cell hcell).mono hgrows.within
  · exact ⟨hs', hfills.admits, fun v hv => (hfills.sound v hv).mono hgrows.within⟩

theorem StructType.construct_ensures_of {s : StructType} (hs : Θ.Sound (.type (.struct s)))
    (hconverts : ∀ f ∈ s.schema.fields, f.type.Converts Θ) {source : Option Source}
    (hsource : ∀ s, source = some s → s.Sound Θ) :
    Build.Ensures Θ (s.construct source)
      fun Θ' i => i.type = s ∧ Θ'.Sound (.value (.struct i)) :=
  newStruct_ensures hs
    (fillSlots_ensures hs.struct_schema.field hconverts s.name s.coercion hsource)

theorem ValueType.construct_ensures_of (hΘ : Θ.Closed) {t : ValueType} (ht : Θ.type t)
    (hconverts : ∀ schema, t.layout = .composite schema →
      ∀ f ∈ schema.fields, f.type.Converts Θ)
    {source : Option Source} (hsource : ∀ s, source = some s → s.Sound Θ) :
    Build.Ensures Θ (t.construct source)
      fun Θ' i => i.type = t ∧ Θ'.Sound (.value (.inst i)) := by
  rw [construct]
  cases hlayout : t.layout with
  | primitive kind => exact .throw _
  | composite schema =>
      have hschema := hΘ t schema ht hlayout
      exact newInstance_ensures ht hlayout
        (fillSlots_ensures hschema.field (hconverts schema hlayout) t.name t.coercion hsource)

/-- A new instance is of the type that it was constructed of. -/
theorem ValueType.type_of_construct {t : ValueType} {source : Option Source} {σ σ' : Store}
    {i : Instance} (h : (t.construct source).run σ = .ok (i, σ')) : i.type = t := by
  rw [construct] at h
  cases hlayout : t.layout with
  | primitive kind =>
      rw [hlayout] at h
      cases h
  | composite schema =>
      rw [hlayout] at h
      obtain ⟨_, _, _, h⟩ := Build.bind_eq_ok h
      cases h
      rfl

/-- A new struct is of the type that it was constructed of. -/
theorem StructType.type_of_construct {s : StructType} {source : Option Source} {σ σ' : Store}
    {i : StructInstance} (h : (s.construct source).run σ = .ok (i, σ')) : i.type = s := by
  obtain ⟨_, _, _, h⟩ := Build.bind_eq_ok h
  cases h
  rfl

/-! ### Conversion -/

/-- A value of a type converts to itself. -/
theorem FieldType.coerce_of_hasType {type : FieldType} {v : Value} (h : v.HasType type)
    (mode : CoercionMode) (name : String) : type.coerce mode name v = pure v := by
  cases h with
  | primitive ht hv =>
      rw [coerce_primitive ht, PrimitiveKind.coerce_of_accepts hv]
      rfl
  | composite ht hv => rw [coerce_composite ht, if_pos hv]
  | struct hv => rw [coerce_struct, if_pos hv]

/-- Conversion gives a value of the type, whatever the store. -/
theorem FieldType.hasType_of_coerce {type : FieldType} {mode : CoercionMode} {name : String}
    {v u : Value} {σ σ' : Store} (h : (type.coerce mode name v).run σ = .ok (u, σ')) :
    u.HasType type := by
  cases type with
  | value t =>
      cases ht : t.layout with
      | primitive kind =>
          rw [coerce_primitive ht] at h
          cases hw : kind.coerce mode name v with
          | error e =>
              rw [hw] at h
              cases h
          | ok w =>
              rw [hw] at h
              cases h
              exact .primitive ht (PrimitiveKind.coerce_accepts hw)
      | composite schema =>
          rw [coerce_composite ht] at h
          split at h
          · rename_i hinst
            cases h
            exact .composite ht hinst
          · obtain ⟨_, _, _, h⟩ := Build.bind_eq_ok h
            obtain ⟨i, _, hconstruct, h⟩ := Build.bind_eq_ok h
            cases h
            cases ValueType.type_of_construct hconstruct
            exact .composite ht i.type.equivalent_refl
  | struct s =>
      rw [coerce_struct] at h
      split at h
      · rename_i hstruct
        cases h
        exact .struct hstruct
      · obtain ⟨_, _, _, h⟩ := Build.bind_eq_ok h
        obtain ⟨i, _, hconstruct, h⟩ := Build.bind_eq_ok h
        cases h
        cases StructType.type_of_construct hconstruct
        exact .struct (beq_self_eq_true _)

/-- Conversion to a primitive type. -/
theorem FieldType.Converts.of_primitive {t : ValueType} {kind : PrimitiveKind}
    (ht : t.layout = .primitive kind) : (FieldType.value t).Converts Θ where
  coerce Θ' _ mode name v _ := by
    rw [FieldType.coerce_primitive ht]
    refine .lift fun w hw => ?_
    have haccepts := PrimitiveKind.coerce_accepts hw
    exact ⟨.plain haccepts.plain, .primitive ht haccepts⟩
  default Θ' _ owner name := by
    rw [FieldType.defaultValue_primitive ht]
    cases hdefault : kind.default? with
    | none => exact .throw _
    | some v =>
        have haccepts := PrimitiveKind.default?_accepts hdefault
        exact .pure ⟨.plain haccepts.plain, .primitive ht haccepts⟩

/-- Conversion to a composite type, which shares or constructs an instance. -/
theorem FieldType.Converts.of_composite (hΘ : Θ.Closed) {t : ValueType} {schema : Schema}
    (ht : t.layout = .composite schema) (hknown : Θ.type t)
    (hconverts : ∀ f ∈ schema.fields, f.type.Converts Θ) : (FieldType.value t).Converts Θ := by
  have hconstruct : ∀ Θ', Θ.Grows Θ' → ∀ source, (∀ s, source = some s → s.Sound Θ') →
      Build.Ensures Θ' (t.construct source)
        fun Θ'' i => i.type = t ∧ Θ''.Sound (.value (.inst i)) := by
    intro Θ' hΘ' source hsource
    refine ValueType.construct_ensures_of (hΘ'.closed hΘ) (hΘ'.within.type t hknown) ?_ hsource
    -- Construction looks the schema up again, and finds the one at hand.
    intro schema' ht' f hf
    rw [ht] at ht'
    cases ht'
    exact (hconverts f hf).grow hΘ'
  have htyped : ∀ (Θ' : Scope) (i : Instance), i.type = t ∧ Θ'.Sound (.value (.inst i)) →
      Θ'.Typed (.value t) (.inst i) := by
    rintro Θ' i ⟨rfl, hi⟩
    exact ⟨hi, .composite ht i.type.equivalent_refl⟩
  constructor
  · intro Θ' hΘ' mode name v hv
    rw [FieldType.coerce_composite ht]
    split
    · rename_i hinst
      exact .pure ⟨hv, .composite ht hinst⟩
    · refine (sourceOf_ensures hv name t.name).bind fun Θ'' hΘ'' source hsource => ?_
      exact (hconstruct Θ'' (hΘ'.trans hΘ'') _ (Source.some_sound hsource)).bind
        fun _ _ i hi => .pure (htyped _ i hi)
  · intro Θ' hΘ' owner name
    rw [FieldType.defaultValue_composite ht]
    exact (hconstruct Θ' hΘ' _ (Source.none_sound Θ')).bind
      fun _ _ i hi => .pure (htyped _ i hi)

/-- Conversion to a struct type, which shares or constructs a struct. -/
theorem FieldType.Converts.of_struct {s : StructType} (hs : Θ.Sound (.type (.struct s)))
    (hconverts : ∀ f ∈ s.schema.fields, f.type.Converts Θ) :
    (FieldType.struct s).Converts Θ := by
  have hconstruct : ∀ Θ', Θ.Grows Θ' → ∀ source, (∀ s, source = some s → s.Sound Θ') →
      Build.Ensures Θ' (s.construct source)
        fun Θ'' i => i.type = s ∧ Θ''.Sound (.value (.struct i)) :=
    fun Θ' hΘ' source hsource => StructType.construct_ensures_of (hs.mono hΘ'.within)
      (fun f hf => (hconverts f hf).grow hΘ') hsource
  have htyped : ∀ (Θ' : Scope) (i : StructInstance),
      i.type = s ∧ Θ'.Sound (.value (.struct i)) → Θ'.Typed (.struct s) (.struct i) := by
    rintro Θ' i ⟨rfl, hi⟩
    exact ⟨hi, .struct (beq_self_eq_true _)⟩
  constructor
  · intro Θ' hΘ' mode name v hv
    rw [FieldType.coerce_struct]
    split
    · rename_i hstruct
      exact .pure ⟨hv, .struct hstruct⟩
    · refine (sourceOf_ensures hv name s.name).bind fun Θ'' hΘ'' source hsource => ?_
      exact (hconstruct Θ'' (hΘ'.trans hΘ'') _ (Source.some_sound hsource)).bind
        fun _ _ i hi => .pure (htyped _ i hi)
  · intro Θ' hΘ' owner name
    rw [FieldType.defaultValue_struct]
    exact (hconstruct Θ' hΘ' _ (Source.none_sound Θ')).bind
      fun _ _ i hi => .pure (htyped _ i hi)

/-- In a closed scope every sound type converts soundly. -/
theorem Scope.Closed.converts (hΘ : Θ.Closed) (type : FieldType) (h : Θ.Sound (.type type)) :
    type.Converts Θ := by
  induction type using FieldType.inductionOn with
  | primitive t kind ht => exact .of_primitive ht
  | composite t schema ht ih =>
      cases h with
      | valueType hknown =>
          have hschema := hΘ t schema hknown ht
          exact .of_composite hΘ ht hknown fun f hf => ih f hf (hschema.types f hf)
  | struct s ih => exact .of_struct h fun f hf => ih f hf (h.struct_schema.types f hf)

/-! ### Calls from outside -/

theorem ValueType.construct_ensures (hΘ : Θ.Closed) {t : ValueType} (ht : Θ.type t)
    {source : Option Source} (hsource : ∀ s, source = some s → s.Sound Θ) :
    Build.Ensures Θ (t.construct source)
      fun Θ' i => i.type = t ∧ Θ'.Sound (.value (.inst i)) :=
  construct_ensures_of hΘ ht
    (fun schema hlayout f hf => hΘ.converts f.type ((hΘ t schema ht hlayout).types f hf)) hsource

theorem StructType.construct_ensures (hΘ : Θ.Closed) {s : StructType}
    (hs : Θ.Sound (.type (.struct s))) {source : Option Source}
    (hsource : ∀ s, source = some s → s.Sound Θ) :
    Build.Ensures Θ (s.construct source)
      fun Θ' i => i.type = s ∧ Θ'.Sound (.value (.struct i)) :=
  construct_ensures_of hs (fun f hf => hΘ.converts f.type (hs.struct_schema.types f hf)) hsource

theorem ValueType.coerce_ensures (hΘ : Θ.Closed) {t : ValueType} (ht : Θ.type t) {v : Value}
    (hv : Θ.Sound (.value v)) :
    Build.Ensures Θ (t.coerce v) fun Θ' w => Θ'.Sound (.value w) := by
  cases hlayout : t.layout with
  | primitive kind =>
      rw [coerce_of_primitive hlayout]
      exact .lift fun w hw => .plain (PrimitiveKind.coerce_accepts hw).plain
  | composite schema =>
      rw [coerce_of_composite hlayout]
      refine (sourceOf_ensures hv t.name t.name).bind fun Θ' hΘ' source hsource => ?_
      exact (construct_ensures (hΘ'.closed hΘ) (hΘ'.within.type t ht)
        (Source.some_sound hsource)).bind fun _ _ i hi => .pure hi.2

/-! ### Writing -/

theorem forall₂_set {α β : Type} {R : α → β → Prop} {as : List α} {bs : List β}
    (h : List.Forall₂ R as bs) {k : Nat} {a : α} {b : β} (ha : as[k]? = some a) (hR : R a b) :
    List.Forall₂ R as (bs.set k b) := by
  induction h generalizing k with
  | nil => cases ha
  | cons hhead htail ih =>
      cases k with
      | zero =>
          cases ha
          exact .cons hR htail
      | succ k => exact .cons hhead (ih ha)

theorem Schema.getElem?_of_indexOf? {schema : Schema} {name : String} {index : Nat} {f : Field}
    (hindex : schema.indexOf? name = some index) (hf : schema.field? name = some f) :
    schema.fields[index]? = some f := by
  rw [indexOf?] at hindex
  rw [field?] at hf
  generalize schema.fields = fields at hindex hf ⊢
  induction fields generalizing index with
  | nil => cases hf
  | cons g fields ih =>
      rw [List.findIdx?_cons] at hindex
      rw [List.find?_cons] at hf
      cases hname : g.name == name with
      | true =>
          rw [hname] at hindex hf
          cases hindex
          exact hf
      | false =>
          rw [hname] at hindex hf
          rcases Option.map_eq_some_iff.mp hindex with ⟨k, hk, rfl⟩
          exact ih hk hf

/-- A field of a struct may be given any sound value that it admits. -/
theorem write_ensures {s : StructInstance} (hs : Θ.Sound (.value (.struct s))) {index : Nat}
    {f : Field} (hf : s.type.schema.fields[index]? = some f) {v : Value}
    (hv : Θ.Sound (.value v)) (hadmits : f.Admits v) :
    Build.Ensures Θ (Build.write s index v) fun _ _ => True := by
  refine .modifyGet fun σ hσ => ⟨Θ, .refl Θ, ⟨fun k => ?_, fun cell hcell => ?_⟩, trivial⟩
  · rw [hσ.structAt, eq_comm]
    exact σ.typeAt?_modify s.address (fun cell => { cell with slots := cell.slots.set index v })
      (fun _ => rfl) k
  · rcases Array.mem_iff_getElem?.mp hcell with ⟨k, hk⟩
    rw [Array.getElem?_modify] at hk
    split at hk
    · rename_i haddress
      rcases Option.map_eq_some_iff.mp hk with ⟨old, hold, rfl⟩
      have hsound := hσ.cells old (Array.mem_of_getElem? hold)
      -- The handle tells the type of the struct that it leads to.
      have htype : old.type = s.type := by
        have hlive := hs.live
        rw [haddress, hσ.structAt, Store.typeAt?_of_getElem? hold] at hlive
        exact Option.some.inj hlive
      refine ⟨hsound.type, forall₂_set hsound.fills.admits (htype ▸ hf) hadmits, fun w hw => ?_⟩
      rcases List.mem_or_eq_of_mem_set hw with hw | rfl
      · exact hsound.fills.sound w hw
      · exact hv
    · exact hσ.cells cell (Array.mem_of_getElem? hk)

theorem StructInstance.set_ensures (hΘ : Θ.Closed) {s : StructInstance}
    (hs : Θ.Sound (.value (.struct s))) (name : String) {v : Value} (hv : Θ.Sound (.value v)) :
    Build.Ensures Θ (s.set name v) fun _ _ => True := by
  rw [set]
  split
  · rename_i index field hindex hfield
    split
    · exact .throw _
    · rename_i hstatic
      have htype := hs.struct_type.struct_schema.types field (List.mem_of_find?_eq_some hfield)
      refine ((hΘ.converts field.type htype).coerce Θ (.refl Θ) s.type.coercion name v hv).bind ?_
      intro Θ' hΘ' w hw
      exact write_ensures (hs.mono hΘ'.within) (Schema.getElem?_of_indexOf? hindex hfield)
        hw.sound ⟨hw.typed, fun h => absurd h hstatic⟩
  · exact .throw _

theorem setProperty_ensures (hΘ : Θ.Closed) {target : Value} (ht : Θ.Sound (.value target))
    (name : String) {v : Value} (hv : Θ.Sound (.value v)) :
    Build.Ensures Θ (setProperty target name v) fun _ _ => True := by
  cases target with
  | inst i => exact .throw _
  | struct s => exact s.set_ensures hΘ ht name hv
  | _ => exact .throw _

end ValueTypes
