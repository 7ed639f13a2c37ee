import ValueTypes.Proofs.Attempt.Realms
import ValueTypes.Proofs.Construction.SingleField
import ValueTypes.Proofs.World.Reconstruction
import ValueTypes.Proofs.World.Schemas
import ValueTypes.Proofs.World.Writes

/-! All ways to give a value to a field agree in every run. A value can be converted to the type of the
field, be given in a record for a new instance or struct, be written into a struct, or be declared as
the default of the field: each comes to one conversion to the type of the field, in the mode of the
realm. Conversion to the type itself makes a new instance where a field shares the one it is given,
and names the type where it does not take the value at all. -/

namespace ValueTypes

variable {μ : Type}

/-! ### Conversion to a type and to a field of it -/

/-- How the conversion of a value to a type ends beside the conversion to a field of the type. A value
of a sort that the type does not take is refused in the name of the type in place of the field; an
error inside of an object is one and the same; and values have the same leaves. -/
inductive ValueType.CoercesLike (t : ValueType) (name : String) (x : Value) :
    Except Error (Value × Store) → Except Error (Value × Store) → Prop where
  | refused : CoercesLike t name x (.error (.typeMismatch t.name t.name x.typeName))
      (.error (.typeMismatch name t.name x.typeName))
  | inside {schema source e} (layout : t.layout = .composite schema)
      (object : Source.ofValue? x = some source) : CoercesLike t name x (.error e) (.error e)
  | done {u υ v τ} (leaves : ∀ path leaf, leaf.Plain →
      (υ.read? u path = some leaf ↔ τ.read? v path = some leaf)) :
      CoercesLike t name x (.ok (u, υ)) (.ok (v, τ))

theorem ValueType.CoercesLike.refl_of_object {t : ValueType} {schema : Schema}
    (layout : t.layout = .composite schema) {x : Value} {source : Source}
    (object : Source.ofValue? x = some source) (name : String)
    (result : Except Error (Value × Store)) : t.CoercesLike name x result result := by
  cases result with
  | error e => exact .inside layout object
  | ok r => exact .done fun _ _ _ => Iff.rfl

namespace Realms.Sound

variable {rs : Realms μ}

theorem name_of_primitive (hseeded : rs.Seeded) {t : ValueType} (ht : rs.scope.type t)
    {kind : PrimitiveKind} (hlayout : t.layout = .primitive kind) : t.name = kind.name := by
  obtain ⟨realm, hmem, ht⟩ := ht
  rw [hseeded.eq_primitive realm hmem t ht kind hlayout]
  rfl

/-- A new instance made of one that a field would share has the same leaves. -/
theorem coerce_inst_like (hrs : rs.Sound) (hseeded : rs.Seeded) {t : ValueType}
    (ht : rs.scope.type t) {i : Instance} (hi : rs.scope.Sound (.value (.inst i)))
    (h : i.type.equivalent t = true) (name : String) (σ : Store) :
    t.CoercesLike name (.inst i) ((t.coerce (.inst i)).run σ) (.ok (.inst i, σ)) := by
  have hshape := (ValueType.equivalent_iff_shape hrs.faithful hi.inst_type ht).mp h
  obtain ⟨slots, hrun, hj, hslots⟩ := hrs.construct_of_shape hi ht hshape σ
  have hrelated := hrs.related_of_eq_or_leafless hi hj hshape { σ with nextId := σ.nextId + 1 }
    ((hrs.eq_or_leafless hseeded hi ht hshape).imp (fun heq => ⟨heq, (hslots heq).symm⟩)
      fun hleaf => hleaf _)
  obtain ⟨_, ha, _⟩ := hi.layout
  obtain ⟨schema, hlayout, _, _⟩ := ValueType.composite_of_shape ha hshape
  have hcoerce : (t.coerce (.inst i)).run σ =
      .ok (.inst ⟨σ.nextId, t, slots⟩, { σ with nextId := σ.nextId + 1 }) := by
    rw [ValueType.coerce_of_composite hlayout]
    change (do return Value.inst (← t.construct (some (.inst i)))).run σ = _
    rw [StateT.run_bind, hrun]
    rfl
  rw [hcoerce]
  refine .done fun path leaf hleaf => ?_
  rw [← (hrs.conforms hi i i.type rfl i.type.equivalent_refl).read?_eq σ
    { σ with nextId := σ.nextId + 1 }]
  exact (hrelated.read?_iff path hleaf).symm

/-- Conversion to a type is like the conversion to a field of the type in its own mode. -/
theorem coerce_like (hrs : rs.Sound) (hseeded : rs.Seeded) {t : ValueType} (ht : rs.scope.type t)
    {x : Value} (hx : rs.scope.Sound (.value x)) (name : String) (σ : Store) :
    t.CoercesLike name x ((t.coerce x).run σ)
      (((FieldType.value t).coerce t.coercion name x).run σ) := by
  cases hlayout : t.layout with
  | primitive kind =>
      have hname := name_of_primitive hseeded ht hlayout
      rw [FieldType.coerce_primitive hlayout, ValueType.coerce_of_primitive hlayout,
        PrimitiveKind.coerce, PrimitiveKind.coerce, ← hname]
      cases kind.convert? t.coercion x with
      | none => exact .refused
      | some w => exact .done fun _ _ _ => Iff.rfl
  | composite schema =>
      rw [FieldType.coerce_composite hlayout]
      by_cases hinst : x.isInstanceOf t = true
      · rw [if_pos hinst]
        cases x with
        | inst i => exact hrs.coerce_inst_like hseeded ht hx hinst name σ
        | _ => cases hinst
      · rw [if_neg hinst, ValueType.coerce_of_composite hlayout, sourceOf, sourceOf]
        cases hsource : Source.ofValue? x with
        | none => exact .refused
        | some source => exact .refl_of_object hlayout hsource name _

end Realms.Sound

/-! ### Fresh definitions -/

namespace Realms

variable {rs : Realms μ} {id : RealmId} {drafts : List FieldDraft}

/-- How a definition ends that comes after a conversion: it is refused with the error of the
conversion, or what was converted goes into a type, and the store is as the conversion left it. -/
inductive Declares {α β : Type} (rs : Realms μ) (Q : α → β → Prop) :
    Except Error (β × Store) → Except Error α × Realms μ → Prop where
  | refused (e) : Declares rs Q (.error e) (.error e, rs)
  | made {v τ a rs'} (store : rs'.store = τ) (made : Q a v) : Declares rs Q (.ok (v, τ)) (.ok a, rs')

/-- Under a symbol that has no definition yet, a schema that is made becomes the next definition. -/
theorem valueType_declares {β : Type} {symbol : Symbol} (schema : β → Schema)
    {converted : Except Error (β × Store)}
    (hrun : ((rs.realm id).makeSchema .value drafts).run rs.store =
      converted.map fun r => (schema r.1, r.2))
    (hfresh : (rs.realm id).registry.definitionsOf symbol = []) :
    Declares rs (fun W v => W = (rs.realm id).registry.next ⟨symbol, schema v⟩) converted
      (rs.valueType id symbol drafts) := by
  rw [valueType, internSchema, build, hrun]
  cases converted with
  | error e => exact .refused e
  | ok r =>
      obtain ⟨v, τ⟩ := r
      have hfind : (rs.realm id).registry.find? ⟨symbol, schema v⟩ = none := by
        rw [Registry.find?, hfresh]
        rfl
      have hintern : ({ rs with store := τ }.realm id).registry.intern ⟨symbol, schema v⟩ =
          .ok ((rs.realm id).registry.next ⟨symbol, schema v⟩,
            (rs.realm id).registry.register ⟨symbol, schema v⟩) := by
        change (rs.realm id).registry.intern ⟨symbol, schema v⟩ = _
        rw [Registry.intern, Realm.check_of_makeSchema hrun symbol]
        dsimp only
        rw [Registry.registerUnlessPresent, hfind]
      change Declares rs _ _ (intern { rs with store := τ } id ⟨symbol, schema v⟩)
      rw [intern, hintern]
      exact .made rfl rfl

theorem structType_declares {β : Type} {name : String} (schema : β → Schema)
    {converted : Except Error (β × Store)}
    (hrun : ((rs.realm id).makeSchema .struct drafts).run rs.store =
      converted.map fun r => (schema r.1, r.2)) :
    Declares rs
      (fun S v => S = ⟨rs.nextStruct, id, name, schema v, (rs.realm id).config.coercion⟩) converted
      (rs.structType id name drafts) := by
  rw [structType, build, hrun]
  cases converted with
  | error e => exact .refused e
  | ok r => exact .made rfl rfl

theorem Declares.imp {α β : Type} {Q R : α → β → Prop} {converted : Except Error (β × Store)}
    {result : Except Error α × Realms μ} (h : Declares rs Q converted result)
    (himp : ∀ a v, Q a v → R a v) : Declares rs R converted result := by
  cases h with
  | refused e => exact .refused e
  | made store made => exact .made store (himp _ _ made)

theorem Declares.exists_made {α β : Type} {Q : α → β → Prop} {v : β} {τ : Store}
    {result : Except Error α × Realms μ} (h : Declares rs Q (.ok (v, τ)) result) :
    ∃ a, result.1 = .ok a ∧ Q a v := by
  cases h with
  | made _ made => exact ⟨_, rfl, made⟩

end Realms

namespace World

/-! ### Types around a type -/

/-- What the conversion of a value to a field of a type comes to, in the mode of a realm. -/
def converted (w : World μ) (id : RealmId) (name : String) (t : ValueType) (x : Value) :
    Except Error (Value × Store) :=
  ((FieldType.value t).coerce (w.realms.realm id).config.coercion name x).run w.realms.store

/-- Whether a type of a realm leaves room for a type around it. -/
structure Room (w : World μ) (id : RealmId) (t : ValueType) : Prop where
  realm : w.realms.scope.realm id
  type : w.realms.scope.type t
  owner : t.realm = id
  depth : (FieldType.value t).depth < (w.realms.realm id).config.maxNestingDepth

namespace Room

variable {w w' : World μ} {id : RealmId} {t : ValueType}

theorem leads (h : w.Room id t) (hw : w.Reachable) (hrun : w.Leads w') : w'.Room id t := by
  have hextends := hw.sound.leads_extends hrun
  refine ⟨hextends.realm h.realm, hextends.within.type t h.type, h.owner, ?_⟩
  rw [(hw.sound.leads_keeps hrun h.realm).config]
  exact h.depth

theorem coercion (h : w.Room id t) (hw : w.Reachable) :
    t.coercion = (w.realms.realm id).config.coercion := by
  have hrealms := hw.sound.realms
  have hmem := hrealms.mem_of_realm_eq h.realm h.type h.owner
  rw [((hrealms.registry h.realm).owned t hmem).2]
  exact hw.coercion_eq _ (Realms.realm_mem h.realm)

/-- A schema of a single field of the type is made, if its default converts. -/
theorem makeSchema (h : w.Room id t) (hw : w.Reachable) (kind : SchemaKind) (name : String)
    (default : Option Value) :
    ((w.realms.realm id).makeSchema kind [.single name t default]).run w.realms.store =
      (((w.realms.realm id).policy.default (.single name t default)).run w.realms.store).map
        fun r => ((w.realms.realm id).policy.singleSchema kind name t r.1, r.2) := by
  have hrealms := hw.sound_demands.realms
  have hpolicy : (w.realms.realm id).policy.realm = id := hrealms.realm_id h.realm
  exact SchemaPolicy.makeSchema_single (hw.keyed hrealms id) ⟨.valueType h.type, h.owner⟩
    (h.owner.trans hpolicy.symm) h.depth kind default

theorem makeSchema_none (h : w.Room id t) (hw : w.Reachable) (kind : SchemaKind) (name : String) :
    ((w.realms.realm id).makeSchema kind [.single name t none]).run w.realms.store =
      (Except.ok ((), w.realms.store)).map
        fun r => ((w.realms.realm id).policy.singleSchema kind name t none, r.2) := by
  rw [h.makeSchema hw, SchemaPolicy.default_single_none]
  rfl

theorem makeSchema_some (h : w.Room id t) (hw : w.Reachable) (kind : SchemaKind) (name : String)
    (x : Value) :
    ((w.realms.realm id).makeSchema kind [.single name t (some x)]).run w.realms.store =
      (w.converted id name t x).map
        fun r => ((w.realms.realm id).policy.singleSchema kind name t (some r.1), r.2) := by
  have hdefault : ((w.realms.realm id).policy.default (.single name t (some x))).run w.realms.store =
      (w.converted id name t x).map fun r => (some r.1, r.2) :=
    SchemaPolicy.default_single_some t x
  rw [h.makeSchema hw, hdefault]
  cases w.converted id name t x <;> rfl

end Room

/-! ### Ways to give a value to a field -/

/-- Whether all ways to give a value to a field of a type come to one conversion: a value type `W`
and a struct type `S` around the type take it from a record, a struct of type `S` takes it by a write,
and a definition takes it for the default, which every object has that is given nothing. -/
structure Agrees (w : World μ) (id : RealmId) (name : String) (t W : ValueType) (S : StructType)
    (x : Value) : Prop where
  coerce : t.CoercesLike name x ((t.coerce x).run w.realms.store) (w.converted id name t x)
  construct : (W.construct (some (.record [(name, x)]))).run w.realms.store =
    (w.converted id name t x).map
      fun r => (⟨r.2.nextId, W, [r.1]⟩, { r.2 with nextId := r.2.nextId + 1 })
  constructStruct : (S.construct (some (.record [(name, x)]))).run w.realms.store =
    (w.converted id name t x).map
      fun r => (⟨r.2.cells.size, S⟩, { r.2 with cells := r.2.cells.push ⟨S, [r.1]⟩ })
  set : ∀ s : StructInstance, s.type = S → w.Present (.value (.struct s)) →
    (s.set name x).run w.realms.store =
        (w.converted id name t x).map (fun r => ((), r.2.written s 0 r.1)) ∧
      ∀ v τ, w.converted id name t x = .ok (v, τ) → (τ.written s 0 v).get? s name = some v
  default : ∀ symbol, (w.realms.realm id).registry.definitionsOf symbol = [] →
    w.realms.Declares (fun V v => V.Yields [v]) (w.converted id name t x)
      (w.realms.valueType id symbol [.single name t (some x)])
  structDefault : ∀ structName,
    w.realms.Declares (fun V v => V.Yields [v]) (w.converted id name t x)
      (w.realms.structType id structName [.single name t (some x)])

/-- A value type around a type of a realm. -/
structure Wraps (w : World μ) (id : RealmId) (name : String) (t W : ValueType) : Prop where
  layout : ∃ schema, W.layout = .composite schema ∧ schema.fields = [⟨name, .value t, false, none⟩]
  coercion : W.coercion = (w.realms.realm id).config.coercion

/-- A struct type around a type of a realm. -/
structure WrapsStruct (w : World μ) (id : RealmId) (name : String) (t : ValueType)
    (S : StructType) : Prop where
  fields : S.schema.fields = [⟨name, .value t, false, none⟩]
  coercion : S.coercion = (w.realms.realm id).config.coercion

theorem Wraps.leads {w w' : World μ} {id : RealmId} {name : String} {t W : ValueType}
    (h : w.Wraps id name t W) (hw : w.Reachable) (hid : w.realms.scope.realm id)
    (hrun : w.Leads w') : w'.Wraps id name t W :=
  ⟨h.layout, by rw [(hw.sound.leads_keeps hrun hid).config, h.coercion]⟩

theorem WrapsStruct.leads {w w' : World μ} {id : RealmId} {name : String} {t : ValueType}
    {S : StructType} (h : w.WrapsStruct id name t S) (hw : w.Reachable)
    (hid : w.realms.scope.realm id) (hrun : w.Leads w') : w'.WrapsStruct id name t S :=
  ⟨h.fields, by rw [(hw.sound.leads_keeps hrun hid).config, h.coercion]⟩

/-- A type that leaves room can be wrapped under any symbol that has no definition yet. -/
theorem Room.exists_wraps {w : World μ} {id : RealmId} {t : ValueType} (h : w.Room id t)
    (hw : w.Reachable) (name : String) {symbol : Symbol}
    (hfresh : (w.realms.realm id).registry.definitionsOf symbol = []) :
    ∃ W, (w.realms.valueType id symbol [.single name t none]).1 = .ok W ∧ w.Wraps id name t W := by
  obtain ⟨W, hmade, rfl⟩ := (Realms.valueType_declares
    (fun _ => (w.realms.realm id).policy.singleSchema .value name t none)
    (h.makeSchema_none hw .value name) hfresh).exists_made
  exact ⟨_, hmade, ⟨_, rfl, rfl⟩, hw.coercion_eq _ (Realms.realm_mem h.realm)⟩

theorem Room.exists_wrapsStruct {w : World μ} {id : RealmId} {t : ValueType} (h : w.Room id t)
    (hw : w.Reachable) (name structName : String) :
    ∃ S, (w.realms.structType id structName [.single name t none]).1 = .ok S ∧
      w.WrapsStruct id name t S := by
  obtain ⟨S, hmade, rfl⟩ := (Realms.structType_declares
    (fun _ => (w.realms.realm id).policy.singleSchema .struct name t none)
    (h.makeSchema_none hw .struct name)).exists_made
  exact ⟨_, hmade, rfl, rfl⟩

theorem Room.agrees {w : World μ} {id : RealmId} {t : ValueType} (h : w.Room id t)
    (hw : w.Reachable) {name : String} {W : ValueType} (hW : w.Wraps id name t W) {S : StructType}
    (hS : w.WrapsStruct id name t S) {x : Value} (hx : w.There x) (hdefined : x.isUndefined = false) :
    w.Agrees id name t W S x := by
  have hrealms := hw.sound.realms
  let policy := (w.realms.realm id).policy
  obtain ⟨schema, hlayout, hfields⟩ := hW.layout
  refine ⟨?_, ?_, ?_, fun s hs hpresent => ?_, fun symbol hfresh => ?_, fun structName => ?_⟩
  · have hlike := hrealms.coerce_like hw.seeded h.type (hx.sound hw) name w.realms.store
    rwa [h.coercion hw] at hlike
  · rw [ValueType.construct_single hlayout hfields hdefined, hW.coercion, converted]
  · rw [StructType.construct_single hS.fields hdefined, hS.coercion, converted]
  · subst hs
    refine ⟨?_, fun v τ hv => ?_⟩
    · rw [StructInstance.set_single hS.fields, hS.coercion, converted]
    · have hfield : s.type.schema.fields[0]? = some ⟨name, .value t, false, none⟩ := by
        rw [hS.fields]
        rfl
      exact (hrealms.wrote (hw.sound.present hpresent) hfield (FieldType.coerce_keeps hv) v).get
  · refine (Realms.valueType_declares (fun v => policy.singleSchema .value name t (some v))
      (h.makeSchema_some hw .value name x) hfresh).imp ?_
    rintro V v rfl
    exact ValueType.yields_single rfl rfl
  · refine (Realms.structType_declares (fun v => policy.singleSchema .struct name t (some v))
      (h.makeSchema_some hw .struct name x)).imp ?_
    rintro V v rfl
    exact StructType.yields_single rfl

/-- All ways to give a value to a field agree. Within the limit of nesting, a value type and a struct
type with a single field can be made around any value type of a realm. From then on, in whatever else
happens, the conversion of a value to the type, the construction of the value type and of the struct
type from a record, a write to a struct of that type, and the definition of a type with the value as
the default of the field come to one conversion: all of them succeed or all of them fail. The field
then has the very value that was converted, and conversion to the type gives one with the same
leaves. They fail with the same error, unless the value is not of a sort that the type takes: then
conversion to the type names the type in place of the field. -/
theorem field_values_agree {w : World μ} (hw : w.Reachable) {id : RealmId}
    (hid : w.Gave (.realm id)) {t : ValueType} (ht : w.Present (.type (.value t)))
    (howner : t.realm = id)
    (hdepth : (FieldType.value t).depth < (w.realms.realm id).config.maxNestingDepth)
    (name structName : String) {symbol : Symbol}
    (hfresh : (w.realms.realm id).registry.definitionsOf symbol = []) :
    ∃ W, (w.realms.valueType id symbol [.single name t none]).1 = .ok W ∧
      ∀ w₁, w.Leads w₁ → ∃ S,
        (w₁.realms.structType id structName [.single name t none]).1 = .ok S ∧
        ∀ w', w₁.Leads w' → ∀ x, w'.There x → x.isUndefined = false →
          w'.Agrees id name t W S x := by
  have hroom : w.Room id t := by
    refine ⟨(hw.sound.gave _ hid).realm_of, ?_, howner, hdepth⟩
    cases hw.sound.present ht with
    | valueType ht => exact ht
  obtain ⟨W, hmade, hwraps⟩ := hroom.exists_wraps hw name hfresh
  refine ⟨W, hmade, fun w₁ hrun₁ => ?_⟩
  have hw₁ := hw.leads hrun₁
  have hroom₁ := hroom.leads hw hrun₁
  obtain ⟨S, hmade', hwraps'⟩ := hroom₁.exists_wrapsStruct hw₁ name structName
  exact ⟨S, hmade', fun w' hrun x hx hdefined =>
    (hroom₁.leads hw₁ hrun).agrees (hw₁.leads hrun)
      (hwraps.leads hw hroom.realm (hrun₁.trans hrun)) (hwraps'.leads hw₁ hroom₁.realm hrun) hx
      hdefined⟩

namespace Sample

set_option maxRecDepth 4000 in
/-- The old box serves for a color in the fields of new types. A number does not, and the errors name
the field, or the type where a color is asked for without any field. -/
theorem field_values_agree_color : crates.Reachable ∧ crates.Gave (.realm 1) ∧
    crates.Present (.type (.value color)) ∧ color.realm = 1 ∧
    (FieldType.value color).depth < (crates.realms.realm 1).config.maxNestingDepth ∧
    (crates.realms.realm 1).registry.definitionsOf ⟨99, some "W"⟩ = [] ∧
    crates.There (.struct ⟨0, box⟩) ∧
    (∃ W S, crates.Agrees 1 "f" color W S (.struct ⟨0, box⟩) ∧
      crates.Agrees 1 "f" color W S (.int 5) ∧
      ∃ σ, (S.construct (some (.record [("f", .struct ⟨0, box⟩)]))).run crates.realms.store =
          .ok (⟨2, S⟩, σ) ∧
        σ.cell? ⟨2, S⟩ = some ⟨S, [.inst ⟨1, color, [.int 5]⟩]⟩) ∧
    crates.converted 1 "f" color (.int 5) = .error (.typeMismatch "f" "C" "int") ∧
    (color.coerce (.int 5)).run crates.realms.store = .error (.typeMismatch "C" "C" "int") := by
  have hgave : crates.Gave (.realm 1) := gave_at 10 0 rfl rfl
  have hcolor : crates.Present (.type (.value color)) := .given (gave_at 5 0 rfl rfl)
  have hbox : crates.There (.struct ⟨0, box⟩) := .inr (.given (gave_at 2 0 rfl rfl))
  have hdepth : (FieldType.value color).depth < (crates.realms.realm 1).config.maxNestingDepth := by
    decide
  have hfresh : (crates.realms.realm 1).registry.definitionsOf ⟨99, some "W"⟩ = [] := rfl
  obtain ⟨W, _, hmade⟩ :=
    field_values_agree crates_reachable hgave hcolor rfl hdepth "f" "V" hfresh
  obtain ⟨S, _, hagrees⟩ := hmade _ .refl
  have hagree := hagrees _ .refl _ hbox rfl
  refine ⟨crates_reachable, hgave, hcolor, rfl, hdepth, hfresh, hbox,
    ⟨W, S, hagree, hagrees _ .refl _ (.inl (.int 5)) rfl, _, hagree.constructStruct, rfl⟩, rfl, rfl⟩

end Sample

end World

end ValueTypes
