import ValueTypes.Definition.Schema
import ValueTypes.Proofs.Lenient.Conversion
import ValueTypes.Proofs.Store.Ensures

/-! Construction in lenient realms. A computation that gives a value gives the relaxed value where
all modes are lenient, and leaves the relaxed store behind. This holds of what fills the slots of a
type once it holds of the types of its fields, so it holds at every depth. -/

namespace ValueTypes

/-! ### Relaxed stores -/

def Cell.relax (cell : Cell) : Cell :=
  ⟨cell.type.relax, cell.slots.map Value.relax⟩

@[simp]
theorem Cell.relax_get? (cell : Cell) (name : String) :
    cell.relax.get? name = (cell.get? name).map Value.relax := by
  rw [get?, fields, relax, StructType.relax_schema, Schema.relax_names, zip_map_relax,
    lookup_map_relax, get?, fields]

/-- Changes at one place commute with a map that they agree with. -/
theorem modify_map_comm {α β : Type} {g : α → β} {f : α → α} {f' : β → β}
    (h : ∀ a, f' (g a) = g (f a)) (xs : Array α) (i : Nat) :
    (xs.map g).modify i f' = (xs.modify i f).map g := by
  ext j hj hj'
  · simp
  · simp only [Array.getElem_modify, Array.getElem_map]
    split
    · exact h _
    · rfl

namespace Store

/-- The store with all modes of types in it lenient. -/
def relax (store : Store) : Store :=
  ⟨store.nextId, store.cells.map Cell.relax⟩

@[simp]
theorem relax_cell? (store : Store) (s : StructInstance) :
    store.relax.cell? s.relax = (store.cell? s).map Cell.relax := by
  simp [cell?, relax]

@[simp]
theorem relax_get? (store : Store) (s : StructInstance) (name : String) :
    store.relax.get? s.relax name = (store.get? s name).map Value.relax := by
  rw [get?, relax_cell?, get?]
  cases store.cell? s with
  | none => rfl
  | some cell => exact cell.relax_get? name

end Store

namespace Source

def relax : Source → Source
  | record entries => .record (entries.map relaxEntry)
  | inst i => .inst i.relax
  | struct s => .struct s.relax

@[simp]
theorem ofValue?_relax (v : Value) : ofValue? v.relax = (ofValue? v).map relax := by
  cases v with
  | record id entries => simp [ofValue?, relax]
  | _ => rfl

@[simp]
theorem relax_get? (store : Store) (source : Source) (name : String) :
    source.relax.get? store.relax name = (source.get? store name).map Value.relax := by
  cases source with
  | record entries => exact lookup_map_relax entries name
  | inst i => exact i.relax_get? name
  | struct s => exact store.relax_get? s name

end Source

/-! ### Computations that correspond -/

namespace Build

variable {α β γ δ : Type}

/-- Whenever `b` gives a result, `b'` gives the corresponding one from the relaxed store. -/
def Relaxes (b : Build α) (b' : Build β) (r : α → β) : Prop :=
  ∀ σ a σ', b.run σ = .ok (a, σ') → b'.run σ.relax = .ok (r a, σ'.relax)

namespace Relaxes

variable {r : α → β} {q : γ → δ}

theorem pure {a : α} {a' : β} (h : a' = r a) :
    Relaxes (Pure.pure a) (Pure.pure a') r := by
  intro σ a'' σ' hrun
  cases hrun
  rw [h]
  rfl

theorem throw (e : Error) (b' : Build β) : Relaxes (throw e : Build α) b' r := by
  intro σ a σ' hrun
  cases hrun

theorem bind {b : Build α} {b' : Build β} {f : α → Build γ} {f' : β → Build δ}
    (hb : Relaxes b b' r) (hf : ∀ a, Relaxes (f a) (f' (r a)) q) :
    Relaxes (b >>= f) (b' >>= f') q := by
  intro σ c σ'' hrun
  obtain ⟨a, σ', hstep, hrest⟩ := bind_eq_ok hrun
  rw [StateT.run_bind, hb σ a σ' hstep]
  exact hf a σ' c σ'' hrest

theorem map {b : Build α} {b' : Build β} {f : α → γ} {f' : β → δ} (hb : Relaxes b b' r)
    (hf : ∀ a, f' (r a) = q (f a)) : Relaxes (f <$> b) (f' <$> b') q := by
  rw [map_eq_pure_bind, map_eq_pure_bind]
  exact hb.bind fun a => pure (hf a)

theorem lift {x : Except Error α} {x' : Except Error β} (h : ∀ a, x = .ok a → x' = .ok (r a)) :
    Relaxes (liftM x) (liftM x') r := by
  intro σ a σ' hrun
  cases hx : x with
  | error e =>
      rw [hx] at hrun
      cases hrun
  | ok a' =>
      rw [hx] at hrun
      cases hrun
      rw [h _ hx]
      rfl

theorem read {f : Store → α} {f' : Store → β} (h : ∀ σ : Store, f' σ.relax = r (f σ)) :
    Relaxes (do return f (← get)) (do return f' (← get)) r := by
  intro σ a σ' hrun
  cases hrun
  exact congrArg (fun b => Except.ok (b, σ.relax)) (h σ)

/-- One action on the store. -/
theorem modifyGet {f : Store → α × Store} {f' : Store → β × Store}
    (h : ∀ σ : Store, f' σ.relax = (r (f σ).1, (f σ).2.relax)) :
    Relaxes (MonadStateOf.modifyGet f) (MonadStateOf.modifyGet f') r := by
  intro σ a σ' hrun
  have heq : f σ = (a, σ') := Except.ok.inj hrun
  have hf := h σ
  rw [heq] at hf
  exact congrArg Except.ok hf

theorem newId : Relaxes Build.newId Build.newId id :=
  modifyGet fun _ => rfl

theorem newRecord (entries : List (String × Value)) :
    Relaxes (Build.newRecord entries) (Build.newRecord (entries.map relaxEntry)) Value.relax :=
  newId.bind fun id => pure (Value.relax_record id entries).symm

theorem newInstance (t : ValueType) {slots slots' : Build (List Value)}
    (h : Relaxes slots slots' (List.map Value.relax)) :
    Relaxes (Build.newInstance t slots) (Build.newInstance t.relax slots') Instance.relax := by
  refine h.bind fun vs => newId.bind fun id => pure ?_
  rw [Instance.relax, relaxSlots_eq]
  rfl

theorem newStruct (s : StructType) {slots slots' : Build (List Value)}
    (h : Relaxes slots slots' (List.map Value.relax)) :
    Relaxes (Build.newStruct s slots) (Build.newStruct s.relax slots') StructInstance.relax := by
  refine h.bind fun vs => modifyGet fun σ => ?_
  simp [Store.relax, Cell.relax, StructInstance.relax]

theorem write (s : StructInstance) (index : Nat) (v : Value) :
    Relaxes (Build.write s index v) (Build.write s.relax index v.relax) id := by
  have hcells : ∀ cells : Array Cell,
      ((cells.map Cell.relax).modify s.address fun cell =>
        { cell with slots := cell.slots.set index v.relax }) =
      (cells.modify s.address fun cell =>
        { cell with slots := cell.slots.set index v }).map Cell.relax := fun cells =>
    modify_map_comm (fun cell => by simp [Cell.relax]) cells s.address
  refine modifyGet fun σ => ?_
  simp only [Store.relax, StructInstance.relax_address, hcells, id]

end Relaxes

end Build

/-! ### Fields -/

theorem readGiven_relaxes (source : Option Source) (name : String) :
    (readGiven source name).Relaxes (readGiven (source.map Source.relax) name)
      (Option.map Value.relax) := by
  refine .read fun σ => ?_
  cases source with
  | none => rfl
  | some source =>
      simp only [Option.map_some, Option.bind_some, Source.relax_get?, Option.filter_map,
        Function.comp_def, Value.relax_isUndefined]

theorem resolveField_relaxes (isStatic : Bool) (default : Option Value)
    {given given' : Build (Option Value)} {coerce coerce' : Value → Build Value}
    {defaulted defaulted' : Build Value} (hgiven : given.Relaxes given' (Option.map Value.relax))
    (hcoerce : ∀ v, (coerce v).Relaxes (coerce' v.relax) Value.relax)
    (hdefaulted : defaulted.Relaxes defaulted' Value.relax) :
    (resolveField isStatic default given coerce defaulted).Relaxes
      (resolveField isStatic (default.map Value.relax) given' coerce' defaulted') Value.relax := by
  have hchoice : (resolveField false default given coerce defaulted).Relaxes
      (resolveField false (default.map Value.relax) given' coerce' defaulted') Value.relax := by
    refine hgiven.bind fun v => ?_
    cases v with
    | some v => exact hcoerce v
    | none =>
        cases default with
        | some d => exact .pure rfl
        | none => exact hdefaulted
  cases isStatic with
  | false => exact hchoice
  | true =>
      cases default with
      | some d => exact .pure rfl
      | none => exact hchoice

theorem sourceOf_relaxes (field expected : String) (v : Value) :
    (sourceOf field expected v).Relaxes (sourceOf field expected v.relax) Source.relax := by
  rw [sourceOf, sourceOf, Source.ofValue?_relax]
  cases Source.ofValue? v with
  | some source => exact .pure rfl
  | none => exact .throw _ _

/-- Whether conversion to a type, in any mode, and its default correspond to those of the relaxed
type. -/
structure FieldType.Relaxes (type : FieldType) : Prop where
  coerce : ∀ mode name v,
    (type.coerce mode name v).Relaxes (type.relax.coerce .lenient name v.relax) Value.relax
  defaultValue : ∀ owner name,
    (type.defaultValue owner name).Relaxes (type.relax.defaultValue owner name) Value.relax

theorem fillSlots_relaxes {fields : List Field} (h : ∀ f ∈ fields, f.type.Relaxes)
    (owner : String) (mode : CoercionMode) (source : Option Source) :
    (fillSlots fields owner mode source).Relaxes
      (fillSlots (fields.map Field.relax) owner .lenient (source.map Source.relax))
      (List.map Value.relax) := by
  induction fields with
  | nil => exact .pure rfl
  | cons f fields ih =>
      have hf := h f (List.mem_cons_self ..)
      rw [List.map_cons, fillSlots_cons, fillSlots_cons, Field.relax_name, Field.relax_type,
        Field.relax_isStatic, Field.relax_default]
      refine (resolveField_relaxes _ _ (readGiven_relaxes source f.name) (hf.coerce mode f.name)
        (hf.defaultValue owner f.name)).bind fun v => ?_
      exact (ih fun g hg => h g (List.mem_cons_of_mem f hg)).bind fun vs => .pure rfl

/-! ### Types -/

/-- Construction of a type corresponds once it does so for the types of the fields. -/
theorem ValueType.construct_relaxes_of_fields {t : ValueType}
    (h : ∀ schema, t.layout = .composite schema → ∀ f ∈ schema.fields, f.type.Relaxes)
    (source : Option Source) :
    (t.construct source).Relaxes (t.relax.construct (source.map Source.relax))
      Instance.relax := by
  rw [construct, construct, relax_layout, relax_name, relax_coercion]
  cases hlayout : t.layout with
  | primitive kind => exact .throw _ _
  | composite schema =>
      have hslots := fillSlots_relaxes (h schema hlayout) t.name t.coercion source
      rw [← Schema.relax_fields] at hslots
      exact .newInstance t hslots

theorem StructType.construct_relaxes_of_fields {s : StructType}
    (h : ∀ f ∈ s.schema.fields, f.type.Relaxes) (source : Option Source) :
    (s.construct source).Relaxes (s.relax.construct (source.map Source.relax))
      StructInstance.relax := by
  rw [construct, construct, relax_schema, relax_name, relax_coercion, Schema.relax_fields]
  exact .newStruct s (fillSlots_relaxes h s.name s.coercion source)

@[simp]
theorem Value.relax_isInstanceOf (v : Value) (t : ValueType) :
    v.relax.isInstanceOf t.relax = v.isInstanceOf t := by
  cases v with
  | inst i => simp [isInstanceOf]
  | _ => rfl

@[simp]
theorem Value.relax_isStructOf (v : Value) (s : StructType) :
    v.relax.isStructOf s.relax = v.isStructOf s := by
  cases v with
  | struct i => simp [isStructOf]
  | _ => rfl

/-- Conversion to a type and its default correspond at every depth. The induction is on the type. -/
theorem FieldType.relaxes (type : FieldType) : type.Relaxes := by
  induction type using FieldType.inductionOn with
  | primitive t kind ht =>
      have ht' := ValueType.relax_layout_primitive ht
      constructor
      · intro mode name v
        rw [relax_value, coerce_primitive ht, coerce_primitive ht']
        exact .lift fun w hw => PrimitiveKind.coerce_relax hw
      · intro owner name
        rw [relax_value, defaultValue_primitive ht, defaultValue_primitive ht']
        cases hdefault : kind.default? with
        | some v => exact .pure (PrimitiveKind.default?_relax hdefault).symm
        | none => exact .throw _ _
  | composite t schema ht ih =>
      have ht' := ValueType.relax_layout_composite ht
      have hconstruct := ValueType.construct_relaxes_of_fields (t := t) fun schema' hschema => by
        rw [ht] at hschema
        cases hschema
        exact ih
      constructor
      · intro mode name v
        rw [relax_value, coerce_composite ht, coerce_composite ht', Value.relax_isInstanceOf,
          ValueType.relax_name]
        split
        · exact .pure rfl
        · refine (sourceOf_relaxes name t.name v).bind fun source => ?_
          exact (hconstruct (some source)).bind fun i => .pure rfl
      · intro owner name
        rw [relax_value, defaultValue_composite ht, defaultValue_composite ht']
        exact (hconstruct none).bind fun i => .pure rfl
  | struct s ih =>
      have hconstruct := StructType.construct_relaxes_of_fields ih
      constructor
      · intro mode name v
        rw [relax_struct, coerce_struct, coerce_struct, Value.relax_isStructOf,
          StructType.relax_name]
        split
        · exact .pure rfl
        · refine (sourceOf_relaxes name s.name v).bind fun source => ?_
          exact (hconstruct (some source)).bind fun i => .pure rfl
      · intro owner name
        rw [relax_struct, defaultValue_struct, defaultValue_struct]
        exact (hconstruct none).bind fun i => .pure rfl

theorem ValueType.construct_relaxes (t : ValueType) (source : Option Source) :
    (t.construct source).Relaxes (t.relax.construct (source.map Source.relax)) Instance.relax :=
  construct_relaxes_of_fields (fun _ _ f _ => f.type.relaxes) source

theorem StructType.construct_relaxes (s : StructType) (source : Option Source) :
    (s.construct source).Relaxes (s.relax.construct (source.map Source.relax))
      StructInstance.relax :=
  construct_relaxes_of_fields (fun f _ => f.type.relaxes) source

theorem ValueType.coerce_relaxes (t : ValueType) (v : Value) :
    (t.coerce v).Relaxes (t.relax.coerce v.relax) Value.relax := by
  cases hlayout : t.layout with
  | primitive kind =>
      have hrelaxed : t.relax.layout = .primitive kind := by
        rw [relax_layout, hlayout]
        rfl
      rw [coerce_of_primitive hlayout, coerce_of_primitive hrelaxed, relax_coercion]
      exact .lift fun w hw => PrimitiveKind.coerce_relax hw
  | composite schema =>
      have hrelaxed : t.relax.layout = .composite schema.relax := by
        rw [relax_layout, hlayout]
        rfl
      rw [coerce_of_composite hlayout, coerce_of_composite hrelaxed, relax_name]
      refine (sourceOf_relaxes t.name t.name v).bind fun source => ?_
      exact (t.construct_relaxes (some source)).bind fun i => .pure rfl

/-! ### Writes -/

theorem StructInstance.set_relaxes (s : StructInstance) (name : String) (v : Value) :
    (s.set name v).Relaxes (s.relax.set name v.relax) id := by
  rw [set, set, relax_type, StructType.relax_schema, Schema.relax_indexOf?, Schema.relax_field?,
    StructType.relax_coercion]
  cases s.type.schema.indexOf? name with
  | none => exact .throw _ _
  | some index =>
      cases s.type.schema.field? name with
      | none => exact .throw _ _
      | some field =>
          simp only [Option.map_some, Field.relax_isStatic, Field.relax_type]
          split
          · exact .throw _ _
          · exact (field.type.relaxes.coerce s.type.coercion name v).bind fun w =>
              .write s index w

theorem Instance.set_relaxes (i : Instance) (name : String) (v : Value) :
    (i.set name v).Relaxes (i.relax.set name v.relax) fun done => done :=
  .throw _ _

theorem setProperty_relaxes (target : Value) (name : String) (v : Value) :
    (setProperty target name v).Relaxes (setProperty target.relax name v.relax) id := by
  cases target with
  | struct s => exact s.set_relaxes name v
  | _ => exact .throw _ _

/-! ### Schemas -/

def SchemaPolicy.relax (policy : SchemaPolicy) : SchemaPolicy :=
  { policy with coercion := .lenient }

namespace SchemaPolicy

variable (policy : SchemaPolicy)

theorem check_relax (kind : SchemaKind) (drafts : List FieldDraft) :
    policy.relax.check kind (drafts.map FieldDraft.relax) = policy.check kind drafts := by
  have hfault : ∀ type : FieldType, policy.relax.fault? kind type.relax = policy.fault? kind type := by
    intro type
    simp [fault?, relax]
  have hname : ∀ draft : FieldDraft, draft.relax.name = draft.name := fun _ => rfl
  have htype : ∀ draft : FieldDraft, draft.relax.type = draft.type.relax := fun _ => rfl
  simp only [check, List.map_map, Function.comp_def, List.findSome?_map, nestingDepth_relax, hname,
    htype, hfault]
  rfl

theorem default_relaxes (draft : FieldDraft) :
    (policy.default draft).Relaxes (policy.relax.default draft.relax)
      (Option.map Value.relax) := by
  obtain ⟨name, type, isStatic, default⟩ := draft
  cases default with
  | some v => exact (type.relaxes.coerce policy.coercion name v).map fun w => rfl
  | none =>
      cases isStatic with
      | true => exact (type.relaxes.defaultValue "static field" name).map fun w => rfl
      | false => exact .pure rfl

theorem field_relaxes (draft : FieldDraft) :
    (policy.field draft).Relaxes (policy.relax.field draft.relax) Field.relax := by
  refine (policy.default_relaxes draft).bind fun default => .pure ?_
  rw [Field.relax, relaxDefault_eq]
  rfl

theorem fields_relaxes (drafts : List FieldDraft) :
    (policy.fields drafts).Relaxes (policy.relax.fields (drafts.map FieldDraft.relax))
      (List.map Field.relax) := by
  induction drafts with
  | nil => exact .pure rfl
  | cons draft drafts ih =>
      exact (policy.field_relaxes draft).bind fun f => ih.bind fun fields => .pure rfl

/-- A schema that can be made in a realm can be made in the lenient one, with the same defaults. -/
theorem makeSchema_relaxes (kind : SchemaKind) (drafts : List FieldDraft) :
    (policy.makeSchema kind drafts).Relaxes
      (policy.relax.makeSchema kind (drafts.map FieldDraft.relax)) Schema.relax := by
  refine .bind (r := id) (.lift fun depth h => ?_) fun depth => ?_
  · rw [check_relax, h, id]
  · refine (policy.fields_relaxes drafts).bind fun fields => .pure ?_
    rw [Schema.relax, relaxFields_eq, Hashing.ofFields_relax]
    rfl

end SchemaPolicy

theorem arrayFields_relax (element : FieldType) (length : Nat) (lengthType : ValueType) :
    (arrayFields element length lengthType).map FieldDraft.relax =
      arrayFields element.relax length lengthType.relax := by
  simp [arrayFields, FieldDraft.relax, Function.comp_def, Value.relax]

end ValueTypes
