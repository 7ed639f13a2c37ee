import ValueTypes.Proofs.Construction.Nesting
import ValueTypes.Proofs.Store.Parallel
import ValueTypes.Proofs.Value.Path

/-! Construction in two runs. How single values of the two runs go together is extended to all that
is read along paths. If the steps of construction respect the one, then construction of a type from
sources that answer alike ends alike: in one error, or in objects in which all paths lead to values
that go together. -/

namespace ValueTypes

theorem exists_of_rel_left {α β : Type} {R : α → β → Prop} {a : Option α} {b : Option β}
    (h : Option.Rel R a b) {x : α} (ha : a = some x) : ∃ y, b = some y ∧ R x y := by
  subst ha
  cases h with
  | some hxy => exact ⟨_, rfl, hxy⟩

theorem exists_of_rel_right {α β : Type} {R : α → β → Prop} {a : Option α} {b : Option β}
    (h : Option.Rel R a b) {y : β} (hb : b = some y) : ∃ x, a = some x ∧ R x y := by
  subst hb
  cases h with
  | some hxy => exact ⟨_, rfl, hxy⟩

theorem rel_imp {α β : Type} {R S : α → β → Prop} (hRS : ∀ x y, R x y → S x y) {a : Option α}
    {b : Option β} (h : Option.Rel R a b) : Option.Rel S a b := by
  cases h with
  | none => exact .none
  | some hxy => exact .some (hRS _ _ hxy)

/-! ### Reading in two stores -/

namespace Store

variable {σ σ' τ : Store} {R : Value → Value → Prop}

/-- Whether a value, if it is a struct, is one of the store. -/
def Live (store : Store) (v : Value) : Prop :=
  ∀ s, v = .struct s → ∃ cell, store.cell? s = some cell

theorem Keeps.get?_eq (h : σ.Keeps σ') (source : Source)
    (hlive : ∀ s, source = .struct s → ∃ cell, σ.cell? s = some cell) (name : String) :
    source.get? σ' name = source.get? σ name := by
  cases source with
  | record entries => rfl
  | inst i => rfl
  | struct s =>
      obtain ⟨cell, hcell⟩ := hlive s rfl
      rw [Source.get?, Source.get?, Store.get?, Store.get?, hcell, h.cell? hcell]

theorem Keeps.field?_eq (h : σ.Keeps σ') {v : Value} (hv : σ.Live v) (name : String) :
    σ'.field? v name = σ.field? v name := by
  cases v with
  | record id entries => rfl
  | inst i => rfl
  | struct s =>
      refine h.get?_eq (.struct s) (fun s' hs => ?_) name
      cases hs
      exact hv s rfl
  | _ => rfl

/-- What is read from structs that are there is read later on as well. -/
theorem Keeps.read?_eq (h : σ.Keeps σ') {v : Value}
    (hlive : ∀ path w, σ.read? v path = some w → σ.Live w) (path : List String) :
    σ'.read? v path = σ.read? v path := by
  induction path generalizing v with
  | nil => rfl
  | cons name path ih =>
      rw [read?_cons, read?_cons, h.field?_eq (hlive [] v rfl)]
      cases hw : σ.field? v name with
      | none => rfl
      | some w =>
          refine ih fun path u hu => hlive (name :: path) u ?_
          rw [read?_cons, hw]
          exact hu

/-- Whether every path leads to related values in two values, or to none in both. -/
def Related (R : Value → Value → Prop) (σ τ : Store) (u v : Value) : Prop :=
  ∀ path, Option.Rel R (σ.read? u path) (τ.read? v path)

theorem Related.head {u v : Value} (h : Related R σ τ u v) : R u v := by
  cases h [] with
  | some huv => exact huv

theorem Related.field? {u v : Value} (h : Related R σ τ u v) (name : String) :
    Option.Rel (Related R σ τ) (σ.field? u name) (τ.field? v name) := by
  have hpaths := fun path => h (name :: path)
  simp only [read?_cons] at hpaths
  generalize σ.field? u name = a at hpaths
  generalize τ.field? v name = b at hpaths
  cases a with
  | none =>
      cases b with
      | none => exact .none
      | some y => cases hpaths []
  | some x =>
      cases b with
      | none => cases hpaths []
      | some y => exact .some hpaths

theorem Related.of_fields {u v : Value} (h : R u v)
    (hfields : ∀ name, Option.Rel (Related R σ τ) (σ.field? u name) (τ.field? v name)) :
    Related R σ τ u v := by
  intro path
  cases path with
  | nil => exact .some h
  | cons name path =>
      have hname := hfields name
      rw [read?_cons, read?_cons]
      generalize σ.field? u name = a at hname ⊢
      generalize τ.field? v name = b at hname ⊢
      cases hname with
      | none => exact .none
      | some hxy => exact hxy path

theorem Related.imp {S : Value → Value → Prop} (hRS : ∀ u v, R u v → S u v) {u v : Value}
    (h : Related R σ τ u v) : Related S σ τ u v :=
  fun path => rel_imp hRS (h path)

theorem Related.of_plain {u v : Value} (h : R u v) (hu : u.Plain) (hv : v.Plain) :
    Related R σ τ u v := by
  refine .of_fields h fun name => ?_
  rw [field?_plain hu, field?_plain hv]
  exact .none

end Store

theorem lookup_zip_rel {α : Type} {R : α → α → Prop} {us vs : List α} (h : List.Forall₂ R us vs)
    (names : List String) (name : String) :
    Option.Rel R ((names.zip us).lookup name) ((names.zip vs).lookup name) := by
  induction h generalizing names with
  | nil =>
      rw [List.zip_nil_right]
      exact .none
  | @cons u v us vs huv _ ih =>
      cases names with
      | nil => exact .none
      | cons other names =>
          rw [List.zip_cons_cons, List.zip_cons_cons, List.lookup_cons, List.lookup_cons]
          cases name == other with
          | true => exact .some huv
          | false => exact ih names

/-! ### What the steps of construction respect -/

/-- How values of two runs, each with its store, go together, in a way that the steps of
construction of some types respect. -/
structure Correspondence where
  types : FieldType → Prop
  stores : Store → Store → Prop
  pair : Store → Store → Value → Value → Prop
  fields : ∀ {type}, types type → ∀ f ∈ type.fields, types f.type
  grow : ∀ {σ τ σ' τ'}, stores σ τ → σ.Grows σ' → τ.Grows τ' → stores σ' τ'
  pair_grow : ∀ {σ τ σ' τ' u v}, pair σ τ u v → σ.Grows σ' → τ.Grows τ' → pair σ' τ' u v
  live : ∀ {σ τ u v}, pair σ τ u v → σ.Live u ∧ τ.Live v
  typeName : ∀ {σ τ u v}, pair σ τ u v → u.typeName = v.typeName
  isInstanceOf : ∀ {σ τ u v t}, types (.value t) → pair σ τ u v →
    u.isInstanceOf t = v.isInstanceOf t
  isStructOf : ∀ {σ τ u v s}, types (.struct s) → pair σ τ u v → u.isStructOf s = v.isStructOf s
  convert? : ∀ {σ τ u v}, pair σ τ u v → ∀ (kind : PrimitiveKind) (mode : CoercionMode),
    Option.Rel (pair σ τ) (kind.convert? mode u) (kind.convert? mode v)
  accepted : ∀ σ τ {kind : PrimitiveKind} {d}, kind.Accepts d → pair σ τ d d
  default : ∀ {σ τ type}, stores σ τ → types type → ∀ f ∈ type.fields, ∀ d, f.default = some d →
    Store.Related (pair σ τ) σ τ d d
  inst : ∀ {σ τ t} us vs, stores σ τ → types (.value t) →
    pair σ τ (.inst ⟨σ.nextId, t, us⟩) (.inst ⟨τ.nextId, t, vs⟩)
  struct : ∀ {σ τ s} us vs, stores σ τ → types (.struct s) →
    pair { σ with cells := σ.cells.push ⟨s, us⟩ } { τ with cells := τ.cells.push ⟨s, vs⟩ }
      (.struct ⟨σ.cells.size, s⟩) (.struct ⟨τ.cells.size, s⟩)

namespace Correspondence

variable (C : Correspondence) {σ τ σ' τ' : Store}

/-- Whether two values go together in all that is read along paths. -/
def Rel (σ τ : Store) (u v : Value) : Prop :=
  Store.Related (C.pair σ τ) σ τ u v

/-- Whether two sources answer alike, now and later on. -/
def Sources (σ τ : Store) (source source' : Option Source) : Prop :=
  ∀ σ' τ', σ.Grows σ' → τ.Grows τ' → ∀ name,
    Option.Rel (C.Rel σ' τ') (source.bind (·.get? σ' name)) (source'.bind (·.get? τ' name))

variable {C}

theorem Rel.grow {u v : Value} (h : C.Rel σ τ u v) (hσ : σ.Grows σ') (hτ : τ.Grows τ') :
    C.Rel σ' τ' u v := by
  have hleft : ∀ path w, σ.read? u path = some w → σ.Live w := by
    intro path w hw
    obtain ⟨_, _, hpair⟩ := exists_of_rel_left (h path) hw
    exact (C.live hpair).1
  have hright : ∀ path w, τ.read? v path = some w → τ.Live w := by
    intro path w hw
    obtain ⟨_, _, hpair⟩ := exists_of_rel_right (h path) hw
    exact (C.live hpair).2
  intro path
  rw [hσ.keeps.read?_eq hleft, hτ.keeps.read?_eq hright]
  exact rel_imp (fun _ _ hpair => C.pair_grow hpair hσ hτ) (h path)

theorem Sources.grow {source source' : Option Source} (h : C.Sources σ τ source source')
    (hσ : σ.Grows σ') (hτ : τ.Grows τ') : C.Sources σ' τ' source source' :=
  fun _ _ hσ' hτ' => h _ _ (hσ.trans hσ') (hτ.trans hτ')

theorem Sources.none : C.Sources σ τ none none :=
  fun _ _ _ _ _ => .none

theorem Rel.isUndefined_eq {u v : Value} (h : C.Rel σ τ u v) : u.isUndefined = v.isUndefined := by
  have hname := C.typeName h.head
  cases u <;> cases v <;> first | rfl | simp [Value.typeName] at hname

/-! ### Steps -/

theorem readGiven_parallel {source source' : Option Source} (h : C.Sources σ τ source source')
    (name : String) :
    Build.Parallel σ τ (readGiven source name) (readGiven source' name)
      fun σ' τ' => Option.Rel (C.Rel σ' τ') := by
  refine .read ?_
  have hread := h σ τ (.refl σ) (.refl τ) name
  generalize source.bind (·.get? σ name) = a at hread ⊢
  generalize source'.bind (·.get? τ name) = b at hread ⊢
  cases hread with
  | none => exact .none
  | @some u v huv =>
      rw [Option.filter_some, Option.filter_some, huv.isUndefined_eq]
      cases v.isUndefined with
      | true => exact .none
      | false => exact .some huv

theorem sourceOf_parallel {u v : Value} (h : C.Rel σ τ u v) (field expected : String) :
    Build.Parallel σ τ (sourceOf field expected u) (sourceOf field expected v)
      fun σ' τ' source source' => C.Sources σ' τ' (some source) (some source') := by
  have hname := C.typeName h.head
  have hsources : ∀ source source', Source.ofValue? u = some source →
      Source.ofValue? v = some source' → C.Sources σ τ (some source) (some source') := by
    intro source source' hu hv σ' τ' hσ hτ name
    have hfield := (h.grow hσ hτ).field? name
    rw [Store.field?, Store.field?, hu, hv] at hfield
    exact hfield
  rw [sourceOf, sourceOf, hname]
  cases hu : Source.ofValue? u with
  | none =>
      cases hv : Source.ofValue? v with
      | none => exact .throw _
      | some source' => cases u <;> cases v <;> simp_all [Source.ofValue?, Value.typeName]
  | some source =>
      cases hv : Source.ofValue? v with
      | none => cases u <;> cases v <;> simp_all [Source.ofValue?, Value.typeName]
      | some source' => exact .pure (hsources source source' hu hv)

/-- All four ways to the value of a field end alike. -/
theorem resolveField_parallel (isStatic : Bool) {default : Option Value}
    {given given' : Build (Option Value)} {coerce coerce' : Value → Build Value}
    {defaulted defaulted' : Build Value}
    (hdefault : ∀ σ' τ', σ.Grows σ' → τ.Grows τ' → ∀ d, default = some d → C.Rel σ' τ' d d)
    (hgiven : Build.Parallel σ τ given given' fun σ' τ' => Option.Rel (C.Rel σ' τ'))
    (hcoerce : ∀ σ' τ' u v, σ.Grows σ' → τ.Grows τ' → C.Rel σ' τ' u v →
      Build.Parallel σ' τ' (coerce u) (coerce' v) C.Rel)
    (hdefaulted : ∀ σ' τ', σ.Grows σ' → τ.Grows τ' →
      Build.Parallel σ' τ' defaulted defaulted' C.Rel) :
    Build.Parallel σ τ (resolveField isStatic default given coerce defaulted)
      (resolveField isStatic default given' coerce' defaulted') C.Rel := by
  have hchoice : Build.Parallel σ τ (resolveField false default given coerce defaulted)
      (resolveField false default given' coerce' defaulted') C.Rel := by
    refine hgiven.bind fun σ' τ' a b hσ hτ hab => ?_
    cases hab with
    | some huv => exact hcoerce σ' τ' _ _ hσ hτ huv
    | none =>
        cases default with
        | some d => exact .pure (hdefault σ' τ' hσ hτ d rfl)
        | none => exact hdefaulted σ' τ' hσ hτ
  cases isStatic with
  | false => exact hchoice
  | true =>
      cases default with
      | some d => exact .pure (hdefault σ τ (.refl σ) (.refl τ) d rfl)
      | none => exact hchoice

/-! ### Types -/

variable (C) in
/-- Whether conversion to a type, and its default, end alike. -/
structure Carries (type : FieldType) : Prop where
  coerce : ∀ {σ τ u v}, C.stores σ τ → C.Rel σ τ u v → ∀ mode name,
    Build.Parallel σ τ (type.coerce mode name u) (type.coerce mode name v) C.Rel
  defaultValue : ∀ {σ τ}, C.stores σ τ → ∀ owner name,
    Build.Parallel σ τ (type.defaultValue owner name) (type.defaultValue owner name) C.Rel

/-- One field, from sources that answer alike. -/
theorem Carries.fill {type : FieldType} (htype : C.types type) {f : Field}
    (hf : f ∈ type.fields) (h : C.Carries f.type) (hστ : C.stores σ τ)
    {source source' : Option Source} (hsources : C.Sources σ τ source source') (owner : String)
    (mode : CoercionMode) :
    Build.Parallel σ τ (f.fill owner mode source) (f.fill owner mode source') C.Rel :=
  resolveField_parallel f.isStatic
    (fun _ _ hσ hτ => C.default (C.grow hστ hσ hτ) htype f hf)
    (readGiven_parallel hsources f.name)
    (fun _ _ _ _ hσ hτ huv => h.coerce (C.grow hστ hσ hτ) huv mode f.name)
    (fun _ _ hσ hτ => h.defaultValue (C.grow hστ hσ hτ) owner f.name)

/-- A list of fields of one type, from sources that answer alike. -/
theorem fillSlots_parallel {type : FieldType} (htype : C.types type) {fields : List Field}
    (hfields : ∀ f ∈ fields, f ∈ type.fields) (h : ∀ f ∈ fields, C.Carries f.type)
    (hστ : C.stores σ τ) {source source' : Option Source}
    (hsources : C.Sources σ τ source source') (owner : String) (mode : CoercionMode) :
    Build.Parallel σ τ (fillSlots fields owner mode source) (fillSlots fields owner mode source')
      fun σ' τ' => List.Forall₂ (C.Rel σ' τ') := by
  induction fields generalizing σ τ with
  | nil => exact .pure .nil
  | cons f fields ih =>
      rw [fillSlots_cons_fill, fillSlots_cons_fill]
      refine ((h f (List.mem_cons_self ..)).fill htype (hfields f (List.mem_cons_self ..)) hστ
        hsources owner mode).bind fun σ' τ' u v hσ hτ huv => ?_
      refine (ih (fun g hg => hfields g (List.mem_cons_of_mem f hg))
        (fun g hg => h g (List.mem_cons_of_mem f hg)) (C.grow hστ hσ hτ)
        (hsources.grow hσ hτ)).bind fun σ'' τ'' us vs hσ' hτ' husvs => .pure ?_
      exact .cons (huv.grow hσ' hτ') husvs

theorem rel_inst {t : ValueType} (ht : C.types (.value t)) (hστ : C.stores σ τ)
    {us vs : List Value} (hslots : List.Forall₂ (C.Rel σ τ) us vs) :
    C.Rel σ τ (.inst ⟨σ.nextId, t, us⟩) (.inst ⟨τ.nextId, t, vs⟩) := by
  refine .of_fields (C.inst us vs hστ ht) fun name => ?_
  rw [Store.field?_inst, Store.field?_inst]
  exact lookup_zip_rel hslots _ name

theorem field?_push (σ : Store) (s : StructType) (vs : List Value) (name : String) :
    { σ with cells := σ.cells.push ⟨s, vs⟩ }.field? (.struct ⟨σ.cells.size, s⟩) name =
      (s.schema.names.zip vs).lookup name := by
  rw [Store.field?, Source.ofValue?, Option.bind_some, Source.get?, Store.get?, Store.cell?,
    Array.getElem?_push_size, Option.bind_some]
  rfl

theorem rel_struct {s : StructType} (hs : C.types (.struct s)) (hστ : C.stores σ τ)
    {us vs : List Value} (hslots : List.Forall₂ (C.Rel σ τ) us vs) :
    C.Rel { σ with cells := σ.cells.push ⟨s, us⟩ } { τ with cells := τ.cells.push ⟨s, vs⟩ }
      (.struct ⟨σ.cells.size, s⟩) (.struct ⟨τ.cells.size, s⟩) := by
  refine .of_fields (C.struct us vs hστ hs) fun name => ?_
  rw [field?_push, field?_push]
  exact lookup_zip_rel (hslots.imp fun _ _ huv => huv.grow (σ.grows_push _) (τ.grows_push _)) _ name

/-- New objects of a type go together, once conversions to the types of its fields do. -/
theorem construct_parallel_of_fields {type : FieldType} (htype : C.types type)
    (h : ∀ f ∈ type.fields, C.Carries f.type) (hστ : C.stores σ τ)
    {source source' : Option Source} (hsources : C.Sources σ τ source source') :
    Build.Parallel σ τ (type.construct source) (type.construct source') C.Rel := by
  have hslots := fillSlots_parallel htype (fun _ hf => hf) h hστ hsources
  cases type with
  | value t =>
      rw [FieldType.construct, FieldType.construct, ValueType.construct, ValueType.construct]
      cases hlayout : t.layout with
      | primitive kind => exact .throw _
      | composite schema =>
          rw [FieldType.fields_composite hlayout] at hslots
          refine (Build.Parallel.newInstance (Q := fun σ' τ' i j => C.Rel σ' τ' (.inst i) (.inst j))
            (hslots t.name t.coercion) ?_).bind fun _ _ i j _ _ hij => .pure hij
          intro σ' τ' σ'' τ'' us vs hσ hτ hσ' hτ' husvs
          exact (rel_inst htype (C.grow hστ hσ hτ) husvs).grow hσ' hτ'
  | struct s =>
      refine (Build.Parallel.newStruct (Q := fun σ' τ' i j => C.Rel σ' τ' (.struct i) (.struct j))
        (hslots s.name s.coercion) ?_).bind fun _ _ i j _ _ hij => .pure hij
      intro σ' τ' us vs hσ hτ husvs
      exact rel_struct htype (C.grow hστ hσ hτ) husvs

theorem coerce_primitive_parallel {u v : Value} (h : C.Rel σ τ u v) (kind : PrimitiveKind)
    (mode : CoercionMode) (name : String) :
    Build.Parallel σ τ (liftM (kind.coerce mode name u)) (liftM (kind.coerce mode name v))
      C.Rel := by
  have hconvert := C.convert? h.head kind mode
  have haccepts : ∀ {a w : Value}, kind.convert? mode a = some w → w.Plain :=
    fun hw => (PrimitiveKind.convert?_accepts hw).plain
  rw [PrimitiveKind.coerce, PrimitiveKind.coerce, C.typeName h.head]
  cases hu : kind.convert? mode u with
  | none =>
      cases hv : kind.convert? mode v with
      | none => exact .throw _
      | some y =>
          rw [hu, hv] at hconvert
          cases hconvert
  | some x =>
      cases hv : kind.convert? mode v with
      | none =>
          rw [hu, hv] at hconvert
          cases hconvert
      | some y =>
          rw [hu, hv] at hconvert
          cases hconvert with
          | some hxy => exact .pure (.of_plain hxy (haccepts hu) (haccepts hv))

/-- Conversion to a type and its default end alike at every depth. The induction is on the type. -/
theorem carries {type : FieldType} (htype : C.types type) : C.Carries type := by
  induction type using FieldType.inductionOn with
  | primitive t kind ht =>
      constructor
      · intro σ τ u v _ huv mode name
        rw [FieldType.coerce_primitive ht, FieldType.coerce_primitive ht]
        exact coerce_primitive_parallel huv kind mode name
      · intro σ τ _ owner name
        rw [FieldType.defaultValue_primitive ht]
        cases hdefault : kind.default? with
        | none => exact .throw _
        | some d =>
            have haccepts := PrimitiveKind.default?_accepts hdefault
            exact .pure (.of_plain (C.accepted σ τ haccepts) haccepts.plain haccepts.plain)
  | composite t schema ht ih =>
      rw [← FieldType.fields_composite ht] at ih
      have hfields := fun f hf => ih f hf (C.fields htype f hf)
      constructor
      · intro σ τ u v hστ huv mode name
        rw [FieldType.coerce_composite ht, FieldType.coerce_composite ht,
          C.isInstanceOf htype huv.head]
        split
        · exact .pure huv
        · exact (sourceOf_parallel huv name t.name).bind fun _ _ _ _ hσ hτ hsources =>
            construct_parallel_of_fields htype hfields (C.grow hστ hσ hτ) hsources
      · intro σ τ hστ owner name
        rw [FieldType.defaultValue_composite ht]
        exact construct_parallel_of_fields htype hfields hστ .none
  | struct s ih =>
      have hfields := fun f hf => ih f hf (C.fields htype f hf)
      constructor
      · intro σ τ u v hστ huv mode name
        rw [FieldType.coerce_struct, FieldType.coerce_struct, C.isStructOf htype huv.head]
        split
        · exact .pure huv
        · exact (sourceOf_parallel huv name s.name).bind fun _ _ _ _ hσ hτ hsources =>
            construct_parallel_of_fields htype hfields (C.grow hστ hσ hτ) hsources
      · intro σ τ hστ owner name
        rw [FieldType.defaultValue_struct]
        exact construct_parallel_of_fields htype hfields hστ .none

/-- Construction of a type from sources that answer alike ends alike. -/
theorem construct_parallel {type : FieldType} (htype : C.types type) (hστ : C.stores σ τ)
    {source source' : Option Source} (hsources : C.Sources σ τ source source') :
    Build.Parallel σ τ (type.construct source) (type.construct source') C.Rel :=
  construct_parallel_of_fields htype (fun f hf => carries (C.fields htype f hf)) hστ hsources

end Correspondence

end ValueTypes
