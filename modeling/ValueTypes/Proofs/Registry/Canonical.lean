import ValueTypes.Proofs.Registry.Buckets

/-! Well-formed registries: definitions are numbered in order and found under their symbols, every
field is of an earlier definition, and no two definitions have one shape. Answering a draft keeps a
registry well formed, only appends to it, and gives the one definition of the draft's shape. -/

namespace ValueTypes

theorem PrimitiveKind.index_of_getElem? {k : Nat} {kind : PrimitiveKind}
    (h : PrimitiveKind.all[k]? = some kind) : kind.index = k := by
  have hrange : PrimitiveKind.all.map PrimitiveKind.index = List.range 12 := by decide
  have hk : (PrimitiveKind.all.map PrimitiveKind.index)[k]? = some kind.index := by
    rw [List.getElem?_map, h]
    rfl
  rw [hrange, List.getElem?_eq_some_iff] at hk
  rcases hk with ⟨_, hk⟩
  rw [← hk, List.getElem_range]

theorem PrimitiveKind.mem_all (kind : PrimitiveKind) : kind ∈ PrimitiveKind.all := by
  cases kind <;> decide

namespace Registry

variable {μ : Type}

/-- What holds of every registry that a realm can come to have. -/
structure WellFormed (r : Registry μ) : Prop where
  seeded : PrimitiveKind.all.map r.primitive <+: r.definitions
  next : r.nextId = r.definitions.length + 1
  numbered : ∀ k t, r.definitions[k]? = some t → t.id = k + 1
  bucketed : r.buckets.Represent r.definitions
  owned : ∀ t ∈ r.definitions, t.realm = r.realm ∧ t.coercion = r.coercion
  closed : ∀ t ∈ r.definitions, ∀ schema, t.layout = .composite schema →
    ∀ f ∈ schema.fields, ∃ u ∈ r.definitions, f.type = .value u ∧ u.id < t.id
  canonical : ∀ t ∈ r.definitions, ∀ u ∈ r.definitions, t.shape = u.shape → t = u

namespace WellFormed

variable {r : Registry μ}

theorem eq_of_id (hr : r.WellFormed) {t u : ValueType} (ht : t ∈ r.definitions)
    (hu : u ∈ r.definitions) (h : t.id = u.id) : t = u := by
  rcases List.mem_iff_getElem?.mp ht with ⟨k, hk⟩
  rcases List.mem_iff_getElem?.mp hu with ⟨l, hl⟩
  have hid : k = l :=
    Nat.succ.inj ((hr.numbered k t hk).symm.trans (h.trans (hr.numbered l u hl)))
  rw [hid, hl] at hk
  exact (Option.some.inj hk).symm

theorem map_id (hr : r.WellFormed) :
    r.definitions.map ValueType.id = List.range' 1 r.definitions.length := by
  apply List.ext_getElem?
  intro k
  rw [List.getElem?_map]
  cases hk : r.definitions[k]? with
  | none =>
      have hlength := List.getElem?_eq_none_iff.mp hk
      rw [List.getElem?_eq_none (by simpa using hlength)]
      rfl
  | some t =>
      rcases List.getElem?_eq_some_iff.mp hk with ⟨hlt, _⟩
      rw [List.getElem?_range' hlt, Option.map_some, hr.numbered k t hk, Nat.one_mul, Nat.add_comm]

theorem pairwise_id (hr : r.WellFormed) : r.definitions.Pairwise fun t u => t.id < u.id := by
  have hmap := hr.map_id ▸ List.pairwise_lt_range' (s := 1) (n := r.definitions.length)
  exact List.pairwise_map.mp hmap

theorem id_le_length (hr : r.WellFormed) {t : ValueType} (ht : t ∈ r.definitions) :
    t.id ≤ r.definitions.length := by
  rcases List.mem_iff_getElem?.mp ht with ⟨k, hk⟩
  rw [hr.numbered k t hk]
  exact (List.getElem?_eq_some_iff.mp hk).1

theorem same_iff (hr : r.WellFormed) {t u : ValueType} (ht : t ∈ r.definitions)
    (hu : u ∈ r.definitions) : t.same u = true ↔ t = u := by
  constructor
  · intro h
    simp only [ValueType.same, Bool.and_eq_true, beq_iff_eq] at h
    exact hr.eq_of_id ht hu h.2
  · rintro rfl
    exact t.same_refl

theorem faithful (hr : r.WellFormed) : Faithful (· ∈ r.definitions) where
  eq_of_same _ _ ht hu h := (hr.same_iff ht hu).mp h
  field t schema ht hschema f hf u hu := by
    rcases hr.closed t ht schema hschema f hf with ⟨u', hu', htype, _⟩
    rw [hu] at htype
    cases htype
    exact hu'

theorem primitive_mem (hr : r.WellFormed) (kind : PrimitiveKind) :
    r.primitive kind ∈ r.definitions :=
  hr.seeded.subset (List.mem_map_of_mem (PrimitiveKind.mem_all kind))

/-- Between registered definitions, equivalence is identity. -/
theorem equivalent_iff_same (hr : r.WellFormed) {t u : ValueType} (ht : t ∈ r.definitions)
    (hu : u ∈ r.definitions) : t.equivalent u = true ↔ t.same u = true := by
  rw [ValueType.equivalent_iff_shape hr.faithful ht hu, hr.same_iff ht hu]
  constructor
  · exact hr.canonical t ht u hu
  · rintro rfl
    rfl

/-! ### Definitions by symbol -/

theorem definitionsOf_eq (hr : r.WellFormed) (symbol : Symbol) :
    r.definitionsOf symbol = r.definitions.filter (·.symbol == symbol) :=
  hr.bucketed.bucket symbol

theorem mem_definitionsOf (hr : r.WellFormed) {symbol : Symbol} {t : ValueType} :
    t ∈ r.definitionsOf symbol ↔ t ∈ r.definitions ∧ t.symbol.id = symbol.id :=
  hr.bucketed.mem_bucket

theorem pairwise_definitionsOf (hr : r.WellFormed) (symbol : Symbol) :
    (r.definitionsOf symbol).Pairwise fun t u => t.id < u.id := by
  rw [hr.definitionsOf_eq]
  exact hr.pairwise_id.filter _

/-- A bucket is what a look-up under its symbol finds. -/
theorem definitionsOf_entry (hr : r.WellFormed) {e : Symbol × List ValueType}
    (he : e ∈ r.buckets.entries) : r.definitionsOf e.1 = e.2 :=
  hr.bucketed.bucket_entry he

theorem definitionsOf_prefix {r' : Registry μ} (hr : r.WellFormed) (hr' : r'.WellFormed)
    (hgrows : r.definitions <+: r'.definitions) (symbol : Symbol) :
    r.definitionsOf symbol <+: r'.definitionsOf symbol :=
  hr.bucketed.bucket_prefix hr'.bucketed hgrows symbol

end WellFormed

/-! ### New registries -/

theorem new_wellFormed (hashing : Hashing) (realm : RealmId) (coercion : CoercionMode)
    (firstSymbol : Nat) :
    (Registry.new (μ := μ) hashing realm coercion firstSymbol).WellFormed where
  seeded := List.prefix_refl _
  next := by rw [Registry.new, List.length_map]
  numbered k t h := by
    simp only [Registry.new, List.getElem?_map, Option.map_eq_some_iff] at h
    rcases h with ⟨kind, hkind, rfl⟩
    rw [primitiveType, ValueType.define, PrimitiveKind.index_of_getElem? hkind]
  bucketed := Buckets.Represent.empty.foldl _
  owned t ht := by
    rcases List.mem_map.mp ht with ⟨kind, _, rfl⟩
    exact ⟨rfl, rfl⟩
  closed t ht schema hschema := by
    rcases List.mem_map.mp ht with ⟨kind, _, rfl⟩
    cases hschema
  canonical t ht u hu h := by
    rcases List.mem_map.mp ht with ⟨kind, _, rfl⟩
    rcases List.mem_map.mp hu with ⟨other, _, rfl⟩
    rcases Shape.primitive.inj h with ⟨_, hkind⟩
    rw [hkind]

/-! ### Drafts -/

/-- A draft that a caller can have: what it calls types of this realm is registered here. -/
def Knows (r : Registry μ) (d : Draft) : Prop :=
  ∀ f ∈ d.schema.fields, ∀ u, f.type = .value u → u.realm = r.realm → u ∈ r.definitions

/-- A draft whose fields are all of registered definitions. -/
def Fits (r : Registry μ) (d : Draft) : Prop :=
  ∀ f ∈ d.schema.fields, ∃ u ∈ r.definitions, f.type = .value u

theorem Fits.within {r : Registry μ} {d : Draft} (hd : r.Fits d) :
    (Definition.draft d).Within (· ∈ r.definitions) := by
  intro f hf t ht
  rcases hd f hf with ⟨u, hu, htype⟩
  rw [ht] at htype
  cases htype
  exact hu

theorem Fits.mono {r r' : Registry μ} {d : Draft} (hd : r.Fits d)
    (h : r.definitions <+: r'.definitions) : r'.Fits d := by
  intro f hf
  rcases hd f hf with ⟨u, hu, htype⟩
  exact ⟨u, h.subset hu, htype⟩

theorem fault?_eq_none {r : Registry μ} {type : FieldType} (h : r.fault? type = none) :
    ∃ u, type = .value u ∧ u.realm = r.realm := by
  cases type with
  | value u =>
      by_cases hu : u.realm = r.realm
      · exact ⟨u, rfl, hu⟩
      · simp [fault?, hu] at h
  | struct s => simp [fault?] at h

/-- The check lets through exactly the drafts over registered definitions. -/
theorem check_eq_ok_iff {r : Registry μ} (hr : r.WellFormed) {d : Draft} (hd : r.Knows d) :
    r.check d = .ok () ↔ r.Fits d := by
  have hcheck : r.check d = .ok () ↔ ∀ f ∈ d.schema.fields, r.fault? f.type = none := by
    rw [check]
    split
    · rename_i e he
      rcases List.exists_of_findSome?_eq_some he with ⟨f, hf, hfault⟩
      simp only [reduceCtorEq, false_iff]
      intro hall
      simp [hall f hf] at hfault
    · rename_i he
      simpa [List.findSome?_eq_none_iff] using he
  rw [hcheck]
  constructor
  · intro h f hf
    rcases fault?_eq_none (h f hf) with ⟨u, hu, hrealm⟩
    exact ⟨u, hd f hf u hu hrealm, hu⟩
  · intro h f hf
    rcases h f hf with ⟨u, hu, htype⟩
    rw [htype, fault?, if_pos (hr.owned u hu).1]

theorem matchesDraft_iff {r : Registry μ} (hr : r.WellFormed) {d : Draft} (hd : r.Fits d)
    {t : ValueType} (ht : t ∈ r.definitions) :
    t.matchesDraft d = true ↔ t.shape = d.shape := by
  have h := Definition.equivalent_iff_shape hr.faithful
    (a := .canonical t) (b := .draft d) ht hd.within
  simpa [Definition.equivalent, Definition.identical, Definition.symbol, Definition.layout,
    Definition.shape, ValueType.matchesDraft, ValueType.shape, Draft.shape] using h

/-- A type of the shape of a draft is composite, under the same symbol and with fields of the same
names and shapes. -/
theorem exists_schema_of_shape {t : ValueType} {d : Draft} (h : t.shape = d.shape) :
    ∃ schema, t.layout = .composite schema ∧ t.symbol.id = d.symbol.id ∧
      fieldShapes schema.fields = fieldShapes d.schema.fields := by
  rcases Layout.composite_of_shape h.symm with ⟨schema, hlayout, hsymbol, hfields⟩
  exact ⟨schema, hlayout, hsymbol.symm, hfields.symm⟩

theorem symbol_eq_of_shape {t : ValueType} {d : Draft} (h : t.shape = d.shape) :
    t.symbol.id = d.symbol.id := by
  rcases exists_schema_of_shape h with ⟨_, _, hsymbol, _⟩
  exact hsymbol

theorem find?_eq_some {r : Registry μ} (hr : r.WellFormed) {d : Draft} (hd : r.Fits d)
    {t : ValueType} (h : r.find? d = some t) : t ∈ r.definitions ∧ t.shape = d.shape := by
  have ht := (hr.mem_definitionsOf.mp (List.mem_of_find?_eq_some h)).1
  have hmatch : t.matchesDraft d = true := by
    rw [find?] at h
    simpa using List.find?_some h
  exact ⟨ht, (matchesDraft_iff hr hd ht).mp hmatch⟩

theorem find?_eq_none {r : Registry μ} (hr : r.WellFormed) {d : Draft} (hd : r.Fits d)
    (h : r.find? d = none) : ∀ t ∈ r.definitions, t.shape ≠ d.shape := by
  intro t ht hshape
  have hmem : t ∈ r.definitionsOf d.symbol :=
    hr.mem_definitionsOf.mpr ⟨ht, symbol_eq_of_shape hshape⟩
  exact List.find?_eq_none.mp h t hmem ((matchesDraft_iff hr hd ht).mpr hshape)

/-! ### Registration -/

theorem next_shape (r : Registry μ) (d : Draft) : (r.next d).shape = d.shape := rfl

/-- A new definition is numbered next, and its fields are of the definitions before it. -/
theorem register_wellFormed {r : Registry μ} (hr : r.WellFormed) {d : Draft} (hd : r.Fits d)
    (hnew : ∀ t ∈ r.definitions, t.shape ≠ d.shape) : (r.register d).WellFormed where
  seeded := hr.seeded.trans (List.prefix_append _ _)
  next := by
    simp only [register, List.length_append, List.length_singleton]
    rw [hr.next]
  numbered k t h := by
    rw [register, List.getElem?_append] at h
    split at h
    · exact hr.numbered k t h
    · rename_i hk
      rw [List.getElem?_singleton] at h
      split at h
      · cases h
        simp only [Registry.next, ValueType.define]
        rw [hr.next]
        omega
      · cases h
  bucketed := hr.bucketed.push (r.next d)
  owned t ht := by
    rcases List.mem_append.mp ht with ht | ht
    · exact hr.owned t ht
    · rw [List.mem_singleton.mp ht]
      exact ⟨rfl, rfl⟩
  closed t ht schema hschema f hf := by
    rcases List.mem_append.mp ht with ht | ht
    · rcases hr.closed t ht schema hschema f hf with ⟨u, hu, htype, hid⟩
      exact ⟨u, List.mem_append_left _ hu, htype, hid⟩
    · rw [List.mem_singleton.mp ht] at hschema ⊢
      cases hschema
      rcases hd f hf with ⟨u, hu, htype⟩
      -- Numbers are given in order, so every registered definition is below the new one.
      refine ⟨u, List.mem_append_left _ hu, htype, ?_⟩
      change u.id < r.nextId
      rw [hr.next]
      exact Nat.lt_succ_of_le (hr.id_le_length hu)
  canonical t ht u hu h := by
    rcases List.mem_append.mp ht with ht | ht <;> rcases List.mem_append.mp hu with hu | hu
    · exact hr.canonical t ht u hu h
    · rw [List.mem_singleton.mp hu, next_shape] at h
      exact absurd h (hnew t ht)
    · rw [List.mem_singleton.mp ht, next_shape] at h
      exact absurd h.symm (hnew u hu)
    · rw [List.mem_singleton.mp ht, List.mem_singleton.mp hu]

/-- How a draft is answered: with the registered definition of its shape, or with a new one. -/
inductive Answers (r : Registry μ) (d : Draft) : ValueType → Registry μ → Prop where
  | known {t} (mem : t ∈ r.definitions) (shape : t.shape = d.shape) : Answers r d t r
  | new (absent : ∀ t ∈ r.definitions, t.shape ≠ d.shape) :
      Answers r d (r.next d) (r.register d)

namespace Answers

variable {r r' : Registry μ} {d : Draft} {t : ValueType}

theorem wellFormed (h : r.Answers d t r') (hr : r.WellFormed) (hd : r.Fits d) :
    r'.WellFormed := by
  cases h with
  | known => exact hr
  | new absent => exact register_wellFormed hr hd absent

theorem mem (h : r.Answers d t r') : t ∈ r'.definitions := by
  cases h with
  | known mem => exact mem
  | new => exact List.mem_append_right _ (List.mem_singleton.mpr rfl)

theorem shape_eq (h : r.Answers d t r') : t.shape = d.shape := by
  cases h with
  | known _ shape => exact shape
  | new => exact next_shape r d

theorem definitions_grow (h : r.Answers d t r') : r.definitions <+: r'.definitions := by
  cases h with
  | known => exact List.prefix_refl _
  | new => exact List.prefix_append _ _

theorem realm_eq (h : r.Answers d t r') : r'.realm = r.realm := by
  cases h <;> rfl

end Answers

theorem answers_of_find? {r : Registry μ} (hr : r.WellFormed) {d : Draft} (hd : r.Fits d)
    {t : ValueType} (h : r.find? d = some t) : r.Answers d t r := by
  rcases find?_eq_some hr hd h with ⟨ht, hshape⟩
  exact .known ht hshape

/-- The second look-up and the registration together answer the draft, whatever the first
look-up has found. -/
theorem registerUnlessPresent_answers {r : Registry μ} (hr : r.WellFormed) {d : Draft}
    (hd : r.Fits d) :
    r.Answers d (r.registerUnlessPresent d).1 (r.registerUnlessPresent d).2 := by
  rw [registerUnlessPresent]
  split
  · rename_i t h
    exact answers_of_find? hr hd h
  · rename_i h
    exact .new (find?_eq_none hr hd h)

/-- A draft is interned exactly if all its fields are of registered definitions. -/
theorem intern_answers {r r' : Registry μ} (hr : r.WellFormed) {d : Draft} (hd : r.Knows d)
    {t : ValueType} (h : r.intern d = .ok (t, r')) : r.Fits d ∧ r.Answers d t r' := by
  rw [intern] at h
  split at h
  · cases h
  · rename_i hcheck
    have hfits := (check_eq_ok_iff hr hd).mp hcheck
    refine ⟨hfits, ?_⟩
    split at h
    · rename_i u hfind
      cases h
      exact answers_of_find? hr hfits hfind
    · have hanswers := registerUnlessPresent_answers hr hfits
      rw [Except.ok.inj h] at hanswers
      exact hanswers

/-! ### Answers -/

/-- Whether a definition is the one that a draft stands for. -/
structure Resolves (r : Registry μ) (d : Draft) (t : ValueType) : Prop where
  fits : r.Fits d
  mem : t ∈ r.definitions
  shape : t.shape = d.shape

theorem Answers.resolves {r r' : Registry μ} {d : Draft} {t : ValueType}
    (h : r.Answers d t r') (hd : r.Fits d) : r'.Resolves d t :=
  ⟨hd.mono h.definitions_grow, h.mem, h.shape_eq⟩

namespace Resolves

variable {r : Registry μ} {d d' : Draft} {t t' : ValueType}

theorem mono {r' : Registry μ} (h : r.Resolves d t) (hgrows : r.definitions <+: r'.definitions) :
    r'.Resolves d t :=
  ⟨h.fits.mono hgrows, hgrows.subset h.mem, h.shape⟩

/-- Two drafts stand for one definition exactly if they are equivalent. -/
theorem eq_iff_equivalent (hr : r.WellFormed) (h : r.Resolves d t) (h' : r.Resolves d' t') :
    t = t' ↔ (Definition.draft d).equivalent (.draft d') = true := by
  have hiff : (Definition.draft d).equivalent (.draft d') = true ↔ d.shape = d'.shape :=
    Definition.equivalent_iff_shape (a := .draft d) (b := .draft d') hr.faithful h.fits.within
      h'.fits.within
  rw [hiff, ← h.shape, ← h'.shape]
  constructor
  · intro heq
    rw [heq]
  · exact hr.canonical t h.mem t' h'.mem

theorem same_iff_equivalent (hr : r.WellFormed) (h : r.Resolves d t) (h' : r.Resolves d' t') :
    t.same t' = true ↔ (Definition.draft d).equivalent (.draft d') = true := by
  rw [hr.same_iff h.mem h'.mem, eq_iff_equivalent hr h h']

theorem id_eq_iff_equivalent (hr : r.WellFormed) (h : r.Resolves d t) (h' : r.Resolves d' t') :
    t.id = t'.id ↔ (Definition.draft d).equivalent (.draft d') = true := by
  rw [← eq_iff_equivalent hr h h']
  exact ⟨hr.eq_of_id h.mem h'.mem, congrArg ValueType.id⟩

theorem equivalent_draft (hr : r.WellFormed) (h : r.Resolves d t) :
    (Definition.canonical t).equivalent (.draft d) = true := by
  have hiff := Definition.equivalent_iff_shape (a := .canonical t) (b := .draft d) hr.faithful
    h.mem h.fits.within
  exact hiff.mpr h.shape

end Resolves

/-! ### Methods -/

/-- Attaching methods leaves all definitions as they are. -/
theorem attach_wellFormed {r r' : Registry μ} (hr : r.WellFormed) {t : ValueType}
    {added : MethodTable μ} (h : r.attach t added = .ok r') :
    r'.WellFormed ∧ r'.definitions = r.definitions ∧ r'.realm = r.realm := by
  rw [attach] at h
  split at h
  · cases h
    exact ⟨⟨hr.seeded, hr.next, hr.numbered, hr.bucketed, hr.owned, hr.closed, hr.canonical⟩,
      rfl, rfl⟩
  · cases h

end Registry

end ValueTypes
