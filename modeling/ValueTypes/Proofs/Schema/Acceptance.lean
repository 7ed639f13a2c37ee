import ValueTypes.Proofs.Construction.Fieldwise
import ValueTypes.Proofs.Schema.Nesting

/-! Which lists of fields make a schema. There are four passes over a list, for its names, its types,
their nesting and its defaults. The first pass that finds fault decides the error, at the first field
that it finds at fault. A default is resolved as if its field were alone. -/

namespace ValueTypes

/-! ### The first field at fault -/

/-- The first name that is repeated, among those seen before or those to the left. -/
theorem firstRepeated?_eq_some_iff {seen names : List String} {name : String} :
    firstRepeated? seen names = some name ↔ ∃ k : Nat, names[k]? = some name ∧
      (name ∈ seen ∨ name ∈ names.take k) ∧ (names.take k).Nodup ∧
      ∀ other ∈ names.take k, other ∉ seen := by
  induction names generalizing seen with
  | nil => simp [firstRepeated?]
  | cons head names ih =>
      rw [firstRepeated?]
      by_cases hhead : head ∈ seen
      · rw [if_pos hhead]
        constructor
        · intro h
          cases h
          exact ⟨0, rfl, .inl hhead, List.nodup_nil, List.forall_mem_nil _⟩
        · rintro ⟨k, hk, _, _, hseen⟩
          cases k with
          | zero => exact hk
          | succ k => exact absurd hhead (hseen head (List.mem_cons_self ..))
      · rw [if_neg hhead, ih]
        constructor
        · rintro ⟨k, hk, hagain, hnodup, hseen⟩
          have hfresh : head ∉ names.take k :=
            fun hmem => hseen head hmem (List.mem_cons_self ..)
          refine ⟨k + 1, hk, ?_, List.nodup_cons.mpr ⟨hfresh, hnodup⟩, ?_⟩
          · simpa [or_assoc, or_comm, or_left_comm] using hagain
          · exact List.forall_mem_cons.mpr ⟨hhead, fun other hother hmem =>
              hseen other hother (List.mem_cons_of_mem head hmem)⟩
        · rintro ⟨k, hk, hagain, hnodup, hseen⟩
          cases k with
          | zero =>
              cases hk
              simp [hhead] at hagain
          | succ k =>
              obtain ⟨hfresh, hnodup⟩ := List.nodup_cons.mp hnodup
              refine ⟨k, hk, ?_, hnodup, fun other hother hmem => ?_⟩
              · simpa [or_assoc, or_comm, or_left_comm] using hagain
              · rcases List.mem_cons.mp hmem with rfl | hmem
                · exact hfresh hother
                · exact hseen other (List.mem_cons_of_mem head hother) hmem

theorem firstRepeated?_eq_none_iff {names : List String} :
    firstRepeated? [] names = none ↔ names.Nodup := by
  refine ⟨fun h => (firstRepeated?_eq_none h).1, fun hnodup => ?_⟩
  cases hfound : firstRepeated? [] names with
  | none => rfl
  | some name =>
      obtain ⟨k, hk, hagain, _⟩ := firstRepeated?_eq_some_iff.mp hfound
      rcases hagain with hagain | hagain
      · cases hagain
      · obtain ⟨hlt, rfl⟩ := List.getElem?_eq_some_iff.mp hk
        have hrest : names[k] ∈ names.drop k := by
          rw [List.drop_eq_getElem_cons hlt]
          exact List.mem_cons_self ..
        exact (List.disjoint_take_drop hnodup (Nat.le_refl k) hagain hrest).elim

theorem findSome?_eq_some_iff_getElem? {α β : Type} {f : α → Option β} {l : List α} {b : β} :
    l.findSome? f = some b ↔
      ∃ (k : Nat) (a : α), l[k]? = some a ∧ f a = some b ∧ ∀ x ∈ l.take k, f x = none := by
  rw [List.findSome?_eq_some_iff]
  constructor
  · rintro ⟨before, a, after, rfl, ha, hbefore⟩
    exact ⟨before.length, a, by simp, ha, by simpa using hbefore⟩
  · rintro ⟨k, a, hk, ha, hbefore⟩
    obtain ⟨hlt, rfl⟩ := List.getElem?_eq_some_iff.mp hk
    refine ⟨l.take k, l[k], l.drop (k + 1), ?_, ha, hbefore⟩
    rw [← List.drop_eq_getElem_cons hlt, List.take_append_drop]

/-! ### Conditions -/

/-- Whether a type is of a realm, and of a sort that a schema of a kind may have. -/
structure FieldType.Belongs (type : FieldType) (realm : RealmId) (kind : SchemaKind) : Prop where
  realm : type.realm = realm
  isValue : kind = .value → type.isValue = true

namespace SchemaPolicy

/-- Whether a policy accepts a list of fields, each default resolved by itself in a store. -/
structure Accepts (policy : SchemaPolicy) (store : Store) (kind : SchemaKind)
    (drafts : List FieldDraft) : Prop where
  names : (drafts.map (·.name)).Nodup
  types : ∀ draft ∈ drafts, draft.type.Belongs policy.realm kind
  depth : depthAbove (drafts.map (·.type)) ≤ policy.maxDepth
  explicit : ∀ draft ∈ drafts, ∀ v, draft.default = some v →
    ∃ r, (draft.type.coerce policy.coercion draft.name v).run store = .ok r
  fixed : ∀ draft ∈ drafts, draft.isStatic = true → draft.default = none →
    ∃ r, (draft.type.defaultValue "static field" draft.name).run store = .ok r

/-- The error for a list of fields that is not accepted: that of the first condition that does not
hold, and of the first field for which it does not. -/
inductive Refuses (policy : SchemaPolicy) (store : Store) (kind : SchemaKind)
    (drafts : List FieldDraft) : Error → Prop where
  | duplicate {k draft} (hdraft : drafts[k]? = some draft)
      (again : draft.name ∈ (drafts.take k).map (·.name))
      (before : ((drafts.take k).map (·.name)).Nodup) :
      Refuses policy store kind drafts (.duplicateFieldName draft.name)
  | foreign {k draft} (names : (drafts.map (·.name)).Nodup) (hdraft : drafts[k]? = some draft)
      (fault : draft.type.realm ≠ policy.realm)
      (before : ∀ other ∈ drafts.take k, other.type.Belongs policy.realm kind) :
      Refuses policy store kind drafts (.invalidFieldType draft.name (.foreign draft.type.name))
  | structInValue {k draft} (names : (drafts.map (·.name)).Nodup)
      (hdraft : drafts[k]? = some draft) (realm : draft.type.realm = policy.realm)
      (fault : kind = .value ∧ draft.type.isValue = false)
      (before : ∀ other ∈ drafts.take k, other.type.Belongs policy.realm kind) :
      Refuses policy store kind drafts
        (.invalidFieldType draft.name (.structInValue draft.type.name))
  | tooDeep {name} (names : (drafts.map (·.name)).Nodup)
      (types : ∀ draft ∈ drafts, draft.type.Belongs policy.realm kind)
      (fault : policy.maxDepth < depthAbove (drafts.map (·.type)))
      (first : FirstDeepest drafts name) :
      Refuses policy store kind drafts (.invalidFieldType name
        (.tooDeep (depthAbove (drafts.map (·.type))) policy.maxDepth))
  | default {k draft e} (names : (drafts.map (·.name)).Nodup)
      (types : ∀ draft ∈ drafts, draft.type.Belongs policy.realm kind)
      (depth : depthAbove (drafts.map (·.type)) ≤ policy.maxDepth)
      (hdraft : drafts[k]? = some draft) (fault : (policy.default draft).run store = .error e)
      (before : ∀ other ∈ drafts.take k, ∃ r, (policy.default other).run store = .ok r) :
      Refuses policy store kind drafts e

variable {policy : SchemaPolicy} {kind : SchemaKind} {drafts : List FieldDraft} {store : Store}
  {known : FieldType → Prop}

/-! ### Names, types and nesting -/

theorem fault?_eq_none_iff {type : FieldType} :
    policy.fault? kind type = none ↔ type.Belongs policy.realm kind := by
  refine ⟨fun h => ⟨(realm_of_fault? h).1, (realm_of_fault? h).2⟩, fun h => ?_⟩
  rw [fault?, if_neg (not_not.mpr h.realm), if_neg]
  rintro ⟨hkind, hstruct⟩
  exact hstruct (h.isValue hkind)

/-- The first field with a type that does not belong, if there is one. -/
theorem findFault_eq_none_iff :
    (drafts.findSome? fun draft =>
      (policy.fault? kind draft.type).map (Error.invalidFieldType draft.name)) = none ↔
      ∀ draft ∈ drafts, draft.type.Belongs policy.realm kind := by
  simp only [List.findSome?_eq_none_iff, Option.map_eq_none_iff, fault?_eq_none_iff]

/-- Whether a type does not belong in a schema, and why. -/
theorem fault?_cases {type : FieldType} {fault : FieldFault}
    (h : policy.fault? kind type = some fault) :
    (type.realm ≠ policy.realm ∧ fault = .foreign type.name) ∨
      (type.realm = policy.realm ∧ (kind = .value ∧ type.isValue = false) ∧
        fault = .structInValue type.name) := by
  rw [fault?] at h
  split at h
  · rename_i hforeign
    cases h
    exact .inl ⟨hforeign, rfl⟩
  · rename_i hrealm
    split at h
    · rename_i hstruct
      cases h
      exact .inr ⟨not_not.mp hrealm, ⟨hstruct.1, Bool.eq_false_iff.mpr hstruct.2⟩, rfl⟩
    · cases h

/-- A policy that finds no fault with names, types and nesting tells the depth of the schema. -/
theorem check_ok (hknown : Keyed known)
    (hdrafts : ∀ draft ∈ drafts, draft.type.realm = policy.realm → known draft.type)
    (names : (drafts.map (·.name)).Nodup)
    (types : ∀ draft ∈ drafts, draft.type.Belongs policy.realm kind)
    (depth : depthAbove (drafts.map (·.type)) ≤ policy.maxDepth) :
    policy.check kind drafts = .ok (depthAbove (drafts.map (·.type))) := by
  obtain ⟨_, _, hnesting⟩ := nestingDepth_eq hknown
    (fun draft hdraft => hdrafts draft hdraft (types draft hdraft).realm) policy.maxDepth
  rw [check, firstRepeated?_eq_none_iff.mpr names, findFault_eq_none_iff.mpr types]
  dsimp only
  rw [hnesting, if_neg (Nat.not_lt_of_le depth)]

variable (kind store) in
/-- A list of fields meets the first three conditions, or is refused for one of them. -/
theorem meets_or_refuses (hknown : Keyed known)
    (hdrafts : ∀ draft ∈ drafts, draft.type.realm = policy.realm → known draft.type) :
    ((drafts.map (·.name)).Nodup ∧ (∀ draft ∈ drafts, draft.type.Belongs policy.realm kind) ∧
      depthAbove (drafts.map (·.type)) ≤ policy.maxDepth) ∨
    ∃ e, policy.Refuses store kind drafts e := by
  cases hrepeated : firstRepeated? [] (drafts.map (·.name)) with
  | some name =>
      obtain ⟨k, hk, hagain, hbefore, _⟩ := firstRepeated?_eq_some_iff.mp hrepeated
      rw [List.getElem?_map] at hk
      obtain ⟨draft, hdraft, rfl⟩ := Option.map_eq_some_iff.mp hk
      rw [← List.map_take] at hagain hbefore
      exact .inr ⟨_, .duplicate hdraft (hagain.resolve_left List.not_mem_nil) hbefore⟩
  | none =>
      have hnames := firstRepeated?_eq_none_iff.mp hrepeated
      cases hfound : drafts.findSome? fun draft =>
          (policy.fault? kind draft.type).map (Error.invalidFieldType draft.name) with
      | some e =>
          obtain ⟨k, draft, hdraft, hmapped, hbefore⟩ :=
            findSome?_eq_some_iff_getElem?.mp hfound
          simp only [Option.map_eq_none_iff, fault?_eq_none_iff] at hbefore
          obtain ⟨fault, hfault, rfl⟩ := Option.map_eq_some_iff.mp hmapped
          rcases fault?_cases hfault with ⟨hforeign, rfl⟩ | ⟨hrealm, hstruct, rfl⟩
          · exact .inr ⟨_, .foreign hnames hdraft hforeign hbefore⟩
          · exact .inr ⟨_, .structInValue hnames hdraft hrealm hstruct hbefore⟩
      | none =>
          have htypes := findFault_eq_none_iff.mp hfound
          by_cases hdepth : depthAbove (drafts.map (·.type)) ≤ policy.maxDepth
          · exact .inl ⟨hnames, htypes, hdepth⟩
          · obtain ⟨name, hfirst, _⟩ := nestingDepth_eq hknown
              (fun draft hdraft => hdrafts draft hdraft (htypes draft hdraft).realm)
              policy.maxDepth
            exact .inr ⟨_, .tooDeep hnames htypes (Nat.lt_of_not_le hdepth) hfirst⟩

/-- The error of a type that does not belong is found at the first field that has one. -/
theorem check_of_fault {k : Nat} {draft : FieldDraft} {fault : FieldFault}
    (names : (drafts.map (·.name)).Nodup) (hdraft : drafts[k]? = some draft)
    (hfault : policy.fault? kind draft.type = some fault)
    (before : ∀ other ∈ drafts.take k, other.type.Belongs policy.realm kind) :
    policy.check kind drafts = .error (.invalidFieldType draft.name fault) := by
  have hfound : (drafts.findSome? fun draft =>
      (policy.fault? kind draft.type).map (Error.invalidFieldType draft.name)) =
        some (.invalidFieldType draft.name fault) := by
    refine findSome?_eq_some_iff_getElem?.mpr ⟨k, draft, hdraft, ?_, fun other hother => ?_⟩
    · rw [hfault, Option.map_some]
    · rw [fault?_eq_none_iff.mpr (before other hother), Option.map_none]
  rw [check, firstRepeated?_eq_none_iff.mpr names, hfound]

/-! ### Defaults -/

theorem field_eq_map (draft : FieldDraft) : policy.field draft =
    (fun d => ⟨draft.name, draft.type, draft.isStatic, d⟩) <$> policy.default draft :=
  (map_eq_pure_bind ..).symm

/-- The default of a field by itself: a given one converts to the type of the field, and a static
field without one takes the default of its type. -/
theorem exists_default_iff (draft : FieldDraft) :
    (∃ r, (policy.default draft).run store = .ok r) ↔
      (∀ v, draft.default = some v →
        ∃ r, (draft.type.coerce policy.coercion draft.name v).run store = .ok r) ∧
      (draft.isStatic = true → draft.default = none →
        ∃ r, (draft.type.defaultValue "static field" draft.name).run store = .ok r) := by
  rw [SchemaPolicy.default]
  cases draft.default with
  | some v =>
      rw [Build.exists_map_ok_iff]
      simp
  | none =>
      cases draft.isStatic with
      | true =>
          rw [if_pos rfl, Build.exists_map_ok_iff]
          simp
      | false =>
          refine iff_of_true ⟨_, rfl⟩ ⟨?_, ?_⟩
          · rintro v ⟨⟩
          · rintro ⟨⟩

/-- Whether a field is made as it is drafted: of the name, the type and the flag that are asked for,
and with a default exactly if one is given or needed, which goes together with the one that comes
about by itself. -/
structure Makes (policy : SchemaPolicy) (store : Store) (rel : Store → Value → Value → Prop)
    (draft : FieldDraft) (f : Field) : Prop where
  name : f.name = draft.name
  type : f.type = draft.type
  isStatic : f.isStatic = draft.isStatic
  explicit : ∀ v, draft.default = some v → ∃ d u τ, f.default = some d ∧
    (draft.type.coerce policy.coercion draft.name v).run store = .ok (u, τ) ∧ rel τ d u
  fixed : draft.default = none → draft.isStatic = true → ∃ d u τ, f.default = some d ∧
    (draft.type.defaultValue "static field" draft.name).run store = .ok (u, τ) ∧ rel τ d u
  absent : draft.default = none → draft.isStatic = false → f.default = none

theorem Makes.imp {rel rel' : Store → Value → Value → Prop} {draft : FieldDraft} {f : Field}
    (h : policy.Makes store rel draft f) (hrel : ∀ τ u v, rel τ u v → rel' τ u v) :
    policy.Makes store rel' draft f := by
  refine ⟨h.name, h.type, h.isStatic, fun v hv => ?_, fun hnone hstatic => ?_, h.absent⟩
  · obtain ⟨d, u, τ, hd, hu, hdu⟩ := h.explicit v hv
    exact ⟨d, u, τ, hd, hu, hrel τ d u hdu⟩
  · obtain ⟨d, u, τ, hd, hu, hdu⟩ := h.fixed hnone hstatic
    exact ⟨d, u, τ, hd, hu, hrel τ d u hdu⟩

end SchemaPolicy

namespace Correspondence

variable {C : Correspondence} {base σ τ : Store}

variable (C) in
/-- Whether two fields differ in nothing but their defaults, and these go together. -/
structure RelField (σ τ : Store) (f g : Field) : Prop where
  name : f.name = g.name
  type : f.type = g.type
  isStatic : f.isStatic = g.isStatic
  default : Option.Rel (C.Rel σ τ) f.default g.default

theorem field_parallel (policy : SchemaPolicy) {draft : FieldDraft} (htype : C.types draft.type) (hστ : C.stores σ τ)
    (hgiven : ∀ v, draft.default = some v → C.Rel σ τ v v) :
    Build.Parallel σ τ (policy.field draft) (policy.field draft) C.RelField := by
  have hcarries := C.carries htype
  have hdefault : Build.Parallel σ τ (policy.default draft) (policy.default draft)
      fun σ' τ' => Option.Rel (C.Rel σ' τ') := by
    rw [SchemaPolicy.default]
    split
    · rename_i v hv
      rw [map_eq_pure_bind]
      exact (hcarries.coerce hστ (hgiven v hv) policy.coercion draft.name).bind
        fun _ _ _ _ _ _ hxy => .pure (.some hxy)
    · split
      · rw [map_eq_pure_bind]
        exact (hcarries.defaultValue hστ "static field" draft.name).bind
          fun _ _ _ _ _ _ hxy => .pure (.some hxy)
      · exact .pure .none
  exact hdefault.bind fun _ _ _ _ _ _ hxy => .pure ⟨rfl, rfl, rfl, hxy⟩

/-- Whether a list of fields can be made in any store that has grown from one, with all defaults
that are given going together with themselves. -/
structure Drafted (C : Correspondence) (base : Store) (drafts : List FieldDraft) : Prop where
  types : ∀ draft ∈ drafts, C.types draft.type
  stores : ∀ {σ}, base.Grows σ → C.stores σ base
  given : ∀ {σ}, base.Grows σ → ∀ draft ∈ drafts, ∀ v, draft.default = some v → C.Rel σ base v v

/-- All fields, each compared with itself alone in the store before. -/
theorem fields_assembled (policy : SchemaPolicy) {drafts : List FieldDraft}
    (h : C.Drafted base drafts) (hσ : base.Grows σ) :
    Assembled policy.field C.RelField base drafts (fun σ' made fields => fields = made ∧ σ.Grows σ')
      ((policy.fields drafts).run σ) := by
  induction drafts generalizing σ with
  | nil => exact .done ⟨rfl, .refl σ⟩ .nil
  | cons draft drafts ih =>
      have hrest : C.Drafted base drafts :=
        ⟨fun other hother => h.types other (List.mem_cons_of_mem draft hother), h.stores,
          fun hσ other hother => h.given hσ other (List.mem_cons_of_mem draft hother)⟩
      have hhead := field_parallel policy (h.types draft (List.mem_cons_self ..))
        (h.stores hσ) (h.given hσ draft (List.mem_cons_self ..))
      refine .cons rfl hhead (fun hrel hgrows => ?_) fun σ' hgrows => ih hrest (hσ.trans hgrows)
      exact ⟨hrel.name, hrel.type, hrel.isStatic,
        rel_imp (fun _ _ hxy => hxy.grow hgrows (.refl _)) hrel.default⟩

/-- A field that goes together with the one by itself is made as it is drafted. -/
theorem RelField.makes {policy : SchemaPolicy} {draft : FieldDraft} {f g : Field}
    (h : C.RelField σ τ f g) (hg : (policy.field draft).run base = .ok (g, τ)) :
    policy.Makes base (C.Rel σ) draft f := by
  rw [SchemaPolicy.field_eq_map, Build.map_eq_ok_iff] at hg
  obtain ⟨default, hdefault, rfl⟩ := hg
  have hsome : ∀ {b : Build Value}, policy.default draft = some <$> b →
      ∃ d u τ, f.default = some d ∧ b.run base = .ok (u, τ) ∧ C.Rel σ τ d u := by
    intro b heq
    rw [heq, Build.map_eq_ok_iff] at hdefault
    obtain ⟨u, hu, rfl⟩ := hdefault
    obtain ⟨d, hd, hrel⟩ := exists_of_rel_right h.default rfl
    exact ⟨d, u, τ, hd, hu, hrel⟩
  refine ⟨h.name, h.type, h.isStatic, fun v hv => hsome ?_, fun hnone hstatic => hsome ?_,
    fun hnone hstatic => ?_⟩
  · rw [SchemaPolicy.default, hv]
  · rw [SchemaPolicy.default, hnone]
    exact if_pos hstatic
  · have hpure : policy.default draft = pure none := by
      rw [SchemaPolicy.default, hnone]
      exact if_neg (Bool.eq_false_iff.mp hstatic)
    rw [hpure] at hdefault
    cases hdefault
    have hrel := h.default
    generalize f.default = found at hrel ⊢
    cases hrel
    rfl

end Correspondence

/-! ### Schemas -/

theorem FirstDeepest.unique {drafts : List FieldDraft} {name other : String}
    (h : FirstDeepest drafts name) (h' : FirstDeepest drafts other) : name = other := by
  cases h with
  | nil =>
      cases h' with
      | nil => rfl
      | field hdraft => cases hdraft
  | @field _ k draft hdraft hdeepest hbefore =>
      cases h' with
      | nil => cases hdraft
      | @field _ l draft' hdraft' hdeepest' hbefore' =>
          have heq := eq_of_first (P := fun draft : FieldDraft =>
              draft.type.depth + 1 = depthAbove (drafts.map (·.type))) hdraft hdeepest
            (fun other hother heq => absurd (hbefore other hother) (by omega)) hdraft' hdeepest'
            fun other hother heq => absurd (hbefore' other hother) (by omega)
          rw [heq]

namespace SchemaPolicy

variable {policy : SchemaPolicy} {kind : SchemaKind} {drafts : List FieldDraft} {store : Store}

theorem makeSchema_of_check_error {e : Error} (h : policy.check kind drafts = .error e) :
    (policy.makeSchema kind drafts).run store = .error e := by
  rw [makeSchema, h]
  rfl

theorem makeSchema_of_check_ok {depth : Nat} (h : policy.check kind drafts = .ok depth) :
    (policy.makeSchema kind drafts).run store =
      ((fun fields => ⟨kind, fields, policy.hashing.ofFields fields, depth⟩) <$>
        policy.fields drafts).run store := by
  rw [makeSchema, h, map_eq_pure_bind]
  rfl

variable {known : FieldType → Prop} {C : Correspondence} (hknown : Keyed known)
  (hdrafts : ∀ draft ∈ drafts, draft.type.realm = policy.realm → known draft.type)
  (hdrafted : C.Drafted store drafts)

include hknown hdrafts hdrafted

variable (kind) in
/-- A list of fields is accepted or refused. -/
theorem accepts_or_refuses :
    policy.Accepts store kind drafts ∨ ∃ e, policy.Refuses store kind drafts e := by
  have hassembled := C.fields_assembled policy hdrafted (.refl store)
  have hfields := hassembled.exists_ok_iff
  simp only [field_eq_map, Build.exists_map_ok_iff] at hfields
  rcases meets_or_refuses kind store hknown hdrafts with ⟨names, types, depth⟩ | hrefuses
  · cases hrun : (policy.fields drafts).run store with
    | ok made =>
        have hdefaults := fun draft hdraft =>
          (exists_default_iff draft).mp (hfields.mp ⟨made, hrun⟩ draft hdraft)
        exact .inl ⟨names, types, depth, fun draft hdraft => (hdefaults draft hdraft).1,
          fun draft hdraft => (hdefaults draft hdraft).2⟩
    | error e =>
        obtain ⟨k, draft, hdraft, hfault, hbefore⟩ := (hassembled.error_iff e).mp hrun
        simp only [field_eq_map, Build.map_eq_error_iff, Build.exists_map_ok_iff]
          at hfault hbefore
        exact .inr ⟨e, .default names types depth hdraft hfault hbefore⟩
  · exact .inr hrefuses

/-- A list of fields that is accepted makes a schema. -/
theorem Accepts.exists_makeSchema (h : policy.Accepts store kind drafts) :
    ∃ r, (policy.makeSchema kind drafts).run store = .ok r := by
  rw [makeSchema_of_check_ok (check_ok hknown hdrafts h.names h.types h.depth),
    Build.exists_map_ok_iff, (C.fields_assembled policy hdrafted (.refl store)).exists_ok_iff]
  intro draft hdraft
  rw [field_eq_map, Build.exists_map_ok_iff, exists_default_iff]
  exact ⟨h.explicit draft hdraft, h.fixed draft hdraft⟩

/-- A list of fields that is refused makes no schema, and the error is the one that it is refused
with. -/
theorem Refuses.makeSchema_eq {e : Error} (h : policy.Refuses store kind drafts e) :
    (policy.makeSchema kind drafts).run store = .error e := by
  cases h with
  | @duplicate k draft hdraft again before =>
      refine makeSchema_of_check_error ?_
      have hrepeated : firstRepeated? [] (drafts.map (·.name)) = some draft.name := by
        refine firstRepeated?_eq_some_iff.mpr ⟨k, ?_, .inr ?_, ?_, fun _ _ => List.not_mem_nil⟩
        · rw [List.getElem?_map, hdraft, Option.map_some]
        · rwa [← List.map_take]
        · rwa [← List.map_take]
      rw [check, hrepeated]
  | foreign names hdraft fault before =>
      refine makeSchema_of_check_error (check_of_fault names hdraft ?_ before)
      rw [fault?, if_pos fault]
  | structInValue names hdraft realm fault before =>
      refine makeSchema_of_check_error (check_of_fault names hdraft ?_ before)
      rw [fault?, if_neg (not_not.mpr realm), if_pos ⟨fault.1, Bool.eq_false_iff.mp fault.2⟩]
  | tooDeep names types fault first =>
      obtain ⟨name, hfirst, hnesting⟩ := nestingDepth_eq hknown
        (fun draft hdraft => hdrafts draft hdraft (types draft hdraft).realm) policy.maxDepth
      rw [if_pos fault, hfirst.unique first] at hnesting
      refine makeSchema_of_check_error ?_
      rw [check, firstRepeated?_eq_none_iff.mpr names, findFault_eq_none_iff.mpr types]
      exact hnesting
  | default names types depth hdraft fault before =>
      rw [makeSchema_of_check_ok (check_ok hknown hdrafts names types depth),
        Build.map_eq_error_iff, (C.fields_assembled policy hdrafted (.refl store)).error_iff]
      simp only [field_eq_map, Build.map_eq_error_iff, Build.exists_map_ok_iff]
      exact ⟨_, _, hdraft, fault, before⟩

theorem exists_makeSchema_iff :
    (∃ r, (policy.makeSchema kind drafts).run store = .ok r) ↔
      policy.Accepts store kind drafts := by
  refine ⟨fun ⟨r, hok⟩ => ?_, fun h => h.exists_makeSchema hknown hdrafts hdrafted⟩
  rcases accepts_or_refuses kind hknown hdrafts hdrafted with haccepts | ⟨e, hrefuses⟩
  · exact haccepts
  · rw [hrefuses.makeSchema_eq hknown hdrafts hdrafted] at hok
    cases hok

theorem makeSchema_error_iff (e : Error) :
    (policy.makeSchema kind drafts).run store = .error e ↔ policy.Refuses store kind drafts e := by
  refine ⟨fun herror => ?_, fun h => h.makeSchema_eq hknown hdrafts hdrafted⟩
  rcases accepts_or_refuses kind hknown hdrafts hdrafted with haccepts | ⟨other, hrefuses⟩
  · obtain ⟨_, hok⟩ := haccepts.exists_makeSchema hknown hdrafts hdrafted
    rw [herror] at hok
    cases hok
  · have hother := hrefuses.makeSchema_eq hknown hdrafts hdrafted
    rw [herror] at hother
    cases hother
    exact hrefuses

/-- The schema that is made of a list of fields. -/
theorem makeSchema_makes {schema : Schema} {σ : Store}
    (hmade : (policy.makeSchema kind drafts).run store = .ok (schema, σ)) :
    schema.kind = kind ∧ schema.depth = depthAbove (drafts.map (·.type)) ∧
      List.Forall₂ (policy.Makes store (C.Rel σ)) drafts schema.fields := by
  have haccepts := (exists_makeSchema_iff hknown hdrafts hdrafted).mp ⟨_, hmade⟩
  have hcheck := check_ok hknown hdrafts haccepts.names haccepts.types haccepts.depth
  rw [makeSchema_of_check_ok hcheck, Build.map_eq_ok_iff] at hmade
  obtain ⟨fields, hfields, rfl⟩ := hmade
  have hassembled := C.fields_assembled policy hdrafted (.refl store)
  rw [hfields] at hassembled
  cases hassembled with
  | done hsame hmakes =>
      obtain ⟨rfl, _⟩ := hsame
      refine ⟨rfl, rfl, hmakes.imp fun draft f hf => ?_⟩
      obtain ⟨_, g, τ, hg, hrel⟩ := hf
      exact hrel.makes hg

end SchemaPolicy

end ValueTypes
