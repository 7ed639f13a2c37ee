import ValueTypes.Proofs.Construction.Correspondence
import ValueTypes.Proofs.Value.Conforms

/-! Update of an instance: construction from the record of its fields with one of them overwritten.
All other fields find a value of their type and take it without a step, so that an update is the
conversion of one value, or no more than a copy. -/

namespace ValueTypes

/-! ### Records of pairs -/

namespace Entries

variable {κ α : Type} [BEq κ] [LawfulBEq κ]

theorem insert_of_not_mem {entries : List (κ × α)} {key : κ} (h : key ∉ entries.map Prod.fst)
    (value : α) : insert entries key value = entries ++ [(key, value)] := by
  induction entries with
  | nil => rfl
  | cons entry rest ih =>
      rw [List.map_cons, List.mem_cons, not_or] at h
      rw [insert, beq_false_of_ne (Ne.symm h.1), if_neg Bool.false_ne_true, ih h.2,
        List.cons_append]

theorem mem_insert {entries : List (κ × α)} {key : κ} {value : α} {e : κ × α}
    (h : e ∈ insert entries key value) : e ∈ entries ∨ e = (key, value) := by
  induction entries with
  | nil => exact .inr (List.mem_singleton.mp h)
  | cons entry rest ih =>
      rw [insert] at h
      split at h
      · rename_i hkey
        rcases List.mem_cons.mp h with rfl | h
        · exact .inr (by rw [eq_of_beq hkey])
        · exact .inl (List.mem_cons_of_mem _ h)
      · rcases List.mem_cons.mp h with rfl | h
        · exact .inl (List.mem_cons_self ..)
        · exact (ih h).imp_left (List.mem_cons_of_mem _)

/-- Pairs with distinct keys are the entries that they leave behind. -/
theorem ofPairs_of_nodup {pairs : List (κ × α)} (h : (pairs.map Prod.fst).Nodup) :
    ofPairs pairs = pairs := by
  have hfold : ∀ entries : List (κ × α), ((entries ++ pairs).map Prod.fst).Nodup →
      pairs.foldl (fun entries pair => insert entries pair.1 pair.2) entries =
        entries ++ pairs := by
    induction pairs with
    | nil => exact fun entries _ => (List.append_nil entries).symm
    | cons pair pairs ih =>
        intro entries hnodup
        have hnew : pair.1 ∉ entries.map Prod.fst := by
          rw [List.map_append, List.map_cons] at hnodup
          exact fun hmem => (List.nodup_append.mp hnodup).2.2 _ hmem _ (List.mem_cons_self ..) rfl
        rw [List.append_cons] at hnodup ⊢
        rw [List.foldl_cons, insert_of_not_mem hnew]
        exact ih (List.nodup_cons.mp h).2 _ hnodup
  exact hfold [] h

end Entries

/-! ### One field after another -/

/-- A field that is given a value converts it, unless it is static. -/
theorem Field.fill_of_given {f : Field} (hstatic : f.isStatic = false) {source : Option Source}
    {v : Value} (hgiven : readGiven source f.name = pure (some v)) (owner : String)
    (mode : CoercionMode) : f.fill owner mode source = f.type.coerce mode f.name v := by
  rw [fill, hstatic, hgiven]
  rfl

theorem Field.fill_of_static {f : Field} (hstatic : f.isStatic = true) {d : Value}
    (hd : f.default = some d) (owner : String) (mode : CoercionMode) (source : Option Source) :
    f.fill owner mode source = pure d := by
  rw [fill, hstatic, hd]
  rfl

theorem fillSlots_eq_pure {fields : List Field} {vs : List Value} {owner : String}
    {mode : CoercionMode} {source : Option Source}
    (h : List.Forall₂ (fun f v => f.fill owner mode source = pure v) fields vs) :
    fillSlots fields owner mode source = pure vs := by
  induction h with
  | nil => rfl
  | cons hf _ ih =>
      rw [fillSlots_cons_fill, hf, ih]
      rfl

/-- If all fields but one are filled without a step, then the slots take the one step. The induction
is on the place of that field. -/
theorem fillSlots_eq_set {fields : List Field} {vs : List Value} (owner : String)
    (mode : CoercionMode) (source : Option Source) {k : Nat} {f : Field}
    (hlength : fields.length = vs.length) (hf : fields[k]? = some f)
    (h : ∀ l g v, l ≠ k → fields[l]? = some g → vs[l]? = some v →
      g.fill owner mode source = pure v) :
    fillSlots fields owner mode source =
      (do return vs.set k (← f.fill owner mode source)) := by
  induction fields generalizing vs k with
  | nil => cases hf
  | cons g fields ih =>
      cases vs with
      | nil => cases hlength
      | cons v vs =>
          have htail : fields.length = vs.length := Nat.succ.inj hlength
          rw [fillSlots_cons_fill]
          cases k with
          | zero =>
              cases hf
              have hrest : fillSlots fields owner mode source = pure vs := by
                refine fillSlots_eq_pure (List.forall₂_iff_get.mpr ⟨htail, fun l hl hl' => ?_⟩)
                exact h (l + 1) _ _ (Nat.succ_ne_zero l) (List.getElem?_eq_getElem hl)
                  (List.getElem?_eq_getElem hl')
              rw [hrest]
              rfl
          | succ k =>
              have hg := h 0 g v (Nat.succ_ne_zero k).symm rfl rfl
              have hrest := ih htail hf fun l g' v' hl => h (l + 1) g' v' fun heq =>
                hl (Nat.succ.inj heq)
              rw [hg, hrest, pure_bind, bind_assoc]
              rfl

/-! ### Instances -/

/-- Whether an instance has a value that each of its fields admits. -/
structure Instance.Filled (i : Instance) (schema : Schema) : Prop where
  layout : i.type.layout = .composite schema
  names : schema.names.Nodup
  admits : List.Forall₂ Field.Admits schema.fields i.slots

theorem Scope.Sound.filled {Θ : Scope} (hΘ : Θ.Closed) {i : Instance}
    (h : Θ.Sound (.value (.inst i))) : ∃ schema, i.Filled schema := by
  obtain ⟨schema, hlayout, hslots⟩ := h.layout
  exact ⟨schema, hlayout, (hΘ i.type schema h.inst_type hlayout).names, hslots⟩

namespace Instance

/-- The record of the fields of an instance, with one of them overwritten. -/
def overwritten (i : Instance) (name : String) (x : Value) : List (String × Value) :=
  Entries.insert (Entries.ofPairs i.fields) name x

/-- A new instance of the same type, from the record of the fields with one of them overwritten. -/
def update (i : Instance) (name : String) (x : Value) : Build Instance :=
  i.type.construct (some (.record (i.overwritten name x)))

end Instance

/-- The field of a name, with its place, if values can be given to it. -/
inductive Schema.Takes (schema : Schema) (name : String) : Option (Nat × Field) → Prop where
  | field {k f} (hf : schema.fields[k]? = some f) (hname : f.name = name)
      (hstatic : f.isStatic = false) : Takes schema name (some (k, f))
  | none (h : ∀ f ∈ schema.fields, f.name = name → f.isStatic = true) : Takes schema name none

theorem Schema.exists_takes (schema : Schema) (name : String) :
    ∃ place, schema.Takes name place := by
  by_cases h : ∃ f ∈ schema.fields, f.name = name ∧ f.isStatic = false
  · obtain ⟨f, hf, hname, hstatic⟩ := h
    obtain ⟨k, hk⟩ := List.mem_iff_getElem?.mp hf
    exact ⟨_, .field hk hname hstatic⟩
  · refine ⟨_, .none fun f hf hname => ?_⟩
    rw [← Bool.not_eq_false]
    exact fun hstatic => h ⟨f, hf, hname, hstatic⟩

/-- What a value that is given to a field comes to, with the place of the field. -/
def givenTo (place : Option (Nat × Field)) (mode : CoercionMode) (x : Value) :
    Build (Option (Nat × Value)) :=
  match place with
  | some (k, f) => do return some (k, ← f.type.coerce mode f.name x)
  | none => return none

/-- Slots with a value put in its place. -/
def replaced (slots : List Value) : Option (Nat × Value) → List Value
  | some (k, v) => slots.set k v
  | none => slots

namespace Instance.Filled

variable {i : Instance} {schema : Schema}

theorem index_unique (h : i.Filled schema) {k l : Nat} {f g : Field}
    (hf : schema.fields[k]? = some f) (hg : schema.fields[l]? = some g) (hname : f.name = g.name) :
    k = l := by
  have hk := Schema.getElem?_names hf
  obtain ⟨hlt, _⟩ := List.getElem?_eq_some_iff.mp hk
  refine (List.getElem?_inj hlt h.names).mp (hk.trans ?_)
  rw [hname, Schema.getElem?_names hg]

theorem nodup_keys (h : i.Filled schema) : (i.fields.map Prod.fst).Nodup := by
  have hschema : i.type.schema? = some schema := by
    rw [ValueType.schema?, h.layout]
  have hlength : schema.names.length ≤ i.slots.length := by
    rw [Schema.names, List.length_map, h.admits.length_eq]
  rw [fields, hschema, Option.elim_some, List.map_fst_zip hlength]
  exact h.names

theorem lookup_overwritten (h : i.Filled schema) (name : String) (x : Value) (other : String) :
    (i.overwritten name x).lookup other = if other == name then some x else i.get? other := by
  rw [overwritten, Entries.lookup_insert, Entries.ofPairs_of_nodup h.nodup_keys]
  rfl

/-- Each field but the one that is overwritten is filled without a step. -/
theorem fill_other (h : i.Filled schema) {name : String} {x : Value} {k : Nat} {f : Field}
    {v : Value} (hf : schema.fields[k]? = some f) (hv : i.slots[k]? = some v)
    (hother : f.name = name → f.isStatic = true) (owner : String) (mode : CoercionMode) :
    f.fill owner mode (some (.record (i.overwritten name x))) = pure v := by
  have hadmits := forall₂_getElem? h.admits hf hv
  cases hstatic : f.isStatic with
  | true => exact Field.fill_of_static hstatic (hadmits.fixed hstatic) owner mode _
  | false =>
      have hne : (f.name == name) = false := by
        refine beq_false_of_ne fun hname => ?_
        rw [hother hname] at hstatic
        cases hstatic
      have hgiven : readGiven (some (.record (i.overwritten name x))) f.name = pure (some v) := by
        change (pure (((i.overwritten name x).lookup f.name).filter fun v => !v.isUndefined) :
          Build (Option Value)) = _
        rw [h.lookup_overwritten, hne, if_neg Bool.false_ne_true,
          get?_eq h.layout h.names hf, hv, Option.filter_some, hadmits.typed.isUndefined]
        rfl
      rw [Field.fill_of_given hstatic hgiven]
      exact FieldType.coerce_of_hasType hadmits.typed mode f.name

/-- An update is the conversion of the value to the type of the field, which alone can fail and
leave anything in the store, and a new instance with the result in its place. -/
theorem update_eq (h : i.Filled schema) {name : String} {x : Value} (hx : x.isUndefined = false)
    {place : Option (Nat × Field)} (hplace : schema.Takes name place) :
    i.update name x =
      Build.newInstance i.type (do return replaced i.slots (← givenTo place i.type.coercion x)) := by
  rw [update, ValueType.construct, h.layout]
  refine congrArg (Build.newInstance i.type) ?_
  cases hplace with
  | none hother =>
      refine fillSlots_eq_pure (List.forall₂_iff_get.mpr ⟨h.admits.length_eq, fun k hk hk' => ?_⟩)
      exact h.fill_other (List.getElem?_eq_getElem hk) (List.getElem?_eq_getElem hk')
        (hother _ (List.getElem_mem hk)) _ _
  | @field k f hf hname hstatic =>
      have hgiven : readGiven (some (.record (i.overwritten name x))) f.name = pure (some x) := by
        change (pure (((i.overwritten name x).lookup f.name).filter fun v => !v.isUndefined) :
          Build (Option Value)) = _
        rw [h.lookup_overwritten, hname, beq_self_eq_true, if_pos rfl, Option.filter_some, hx]
        rfl
      have hothers : ∀ l g v, l ≠ k → schema.fields[l]? = some g → i.slots[l]? = some v →
          g.fill i.type.name i.type.coercion (some (.record (i.overwritten name x))) = pure v := by
        intro l g v hl hg hv
        refine h.fill_other hg hv (fun hgname => absurd ?_ hl) _ _
        exact h.index_unique hg hf (hgname.trans hname.symm)
      rw [fillSlots_eq_set _ _ _ h.admits.length_eq hf hothers, Field.fill_of_given hstatic hgiven,
        givenTo, bind_assoc]
      rfl

/-- What an update leaves behind, if it succeeds. -/
theorem update_run (h : i.Filled schema) {name : String} {x : Value} (hx : x.isUndefined = false)
    {place : Option (Nat × Field)} (hplace : schema.Takes name place) (σ : Store) :
    (i.update name x).run σ = ((givenTo place i.type.coercion x).run σ).map fun r =>
      (⟨r.2.nextId, i.type, replaced i.slots r.1⟩, { r.2 with nextId := r.2.nextId + 1 }) := by
  rw [h.update_eq hx hplace, Build.newInstance, bind_assoc, StateT.run_bind]
  cases (givenTo place i.type.coercion x).run σ <;> rfl

theorem update_field_run (h : i.Filled schema) {k : Nat} {f : Field}
    (hf : schema.fields[k]? = some f) (hstatic : f.isStatic = false) {x : Value}
    (hx : x.isUndefined = false) (σ : Store) :
    (i.update f.name x).run σ = ((f.type.coerce i.type.coercion f.name x).run σ).map fun r =>
      (⟨r.2.nextId, i.type, i.slots.set k r.1⟩, { r.2 with nextId := r.2.nextId + 1 }) := by
  rw [h.update_run hx (.field hf rfl hstatic), givenTo, StateT.run_bind]
  cases (f.type.coerce i.type.coercion f.name x).run σ <;> rfl

theorem update_eq_ok_iff (h : i.Filled schema) {name : String} {x : Value}
    (hx : x.isUndefined = false) {place : Option (Nat × Field)} (hplace : schema.Takes name place)
    {σ τ : Store} {j : Instance} :
    (i.update name x).run σ = .ok (j, τ) ↔
      ∃ r σ', (givenTo place i.type.coercion x).run σ = .ok (r, σ') ∧
        j = ⟨σ'.nextId, i.type, replaced i.slots r⟩ ∧ τ = { σ' with nextId := σ'.nextId + 1 } := by
  rw [h.update_run hx hplace]
  cases hrun : (givenTo place i.type.coercion x).run σ with
  | error e =>
      refine iff_of_false (fun heq => ?_) ?_
      · cases heq
      · rintro ⟨_, _, heq, _⟩
        cases heq
  | ok result =>
      constructor
      · intro heq
        cases heq
        exact ⟨result.1, result.2, rfl, rfl, rfl⟩
      · rintro ⟨_, _, heq, rfl, rfl⟩
        cases heq
        rfl

/-! ### What is read from the result -/

/-- A value that is put in the place of a field is read under its name, and nothing else changes. -/
theorem get?_set (h : i.Filled schema) {k : Nat} {f : Field} (hf : schema.fields[k]? = some f)
    (id : Nat) (v : Value) (name : String) :
    Instance.get? ⟨id, i.type, i.slots.set k v⟩ name =
      if name = f.name then some v else i.get? name := by
  have hlayout : (Instance.mk id i.type (i.slots.set k v)).type.layout = .composite schema :=
    h.layout
  split
  · rename_i hname
    have hlt : k < i.slots.length := by
      rw [← h.admits.length_eq]
      exact (List.getElem?_eq_some_iff.mp hf).1
    rw [hname, get?_eq hlayout h.names hf]
    exact List.getElem?_set_self hlt
  · rename_i hname
    by_cases hmem : name ∈ schema.names
    · obtain ⟨g, hg, rfl⟩ := List.mem_map.mp hmem
      obtain ⟨l, hl⟩ := List.mem_iff_getElem?.mp hg
      have hne : k ≠ l := by
        rintro rfl
        rw [hf] at hl
        cases hl
        exact hname rfl
      rw [get?_eq hlayout h.names hl, get?_eq h.layout h.names hl]
      exact List.getElem?_set_ne hne
    · rw [get?_eq_none hlayout hmem, get?_eq_none h.layout hmem]

/-- A value of the type of a field can be put in its place. -/
theorem set (h : i.Filled schema) {k : Nat} {f : Field} (hf : schema.fields[k]? = some f)
    (hstatic : f.isStatic = false) {v : Value} (hv : v.HasType f.type) (id : Nat) :
    Instance.Filled ⟨id, i.type, i.slots.set k v⟩ schema := by
  refine ⟨h.layout, h.names, forall₂_set h.admits hf ⟨hv, fun hfixed => ?_⟩⟩
  rw [hstatic] at hfixed
  cases hfixed

/-- What comes of a value that is given to a field can be put in its place. -/
theorem of_givenTo (h : i.Filled schema) {name : String} {place : Option (Nat × Field)}
    (hplace : schema.Takes name place) {mode : CoercionMode} {x : Value}
    {r : Option (Nat × Value)} {σ σ' : Store}
    (hrun : (givenTo place mode x).run σ = .ok (r, σ')) (id : Nat) :
    Instance.Filled ⟨id, i.type, replaced i.slots r⟩ schema := by
  cases hplace with
  | none =>
      cases hrun
      exact ⟨h.layout, h.names, h.admits⟩
  | field hf _ hstatic =>
      obtain ⟨v, _, hv, hrun⟩ := Build.bind_eq_ok hrun
      cases hrun
      exact h.set hf hstatic (FieldType.hasType_of_coerce hv) id

end Instance.Filled

theorem Scope.Sound.update_ensures {Θ : Scope} (hΘ : Θ.Closed) {i : Instance}
    (hi : Θ.Sound (.value (.inst i))) (name : String) {x : Value} (hx : Θ.Sound (.value x)) :
    Build.Ensures Θ (i.update name x) fun Θ' j => Θ'.Sound (.value (.inst j)) := by
  obtain ⟨schema, hfilled⟩ := hi.filled hΘ
  have hentries : Source.Sound Θ (.record (i.overwritten name x)) := by
    intro e he
    rw [Instance.overwritten, Entries.ofPairs_of_nodup hfilled.nodup_keys] at he
    rcases Entries.mem_insert he with he | rfl
    · exact hi.slots e.2 (List.of_mem_zip he).2
    · exact hx
  exact (ValueType.construct_ensures hΘ hi.inst_type (Source.some_sound hentries)).mono
    fun _ _ hj => hj.2

/-! ### Two updates -/

/-- Different names have different places. -/
theorem Schema.Takes.place_ne {schema : Schema} {m n : String} {p q : Option (Nat × Field)}
    (hp : schema.Takes m p) (hq : schema.Takes n q) (h : m ≠ n) {k l : Nat}
    (hk : p.map Prod.fst = some k) (hl : q.map Prod.fst = some l) : k ≠ l := by
  rintro rfl
  cases hp with
  | none => cases hk
  | field hf hname =>
      cases hq with
      | none => cases hl
      | field hg hname' =>
          cases hk
          cases hl
          rw [hf] at hg
          cases hg
          exact h (hname.symm.trans hname')

theorem Schema.Takes.mem {schema : Schema} {name : String} {place : Option (Nat × Field)}
    (h : schema.Takes name place) {p : Nat × Field} (hp : p ∈ place) : p.2 ∈ schema.fields := by
  cases h with
  | none => cases hp
  | field hf =>
      cases hp
      exact List.mem_of_getElem? hf

theorem givenTo_place {place : Option (Nat × Field)} {mode : CoercionMode} {x : Value}
    {r : Option (Nat × Value)} {σ σ' : Store} (h : (givenTo place mode x).run σ = .ok (r, σ')) :
    r.map Prod.fst = place.map Prod.fst := by
  cases place with
  | none =>
      cases h
      rfl
  | some p =>
      obtain ⟨v, _, _, h⟩ := Build.bind_eq_ok h
      cases h
      rfl

theorem replaced_comm (slots : List Value) {a b : Option (Nat × Value)}
    (h : ∀ k l, a.map Prod.fst = some k → b.map Prod.fst = some l → k ≠ l) :
    replaced (replaced slots a) b = replaced (replaced slots b) a := by
  cases a with
  | none => rfl
  | some p =>
      cases b with
      | none => rfl
      | some q => exact List.set_comm p.2 q.2 (h p.1 q.1 rfl rfl)

theorem forall₂_set_set {α β : Type} {R : α → β → Prop} {as : List α} {bs : List β}
    (h : List.Forall₂ R as bs) {a : α} {b : β} (hR : R a b) (k : Nat) :
    List.Forall₂ R (as.set k a) (bs.set k b) := by
  induction h generalizing k with
  | nil => exact .nil
  | cons hhead htail ih =>
      cases k with
      | zero => exact .cons hR htail
      | succ k => exact .cons hhead (ih k)

theorem forall₂_replaced {R : Value → Value → Prop} {us vs : List Value}
    (h : List.Forall₂ R us vs) {a b : Option (Nat × Value)}
    (hab : Option.Rel (fun p q => p.1 = q.1 ∧ R p.2 q.2) a b) :
    List.Forall₂ R (replaced us a) (replaced vs b) := by
  cases hab with
  | none => exact h
  | @some p q hpq =>
      obtain ⟨k, u⟩ := p
      obtain ⟨l, v⟩ := q
      obtain ⟨rfl, huv⟩ := hpq
      exact forall₂_set_set h huv k

theorem Store.grows_newId (σ : Store) : σ.Grows { σ with nextId := σ.nextId + 1 } :=
  ⟨.refl σ, Nat.le_succ _⟩

theorem Build.run_bind_ok {α β : Type} {b : Build α} {f : α → Build β} {σ σ' σ'' : Store} {x : α}
    {y : β} (hb : b.run σ = .ok (x, σ')) (hf : (f x).run σ' = .ok (y, σ'')) :
    (b >>= f).run σ = .ok (y, σ'') := by
  rw [StateT.run_bind, hb]
  exact hf

namespace Correspondence

variable {C : Correspondence} {σ τ : Store}

/-- What goes together is converted to what goes together, in one place. -/
theorem givenTo_parallel {place : Option (Nat × Field)} (hplace : ∀ p ∈ place, C.types p.2.type)
    (hστ : C.stores σ τ) {x y : Value} (hxy : C.Rel σ τ x y) (mode : CoercionMode) :
    Build.Parallel σ τ (givenTo place mode x) (givenTo place mode y) fun σ' τ' =>
      Option.Rel fun p q => p.1 = q.1 ∧ C.Rel σ' τ' p.2 q.2 := by
  cases place with
  | none => exact .pure .none
  | some p =>
      obtain ⟨k, f⟩ := p
      exact ((carries (hplace _ rfl)).coerce hστ hxy mode f.name).bind
        fun _ _ _ _ _ _ huv => .pure (.some ⟨rfl, huv⟩)

/-- Two conversions in turn, with a number taken after each, come to what goes together with the
results in the other order. -/
theorem givenTo_swap {p q : Option (Nat × Field)} (hp : ∀ c ∈ p, C.types c.2.type)
    (hq : ∀ c ∈ q, C.types c.2.type) (hσ : C.stores σ σ) {x y : Value} (hxx : C.Rel σ σ x x)
    (hyy : C.Rel σ σ y y) {mode : CoercionMode} {r s : Option (Nat × Value)} {σ₁ σ₂ : Store}
    (hr : (givenTo p mode x).run σ = .ok (r, σ₁))
    (hs : (givenTo q mode y).run { σ₁ with nextId := σ₁.nextId + 1 } = .ok (s, σ₂)) :
    ∃ s' τ₁ r' τ₂, (givenTo q mode y).run σ = .ok (s', τ₁) ∧
      (givenTo p mode x).run { τ₁ with nextId := τ₁.nextId + 1 } = .ok (r', τ₂) ∧
      σ.Grows σ₂ ∧ σ.Grows τ₂ ∧
      Option.Rel (fun a b => a.1 = b.1 ∧ C.Rel σ₂ τ₂ a.2 b.2) r r' ∧
      Option.Rel (fun a b => a.1 = b.1 ∧ C.Rel σ₂ τ₂ a.2 b.2) s s' := by
  obtain ⟨_, _, _, hσ₁, _, _⟩ := (givenTo_parallel hp hσ hxx mode).of_ok hr
  have hσ₁ := hσ₁.trans σ₁.grows_newId
  obtain ⟨s', τ₁, hs', hσ₂, hτ₁, hss⟩ := (givenTo_parallel hq (C.grow hσ hσ₁ (.refl σ))
    (hyy.grow hσ₁ (.refl σ)) mode).of_ok hs
  have hτ₁ := hτ₁.trans τ₁.grows_newId
  obtain ⟨r', τ₂, hr', _, hτ₂, hrr⟩ := (givenTo_parallel hp (C.grow hσ (.refl σ) hτ₁)
    (hxx.grow (.refl σ) hτ₁) mode).of_ok hr
  refine ⟨s', τ₁, r', τ₂, hs', hr', hσ₁.trans hσ₂, hτ₁.trans hτ₂, ?_, ?_⟩
  · exact rel_imp (fun _ _ hab => hab.imp_right fun hab =>
      hab.grow (σ₁.grows_newId.trans hσ₂) (.refl τ₂)) hrr
  · exact rel_imp (fun _ _ hab => hab.imp_right fun hab =>
      hab.grow (.refl σ₂) (τ₁.grows_newId.trans hτ₂)) hss

/-- If two updates of different names succeed in one order, then they succeed in the other, and the
slots of the results go together. -/
theorem updates_comm {i : Instance} {schema : Schema} (h : i.Filled schema)
    (htypes : ∀ f ∈ schema.fields, C.types f.type) (hσ : C.stores σ σ)
    (hslots : List.Forall₂ (C.Rel σ σ) i.slots i.slots) {m n : String} (hmn : m ≠ n) {x y : Value}
    (hx : x.isUndefined = false) (hy : y.isUndefined = false) (hxx : C.Rel σ σ x x)
    (hyy : C.Rel σ σ y y) {a : Instance} {σ' : Store}
    (hrun : (do let j ← i.update m x; j.update n y : Build Instance).run σ = .ok (a, σ')) :
    ∃ b τ', (do let j ← i.update n y; j.update m x : Build Instance).run σ = .ok (b, τ') ∧
      a.type = i.type ∧ b.type = i.type ∧ List.Forall₂ (C.Rel σ' τ') a.slots b.slots := by
  obtain ⟨p, hp⟩ := schema.exists_takes m
  obtain ⟨q, hq⟩ := schema.exists_takes n
  obtain ⟨j, _, hj, ha⟩ := Build.bind_eq_ok hrun
  obtain ⟨r, σ₁, hr, rfl, rfl⟩ := (h.update_eq_ok_iff hx hp).mp hj
  obtain ⟨s, σ₂, hs, rfl, rfl⟩ := ((h.of_givenTo hp hr _).update_eq_ok_iff hy hq).mp ha
  obtain ⟨s', τ₁, r', τ₂, hs', hr', hσ₂, hτ₂, hrr, hss⟩ :=
    givenTo_swap (fun c hc => htypes _ (hp.mem hc)) (fun c hc => htypes _ (hq.mem hc)) hσ hxx hyy
      hr hs
  have hfirst := (h.update_eq_ok_iff hy hq).mpr ⟨s', τ₁, hs', rfl, rfl⟩
  have hsecond := ((h.of_givenTo hq hs' τ₁.nextId).update_eq_ok_iff hx hp).mpr
    ⟨r', τ₂, hr', rfl, rfl⟩
  refine ⟨_, _, Build.run_bind_ok hfirst hsecond, rfl, rfl, ?_⟩
  have hplaces : ∀ k l, s'.map Prod.fst = some k → r'.map Prod.fst = some l → k ≠ l := by
    rw [givenTo_place hs', givenTo_place hr']
    exact fun k l => hq.place_ne hp hmn.symm
  rw [replaced_comm i.slots hplaces]
  refine (forall₂_replaced (forall₂_replaced ?_ hrr) hss).imp fun _ _ hab =>
    hab.grow σ₂.grows_newId τ₂.grows_newId
  exact hslots.imp fun _ _ hab => hab.grow hσ₂ hτ₂

end Correspondence

end ValueTypes
