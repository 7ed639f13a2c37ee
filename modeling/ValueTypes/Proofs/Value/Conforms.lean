import ValueTypes.Proofs.World.Interning

/-! Conformance of values to their types at every depth. Instances that come about in a run have
one slot for each field of their type, each slot conforms to the type of its field, and nothing but
plain values and instances is found inside them. -/

namespace ValueTypes

variable {μ : Type}

/-- Whether a value is of a type, and all that is inside it is of the declared types. -/
inductive Value.Conforms : Value → ValueType → Prop where
  | primitive {v t kind} (ht : t.layout = .primitive kind) (hv : kind.Accepts v) : Conforms v t
  | inst {i t schema} (ht : i.type.equivalent t = true) (hlayout : i.type.layout = .composite schema)
      (names : schema.names.Nodup) (length : i.slots.length = schema.fields.length)
      (types : ∀ f ∈ schema.fields, f.type.isValue = true)
      (slots : ∀ (k : Nat) f v u, schema.fields[k]? = some f → i.slots[k]? = some v →
        f.type = .value u → Conforms v u)
      (fixed : ∀ (k : Nat) f v, schema.fields[k]? = some f → i.slots[k]? = some v →
        f.isStatic = true → f.default = some v) : Conforms (.inst i) t

/-- Whether a value is another one or is found inside it. -/
inductive Value.Inside (v : Value) : Value → Prop where
  | self : Inside v v
  | slot {i w} (hw : w ∈ i.slots) (h : Inside v w) : Inside v (.inst i)

/-- The values other than undefined, records and structs. -/
inductive Value.Proper : Value → Prop where
  | bool (b) : Proper (.bool b)
  | int (i) : Proper (.int i)
  | float (f) : Proper (.float f)
  | str (s) : Proper (.str s)
  | symbol (s) : Proper (.symbol s)
  | inst (i) : Proper (.inst i)

theorem PrimitiveKind.Accepts.proper {kind : PrimitiveKind} {v : Value} (h : kind.Accepts v) :
    v.Proper := by
  cases h with
  | integer => exact .int _
  | single => exact .float _
  | double f => exact .float f
  | string s => exact .str s
  | boolean b => exact .bool b
  | symbol s => exact .symbol s

namespace Value.Conforms

variable {v : Value} {t : ValueType}

/-- The slots of a conforming instance conform to types of their own. -/
theorem slots {i : Instance} (h : (Value.inst i).Conforms t) :
    ∀ v ∈ i.slots, ∃ u, v.Conforms u := by
  intro v hv
  cases h with
  | primitive _ haccepts => cases haccepts
  | @inst _ _ schema _ _ _ length types slots =>
      rcases List.mem_iff_getElem?.mp hv with ⟨k, hk⟩
      rcases List.getElem?_eq_some_iff.mp hk with ⟨hlt, _⟩
      rw [length] at hlt
      have hf := List.getElem?_eq_getElem hlt
      have hvalue := types _ (List.getElem_mem hlt)
      cases htype : schema.fields[k].type with
      | value u => exact ⟨u, slots k _ v u hf hk htype⟩
      | struct s =>
          rw [htype] at hvalue
          cases hvalue

theorem plain_of_not_inst (h : v.Conforms t) (hv : ∀ i, v ≠ .inst i) : v.Plain := by
  cases h with
  | primitive _ haccepts => exact haccepts.plain
  | inst => exact absurd rfl (hv _)

theorem proper_self (h : v.Conforms t) : v.Proper := by
  cases h with
  | primitive _ haccepts => exact haccepts.proper
  | inst => exact .inst _

/-- Nothing inside a conforming value is undefined, a record or a struct. -/
theorem proper (h : v.Conforms t) : ∀ w : Value, w.Inside v → w.Proper := by
  intro w hw
  induction hw generalizing t with
  | self => exact h.proper_self
  | slot hv _ ih =>
      rcases h.slots _ hv with ⟨u, hu⟩
      exact ih hu

end Value.Conforms

/-! ### Slots by name -/

theorem lookup_zip {α : Type} {names : List String} (hnodup : names.Nodup) {vs : List α}
    {k : Nat} {name : String} (hname : names[k]? = some name) :
    (names.zip vs).lookup name = vs[k]? := by
  induction names generalizing vs k with
  | nil => cases hname
  | cons other names ih =>
      cases vs with
      | nil => simp
      | cons v vs =>
          rcases List.nodup_cons.mp hnodup with ⟨hother, hnodup⟩
          rw [List.zip_cons_cons, List.lookup_cons]
          cases k with
          | zero =>
              cases hname
              rw [beq_self_eq_true]
              rfl
          | succ k =>
              rw [List.getElem?_cons_succ] at hname
              have hmem := List.mem_of_getElem? hname
              have hne : name ≠ other := by
                rintro rfl
                exact hother hmem
              rw [beq_false_of_ne hne, List.getElem?_cons_succ]
              exact ih hnodup hname

theorem Schema.getElem?_names {schema : Schema} {k : Nat} {f : Field}
    (hf : schema.fields[k]? = some f) : schema.names[k]? = some f.name := by
  rw [names, List.getElem?_map, hf, Option.map_some]

theorem Instance.get?_eq {i : Instance} {schema : Schema}
    (hlayout : i.type.layout = .composite schema) (hnodup : schema.names.Nodup) {k : Nat}
    {f : Field} (hf : schema.fields[k]? = some f) : i.get? f.name = i.slots[k]? := by
  have hschema : i.type.schema? = some schema := by
    rw [ValueType.schema?, hlayout]
  rw [get?, fields, hschema]
  exact lookup_zip hnodup (Schema.getElem?_names hf)

theorem Instance.get?_eq_none {i : Instance} {schema : Schema}
    (hlayout : i.type.layout = .composite schema) {name : String} (h : name ∉ schema.names) :
    i.get? name = none := by
  have hschema : i.type.schema? = some schema := by
    rw [ValueType.schema?, hlayout]
  rw [get?, fields, hschema, List.lookup_eq_none_iff]
  intro entry hentry
  have hmem := (List.of_mem_zip hentry).1
  rw [bne_iff_ne]
  rintro rfl
  exact h hmem

/-! ### Sound instances -/

theorem forall₂_getElem? {α β : Type} {R : α → β → Prop} {as : List α} {bs : List β}
    (h : List.Forall₂ R as bs) {k : Nat} {a : α} {b : β} (ha : as[k]? = some a)
    (hb : bs[k]? = some b) : R a b := by
  rcases List.getElem?_eq_some_iff.mp ha with ⟨hka, rfl⟩
  rcases List.getElem?_eq_some_iff.mp hb with ⟨hkb, rfl⟩
  exact h.get hka hkb

theorem exists_right_of_forall₂ {α β : Type} {R : α → β → Prop} {as : List α} {bs : List β}
    (h : List.Forall₂ R as bs) {k : Nat} {a : α} (ha : as[k]? = some a) :
    ∃ b, bs[k]? = some b ∧ R a b := by
  obtain ⟨hlt, _⟩ := List.getElem?_eq_some_iff.mp ha
  have hb := List.getElem?_eq_getElem (h.length_eq ▸ hlt)
  exact ⟨_, hb, forall₂_getElem? h ha hb⟩

theorem exists_left_of_forall₂ {α β : Type} {R : α → β → Prop} {as : List α} {bs : List β}
    (h : List.Forall₂ R as bs) {k : Nat} {b : β} (hb : bs[k]? = some b) :
    ∃ a, as[k]? = some a ∧ R a b :=
  exists_right_of_forall₂ h.flip hb

/-- A static slot has the default of its field. -/
theorem Scope.Sound.get?_static {Θ : Scope} (hΘ : Θ.Closed) {i : Instance}
    (h : Θ.Sound (.value (.inst i))) {schema : Schema}
    (hlayout : i.type.layout = .composite schema) {f : Field} (hf : f ∈ schema.fields)
    (hstatic : f.isStatic = true) : ∃ d, f.default = some d ∧ i.get? f.name = some d := by
  rcases h.layout with ⟨other, hother, hslots⟩
  rw [hlayout] at hother
  cases hother
  rcases List.mem_iff_getElem?.mp hf with ⟨k, hk⟩
  rcases exists_right_of_forall₂ hslots hk with ⟨v, hslot, hadmits⟩
  refine ⟨v, hadmits.fixed hstatic, ?_⟩
  rw [Instance.get?_eq hlayout (hΘ i.type schema h.inst_type hlayout).names hk, hslot]

/-- The fields of registered types are of value types. -/
theorem Realms.Sound.isValue {rs : Realms μ} (hrs : rs.Sound) {t : ValueType}
    (ht : rs.scope.type t) {schema : Schema} (hlayout : t.layout = .composite schema) :
    ∀ f ∈ schema.fields, f.type.isValue = true := by
  intro f hf
  rcases ht with ⟨realm, hmem, ht⟩
  rcases (hrs.wellFormed realm hmem).closed t ht schema hlayout f hf with ⟨u, _, htype, _⟩
  rw [htype]
  rfl

/-- A sound instance conforms to every type that its own is equivalent to. The induction is on
soundness: a slot of a composite type holds an instance that is sound itself. -/
theorem Realms.Sound.conforms {rs : Realms μ} (hrs : rs.Sound) {x : Item}
    (hx : rs.scope.Sound x) :
    ∀ i t, x = .value (.inst i) → i.type.equivalent t = true → (Value.inst i).Conforms t := by
  induction hx with
  | @inst i schema htype hlayout hslots _ ih =>
      rintro _ t ⟨⟩ ht
      have hschema := hrs.closed i.type schema htype hlayout
      refine .inst ht hlayout hschema.names hslots.length_eq.symm (hrs.isValue htype hlayout) ?_ ?_
      · intro k f v u hf hv hfield
        have hadmits := forall₂_getElem? hslots hf hv
        have htyped := hadmits.typed
        rw [hfield] at htyped
        cases htyped with
        | primitive hu haccepts => exact .primitive hu haccepts
        | composite hu hinst =>
            cases v with
            | inst j => exact ih _ (List.mem_of_getElem? hv) j u rfl hinst
            | _ => cases hinst
      · intro k f v hf hv
        exact (forall₂_getElem? hslots hf hv).fixed
  | plain hplain =>
      rintro i t ⟨⟩
      cases hplain
  | _ =>
      rintro i t ⟨⟩

namespace World

/-- Every instance that comes about in a run conforms to its type: it has one slot for each field,
found under the name of the field and under no other name, static slots have the stored defaults,
and every slot conforms to the declared type, so that nothing inside is undefined, a record or a
struct. -/
theorem instances_conform {w : World μ} (hw : w.Reachable) {i : Instance}
    (hi : w.Gave (.value (.inst i))) :
    ∃ schema, i.type.layout = .composite schema ∧ i.slots.length = schema.fields.length ∧
      schema.names.Nodup ∧
      (∀ (k : Nat) f, schema.fields[k]? = some f → i.get? f.name = i.slots[k]?) ∧
      (∀ name, name ∉ schema.names → i.get? name = none) ∧
      (∀ f ∈ schema.fields, f.isStatic = true →
        ∃ d, f.default = some d ∧ i.get? f.name = some d) ∧
      (Value.inst i).Conforms i.type ∧ ∀ v : Value, v.Inside (.inst i) → v.Proper := by
  have hrealms := hw.sound.realms
  have hsound := hw.sound.gave _ hi
  rcases hsound.layout with ⟨schema, hlayout, hslots⟩
  have hconforms := hrealms.conforms hsound i i.type rfl i.type.equivalent_refl
  have hnodup := (hrealms.closed i.type schema hsound.inst_type hlayout).names
  exact ⟨schema, hlayout, hslots.length_eq.symm, hnodup,
    fun k f hf => Instance.get?_eq hlayout hnodup hf,
    fun name => Instance.get?_eq_none hlayout,
    fun f hf => hsound.get?_static hrealms.closed hlayout hf, hconforms, hconforms.proper⟩

namespace Sample

/-- A type with a static field of another type, which has the default of that type. -/
def pixel : ValueType :=
  ⟨14, 1, ⟨14, some "P"⟩, .composite ⟨.value,
    [⟨"c", .value color, true, some (.inst ⟨1, color, [.int 0]⟩)⟩,
      ⟨"x", .value byte, false, none⟩], 0, 2⟩, .strict, 0⟩

/-- What a record with one entry makes of the type. -/
def shot : Instance :=
  ⟨2, pixel, [.inst ⟨1, color, [.int 0]⟩, .int 7]⟩

/-- The world in which the instance was constructed. -/
def shots : World Unit :=
  (world.perform (.valueType 1 ⟨14, some "P"⟩
    [⟨"c", .value color, true, none⟩, ⟨"x", .value byte, false, none⟩])).perform
    (.construct pixel (some (.record [("x", .int 7)])))

theorem shots_reachable : shots.Reachable := by
  refine world_reachable.leads (.step (.step .refl _ ?_) _ ?_)
  · exact List.forall_mem_cons.mpr ⟨.given (gave_at 5 0 rfl rfl),
      List.forall_mem_cons.mpr ⟨.given (gave_at 0 0 rfl rfl),
        List.forall_mem_singleton.mpr (.given (gave_at 4 1 rfl rfl))⟩⟩
  · exact List.forall_mem_cons.mpr ⟨.given (gave_at 0 0 rfl rfl),
      List.forall_mem_singleton.mpr (.plain (.int 7))⟩

/-- The instance shares the default of its static field, and conforms to its type. -/
theorem instances_conform_shot : shots.Reachable ∧ shots.Gave (.value (.inst shot)) ∧
    (Value.inst shot).Conforms pixel := by
  have hgave : shots.Gave (.value (.inst shot)) := gave_at 0 0 rfl rfl
  rcases instances_conform shots_reachable hgave with ⟨_, _, _, _, _, _, _, hconforms, _⟩
  exact ⟨shots_reachable, hgave, hconforms⟩

end Sample

end World

end ValueTypes
