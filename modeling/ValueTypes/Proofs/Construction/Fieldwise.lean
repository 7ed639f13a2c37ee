import ValueTypes.Proofs.Construction.Correspondence

/-! Construction field by field. What a field takes depends on what the source answers for its name
and on nothing else: resolved by itself, in the store before the construction, it fails with the
same error, or gives the same value up to objects that are new in either case. -/

namespace ValueTypes

variable {α β : Type}

/-! ### One field by itself -/

/-- What a source answers for a name; where it has no such field, that is undefined. -/
def Source.answer (source : Source) (store : Store) (name : String) : Value :=
  (source.get? store name).getD .undefined

/-- The value of a field by itself: its default if it is static, else what the source answers,
converted to its type; where the source answers nothing, its default, else that of its type. -/
def Field.resolve (f : Field) (owner : String) (mode : CoercionMode) (answer : Value) :
    Build Value :=
  match f.isStatic, f.default with
  | true, some d => return d
  | _, _ =>
    if answer.isUndefined then f.defaulted owner else f.type.coerce mode f.name answer

theorem readGiven_run (source : Source) (name : String) (σ : Store) :
    (readGiven (some source) name).run σ =
      .ok (if (source.answer σ name).isUndefined then none else some (source.answer σ name),
        σ) := by
  have hrun : (readGiven (some source) name).run σ =
      .ok ((source.get? σ name).filter (fun v => !v.isUndefined), σ) := rfl
  rw [hrun, Source.answer]
  cases source.get? σ name with
  | none => rfl
  | some v =>
      rw [Option.filter_some, Option.getD_some]
      cases v.isUndefined <;> rfl

/-- In a construction a field is resolved for what the source answers at that time. -/
theorem Field.fill_run (f : Field) (owner : String) (mode : CoercionMode) (source : Source)
    (σ : Store) :
    (f.fill owner mode (some source)).run σ =
      (f.resolve owner mode (source.answer σ f.name)).run σ := by
  have hchoice : (resolveField false f.default (readGiven (some source) f.name)
      (fun v => f.type.coerce mode f.name v) (f.type.defaultValue owner f.name)).run σ =
      (if (source.answer σ f.name).isUndefined then f.defaulted owner
        else f.type.coerce mode f.name (source.answer σ f.name)).run σ := by
    rw [resolveField, StateT.run_bind, readGiven_run, Field.defaulted]
    · cases (source.answer σ f.name).isUndefined with
      | true => cases f.default <;> rfl
      | false => rfl
    · rintro _ ⟨⟩
  rw [fill, resolve]
  cases f.isStatic with
  | false => exact hchoice
  | true =>
      cases hd : f.default with
      | some d => rfl
      | none =>
          rw [hd] at hchoice
          exact hchoice

/-- The mode that the fields of a type are resolved in. -/
def FieldType.coercion : FieldType → CoercionMode
  | .value t => t.coercion
  | .struct s => s.coercion

/-! ### All fields -/

/-- There is at most one first item with a property. -/
theorem eq_of_first {ι : Type} {P : ι → Prop} {items : List ι} {k l : Nat} {f g : ι}
    (hf : items[k]? = some f) (hPf : P f) (hbefore : ∀ h ∈ items.take k, ¬ P h)
    (hg : items[l]? = some g) (hPg : P g) (hbefore' : ∀ h ∈ items.take l, ¬ P h) : f = g := by
  have hnot : ∀ {k l : Nat} {f : ι}, items[k]? = some f → P f →
      (∀ h ∈ items.take l, ¬ P h) → ¬ k < l := by
    intro k l f hf hPf hbefore hlt
    have hmem : (items.take l)[k]? = some f := by
      rw [List.getElem?_take_of_lt hlt, hf]
    exact hbefore f (List.mem_of_getElem? hmem) hPf
  have hkl : k = l :=
    Nat.le_antisymm (Nat.le_of_not_lt (hnot hg hPg hbefore))
      (Nat.le_of_not_lt (hnot hf hPf hbefore'))
  subst hkl
  exact Option.some.inj (hf.symm.trans hg)

/-- How the items of a list, each resolved by itself in one store, account for a result: an error is
that of the first item that fails, and a success has their results in order, up to what is new. An
item that takes its result without a step has just that. -/
inductive Assembled {ι υ : Type} (resolve : ι → Build υ) (rel : Store → Store → υ → υ → Prop)
    (base : Store) (items : List ι) (made : Store → List υ → α → Prop) :
    Except Error (α × Store) → Prop where
  | done {x σ slots} (h : made σ slots x)
      (slots : List.Forall₂ (fun f v => (∀ w, resolve f = pure w → v = w) ∧
        ∃ u τ, (resolve f).run base = .ok (u, τ) ∧ rel σ τ v u) items slots) :
      Assembled resolve rel base items made (.ok (x, σ))
  | failed {k f e} (hf : items[k]? = some f) (h : (resolve f).run base = .error e)
      (before : ∀ g ∈ items.take k, ∃ r, (resolve g).run base = .ok r) :
      Assembled resolve rel base items made (.error e)

namespace Assembled

variable {ι υ : Type} {resolve : ι → Build υ} {rel : Store → Store → υ → υ → Prop} {base : Store}
  {items : List ι} {made : Store → List υ → α → Prop} {x : Except Error (α × Store)}

theorem exists_ok_iff (h : Assembled resolve rel base items made x) :
    (∃ r, x = .ok r) ↔ ∀ f ∈ items, ∃ r, (resolve f).run base = .ok r := by
  cases h with
  | done _ hslots =>
      refine iff_of_true ⟨_, rfl⟩ fun f hf => ?_
      obtain ⟨k, hk⟩ := List.mem_iff_getElem?.mp hf
      obtain ⟨_, _, _, _, _, hrun, _⟩ := exists_right_of_forall₂ hslots hk
      exact ⟨_, hrun⟩
  | failed hf herror _ =>
      refine iff_of_false ?_ fun hall => ?_
      · rintro ⟨_, heq⟩
        cases heq
      · obtain ⟨_, hok⟩ := hall _ (List.mem_of_getElem? hf)
        rw [herror] at hok
        cases hok

theorem error_iff (h : Assembled resolve rel base items made x) (e : Error) :
    x = .error e ↔ ∃ (k : Nat) (f : ι), items[k]? = some f ∧ (resolve f).run base = .error e ∧
      ∀ g ∈ items.take k, ∃ r, (resolve g).run base = .ok r := by
  have hall := h.exists_ok_iff
  cases h with
  | done _ _ =>
      constructor
      · intro heq
        cases heq
      · rintro ⟨k, f, hf, herror, _⟩
        obtain ⟨_, hok⟩ := hall.mp ⟨_, rfl⟩ f (List.mem_of_getElem? hf)
        rw [herror] at hok
        cases hok
  | @failed k f e' hf herror before =>
      constructor
      · intro heq
        cases heq
        exact ⟨k, f, hf, herror, before⟩
      · rintro ⟨l, g, hg, herror', before'⟩
        have hnot : ∀ g : ι, (∃ r, (resolve g).run base = .ok r) →
            ¬ ∃ e, (resolve g).run base = .error e := by
          rintro g ⟨r, hok⟩ ⟨e, herror⟩
          rw [hok] at herror
          cases herror
        have heq := eq_of_first hf ⟨_, herror⟩ (fun g hg => hnot g (before g hg)) hg ⟨_, herror'⟩
          fun g hg => hnot g (before' g hg)
        subst heq
        rw [herror] at herror'
        cases herror'
        rfl

/-- One more item in front of others, when the store has grown already. -/
theorem cons {item : ι} {head : Build υ} {rest : Build (List υ)} {σ : Store}
    (hhead : head.run σ = (resolve item).run σ)
    (h : Build.Parallel σ base (resolve item) (resolve item) rel)
    (hgrow : ∀ {σ' σ'' τ v u}, rel σ' τ v u → σ'.Grows σ'' → rel σ'' τ v u)
    (hrest : ∀ σ', σ.Grows σ' → Assembled resolve rel base items
      (fun σ'' slots vs => vs = slots ∧ σ'.Grows σ'') (rest.run σ')) :
    Assembled resolve rel base (item :: items) (fun σ' slots vs => vs = slots ∧ σ.Grows σ')
      ((do return (← head) :: (← rest)).run σ) := by
  rw [StateT.run_bind, hhead]
  cases hrun : (resolve item).run σ with
  | error e => exact .failed (k := 0) rfl ((h.error_iff e).mp hrun) (List.forall_mem_nil _)
  | ok result =>
      obtain ⟨v, σ'⟩ := result
      obtain ⟨u, τ, hrun', hgrows, _, hrel⟩ := h.of_ok hrun
      have hpure : ∀ w, resolve item = pure w → v = w := by
        intro w hw
        rw [hw] at hrun
        cases hrun
        rfl
      have hrest := hrest σ' hgrows
      change Assembled _ _ _ _ _ ((rest >>= fun vs => pure (v :: vs)).run σ')
      rw [StateT.run_bind]
      generalize rest.run σ' = result at hrest ⊢
      cases hrest with
      | @failed k g e hg herror before =>
          refine .failed (k := k + 1) hg herror fun g' hg' => ?_
          rcases List.mem_cons.mp hg' with rfl | hg'
          · exact ⟨_, hrun'⟩
          · exact before g' hg'
      | @done vs σ'' slots hmade hslots =>
          obtain ⟨rfl, hgrows'⟩ := hmade
          exact .done ⟨rfl, hgrows.trans hgrows'⟩
            (.cons ⟨hpure, u, τ, hrun', hgrow hrel hgrows'⟩ hslots)

/-- What is made of the slots, by steps that cannot fail. -/
theorem bind {b : Build α} {σ : Store} (h : Assembled resolve rel base items made (b.run σ))
    {f : α → Build β} {P : Store → List υ → β → Prop}
    (hf : ∀ x σ' slots, made σ' slots x → ∃ y σ'', (f x).run σ' = .ok (y, σ'') ∧
      P σ'' slots y ∧ ∀ τ v u, rel σ' τ v u → rel σ'' τ v u) :
    Assembled resolve rel base items P ((b >>= f).run σ) := by
  rw [StateT.run_bind]
  generalize b.run σ = result at h ⊢
  cases h with
  | failed hk herror before => exact .failed hk herror before
  | @done x σ' slots hmade hslots =>
      obtain ⟨y, σ'', hrun, hmade', hrel⟩ := hf x σ' slots hmade
      change Assembled resolve rel base items P ((f x).run σ')
      rw [hrun]
      refine .done hmade' (hslots.imp fun g v hv => ⟨hv.1, ?_⟩)
      obtain ⟨u, τ, hu, hvu⟩ := hv.2
      exact ⟨u, τ, hu, hrel τ v u hvu⟩

end Assembled

namespace Correspondence

variable {C : Correspondence} {σ τ base : Store}

/-- A field by itself, for answers that go together. -/
theorem resolve_parallel {type : FieldType} (htype : C.types type) {f : Field}
    (hf : f ∈ type.fields) (hστ : C.stores σ τ) {a b : Value} (hab : C.Rel σ τ a b)
    (owner : String) (mode : CoercionMode) :
    Build.Parallel σ τ (f.resolve owner mode a) (f.resolve owner mode b) C.Rel := by
  have hcarries := C.carries (C.fields htype f hf)
  have hchoice : Build.Parallel σ τ
      (if a.isUndefined then f.defaulted owner else f.type.coerce mode f.name a)
      (if b.isUndefined then f.defaulted owner else f.type.coerce mode f.name b) C.Rel := by
    rw [hab.isUndefined_eq]
    split
    · rw [Field.defaulted]
      cases hd : f.default with
      | some d => exact .pure (C.default hστ htype f hf d hd)
      | none => exact hcarries.defaultValue hστ owner f.name
    · exact hcarries.coerce hστ hab mode f.name
  rw [Field.resolve, Field.resolve]
  cases hstatic : f.isStatic with
  | false => exact hchoice
  | true =>
      cases hd : f.default with
      | some d => exact .pure (C.default hστ htype f hf d hd)
      | none => exact hchoice

variable (C) in
/-- Whether a source can be read in a store, and what it answers there goes together with itself, in
any later store and in this one. -/
structure Steady (base : Store) (source : Source) : Prop where
  live : ∀ s, source = .struct s → ∃ cell, base.cell? s = some cell
  stores : ∀ {σ}, base.Grows σ → C.stores σ base
  rel : ∀ {σ}, base.Grows σ → ∀ name,
    C.Rel σ base (source.answer base name) (source.answer base name)

theorem Steady.answer_eq {source : Source} (h : C.Steady base source) (hσ : base.Grows σ)
    (name : String) : source.answer σ name = source.answer base name := by
  rw [Source.answer, Source.answer, hσ.keeps.get?_eq source h.live]

/-- All fields, each compared with itself alone in the store before the construction. The store
grows from field to field, and what the source answers stays as it was. -/
theorem fillSlots_assembled {type : FieldType} (htype : C.types type) {fields : List Field}
    (hfields : ∀ f ∈ fields, f ∈ type.fields) {source : Source} (h : C.Steady base source)
    (owner : String) (mode : CoercionMode) (hσ : base.Grows σ) :
    Assembled (fun f => f.resolve owner mode (source.answer base f.name)) C.Rel base fields
      (fun σ' slots vs => vs = slots ∧ σ.Grows σ')
      ((fillSlots fields owner mode (some source)).run σ) := by
  induction fields generalizing σ with
  | nil => exact .done ⟨rfl, .refl σ⟩ .nil
  | cons f fields ih =>
      have hparallel := resolve_parallel htype (hfields f (List.mem_cons_self ..)) (h.stores hσ)
        (h.rel hσ f.name) owner mode
      rw [fillSlots_cons_fill]
      refine .cons ?_ hparallel (fun hrel hgrows => hrel.grow hgrows (.refl _)) fun σ' hgrows => ?_
      · rw [f.fill_run, h.answer_eq hσ]
      · exact ih (fun g hg => hfields g (List.mem_cons_of_mem f hg)) (hσ.trans hgrows)

end Correspondence

/-! ### Objects -/

/-- Whether a value is an object of a type with given slots. -/
inductive Store.Object (store : Store) (slots : List Value) : FieldType → Value → Prop where
  | inst (id t) : Object store slots (.value t) (.inst ⟨id, t, slots⟩)
  | struct {address s} (h : store.cells[address]? = some ⟨s, slots⟩) :
      Object store slots (.struct s) (.struct ⟨address, s⟩)

namespace Correspondence

variable {C : Correspondence} {base : Store}

/-- A new object of a type, each of its fields compared with itself alone. -/
theorem construct_assembled {type : FieldType} (htype : C.types type) (hobjects : type.HasObjects)
    {source : Source} (h : C.Steady base source) :
    Assembled (fun f => f.resolve type.name type.coercion (source.answer base f.name)) C.Rel base
      type.fields (fun σ slots v => σ.Object slots type v)
      ((type.construct (some source)).run base) := by
  have hslots := fillSlots_assembled htype (fun _ hf => hf) h type.name type.coercion (.refl base)
  cases hobjects with
  | @composite t schema hlayout =>
      rw [FieldType.fields_composite hlayout] at hslots ⊢
      rw [FieldType.construct, ValueType.construct, hlayout]
      have hinst := hslots.bind (f := fun vs => do return Instance.mk (← Build.newId) t vs)
        (P := fun σ slots i => σ.Object slots (.value t) (.inst i)) fun vs σ slots h => by
          obtain ⟨rfl, _⟩ := h
          exact ⟨_, _, rfl, .inst _ t, fun τ v u hvu =>
            hvu.grow ⟨.refl σ, Nat.le_succ _⟩ (.refl τ)⟩
      exact hinst.bind fun i σ slots h => ⟨_, _, rfl, h, fun _ _ _ hvu => hvu⟩
  | struct s =>
      have hstruct := hslots.bind
        (f := fun vs => modifyGet fun store => (StructInstance.mk store.cells.size s,
          { store with cells := store.cells.push ⟨s, vs⟩ }))
        (P := fun σ slots i => σ.Object slots (.struct s) (.struct i)) fun vs σ slots h => by
          obtain ⟨rfl, _⟩ := h
          exact ⟨_, _, rfl, .struct Array.getElem?_push_size, fun τ v u hvu =>
            hvu.grow (σ.grows_push _) (.refl τ)⟩
      exact hstruct.bind fun i σ slots h => ⟨_, _, rfl, h, fun _ _ _ hvu => hvu⟩

end Correspondence

/-! ### Sources with the same answers -/

theorem Field.resolve_congr {f : Field} (hfixed : f.isStatic = true → f.default.isSome)
    {a b : Value} (h : f.isStatic = false → a = b) (owner : String) (mode : CoercionMode) :
    f.resolve owner mode a = f.resolve owner mode b := by
  cases hstatic : f.isStatic with
  | false => rw [h hstatic]
  | true =>
      obtain ⟨d, hd⟩ := Option.isSome_iff_exists.mp (hfixed hstatic)
      rw [resolve, resolve, hstatic, hd]

namespace Correspondence

variable {C : Correspondence} {base : Store}

/-- Sources with the same answers fill slots in one way. -/
theorem fillSlots_congr {type : FieldType} (htype : C.types type) {fields : List Field}
    (hfields : ∀ f ∈ fields, f ∈ type.fields)
    (hfixed : ∀ f ∈ fields, f.isStatic = true → f.default.isSome) {source source' : Source}
    (h : C.Steady base source) (h' : C.Steady base source')
    (heq : ∀ f ∈ fields, f.isStatic = false →
      source.answer base f.name = source'.answer base f.name)
    (owner : String) (mode : CoercionMode) {σ : Store} (hσ : base.Grows σ) :
    (fillSlots fields owner mode (some source)).run σ =
      (fillSlots fields owner mode (some source')).run σ := by
  induction fields generalizing σ with
  | nil => rfl
  | cons f fields ih =>
      have hfirst : f.resolve owner mode (source.answer base f.name) =
          f.resolve owner mode (source'.answer base f.name) :=
        Field.resolve_congr (hfixed f (List.mem_cons_self ..)) (heq f (List.mem_cons_self ..)) owner
          mode
      have hparallel := resolve_parallel htype (hfields f (List.mem_cons_self ..)) (h.stores hσ)
        (h.rel hσ f.name) owner mode
      rw [fillSlots_cons_fill, fillSlots_cons_fill, StateT.run_bind, StateT.run_bind, f.fill_run,
        f.fill_run, h.answer_eq hσ, h'.answer_eq hσ, ← hfirst]
      cases hrun : (f.resolve owner mode (source.answer base f.name)).run σ with
      | error e => rfl
      | ok result =>
          obtain ⟨v, σ'⟩ := result
          obtain ⟨_, _, _, hgrows, _⟩ := hparallel.of_ok hrun
          have hrest := ih (fun g hg => hfields g (List.mem_cons_of_mem f hg))
            (fun g hg => hfixed g (List.mem_cons_of_mem f hg))
            (fun g hg => heq g (List.mem_cons_of_mem f hg)) (hσ.trans hgrows)
          change (fillSlots fields owner mode (some source) >>= fun vs => pure (v :: vs)).run σ' =
            (fillSlots fields owner mode (some source') >>= fun vs => pure (v :: vs)).run σ'
          rw [StateT.run_bind, StateT.run_bind, hrest]

theorem construct_congr {type : FieldType} (htype : C.types type)
    (hfixed : ∀ f ∈ type.fields, f.isStatic = true → f.default.isSome) {source source' : Source}
    (h : C.Steady base source) (h' : C.Steady base source')
    (heq : ∀ f ∈ type.fields, f.isStatic = false →
      source.answer base f.name = source'.answer base f.name) :
    (type.construct (some source)).run base = (type.construct (some source')).run base := by
  have hslots := fillSlots_congr htype (fun _ hf => hf) hfixed h h' heq type.name type.coercion
    (.refl base)
  cases type with
  | value t =>
      rw [FieldType.construct, FieldType.construct, ValueType.construct, ValueType.construct]
      cases hlayout : t.layout with
      | primitive kind => rfl
      | composite schema =>
          rw [FieldType.fields_composite hlayout] at hslots
          dsimp only
          rw [Build.newInstance, Build.newInstance, StateT.run_bind, StateT.run_bind,
            StateT.run_bind, StateT.run_bind]
          exact congrArg (· >>= _) (congrArg (· >>= _) hslots)
  | struct s =>
      rw [FieldType.construct, FieldType.construct, StructType.construct, StructType.construct,
        Build.newStruct, Build.newStruct, StateT.run_bind, StateT.run_bind, StateT.run_bind,
        StateT.run_bind]
      exact congrArg (· >>= _) (congrArg (· >>= _) hslots)

end Correspondence

end ValueTypes
