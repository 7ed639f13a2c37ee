import ValueTypes.Proofs.Realms.Sound
import ValueTypes.Proofs.World.Basic

/-! Soundness of runs. An operation on sound items leaves sound realms behind and hands out sound
items, so whatever a caller can come to hold is sound. -/

namespace ValueTypes

variable {μ : Type} {Θ : Scope} {Δ : Demands}

/-! ### Items that go in -/

theorem FieldDraft.sound_of_items {drafts : List FieldDraft}
    (h : ∀ x ∈ drafts.flatMap (·.items), Θ.Sound x) : ∀ draft ∈ drafts, draft.Sound Θ := by
  intro draft hdraft
  have hitems : ∀ x ∈ draft.items, Θ.Sound x := fun x hx =>
    h x (List.mem_flatMap.mpr ⟨draft, hdraft, hx⟩)
  refine ⟨hitems _ (List.mem_cons_self ..), fun v hv => hitems _ (List.mem_cons_of_mem _ ?_)⟩
  rw [hv]
  exact List.mem_singleton.mpr rfl

theorem Source.sound_of_items {source : Option Source}
    (h : ∀ x ∈ source.elim [] (·.items), Θ.Sound x) : ∀ s, source = some s → s.Sound Θ := by
  rintro s rfl
  cases s with
  | record entries => exact fun e he => h _ (List.mem_map_of_mem he)
  | inst i => exact h _ (List.mem_singleton.mpr rfl)
  | struct s => exact h _ (List.mem_singleton.mpr rfl)

theorem Realms.primitive_sound {rs : Realms μ} (hrs : rs.Sound Δ) {id : RealmId}
    (h : rs.scope.realm id) (kind : PrimitiveKind) :
    (rs.scope Δ).Sound (.type (.value ((rs.realm id).primitive kind))) :=
  .valueType (type_of_realm h ((hrs.registry h).primitive_mem kind))

theorem arrayFields_sound {element : FieldType} (helement : Θ.Sound (.type element))
    (length : Nat) {lengthType : ValueType} (hlength : Θ.Sound (.type (.value lengthType))) :
    ∀ draft ∈ arrayFields element length lengthType, draft.Sound Θ := by
  intro draft hdraft
  rcases List.mem_append.mp hdraft with hdraft | hdraft
  · rcases List.mem_map.mp hdraft with ⟨_, _, rfl⟩
    exact ⟨helement, fun v hv => nomatch hv⟩
  · rw [List.mem_singleton.mp hdraft]
    refine ⟨hlength, ?_⟩
    intro _ heq
    cases heq
    exact .plain (.int _)

/-! ### Items that come out -/

/-- Whatever is read off a sound item is sound. -/
theorem Item.parts_sound (hΘ : Θ.Closed) {store : Store} (hcells : Θ.Cells store) {x : Item}
    (hx : Θ.Sound x) : ∀ y ∈ x.parts store, Θ.Sound y := by
  intro y hy
  cases x with
  | realm id => cases hy
  | table id => cases hy
  | symbol s => cases hy
  | type type =>
      cases type with
      | value t =>
          simp only [parts, ValueType.schema?, Option.mem_toList, Option.map_eq_some_iff] at hy
          rcases hy with ⟨schema, hschema, rfl⟩
          cases hx with
          | valueType ht =>
              cases hlayout : t.layout with
              | primitive kind =>
                  rw [hlayout] at hschema
                  cases hschema
              | composite other =>
                  rw [hlayout] at hschema
                  cases hschema
                  exact hΘ t schema ht hlayout
      | struct s =>
          rw [List.mem_singleton.mp hy]
          exact hx.struct_schema
  | schema s =>
      rcases List.mem_flatMap.mp hy with ⟨f, hf, hy⟩
      rcases List.mem_cons.mp hy with rfl | hy
      · exact hx.types f hf
      · simp only [Option.mem_toList, Option.map_eq_some_iff] at hy
        rcases hy with ⟨d, hd, rfl⟩
        exact ((hx.field f hf).default d hd).sound
  | value v =>
      cases v with
      | record id entries =>
          rcases List.mem_map.mp hy with ⟨e, he, rfl⟩
          exact hx.entries e he
      | inst i =>
          rcases List.mem_cons.mp hy with rfl | hy
          · exact .valueType hx.inst_type
          · rcases List.mem_map.mp hy with ⟨v, hv, rfl⟩
            exact hx.slots v hv
      | struct s =>
          rcases List.mem_cons.mp hy with rfl | hy
          · exact hx.struct_type
          · cases hcell : store.cell? s with
            | none =>
                rw [hcell] at hy
                cases hy
            | some cell =>
                rw [hcell] at hy
                rcases List.mem_map.mp hy with ⟨v, hv, rfl⟩
                exact (hcells cell (Array.mem_of_getElem? hcell)).fills.sound v hv
      | _ => cases hy

/-! ### One operation -/

namespace Operation

/-- Whether all items of an answer are sound. -/
def Hands (Δ : Demands) (rs : Realms μ) (items : List Item) : Prop :=
  ∀ x ∈ items, (rs.scope Δ).Sound x

theorem hands_nil (rs : Realms μ) : Hands Δ rs [] :=
  fun _ h => nomatch h

theorem hands_singleton {rs : Realms μ} {x : Item} (h : (rs.scope Δ).Sound x) : Hands Δ rs [x] :=
  fun y hy => by rw [List.mem_singleton.mp hy]; exact h

theorem hand_advances {α : Type} {rs : Realms μ} {r : Except Error α × Realms μ}
    {P : Realms μ → α → Prop} {items : α → List Item} (h : rs.Advances r P Δ)
    (hitems : ∀ a, P r.2 a → Hands Δ r.2 (items a)) :
    rs.Advances (hand items r) (Hands Δ) Δ := by
  refine ⟨h.sound, h.grows, fun handed heq => ?_⟩
  cases hr : r.1 with
  | error e =>
      rw [hand, hr] at heq
      cases heq
  | ok a =>
      rw [hand, hr] at heq
      cases heq
      exact hitems a (h.answer a hr)

theorem realm_of_uses {op : Operation μ} {id : RealmId} {rest : List Item}
    (huses : ∀ x ∈ op.uses, Θ.Sound x) (h : op.uses = .realm id :: rest := by rfl) :
    Θ.realm id := by
  rw [h] at huses
  exact (huses (.realm id) (List.mem_cons_self ..)).realm_of

/-- What a computation gives is handed out. -/
theorem build_advances {α : Type} {rs : Realms μ} (hrs : rs.Sound Δ) {b : Build α}
    {Q : Scope → α → Prop} (hb : Build.Ensures (rs.scope Δ) b Q) {items : α → List Item}
    (hitems : ∀ (rs' : Realms μ) a, Q (rs'.scope Δ) a → Hands Δ rs' (items a)) :
    rs.Advances (hand items (rs.build b)) (Hands Δ) Δ :=
  hand_advances (Realms.build_advances hrs hb) fun a ha => hitems _ a ha.2

/-- Whether the schemas that realms let through, and the struct type that an operation makes, are as
is asked. -/
structure Meets (op : Operation μ) (rs : Realms μ) (Δ : Demands) : Prop where
  policy : ∀ id, rs.scope.realm id → (rs.realm id).policy.Meets (rs.scope Δ)
  structType : ∀ id name drafts s, op = .structType id name drafts →
    (rs.structType id name drafts).1 = .ok s → Δ.structType s

theorem meets_nothing (op : Operation μ) (rs : Realms μ) : op.Meets rs {} :=
  ⟨fun id _ => (rs.realm id).policy.meets_nothing rs, fun _ _ _ _ _ _ => trivial⟩

/-- An operation on sound items leaves sound realms behind and hands out sound items. -/
theorem run_advances {rs : Realms μ} (hrs : rs.Sound Δ) {op : Operation μ} (hop : op.Meets rs Δ)
    (huses : ∀ x ∈ op.uses, (rs.scope Δ).Sound x) : rs.Advances (op.run rs) (Hands Δ) Δ := by
  have hclosed := hrs.closed
  cases op with
  | newSymbol description =>
      refine .of_same hrs rfl rfl (Nat.le_refl _) ?_
      intro _ heq
      cases heq
      exact hands_singleton (.symbol _)
  | newTable =>
      refine .of_same hrs rfl rfl (Nat.le_refl _) ?_
      intro _ heq
      cases heq
      exact hands_singleton (.table _)
  | symbolFor table key =>
      refine .of_same hrs rfl rfl (Nat.le_refl _) ?_
      intro _ heq
      cases heq
      exact hands_singleton (.symbol _)
  | newRealm config table =>
      rcases Realms.newRealm_advances hrs config table with ⟨hsound, hextends, hrealm⟩
      refine ⟨hsound, hextends, ?_⟩
      intro _ heq
      cases heq
      exact hands_singleton (.realm hrealm)
  | makeSchema id kind drafts =>
      have hid := realm_of_uses huses
      have hpolicy := hop.policy id hid
      have hdrafts := FieldDraft.sound_of_items fun x hx => huses x (List.mem_cons_of_mem _ hx)
      exact build_advances hrs (SchemaPolicy.makeSchema_ensures hclosed hpolicy kind hdrafts)
        fun _ schema h => hands_singleton h.1
  | makeArraySchema id kind element length =>
      have hid := realm_of_uses huses
      have helement := huses (.type element) (by simp [uses])
      exact build_advances hrs (SchemaPolicy.makeSchema_ensures hclosed (hop.policy id hid) kind
        (arrayFields_sound helement length (Realms.primitive_sound hrs hid .uint32)))
        fun _ schema h => hands_singleton h.1
  | intern id draft =>
      have hid := realm_of_uses huses
      have hschema := huses (.schema draft.schema) (by simp [uses])
      exact hand_advances (Realms.intern_advances hrs hid hschema)
        fun t ht => hands_singleton ht.sound
  | valueType id symbol drafts =>
      have hid := realm_of_uses huses
      have hdrafts := FieldDraft.sound_of_items fun x hx => huses x (List.mem_cons_of_mem _ hx)
      exact hand_advances (Realms.internSchema_advances hrs hid symbol
        ((SchemaPolicy.makeSchema_ensures hclosed (hop.policy id hid) .value hdrafts).mono
          fun _ _ h => h.1))
        fun t ht => hands_singleton ht
  | arrayType id symbol element length =>
      have hid := realm_of_uses huses
      have helement := huses (.type element) (by simp [uses])
      exact hand_advances (Realms.internSchema_advances hrs hid symbol
        ((SchemaPolicy.makeSchema_ensures hclosed (hop.policy id hid) .value
          (arrayFields_sound helement length (Realms.primitive_sound hrs hid .uint32))).mono
          fun _ _ h => h.1))
        fun t ht => hands_singleton ht
  | structType id name drafts =>
      have hid := realm_of_uses huses
      have hpolicy := hop.policy id hid
      have hdrafts := FieldDraft.sound_of_items fun x hx => huses x (List.mem_cons_of_mem _ hx)
      exact hand_advances (Realms.structType_advances hrs hpolicy name hdrafts
        fun s => hop.structType id name drafts s rfl) fun s hs => hands_singleton hs
  | attach id t methods =>
      have hid := realm_of_uses huses
      exact hand_advances (Realms.attach_advances hrs hid t methods) fun _ _ => hands_nil _
  | definitions id =>
      have hid := realm_of_uses huses
      refine .of_same hrs rfl rfl (Nat.le_refl _) ?_
      rintro _ ⟨⟩ x hx
      rcases List.mem_map.mp hx with ⟨t, ht, rfl⟩
      exact .valueType (Realms.type_of_realm hid ht)
  | newRecord entries =>
      have hentries : ∀ e ∈ entries, (rs.scope Δ).Sound (.value e.2) := fun e he =>
        huses _ (List.mem_map_of_mem he)
      have hrecord : Build.Ensures (rs.scope Δ) (Build.newRecord entries)
          fun Θ v => Θ.Sound (.value v) :=
        Build.Ensures.newId.bind fun Θ' hΘ' id _ =>
          .pure (.record fun e he => (hentries e he).mono hΘ'.within)
      exact build_advances hrs hrecord fun _ v hv => hands_singleton hv
  | construct t source =>
      have hsource := Source.sound_of_items fun x hx => huses x (List.mem_cons_of_mem _ hx)
      cases huses (.type (.value t)) (List.mem_cons_self ..) with
      | valueType ht =>
          exact build_advances hrs (ValueType.construct_ensures hclosed ht hsource)
            fun _ i hi => hands_singleton hi.2
  | constructStruct s source =>
      have hs := huses (.type (.struct s)) (List.mem_cons_self ..)
      have hsource := Source.sound_of_items fun x hx => huses x (List.mem_cons_of_mem _ hx)
      exact build_advances hrs (StructType.construct_ensures hclosed hs hsource)
        fun _ i hi => hands_singleton hi.2
  | coerce t v =>
      have hv := huses (.value v) (by simp [uses])
      cases huses (.type (.value t)) (List.mem_cons_self ..) with
      | valueType ht =>
          exact build_advances hrs (ValueType.coerce_ensures hclosed ht hv)
            fun _ w hw => hands_singleton hw
  | setProperty target name v =>
      have htarget := huses (.value target) (by simp [uses])
      have hv := huses (.value v) (by simp [uses])
      exact build_advances hrs (setProperty_ensures hclosed htarget name hv)
        fun rs' _ _ => hands_nil rs'
  | inspect x =>
      refine .of_same hrs rfl rfl (Nat.le_refl _) ?_
      intro _ heq
      cases heq
      exact Item.parts_sound hclosed hrs.cells (huses x (List.mem_singleton.mpr rfl))

end Operation

/-! ### Runs -/

namespace World

/-- The invariant of runs: the realms are sound, so is every item that was handed out, and every
draft that was interned is answered by a definition that is still there. -/
structure Sound (w : World μ) (Δ : Demands := {}) : Prop where
  realms : w.realms.Sound Δ
  gave : ∀ x, w.Gave x → (w.realms.scope Δ).Sound x
  interned : ∀ id d items, w.Answered (.intern id d) items →
    ∃ t, items = [.type (.value t)] ∧ w.realms.Interned id d t

namespace Sound

variable {w : World μ}

theorem start (hashing : Hashing) : (World.start (μ := μ) hashing).Sound Δ where
  realms := by
    refine ⟨fun realm h => ?_, fun k realm h => ?_, fun t schema h => ?_, fun cell h => ?_⟩
    · simp [World.start] at h
    · simp [World.start] at h
    · simp [World.start, Realms.scope] at h
    · simp [World.start] at h
  gave x h := by
    rcases h with ⟨op, items, hanswer, _⟩
    cases hanswer
  interned id d items h := by cases h

theorem holds (hw : w.Sound Δ) {x : Item} (h : w.Holds x) : (w.realms.scope Δ).Sound x := by
  cases h with
  | plain h => exact .plain h
  | given h => exact hw.gave x h

theorem run_advances_of_meets (hw : w.Sound Δ) {op : Operation μ} (hop : w.Admits op)
    (hmeets : op.Meets w.realms Δ) :
    w.realms.Advances (op.run w.realms) (Operation.Hands Δ) Δ :=
  Operation.run_advances hw.realms hmeets fun x hx => hw.holds (hop x hx)

theorem run_advances (hw : w.Sound) {op : Operation μ} (hop : w.Admits op) :
    w.realms.Advances (op.run w.realms) (Operation.Hands {}) :=
  hw.run_advances_of_meets hop (op.meets_nothing w.realms)

/-- One operation keeps the invariant, if what it makes is as is asked. -/
theorem perform (hw : w.Sound Δ) {op : Operation μ} (hop : w.Admits op)
    (hmeets : op.Meets w.realms Δ) : (w.perform op).Sound Δ := by
  have hrun := hw.run_advances_of_meets hop hmeets
  refine ⟨hrun.sound, ?_, ?_⟩
  · rintro x ⟨op', items, hanswer, hx⟩
    rcases List.mem_cons.mp hanswer with heq | hanswer
    · have hanswer := (Event.mk.inj heq).2
      exact hrun.answer items hanswer.symm x hx
    · exact (hw.gave x ⟨op', items, hanswer, hx⟩).mono hrun.grows.within
  · intro id d items hanswer
    rcases List.mem_cons.mp hanswer with heq | hanswer
    · rcases Event.mk.inj heq with ⟨rfl, hanswer⟩
      have hid := (hw.holds (hop (.realm id) (List.mem_cons_self ..))).realm_of
      have hschema := hw.holds (hop (.schema d.schema) (by simp [Operation.uses]))
      have hintern := Realms.intern_advances hw.realms hid hschema
      cases hresult : (w.realms.intern id d).1 with
      | error e =>
          rw [Operation.run, Operation.hand, hresult] at hanswer
          cases hanswer
      | ok t =>
          rw [Operation.run, Operation.hand, hresult] at hanswer
          exact ⟨t, Except.ok.inj hanswer, hintern.answer t hresult⟩
    · rcases hw.interned id d items hanswer with ⟨t, hitems, ht⟩
      exact ⟨t, hitems, ht.mono hrun.grows⟩

theorem leads (hw : w.Sound) {w' : World μ} (h : w.Leads w') : w'.Sound := by
  induction h with
  | refl => exact hw
  | step _ op admits ih => exact ih.perform admits (op.meets_nothing _)

end Sound

/-- The invariant holds in every run. -/
theorem Reachable.sound {w : World μ} (hw : w.Reachable) : w.Sound := by
  rcases hw with ⟨hashing, hrun⟩
  exact (Sound.start hashing).leads hrun

end World

end ValueTypes
