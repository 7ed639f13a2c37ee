import ValueTypes.Proofs.Realms.Nesting
import ValueTypes.Proofs.World.Changes

/-! What is true of all schemas and struct types that come about in a run: no two struct types have
one number, the fields of each are of its own realm, and the depth that a schema tells is that of
its fields and within the limit of the realm that made it. -/

namespace ValueTypes

variable {μ : Type}

/-! ### Struct types that are made -/

theorem Realms.structType_eq_ok {rs : Realms μ} {id : RealmId} {name : String}
    {drafts : List FieldDraft} {s : StructType} (h : (rs.structType id name drafts).1 = .ok s) :
    s.id = rs.nextStruct ∧ s.realm = id ∧
      (rs.structType id name drafts).2.nextStruct = rs.nextStruct + 1 ∧
      (rs.realm id).policy.check .struct drafts = .ok s.schema.depth ∧
      s.schema.fields.map (·.type) = drafts.map (·.type) := by
  rw [structType, build] at h ⊢
  cases hrun : ((rs.realm id).makeSchema .struct drafts).run rs.store with
  | error e =>
      rw [hrun] at h
      cases h
  | ok result =>
      obtain ⟨schema, store⟩ := result
      rw [hrun] at h
      cases h
      exact ⟨rfl, rfl, rfl, SchemaPolicy.makeSchema_eq_ok hrun⟩

namespace World

/-- Whether a struct type was made in a run. -/
def Made (w : World μ) (s : StructType) : Prop :=
  ∃ id name drafts, w.Answered (.structType id name drafts) [.type (.struct s)]

theorem Made.leads {w w' : World μ} {s : StructType} (h : w.Made s) (hrun : w.Leads w') :
    w'.Made s := by
  obtain ⟨id, name, drafts, hanswer⟩ := h
  exact ⟨id, name, drafts, hanswer.leads hrun⟩

/-- A struct type that was made after an operation was made before it, or is what it gave, with the
next number. -/
theorem Made.perform_cases {w : World μ} {op : Operation μ} {s : StructType}
    (h : (w.perform op).Made s) :
    w.Made s ∨ (op.run w.realms).1 = .ok [.type (.struct s)] ∧ s.id = w.realms.nextStruct ∧
      (w.perform op).realms.nextStruct = w.realms.nextStruct + 1 := by
  obtain ⟨id, name, drafts, hanswer⟩ := h
  rcases List.mem_cons.mp hanswer with heq | hanswer
  · obtain ⟨rfl, hgiven⟩ := Event.mk.inj heq
    refine .inr ⟨hgiven.symm, ?_⟩
    rw [Operation.run, Operation.hand] at hgiven
    cases hresult : (w.realms.structType id name drafts).1 with
    | error e =>
        rw [hresult] at hgiven
        cases hgiven
    | ok s' =>
        rw [hresult] at hgiven
        cases hgiven
        obtain ⟨hid, -, hnext, -⟩ := Realms.structType_eq_ok hresult
        exact ⟨hid, hnext⟩
  · exact .inl ⟨id, name, drafts, hanswer⟩

/-- Struct types are numbered in the order in which they are made. -/
theorem Reachable.made {w : World μ} (hw : w.Reachable) :
    (∀ s, w.Made s → s.id < w.realms.nextStruct) ∧
      ∀ s s', w.Made s → w.Made s' → s.id = s'.id → s = s' := by
  obtain ⟨hashing, hrun⟩ := hw
  induction hrun with
  | refl =>
      have hnone : ∀ s, ¬ (World.start (μ := μ) hashing).Made s := by
        rintro s ⟨_, _, _, h⟩
        cases h
      exact ⟨fun s h => absurd h (hnone s), fun s _ h => absurd h (hnone s)⟩
  | @step w run op admits ih =>
      obtain ⟨hbelow, hunique⟩ := ih
      have hsound := Reachable.sound ⟨hashing, run⟩
      have hgrows := (hsound.run_advances admits).grows.nextStruct
      refine ⟨fun s h => ?_, fun s s' h h' hid => ?_⟩
      · rcases h.perform_cases with hold | ⟨-, hnew, hnext⟩
        · exact (hbelow s hold).trans_le hgrows
        · rw [hnew, hnext]
          exact Nat.lt_succ_self _
      · rcases h.perform_cases with hold | ⟨hgiven, hnew, -⟩ <;>
          rcases h'.perform_cases with hold' | ⟨hgiven', hnew', -⟩
        · exact hunique s s' hold hold' hid
        · exact absurd (hid.trans hnew') (hbelow s hold).ne
        · exact absurd (hid.symm.trans hnew) (hbelow s' hold').ne
        · rw [hgiven] at hgiven'
          cases hgiven'
          rfl

/-! ### Schemas that are made -/

/-- What is asked of the schemas and struct types of a run. What a realm was configured with stays,
so the limits of the last world are those that the schemas were made under. -/
def demands (w : World μ) : Demands where
  schema schema := schema.depth = fieldsDepth schema.fields ∧
    ∃ id, (∀ f ∈ schema.fields, f.type.realm = id) ∧
      schema.depth ≤ (w.realms.realm id).config.maxNestingDepth
  structType s := w.Made s ∧ ∀ f ∈ s.schema.fields, f.type.realm = s.realm

theorem Reachable.keyed {w : World μ} (hw : w.Reachable) {rs : Realms μ}
    (hrs : rs.Sound w.demands) (id : RealmId) :
    Keyed fun type => (rs.scope w.demands).Sound (.type type) ∧ type.realm = id :=
  hrs.keyed (fun s s' hs hs' => hw.made.2 s s' hs.1 hs'.1) (fun _ hs => hs.2) id

/-- The types of drafts that pass a check are of the realm. -/
theorem realm_of_check {policy : SchemaPolicy} {kind : SchemaKind} {drafts : List FieldDraft}
    {depth : Nat} (h : policy.check kind drafts = .ok depth) :
    ∀ draft ∈ drafts, draft.type.realm = policy.realm :=
  fun draft hdraft =>
    (SchemaPolicy.realm_of_fault? ((SchemaPolicy.check_eq_ok h).2 draft hdraft)).1

/-- Whatever schema a realm lets through on the way to a world is as is asked there. -/
theorem Reachable.meets {w₀ w : World μ} (hw : w.Reachable) (hw₀ : w₀.Reachable)
    (hrun : w₀.Leads w) (hrs : w₀.realms.Sound w.demands) {id : RealmId}
    (hid : w₀.realms.scope.realm id) :
    (w₀.realms.realm id).policy.Meets (w₀.realms.scope w.demands) := by
  intro kind drafts depth fields hdrafts hcheck htypes
  have hrealm := realm_of_check hcheck
  have hpolicy : (w₀.realms.realm id).policy.realm = id := hrs.realm_id hid
  rw [hpolicy] at hrealm
  obtain ⟨hdepth, hlimit⟩ := nestingDepth_eq_ok (hw.keyed hrs id)
    (fun draft hdraft => ⟨hdrafts draft hdraft, hrealm draft hdraft⟩)
    (SchemaPolicy.nestingDepth_of_check hcheck)
  refine ⟨?_, id, fun f hf => ?_, ?_⟩
  · rw [fieldsDepth_eq, htypes]
    exact hdepth
  · have hmem := List.mem_map_of_mem (f := Field.type) hf
    rw [htypes] at hmem
    obtain ⟨draft, hdraft, htype⟩ := List.mem_map.mp hmem
    rw [← htype]
    exact hrealm draft hdraft
  · rw [(hw₀.sound.leads_keeps hrun hid).config]
    exact hlimit

/-- The fields of a struct type that is made are of its own realm. -/
theorem structType_meets {w₀ w : World μ} {id : RealmId} {name : String}
    {drafts : List FieldDraft} {s : StructType}
    (hmade : (w₀.realms.structType id name drafts).1 = .ok s)
    (hrun : (w₀.perform (.structType id name drafts)).Leads w)
    (hrealm : (w₀.realms.realm id).id = id) : w.demands.structType s := by
  refine ⟨Made.leads ⟨id, name, drafts, ?_⟩ hrun, fun f hf => ?_⟩
  · rw [Answered, perform, Operation.run, Operation.hand, hmade]
    exact List.mem_cons_self ..
  · obtain ⟨-, hsrealm, -, hcheck, htypes⟩ := Realms.structType_eq_ok hmade
    have hmem := List.mem_map_of_mem (f := Field.type) hf
    rw [htypes] at hmem
    obtain ⟨draft, hdraft, htype⟩ := List.mem_map.mp hmem
    rw [← htype, hsrealm, realm_of_check hcheck draft hdraft]
    exact hrealm

/-- All schemas and struct types of a run are as is asked. The induction is on the part of the run
that has passed, with what is asked fixed by the last world. -/
theorem Reachable.sound_demands {w : World μ} (hw : w.Reachable) : w.Sound w.demands := by
  have hpast : ∀ hashing w₀, (World.start (μ := μ) hashing).Leads w₀ → w₀.Leads w →
      w₀.Sound w.demands := by
    intro hashing w₀ hpassed
    induction hpassed with
    | refl => exact fun _ => .start hashing
    | @step w₀ passed op admits ih =>
        intro hrun
        have hrest : w₀.Leads w := Leads.trans (.step .refl op admits) hrun
        have hsound := ih hrest
        have hw₀ : w₀.Reachable := ⟨hashing, passed⟩
        refine hsound.perform admits ⟨fun id hid => ?_, fun id name drafts s hop hmade => ?_⟩
        · exact hw.meets hw₀ hrest hsound.realms hid
        · subst hop
          refine structType_meets hmade hrun ?_
          have hid := (hw₀.sound.holds (admits _ (List.mem_cons_self ..))).realm_of
          exact hsound.realms.realm_id hid
  obtain ⟨hashing, hrun⟩ := hw
  exact hpast hashing w hrun .refl

end World

end ValueTypes
