import ValueTypes.Proofs.Attempt.Realms
import ValueTypes.Proofs.World.Methods
import ValueTypes.Proofs.World.Registration

/-! Failures in every run. An operation that fails leaves all realms as they were, so a run goes on
as if it had not been performed. Nothing is taken back for that: made as an attempt, whose changes
last, it leaves behind some structs that nothing refers to, and all else untouched. -/

namespace ValueTypes

variable {μ : Type}

namespace World

/-! ### Runs that go on -/

/-- A run goes on alike from any world with the same realms in which no less was handed out. -/
theorem Leads.replay {w w' u : World μ} (h : w.Leads w') (hrealms : u.realms = w.realms)
    (hgave : ∀ x, w.Gave x → u.Gave x) :
    ∃ events, w'.log = events ++ w.log ∧ u.Leads ⟨w'.realms, events ++ u.log⟩ := by
  -- The worlds on both sides share their realms and the events since the start, so what a step
  -- asks for was handed out by one of these events, or before them.
  induction h with
  | refl => exact ⟨[], rfl, hrealms ▸ .refl⟩
  | @step w' _ op admits ih =>
      obtain ⟨events, hlog, hleads⟩ := ih
      refine ⟨⟨op, (op.run w'.realms).1⟩ :: events, ?_, .step hleads op fun x hx => ?_⟩
      · rw [perform, hlog, List.cons_append]
      · cases admits x hx with
        | plain hplain => exact .plain hplain
        | given hgiven =>
            obtain ⟨op', items, hanswer, hmem⟩ := hgiven
            rw [Answered, hlog, List.mem_append] at hanswer
            rcases hanswer with hnew | hold
            · exact .given ⟨op', items, List.mem_append_left _ hnew, hmem⟩
            · exact .given ((hgave x ⟨op', items, hold, hmem⟩).leads hleads)

/-- Worlds with the same realms in which the same was handed out go on with the same events. -/
theorem leads_iff_of_realms_eq {w u : World μ} (hrealms : u.realms = w.realms)
    (hgave : ∀ x, u.Gave x ↔ w.Gave x) (rs : Realms μ) (events : List (Event μ)) :
    u.Leads ⟨rs, events ++ u.log⟩ ↔ w.Leads ⟨rs, events ++ w.log⟩ := by
  constructor
  · intro h
    obtain ⟨others, hlog, hleads⟩ := h.replay hrealms.symm fun x => (hgave x).mp
    rwa [List.append_cancel_right hlog]
  · intro h
    obtain ⟨others, hlog, hleads⟩ := h.replay hrealms fun x => (hgave x).mpr
    rwa [List.append_cancel_right hlog]

/-- A failure hands out nothing. -/
theorem gave_perform_of_error {w : World μ} {op : Operation μ} {e : Error}
    (h : (op.run w.realms).1 = .error e) (x : Item) : (w.perform op).Gave x ↔ w.Gave x := by
  constructor
  · rintro ⟨op', items, hanswer, hmem⟩
    rw [Answered, perform, h] at hanswer
    rcases List.mem_cons.mp hanswer with heq | hold
    · cases (Event.mk.inj heq).2
    · exact ⟨op', items, hold, hmem⟩
  · rintro ⟨op', items, hanswer, hmem⟩
    exact ⟨op', items, hanswer.perform op, hmem⟩

/-! ### What a failure leaves behind -/

/-- What can be read off the items that are there does not change when structs are added. -/
theorem Present.parts_eq {w : World μ} (hw : w.Reachable) {x : Item} (hx : w.Present x)
    {store : Store} (hkeeps : w.realms.store.Keeps store) :
    x.parts store = x.parts w.realms.store := by
  cases x with
  | value v =>
      cases v with
      | struct s =>
          obtain ⟨cell, hcell, _⟩ := Realms.exists_cell (hw.sound.present hx)
          have hstill : store.cell? s = some cell := hkeeps _ _ hcell
          rw [Item.parts, Item.parts, hcell, hstill]
      | _ => rfl
  | type type => cases type <;> rfl
  | _ => rfl

/-- Failed operations leave no trace. Whatever operation fails in a world, the realms are as before,
with their definitions, methods, symbols, structs and all numbers to come, and the worlds with and
without the failure go on with the same events. Its attempt fails likewise, and leaves nothing else
behind than structs that are not there for anyone: all that can be read off what is there is as
before. An operation that does not fail is an attempt itself. Calls of methods that were not
attached fail without a trace as well. -/
theorem failure_leaves_no_trace {w : World μ} (hw : w.Reachable) :
    (∀ (op : Operation μ) e, (op.run w.realms).1 = .error e →
      (w.perform op).realms = w.realms ∧
      (∀ rs events, (w.perform op).Leads ⟨rs, events ++ (w.perform op).log⟩ ↔
        w.Leads ⟨rs, events ++ w.log⟩) ∧
      ∃ store, op.attempt w.realms = (.error e, { w.realms with store := store }) ∧
        w.realms.store.Keeps store ∧
        ∀ x, w.Present x → x.parts store = x.parts w.realms.store) ∧
    (∀ (op : Operation μ) items, (op.run w.realms).1 = .ok items →
      op.attempt w.realms = op.run w.realms) ∧
    ∀ id, w.Gave (.realm id) → ∀ v : Instance, ∀ name,
      (v.type.realm = id → w.attached? id v.type name = none) →
        ∀ invoke args, w.realms.callMethod invoke id v name args =
          (.error (.notCallable v.type.name name), w.realms) := by
  refine ⟨fun op e hfail => ?_, fun op items hdone => ?_, fun id hid v name hnone invoke args => ?_⟩
  · have hends := op.attempt_ends w.realms
    have hgave := gave_perform_of_error hfail
    have hrun : (w.perform op).realms = (op.run w.realms).2 := rfl
    generalize op.attempt w.realms = out at hends ⊢
    generalize op.run w.realms = result at hends hfail hrun
    cases hends with
    | done => cases hfail
    | @failed _ store hkeeps =>
        cases hfail
        exact ⟨hrun, leads_iff_of_realms_eq hrun hgave, store, rfl, hkeeps,
          fun x hx => hx.parts_eq hw hkeeps⟩
  · have hends := op.attempt_ends w.realms
    generalize op.attempt w.realms = out at hends ⊢
    generalize op.run w.realms = result at hends hdone ⊢
    cases hends with
    | done => rfl
    | failed hkeeps => cases hdone
  · have hmethod : (w.realms.realm id).registry.method? v.type name = none := by
      rw [hw.method?_eq hid]
      split
      · rename_i hown
        exact hnone hown
      · rfl
    rw [Realms.callMethod, Realm.methodOf, hmethod]

namespace Sample

/-- A construction that makes a struct for its first field and fails at the second. -/
def spill : Operation Unit :=
  .constructStruct crate (some (.record [("b", .struct ⟨1, crate⟩), ("r", .int 300)]))

set_option maxRecDepth 4000 in
/-- The attempt leaves a third struct behind, the operation does not. -/
theorem failure_leaves_no_trace_spill : crates.Reachable ∧ crates.Admits spill ∧
    (spill.run crates.realms).1 = .error (.typeMismatch "r" "uint8" "int") ∧
    (crates.perform spill).realms = crates.realms ∧
    crates.realms.store.cells.size = 2 ∧
    (spill.attempt crates.realms).2.store.cells.size = 3 ∧
    crates.realms.store.Keeps (spill.attempt crates.realms).2.store := by
  have hfail : (spill.run crates.realms).1 = .error (.typeMismatch "r" "uint8" "int") := rfl
  obtain ⟨hfailure, -, -⟩ := failure_leaves_no_trace crates_reachable
  obtain ⟨hrealms, -, store, hattempt, hkeeps, -⟩ := hfailure spill _ hfail
  refine ⟨crates_reachable, ?_, hfail, hrealms, rfl, rfl, ?_⟩
  · exact List.forall_mem_cons.mpr ⟨.given (gave_at 1 0 rfl rfl),
      List.forall_mem_cons.mpr ⟨.given (gave_at 0 0 rfl rfl),
        List.forall_mem_singleton.mpr (.plain (.int 300))⟩⟩
  · rw [hattempt]
    exact hkeeps

end Sample

end World

end ValueTypes
