import ValueTypes.Proofs.Attempt.Realms
import ValueTypes.Proofs.World.Changes
import ValueTypes.Proofs.World.Writes

/-! Runs that spare some structs. Only a write to a struct changes a struct that is there, and it
changes no other one. So in a run in which certain structs are not written, they stay as they are,
whatever else is constructed, defined or written. -/

namespace ValueTypes

variable {μ α : Type}

namespace Realms

variable {rs : Realms μ}

theorem build_keeps {a : Attempt α} {b : Build α} (h : a.Adds b) :
    rs.store.Keeps (rs.build b).2.store := by
  rw [build]
  cases hrun : b.run rs.store with
  | error e => exact .refl _
  | ok result => exact h.keeps hrun

theorem intern_store (rs : Realms μ) (id : RealmId) (d : Draft) :
    (rs.intern id d).2.store = rs.store := by
  rw [intern]
  cases (rs.realm id).registry.intern d <;> rfl

theorem internSchema_keeps {id : RealmId} {symbol : Symbol} {a : Attempt Schema} {b : Build Schema}
    (h : a.Adds b) : rs.store.Keeps (rs.internSchema id symbol b).2.store := by
  have hkeeps : rs.store.Keeps (rs.build b).2.store := build_keeps h
  rw [internSchema]
  cases hbuild : rs.build b with
  | mk result rs' =>
      rw [hbuild] at hkeeps
      cases result with
      | error e => exact hkeeps
      | ok schema =>
          dsimp only
          rw [intern_store]
          exact hkeeps

theorem structType_keeps (rs : Realms μ) (id : RealmId) (name : String) (drafts : List FieldDraft) :
    rs.store.Keeps (rs.structType id name drafts).2.store := by
  have hkeeps : rs.store.Keeps (rs.build ((rs.realm id).makeSchema .struct drafts)).2.store :=
    build_keeps (Attempt.makeSchema_adds _ .struct drafts)
  rw [structType]
  cases hbuild : rs.build ((rs.realm id).makeSchema .struct drafts) with
  | mk result rs' =>
      rw [hbuild] at hkeeps
      cases result <;> exact hkeeps

theorem attach_store (rs : Realms μ) (id : RealmId) (t : ValueType) (added : MethodTable μ) :
    (rs.attach id t added).2.store = rs.store := by
  rw [attach]
  cases (rs.realm id).registry.attach t added <;> rfl

end Realms

/-! ### One operation -/

namespace Operation

variable {op : Operation μ}

/-- Whether an operation is a write to a struct. -/
def WritesTo (op : Operation μ) (s : StructInstance) : Prop :=
  ∃ name x, op = .setProperty (.struct s) name x

/-- An operation that is no write to a struct changes no struct that is there. -/
theorem run_keeps (rs : Realms μ) (h : ∀ s, ¬ op.WritesTo s) :
    rs.store.Keeps (op.run rs).2.store := by
  cases op with
  | makeSchema id kind drafts =>
      exact Realms.build_keeps (Attempt.makeSchema_adds _ kind drafts)
  | makeArraySchema id kind element length =>
      exact Realms.build_keeps (Attempt.makeSchema_adds _ kind _)
  | intern id d => exact rs.intern_store id d ▸ .refl _
  | valueType id symbol drafts =>
      exact Realms.internSchema_keeps (Attempt.makeSchema_adds _ .value drafts)
  | arrayType id symbol element length =>
      exact Realms.internSchema_keeps (Attempt.makeSchema_adds _ .value _)
  | structType id name drafts => exact rs.structType_keeps id name drafts
  | attach id t added => exact rs.attach_store id t added ▸ .refl _
  | newRecord entries => exact Realms.build_keeps (Attempt.Adds.newRecord entries)
  | construct t source => exact Realms.build_keeps (Attempt.construct_adds t source)
  | constructStruct s source => exact Realms.build_keeps (Attempt.constructStruct_adds s source)
  | coerce t v => exact Realms.build_keeps (Attempt.coerce_adds t v)
  | setProperty target name v =>
      have htarget : ∀ s, target ≠ .struct s := by
        rintro s rfl
        exact h s ⟨name, v, rfl⟩
      obtain ⟨e, herror, _⟩ := setProperty_of_not_struct htarget name v rs.store
      rw [run, hand, Realms.build, herror]
      exact .refl _
  | newSymbol description => exact .refl _
  | newTable => exact .refl _
  | symbolFor table key => exact .refl _
  | newRealm config table => exact .refl _
  | definitions id => exact .refl _
  | inspect x => exact .refl _

/-- An operation that is no write to a struct leaves it as it is. -/
theorem cell?_run {rs : Realms μ} {u : StructInstance} {cell : Cell}
    (hcell : rs.store.cell? u = some cell) (h : ∀ s, op.WritesTo s → s.address ≠ u.address) :
    (op.run rs).2.store.cell? u = some cell := by
  by_cases hwrites : ∃ s, op.WritesTo s
  · obtain ⟨s, name, x, rfl⟩ := hwrites
    have hne := h s ⟨name, x, rfl⟩
    have hset : ValueTypes.setProperty (.struct s) name x = s.set name x := rfl
    have hends := s.set_writes name x rs.store
    rw [run, hand, Realms.build, hset]
    generalize (s.set name x).run rs.store = result at hends
    cases hends with
    | done hf hstatic hk hcoerce =>
        dsimp only
        rw [Store.cell?_written_of_ne hne.symm]
        exact (FieldType.coerce_keeps hcoerce).cell? hcell
    | _ => exact hcell
  · exact (run_keeps rs fun s hs => hwrites ⟨s, hs⟩).cell? hcell

end Operation

/-! ### Runs -/

/-- Handles to one address tell the same type, so they are the same handle. -/
theorem Scope.Sound.handle_eq {Θ : Scope} {s u : StructInstance} (hs : Θ.Sound (.value (.struct s)))
    (hu : Θ.Sound (.value (.struct u))) (h : s.address = u.address) : s = u := by
  have hlive := hs.live
  rw [h, hu.live] at hlive
  cases s
  cases u
  cases h
  cases hlive
  rfl

namespace World

/-- Whether a run leads from one world to another in which no struct of some is written. -/
inductive LeadsSparing (w : World μ) (P : StructInstance → Prop) : World μ → Prop where
  | refl : LeadsSparing w P w
  | step {w'} (run : LeadsSparing w P w') (op) (admits : w'.Admits op)
      (spares : ∀ s, op.WritesTo s → ¬ P s) : LeadsSparing w P (w'.perform op)

namespace LeadsSparing

variable {w w' w'' : World μ} {P : StructInstance → Prop}

theorem leads (h : w.LeadsSparing P w') : w.Leads w' := by
  induction h with
  | refl => exact .refl
  | step _ op admits _ ih => exact .step ih op admits

theorem trans (h : w.LeadsSparing P w') (h' : w'.LeadsSparing P w'') : w.LeadsSparing P w'' := by
  induction h' with
  | refl => exact h
  | step _ op admits spares ih => exact .step ih op admits spares

/-- What is not a write can come first. -/
theorem of_perform {op : Operation μ} (h : (w.perform op).LeadsSparing P w') (admits : w.Admits op)
    (hwrites : ∀ s, ¬ op.WritesTo s) : w.LeadsSparing P w' :=
  trans (.step .refl op admits fun s hs => absurd hs (hwrites s)) h

/-- A struct that is spared stays as it is. -/
theorem cell? (h : w.LeadsSparing P w') (hw : w.Sound) {u : StructInstance}
    (hu : w.realms.scope.Sound (.value (.struct u))) (hP : P u) :
    w'.realms.store.cell? u = w.realms.store.cell? u := by
  obtain ⟨cell, hcell, _⟩ := Realms.exists_cell hu
  rw [hcell]
  induction h with
  | refl => exact hcell
  | @step w₁ run op admits spares ih =>
      have hsound := hw.leads run.leads
      have hstill := hu.mono (hw.leads_extends run.leads).within
      refine Operation.cell?_run ih fun s hs haddress => spares s hs ?_
      obtain ⟨name, x, rfl⟩ := hs
      have hs := hsound.holds (admits _ (List.mem_cons_self ..))
      exact hs.handle_eq hstill haddress ▸ hP

end LeadsSparing

end World

end ValueTypes
