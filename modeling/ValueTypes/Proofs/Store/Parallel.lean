import ValueTypes.Proofs.Attempt.Basic
import ValueTypes.Proofs.Store.Growth

/-! Two computations side by side, each from a store of its own. They are parallel if they fail with
one error, or give results that are related in the stores they leave behind. -/

namespace ValueTypes

namespace Store

/-- Whether structs have only been added, and numbers only been given out. -/
structure Grows (σ σ' : Store) : Prop where
  keeps : σ.Keeps σ'
  nextId : σ.nextId ≤ σ'.nextId

variable {σ σ' σ'' : Store}

theorem Grows.refl (σ : Store) : σ.Grows σ :=
  ⟨.refl σ, Nat.le_refl _⟩

theorem Grows.trans (h : σ.Grows σ') (h' : σ'.Grows σ'') : σ.Grows σ'' :=
  ⟨h.keeps.trans h'.keeps, Nat.le_trans h.nextId h'.nextId⟩

theorem grows_push (σ : Store) (cell : Cell) :
    σ.Grows { σ with cells := σ.cells.push cell } :=
  ⟨σ.keeps_push cell, Nat.le_refl _⟩

theorem Keeps.extends (h : σ.Keeps σ') : σ.Extends σ' := by
  intro k s hs
  obtain ⟨cell, hcell, rfl⟩ := exists_cell hs
  exact typeAt?_of_getElem? (h k cell hcell)

theorem Keeps.size_le (h : σ.Keeps σ') : σ.cells.size ≤ σ'.cells.size :=
  h.extends.size_le

theorem Keeps.cell? (h : σ.Keeps σ') {s : StructInstance} {cell : Cell}
    (hcell : σ.cell? s = some cell) : σ'.cell? s = some cell :=
  h s.address cell hcell

end Store

namespace Build

variable {α β γ δ : Type}

/-- How two runs end alike: both in one error, or both in results that are related in the stores at
the end, which have grown from those at the start. -/
inductive EndAlike (Q : Store → Store → α → β → Prop) (σ τ : Store) :
    Except Error (α × Store) → Except Error (β × Store) → Prop where
  | failed (e) : EndAlike Q σ τ (.error e) (.error e)
  | done {x y σ' τ'} (left : σ.Grows σ') (right : τ.Grows τ') (related : Q σ' τ' x y) :
      EndAlike Q σ τ (.ok (x, σ')) (.ok (y, τ'))

/-- Whether two computations end alike, each run from a store of its own. -/
def Parallel (σ τ : Store) (b : Build α) (c : Build β) (Q : Store → Store → α → β → Prop) : Prop :=
  EndAlike Q σ τ (b.run σ) (c.run τ)

namespace Parallel

variable {σ τ σ' τ' : Store} {b : Build α} {c : Build β} {Q : Store → Store → α → β → Prop}
  {R : Store → Store → γ → δ → Prop}

/-! ### What follows of the runs -/

theorem error_iff (h : Parallel σ τ b c Q) (e : Error) :
    b.run σ = .error e ↔ c.run τ = .error e := by
  rw [Parallel] at h
  generalize b.run σ = left at h
  generalize c.run τ = right at h
  cases h with
  | failed e' => rw [Except.error.injEq, Except.error.injEq]
  | done _ _ _ =>
      constructor
      · intro heq
        cases heq
      · intro heq
        cases heq

theorem of_ok (h : Parallel σ τ b c Q) {x : α} (hrun : b.run σ = .ok (x, σ')) :
    ∃ y τ', c.run τ = .ok (y, τ') ∧ σ.Grows σ' ∧ τ.Grows τ' ∧ Q σ' τ' x y := by
  rw [Parallel, hrun] at h
  generalize c.run τ = right at h
  cases h with
  | done left right related => exact ⟨_, _, rfl, left, right, related⟩

/-- What was made of the results shows how they are related. -/
theorem of_map {f : α → γ} {g : β → δ}
    (h : Parallel σ τ (do return f (← b)) (do return g (← c)) R) :
    Parallel σ τ b c fun σ' τ' x y => R σ' τ' (f x) (g y) := by
  rw [Parallel] at h ⊢
  rw [StateT.run_bind, StateT.run_bind] at h
  generalize b.run σ = left at h ⊢
  generalize c.run τ = right at h ⊢
  cases left with
  | error e =>
      cases right with
      | error e' =>
          cases h
          exact .failed e
      | ok y => cases h
  | ok x =>
      cases right with
      | error e' => cases h
      | ok y =>
          cases h with
          | done left right related => exact .done left right related

/-! ### Rules -/

theorem pure {x : α} {y : β} (h : Q σ τ x y) : Parallel σ τ (pure x) (pure y) Q :=
  .done (.refl σ) (.refl τ) h

theorem throw (e : Error) : Parallel σ τ (throw e : Build α) (throw e : Build β) Q :=
  .failed e

theorem bind {f : α → Build γ} {g : β → Build δ} (h : Parallel σ τ b c Q)
    (hfg : ∀ σ' τ' x y, σ.Grows σ' → τ.Grows τ' → Q σ' τ' x y → Parallel σ' τ' (f x) (g y) R) :
    Parallel σ τ (b >>= f) (c >>= g) R := by
  rw [Parallel] at h ⊢
  rw [StateT.run_bind, StateT.run_bind]
  generalize b.run σ = left at h ⊢
  generalize c.run τ = right at h ⊢
  cases h with
  | failed e => exact .failed e
  | @done x y σ' τ' left right related =>
      have hrest := hfg σ' τ' x y left right related
      rw [Parallel] at hrest
      change EndAlike R σ τ ((f x).run σ') ((g y).run τ')
      generalize (f x).run σ' = left' at hrest ⊢
      generalize (g y).run τ' = right' at hrest ⊢
      cases hrest with
      | failed e => exact .failed e
      | done left' right' related' =>
          exact .done (left.trans left') (right.trans right') related'

/-- Reading of the stores. -/
theorem read {f : Store → α} {g : Store → β} (h : Q σ τ (f σ) (g τ)) :
    Parallel σ τ (do return f (← get)) (do return g (← get)) Q :=
  .done (.refl σ) (.refl τ) h

/-- One action on each store. -/
theorem modifyGet {f : Store → α × Store} {g : Store → β × Store} (hf : σ.Grows (f σ).2)
    (hg : τ.Grows (g τ).2) (h : Q (f σ).2 (g τ).2 (f σ).1 (g τ).1) :
    Parallel σ τ (MonadStateOf.modifyGet f) (MonadStateOf.modifyGet g) Q :=
  .done hf hg h

theorem newId :
    Parallel σ τ Build.newId Build.newId fun _ _ id id' => id = σ.nextId ∧ id' = τ.nextId :=
  .modifyGet ⟨.refl σ, Nat.le_succ _⟩ ⟨.refl τ, Nat.le_succ _⟩ ⟨rfl, rfl⟩

/-- New instances, if their slots come about in parallel. -/
theorem newInstance {slots slots' : Build (List Value)}
    {P : Store → Store → List Value → List Value → Prop}
    {Q : Store → Store → Instance → Instance → Prop}
    (h : Parallel σ τ slots slots' P) {t t' : ValueType}
    (hnew : ∀ σ' τ' σ'' τ'' us vs, σ.Grows σ' → τ.Grows τ' → σ'.Grows σ'' → τ'.Grows τ'' →
      P σ' τ' us vs → Q σ'' τ'' ⟨σ'.nextId, t, us⟩ ⟨τ'.nextId, t', vs⟩) :
    Parallel σ τ (Build.newInstance t slots) (Build.newInstance t' slots') Q := by
  refine h.bind fun σ' τ' us vs hσ hτ hslots => newId.bind ?_
  rintro σ'' τ'' _ _ hσ' hτ' ⟨rfl, rfl⟩
  exact .pure (hnew σ' τ' σ'' τ'' us vs hσ hτ hσ' hτ' hslots)

/-- New structs, if their slots come about in parallel. -/
theorem newStruct {slots slots' : Build (List Value)}
    {P : Store → Store → List Value → List Value → Prop}
    {Q : Store → Store → StructInstance → StructInstance → Prop}
    (h : Parallel σ τ slots slots' P) {s s' : StructType}
    (hnew : ∀ σ' τ' us vs, σ.Grows σ' → τ.Grows τ' → P σ' τ' us vs →
      Q { σ' with cells := σ'.cells.push ⟨s, us⟩ } { τ' with cells := τ'.cells.push ⟨s', vs⟩ }
        ⟨σ'.cells.size, s⟩ ⟨τ'.cells.size, s'⟩) :
    Parallel σ τ (Build.newStruct s slots) (Build.newStruct s' slots') Q := by
  refine h.bind fun σ' τ' us vs hσ hτ hslots => ?_
  exact .modifyGet (σ'.grows_push _) (τ'.grows_push _) (hnew σ' τ' us vs hσ hτ hslots)

end Parallel

end Build

end ValueTypes
