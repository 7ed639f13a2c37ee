import ValueTypes.Proofs.Item

/-! What computations that build values ensure in a scope: the structs in the store stay sound, and
the result has a property in the scope that has the new structs as well. Runs that fail leave no
result and no store behind, so nothing is asked of them. -/

namespace ValueTypes.Build

variable {Θ : Scope} {α β : Type}

/-- A sequence gives a result if both of its computations do. -/
theorem bind_eq_ok {b : Build α} {f : α → Build β} {σ σ'' : Store} {c : β}
    (h : (b >>= f).run σ = .ok (c, σ'')) :
    ∃ a σ', b.run σ = .ok (a, σ') ∧ (f a).run σ' = .ok (c, σ'') := by
  rw [StateT.run_bind] at h
  cases hstep : b.run σ with
  | error e =>
      rw [hstep] at h
      cases h
  | ok step =>
      rw [hstep] at h
      exact ⟨step.1, step.2, rfl, h⟩

theorem map_eq_ok_iff {b : Build α} {f : α → β} {σ σ' : Store} {c : β} :
    (f <$> b).run σ = .ok (c, σ') ↔ ∃ a, b.run σ = .ok (a, σ') ∧ f a = c := by
  rw [StateT.run_map]
  cases b.run σ with
  | error e => simp
  | ok step => aesop

theorem map_eq_error_iff {b : Build α} {f : α → β} {σ : Store} {e : Error} :
    (f <$> b).run σ = .error e ↔ b.run σ = .error e := by
  rw [StateT.run_map]
  cases b.run σ with
  | error e' => simp
  | ok step => simp

theorem exists_map_ok_iff {b : Build α} {f : α → β} {σ : Store} :
    (∃ r, (f <$> b).run σ = .ok r) ↔ ∃ r, b.run σ = .ok r := by
  rw [StateT.run_map]
  cases b.run σ with
  | error e => simp
  | ok step => simp

/-- Every run from a store that the scope describes, if it gives a result, ends in a store that a
larger scope describes, and the result has a property in that scope. -/
def Ensures (Θ : Scope) (b : Build α) (Q : Scope → α → Prop) : Prop :=
  ∀ σ a σ', Θ.Describes σ → b.run σ = .ok (a, σ') →
    ∃ Θ', Θ.Grows Θ' ∧ Θ'.Describes σ' ∧ Q Θ' a

namespace Ensures

variable {Q : Scope → α → Prop} {R : Scope → β → Prop}

theorem pure {a : α} (h : Q Θ a) : Ensures Θ (pure a) Q := by
  intro σ a' σ' hσ hrun
  cases hrun
  exact ⟨Θ, .refl Θ, hσ, h⟩

theorem throw (e : Error) : Ensures Θ (throw e : Build α) Q := by
  intro σ a σ' _ hrun
  cases hrun

theorem mono {P : Scope → α → Prop} {b : Build α} (h : Ensures Θ b P)
    (hPQ : ∀ Θ' a, P Θ' a → Q Θ' a) : Ensures Θ b Q := by
  intro σ a σ' hσ hrun
  obtain ⟨Θ', hΘ, hσ', hP⟩ := h σ a σ' hσ hrun
  exact ⟨Θ', hΘ, hσ', hPQ Θ' a hP⟩

theorem bind {b : Build α} {f : α → Build β} (hb : Ensures Θ b Q)
    (hf : ∀ Θ', Θ.Grows Θ' → ∀ a, Q Θ' a → Ensures Θ' (f a) R) : Ensures Θ (b >>= f) R := by
  intro σ c σ'' hσ hrun
  obtain ⟨a, σ', hstep, hrest⟩ := bind_eq_ok hrun
  obtain ⟨Θ', hΘ, hσ', hQ⟩ := hb σ a σ' hσ hstep
  obtain ⟨Θ'', hΘ', hσ'', hR⟩ := hf Θ' hΘ a hQ σ' c σ'' hσ' hrest
  exact ⟨Θ'', hΘ.trans hΘ', hσ'', hR⟩

theorem map {b : Build α} {f : α → β} (hb : Ensures Θ b fun Θ' a => R Θ' (f a)) :
    Ensures Θ (f <$> b) R := by
  rw [map_eq_pure_bind]
  exact hb.bind fun Θ' _ a ha => .pure ha

theorem lift {x : Except Error α} (h : ∀ a, x = .ok a → Q Θ a) : Ensures Θ (liftM x) Q := by
  intro σ a σ' hσ hrun
  cases hx : x with
  | error e =>
      rw [hx] at hrun
      cases hrun
  | ok a' =>
      rw [hx] at hrun
      cases hrun
      exact ⟨Θ, .refl Θ, hσ, h _ hx⟩

/-- Reading of the store. -/
theorem read {f : Store → α} (h : ∀ σ, Θ.Cells σ → Q Θ (f σ)) :
    Ensures Θ (do return f (← get)) Q := by
  intro σ a σ' hσ hrun
  cases hrun
  exact ⟨Θ, .refl Θ, hσ, h σ hσ.cells⟩

/-- One action on the store. -/
theorem modifyGet {f : Store → α × Store}
    (h : ∀ σ, Θ.Describes σ → ∃ Θ', Θ.Grows Θ' ∧ Θ'.Describes (f σ).2 ∧ Q Θ' (f σ).1) :
    Ensures Θ (modifyGet f) Q := by
  intro σ a σ' hσ hrun
  have heq : f σ = (a, σ') := Except.ok.inj hrun
  have hf := h σ hσ
  rw [heq] at hf
  exact hf

/-- Taking a number touches no struct. -/
theorem newId : Ensures Θ Build.newId fun _ _ => True :=
  .modifyGet fun _ hσ => ⟨Θ, .refl Θ, ⟨hσ.structAt, hσ.cells⟩, trivial⟩

end Ensures

end ValueTypes.Build
