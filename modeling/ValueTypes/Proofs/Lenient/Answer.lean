import ValueTypes.Proofs.Lenient.Session

/-! Answers in relaxed sessions. Only the descriptions of realms, types and schemas show modes; all
other answers are the same. -/

namespace ValueTypes

/-! ### Relaxed answers -/

def SchemaView.relax (view : SchemaView) : SchemaView :=
  ⟨view.schema.relax, view.defaults⟩

def Description.relax : Description → Description
  | .realm id config keys => .realm id config.relax keys
  | .valueType t view => .valueType t.relax (view.map SchemaView.relax)
  | .structType s view => .structType s.relax view.relax
  | .schema view => .schema view.relax
  | .draft s view => .draft s view.relax
  | .symbol s => .symbol s
  | .brief b => .brief b

/-- The answer in the relaxed session. -/
def Answer.relax : Answer → Answer
  | description d => .description d.relax
  | a => a

/-- Whether the answer is not that of a write that failed. -/
def Answer.succeeds : Answer → Bool
  | written (some _) _ => false
  | _ => true

/-- Only descriptions show modes. -/
theorem Answer.relax_eq {a : Answer} (h : ∀ d, a ≠ .description d) : a.relax = a := by
  cases a with
  | description d => exact absurd rfl (h d)
  | _ => rfl

theorem Answer.relax_succeeds (a : Answer) : a.relax.succeeds = a.succeeds := by
  cases a <;> rfl

/-- Contents are leaf by leaf the same, so what shows them is the same. -/
theorem Binding.brief_relax (store : Store) (b : Binding) :
    b.relax.brief store.relax = b.brief store := by
  cases b with
  | value v => exact congrArg Brief.value (store.content_relax v)
  | _ => simp [relax, brief, BoundMethod.relax]

theorem Schema.view_relax (store : Store) (schema : Schema) :
    schema.relax.view store.relax = (schema.view store).relax := by
  simp [view, SchemaView.relax, Function.comp_def, Store.content_relax]

theorem Binding.describe_relax {rs : Realms MethodBody} {n : Nat} (hn : n ≤ rs.members.size)
    {b : Binding} (hb : b.Numbered n) : b.relax.describe rs.relax = (b.describe rs).relax := by
  cases b with
  | realm id =>
      rw [relax, describe, Realms.relax_realm hn hb]
      rfl
  | valueType t =>
      have hview : (fun s : Schema => s.relax.view rs.relax.store) =
          fun s => (s.view rs.store).relax := funext fun s => s.view_relax rs.store
      simp [relax, describe, Description.relax, Function.comp_def, hview]
  | structType s =>
      have hview := s.schema.view_relax rs.store
      rw [relax, describe, StructType.relax_schema]
      exact congrArg (Description.structType s.relax) hview
  | schema s => exact congrArg Description.schema (s.view_relax rs.store)
  | draft d => exact congrArg (Description.draft d.symbol) (d.schema.view_relax rs.store)
  | symbol s => rfl
  | table id => rfl
  | value v => exact congrArg Description.brief (brief_relax rs.store (.value v))
  | method m => rfl

theorem BoundMethod.debug_relax {μ : Type} (m : BoundMethod μ) : m.relax.debug = m.debug := by
  unfold debug
  rw [relax, Instance.relax_type, ValueType.relax_name]

theorem Binding.debug?_relax (store : Store) (b : Binding) :
    b.relax.debug? store.relax = b.debug? store := by
  cases b with
  | valueType t => exact congrArg some t.relax_debug
  | structType s => exact congrArg some s.relax_debug
  | schema s => exact congrArg some s.relax_debug
  | draft d => exact congrArg some d.relax_debug
  | value v => exact congrArg (fun c => some c.debug) (store.content_relax v)
  | method m => exact congrArg some m.debug_relax
  | _ => rfl

theorem Property.debug_relax (store : Store) (p : Property MethodBody) :
    p.relax.debug store.relax = p.debug store := by
  cases p with
  | field v => simp [relax, debug, Store.content_relax]
  | method m => simp [relax, debug, m.debug_relax]
  | missing => rfl

/-- The answer that shows a property. -/
theorem Property.answer_relax (store : Store) (p : Property MethodBody) :
    Answer.property p.relax.isMissing (store.relax.content p.relax.toValue)
        (p.relax.debug store.relax) =
      .property p.isMissing (store.content p.toValue) (p.debug store) := by
  have hmissing : p.relax.isMissing = p.isMissing := by
    cases p <;> rfl
  rw [hmissing, p.relax_toValue, store.content_relax, p.debug_relax]

theorem Binding.compare?_relax (a b : Binding) : a.relax.compare? b.relax = a.compare? b := by
  cases a with
  | valueType t => cases b <;> simp [relax, compare?]
  | structType s => cases b <;> simp [relax, compare?]
  | value v =>
      cases b with
      | value w =>
          have hstrict := v.strictEquals_relax w
          cases v with
          | inst i =>
              cases w with
              | inst j => simp [relax, compare?, i.equals_relax]
              | _ => exact congrArg (fun equal => some (equal, equal)) hstrict
          | struct s =>
              cases w with
              | struct t => simp [relax, compare?]
              | _ => exact congrArg (fun equal => some (equal, equal)) hstrict
          | _ => exact congrArg (fun equal => some (equal, equal)) hstrict
      | _ => simp [relax, compare?]
  | _ => cases b <;> rfl

theorem countDistinct_map {α : Type} {f : α → α} {same : α → α → Bool}
    (h : ∀ a b, same (f a) (f b) = same a b) (as : List α) :
    countDistinct same (as.map f) = countDistinct same as := by
  induction as with
  | nil => rfl
  | cons a as ih => simp [countDistinct, ih, Function.comp_def, h]

theorem filterMap_relax {α : Type} {f : Binding → Option α} {g : α → α}
    (h : ∀ b : Binding, f b.relax = (f b).map g) (bindings : List Binding) :
    (bindings.map Binding.relax).filterMap f = (bindings.filterMap f).map g := by
  rw [List.filterMap_map, List.map_filterMap]
  exact congrArg (List.filterMap · bindings) (funext h)

end ValueTypes
