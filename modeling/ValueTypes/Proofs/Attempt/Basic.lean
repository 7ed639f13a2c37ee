import ValueTypes.Construction
import ValueTypes.Proofs.Store.Growth

/-! Attempts are computations that build values, but whose changes last even if they fail. An
attempt is compared with the computation that fails without a trace: both come to the same, and what
the failing attempt leaves behind are new structs, which nothing refers to. -/

namespace ValueTypes

variable {α β : Type}

namespace Store

/-- Whether structs have only been added, and all that were there have the values they had. -/
def Keeps (σ σ' : Store) : Prop :=
  ∀ (k : Nat) (cell : Cell), σ.cells[k]? = some cell → σ'.cells[k]? = some cell

variable {σ σ' σ'' : Store}

theorem Keeps.refl (σ : Store) : σ.Keeps σ :=
  fun _ _ hk => hk

theorem Keeps.trans (h : σ.Keeps σ') (h' : σ'.Keeps σ'') : σ.Keeps σ'' :=
  fun k cell hk => h' k cell (h k cell hk)

theorem keeps_push (σ : Store) (cell : Cell) :
    σ.Keeps { σ with cells := σ.cells.push cell } := by
  intro k old hk
  obtain ⟨hlt, _⟩ := Array.getElem?_eq_some_iff.mp hk
  change (σ.cells.push cell)[k]? = some old
  rw [Array.getElem?_push_lt hlt, ← hk, Array.getElem?_eq_getElem hlt]

end Store

/-- A computation that builds values in a store, and leaves its changes there when it fails. -/
abbrev Attempt := ExceptT Error (StateM Store)

namespace Attempt

/-- What an attempt comes to: its result or its error, and the store that it leaves behind. -/
def outcome (a : Attempt α) (σ : Store) : Except Error α × Store :=
  (a.run.run σ).run

/-! ### Steps -/

def newId : Attempt Nat :=
  modifyGet fun store => (store.nextId, { store with nextId := store.nextId + 1 })

def newRecord (entries : List (String × Value)) : Attempt Value := do
  return .record (← newId) entries

def newInstance (type : ValueType) (slots : Attempt (List Value)) : Attempt Instance := do
  let slots ← slots
  return ⟨← newId, type, slots⟩

def newStruct (type : StructType) (slots : Attempt (List Value)) : Attempt StructInstance := do
  let slots ← slots
  modifyGet fun store =>
    (⟨store.cells.size, type⟩, { store with cells := store.cells.push ⟨type, slots⟩ })

def write (s : StructInstance) (index : Nat) (value : Value) : Attempt Unit :=
  modify fun store =>
    { store with
      cells := store.cells.modify s.address fun cell =>
        { cell with slots := cell.slots.set index value } }

/-! ### Attempts and computations -/

/-- Whether an attempt and a computation end alike: with one result and one store, which is related
to the first one, or with one error, and then the structs that were there keep their values. -/
inductive Ends (R : Store → Store → Prop) (σ : Store) :
    Except Error α × Store → Except Error (α × Store) → Prop where
  | done {x σ'} (h : R σ σ') : Ends R σ (.ok x, σ') (.ok (x, σ'))
  | failed {e σ'} (h : σ.Keeps σ') : Ends R σ (.error e, σ') (.error e)

/-- Whether an attempt ends like a computation, and changes no struct, whether it fails or not. -/
def Adds (a : Attempt α) (b : Build α) : Prop :=
  ∀ σ, Ends Store.Keeps σ (a.outcome σ) (b.run σ)

/-- Whether an attempt ends like a computation, and changes no struct if it fails. -/
def Follows (a : Attempt α) (b : Build α) : Prop :=
  ∀ σ, Ends (fun _ _ => True) σ (a.outcome σ) (b.run σ)

theorem outcome_bind (a : Attempt α) (f : α → Attempt β) (σ : Store) :
    (a >>= f).outcome σ =
      match a.outcome σ with
      | (.ok x, σ') => (f x).outcome σ'
      | (.error e, σ') => (.error e, σ') := by
  change (match a.outcome σ with
    | (x, σ') => ((ExceptT.bindCont (m := StateM Store) f x).run σ').run) = _
  cases a.outcome σ with
  | mk x σ' => cases x <;> rfl

/-- A sequence ends like a sequence, if its first part only adds structs. -/
theorem Ends.bind {R : Store → Store → Prop} (hR : ∀ σ σ' σ'', σ.Keeps σ' → R σ' σ'' → R σ σ'')
    {a : Attempt α} {b : Build α} {f : α → Attempt β} {g : α → Build β} (ha : Adds a b)
    (hf : ∀ x σ, Ends R σ ((f x).outcome σ) ((g x).run σ)) (σ : Store) :
    Ends R σ ((a >>= f).outcome σ) ((b >>= g).run σ) := by
  have hfirst := ha σ
  rw [outcome_bind, StateT.run_bind]
  generalize a.outcome σ = out at hfirst
  generalize b.run σ = result at hfirst
  cases hfirst with
  | failed hkeeps => exact .failed hkeeps
  | @done x σ' hkeeps =>
      have hsecond := hf x σ'
      change Ends R σ ((f x).outcome σ') ((g x).run σ')
      generalize (f x).outcome σ' = out at hsecond
      generalize (g x).run σ' = result at hsecond
      cases hsecond with
      | done h => exact .done (hR _ _ _ hkeeps h)
      | failed h => exact .failed (hkeeps.trans h)

namespace Adds

theorem pure (x : α) : Adds (Pure.pure x) (Pure.pure x) :=
  fun σ => .done (.refl σ)

theorem throw (e : Error) : Adds (throw e : Attempt α) (throw e) :=
  fun σ => .failed (.refl σ)

theorem bind {a : Attempt α} {b : Build α} {f : α → Attempt β} {g : α → Build β} (ha : Adds a b)
    (hf : ∀ x, Adds (f x) (g x)) : Adds (a >>= f) (b >>= g) :=
  Ends.bind (fun _ _ _ => .trans) ha hf

theorem map {a : Attempt α} {b : Build α} (f : α → β) (ha : Adds a b) :
    Adds (f <$> a) (f <$> b) := by
  rw [map_eq_pure_bind, map_eq_pure_bind]
  exact ha.bind fun x => .pure (f x)

theorem lift (x : Except Error α) : Adds (liftM x) (liftM x) := by
  intro σ
  cases x with
  | ok y => exact .done (.refl σ)
  | error e => exact .failed (.refl σ)

theorem read (f : Store → α) : Adds (do return f (← get)) (do return f (← get)) :=
  fun σ => .done (.refl σ)

theorem modifyGet {f : Store → α × Store} (h : ∀ σ : Store, σ.Keeps (f σ).2) :
    Adds (MonadStateOf.modifyGet f) (MonadStateOf.modifyGet f) :=
  fun σ => .done (h σ)

theorem newId : Adds Attempt.newId Build.newId :=
  .modifyGet fun σ => .refl σ

theorem newRecord (entries : List (String × Value)) :
    Adds (Attempt.newRecord entries) (Build.newRecord entries) :=
  newId.bind fun id => .pure (Value.record id entries)

theorem newInstance (t : ValueType) {slots : Attempt (List Value)} {slots' : Build (List Value)}
    (h : Adds slots slots') : Adds (Attempt.newInstance t slots) (Build.newInstance t slots') :=
  h.bind fun vs => newId.bind fun id => .pure (Instance.mk id t vs)

theorem newStruct (s : StructType) {slots : Attempt (List Value)} {slots' : Build (List Value)}
    (h : Adds slots slots') : Adds (Attempt.newStruct s slots) (Build.newStruct s slots') :=
  h.bind fun vs => .modifyGet fun σ => σ.keeps_push ⟨s, vs⟩

theorem follows {a : Attempt α} {b : Build α} (h : Adds a b) : Follows a b := by
  intro σ
  have hends := h σ
  generalize a.outcome σ = out at hends ⊢
  generalize b.run σ = result at hends ⊢
  cases hends with
  | done _ => exact .done trivial
  | failed hkeeps => exact .failed hkeeps

/-- What only adds structs can come before any attempt. -/
theorem bind_follows {a : Attempt α} {b : Build α} {f : α → Attempt β} {g : α → Build β}
    (ha : Adds a b) (hf : ∀ x, Follows (f x) (g x)) : Follows (a >>= f) (b >>= g) :=
  Ends.bind (fun _ _ _ _ _ => trivial) ha hf

end Adds

theorem Follows.write (s : StructInstance) (index : Nat) (v : Value) :
    Follows (Attempt.write s index v) (Build.write s index v) :=
  fun _ => .done trivial

end Attempt

end ValueTypes
