import ValueTypes.Proofs.Item
import ValueTypes.Realms

/-! Runs of operations over any number of realms. Callers hold what operations have handed them,
and values without parts; they can put any of it into further operations, in any order. Code of
callers, such as the body of a method, shows in a run as the operations that it performs. -/

namespace ValueTypes

/-! ### Operations -/

/-- What can be read off an item: the schema of a type, the types and defaults of fields, the type
of an object and its present values. -/
def Item.parts (store : Store) : Item → List Item
  | .type (.value t) => (t.schema?.map Item.schema).toList
  | .type (.struct s) => [.schema s.schema]
  | .schema s =>
    s.fields.flatMap fun f => .type f.type :: (f.default.map Item.value).toList
  | .value (.record _ entries) => entries.map fun e => .value e.2
  | .value (.inst i) => .type (.value i.type) :: i.slots.map .value
  | .value (.struct s) =>
    .type (.struct s.type) :: (store.cell? s).elim [] fun cell => cell.slots.map .value
  | _ => []

/-- The items that a field is drafted from. -/
def FieldDraft.items (draft : FieldDraft) : List Item :=
  .type draft.type :: (draft.default.map Item.value).toList

/-- The items that a source is made of. -/
def Source.items : Source → List Item
  | record entries => entries.map fun e => .value e.2
  | inst i => [.value (.inst i)]
  | struct s => [.value (.struct s)]

/-- A call from outside. -/
inductive Operation (μ : Type) where
  | newSymbol (description : Option String)
  | newTable
  | symbolFor (table : TableId) (key : String)
  | newRealm (config : RealmConfig) (table : TableId)
  | makeSchema (realm : RealmId) (kind : SchemaKind) (drafts : List FieldDraft)
  | makeArraySchema (realm : RealmId) (kind : SchemaKind) (element : FieldType) (length : Nat)
  | intern (realm : RealmId) (draft : Draft)
  | valueType (realm : RealmId) (symbol : Symbol) (drafts : List FieldDraft)
  | arrayType (realm : RealmId) (symbol : Symbol) (element : FieldType) (length : Nat)
  | structType (realm : RealmId) (name : String) (drafts : List FieldDraft)
  | attach (realm : RealmId) (type : ValueType) (methods : MethodTable μ)
  | definitions (realm : RealmId)
  | newRecord (entries : List (String × Value))
  | construct (type : ValueType) (source : Option Source)
  | constructStruct (type : StructType) (source : Option Source)
  | coerce (type : ValueType) (v : Value)
  | setProperty (target : Value) (name : String) (v : Value)
  | inspect (item : Item)

namespace Operation

variable {μ : Type}

/-- The items that the caller puts into an operation. -/
def uses : Operation μ → List Item
  | newSymbol _ => []
  | newTable => []
  | symbolFor table _ => [.table table]
  | newRealm _ table => [.table table]
  | makeSchema realm _ drafts => .realm realm :: drafts.flatMap (·.items)
  | makeArraySchema realm _ element _ => [.realm realm, .type element]
  | intern realm draft => [.realm realm, .schema draft.schema]
  | valueType realm _ drafts => .realm realm :: drafts.flatMap (·.items)
  | arrayType realm _ element _ => [.realm realm, .type element]
  | structType realm _ drafts => .realm realm :: drafts.flatMap (·.items)
  | attach realm type _ => [.realm realm, .type (.value type)]
  | definitions realm => [.realm realm]
  | newRecord entries => entries.map fun e => .value e.2
  | construct type source => .type (.value type) :: source.elim [] (·.items)
  | constructStruct type source => .type (.struct type) :: source.elim [] (·.items)
  | coerce type v => [.type (.value type), .value v]
  | setProperty target _ v => [.value target, .value v]
  | inspect item => [item]

/-- Hands out what a result consists of. -/
def hand {α : Type} (items : α → List Item) (r : Except Error α × Realms μ) :
    Except Error (List Item) × Realms μ :=
  (r.1.map items, r.2)

/-- Performs an operation: what it hands out, or how it fails, and the realms it leaves behind. -/
def run (rs : Realms μ) : Operation μ → Except Error (List Item) × Realms μ
  | newSymbol description =>
    let (s, rs) := rs.newSymbol description
    (.ok [.symbol s], rs)
  | newTable =>
    let (table, rs) := rs.newTable
    (.ok [.table table], rs)
  | symbolFor table key =>
    let (s, rs) := rs.symbolFor table key
    (.ok [.symbol s], rs)
  | newRealm config table =>
    let (realm, rs) := rs.newRealm config table
    (.ok [.realm realm], rs)
  | makeSchema realm kind drafts =>
    hand (fun schema => [.schema schema]) (rs.build ((rs.realm realm).makeSchema kind drafts))
  | makeArraySchema realm kind element length =>
    hand (fun schema => [.schema schema])
      (rs.build ((rs.realm realm).makeArraySchema kind element length))
  | intern realm draft => hand (fun t => [.type (.value t)]) (rs.intern realm draft)
  | valueType realm symbol drafts =>
    hand (fun t => [.type (.value t)]) (rs.valueType realm symbol drafts)
  | arrayType realm symbol element length =>
    hand (fun t => [.type (.value t)]) (rs.arrayType realm symbol element length)
  | structType realm name drafts =>
    hand (fun s => [.type (.struct s)]) (rs.structType realm name drafts)
  | attach realm type methods => hand (fun _ => []) (rs.attach realm type methods)
  | definitions realm =>
    (.ok ((rs.realm realm).registry.definitions.map fun t => .type (.value t)), rs)
  | newRecord entries => hand (fun v => [.value v]) (rs.build (Build.newRecord entries))
  | construct type source =>
    hand (fun i => [.value (.inst i)]) (rs.build (type.construct source))
  | constructStruct type source =>
    hand (fun s => [.value (.struct s)]) (rs.build (type.construct source))
  | coerce type v => hand (fun v => [.value v]) (rs.build (type.coerce v))
  | setProperty target name v =>
    hand (fun _ => []) (rs.build (ValueTypes.setProperty target name v))
  | inspect item => (.ok (item.parts rs.store), rs)

end Operation

/-! ### Runs -/

/-- An operation that was performed, and its answer. -/
structure Event (μ : Type) where
  operation : Operation μ
  answer : Except Error (List Item)

/-- All realms, and what happened so far, the last event first. -/
structure World (μ : Type) where
  realms : Realms μ
  log : List (Event μ)

namespace World

variable {μ : Type}

/-- The world before the first operation. -/
def start (hashing : Hashing) : World μ :=
  ⟨{ hashing := hashing }, []⟩

/-- Whether an operation was performed and handed out the given items. -/
def Answered (w : World μ) (op : Operation μ) (items : List Item) : Prop :=
  ⟨op, .ok items⟩ ∈ w.log

/-- Whether an item was handed out. -/
def Gave (w : World μ) (x : Item) : Prop :=
  ∃ op items, w.Answered op items ∧ x ∈ items

/-- Whether a caller can have an item. -/
inductive Holds (w : World μ) : Item → Prop where
  | plain {v} (h : v.Plain) : Holds w (.value v)
  | given {x} (h : w.Gave x) : Holds w x

/-- Whether callers can have all that an operation asks for. -/
def Admits (w : World μ) (op : Operation μ) : Prop :=
  ∀ x ∈ op.uses, w.Holds x

/-- Performs one operation. -/
def perform (w : World μ) (op : Operation μ) : World μ :=
  ⟨(op.run w.realms).2, ⟨op, (op.run w.realms).1⟩ :: w.log⟩

/-- Whether a run leads from one world to another. -/
inductive Leads (w : World μ) : World μ → Prop where
  | refl : Leads w w
  | step {w'} (run : Leads w w') (op) (admits : w'.Admits op) : Leads w (w'.perform op)

/-- Whether a world comes about in a run from the start. -/
def Reachable (w : World μ) : Prop :=
  ∃ hashing, (start hashing).Leads w

theorem Leads.trans {w w' w'' : World μ} (h : w.Leads w') (h' : w'.Leads w'') :
    w.Leads w'' := by
  induction h' with
  | refl => exact h
  | step _ op admits ih => exact .step ih op admits

theorem Reachable.leads {w w' : World μ} (hw : w.Reachable) (h : w.Leads w') : w'.Reachable := by
  rcases hw with ⟨hashing, hrun⟩
  exact ⟨hashing, hrun.trans h⟩

theorem Answered.perform {w : World μ} {op : Operation μ} {items : List Item}
    (h : w.Answered op items) (op' : Operation μ) : (w.perform op').Answered op items :=
  List.mem_cons_of_mem _ h

theorem answered_perform_iff {w : World μ} {op op' : Operation μ} {items : List Item} :
    (w.perform op).Answered op' items ↔
      op' = op ∧ (op.run w.realms).1 = .ok items ∨ w.Answered op' items := by
  rw [Answered, perform, List.mem_cons, Event.mk.injEq, eq_comm (a := Except.ok items), Answered]

/-- Nothing that happened is forgotten. -/
theorem Answered.leads {w w' : World μ} {op : Operation μ} {items : List Item}
    (h : w.Answered op items) (hrun : w.Leads w') : w'.Answered op items := by
  induction hrun with
  | refl => exact h
  | step _ op' _ ih => exact ih.perform op'

theorem Gave.leads {w w' : World μ} {x : Item} (h : w.Gave x) (hrun : w.Leads w') :
    w'.Gave x := by
  rcases h with ⟨op, items, hanswer, hx⟩
  exact ⟨op, items, hanswer.leads hrun, hx⟩

theorem Holds.leads {w w' : World μ} {x : Item} (h : w.Holds x) (hrun : w.Leads w') :
    w'.Holds x := by
  cases h with
  | plain h => exact .plain h
  | given h => exact .given (h.leads hrun)

theorem gave_at {w : World μ} (j k : Nat) {op : Operation μ} {items : List Item} {x : Item}
    (hlog : w.log[j]? = some ⟨op, .ok items⟩) (hx : items[k]? = some x) : w.Gave x :=
  ⟨op, items, List.mem_of_getElem? hlog, List.mem_of_getElem? hx⟩

theorem gave_of_run {w : World μ} {op : Operation μ} {items : List Item}
    (h : (op.run w.realms).1 = .ok items) : ∀ x ∈ items, (w.perform op).Gave x := by
  intro x hx
  refine ⟨op, items, ?_, hx⟩
  rw [Answered, perform, h]
  exact List.mem_cons_self ..

end World

end ValueTypes
