import ValueTypes.Proofs.Lenient.Content
import ValueTypes.Proofs.Lenient.Realms
import ValueTypes.Session.Run

/-! Parts of commands in relaxed sessions, where all realms are lenient and names stand for what
corresponds. A part that gives a result gives the corresponding one there. -/

namespace ValueTypes

open Realms

/-! ### Relaxed sessions -/

/-- What a name stands for where all realms are lenient. -/
def Binding.relax : Binding → Binding
  | .valueType t => .valueType t.relax
  | .structType s => .structType s.relax
  | .schema s => .schema s.relax
  | .draft d => .draft d.relax
  | .value v => .value v.relax
  | .method m => .method m.relax
  | .realm id => .realm id
  | .table id => .table id
  | .symbol s => .symbol s

/-- Whether a binding that stands for a realm stands for one of the first `n`. -/
def Binding.Numbered (n : Nat) : Binding → Prop
  | .realm id => Numbers n id
  | _ => True

theorem Binding.Numbered.mono {n n' : Nat} (h : n ≤ n') {b : Binding} (hb : b.Numbered n) :
    b.Numbered n' := by
  cases b with
  | realm id => exact Numbers.mono h hb
  | _ => trivial

namespace Session

def relax (s : Session) : Session :=
  ⟨s.realms.relax, s.bindings.map fun entry => (entry.1, entry.2.relax)⟩

/-- Whether there are `n` realms at least, and names stand for no others. -/
structure Bounded (n : Nat) (s : Session) : Prop where
  size : n ≤ s.realms.members.size
  bindings : ∀ name b, s.bindings.lookup name = some b → b.Numbered n

@[simp]
theorem relax_realms (s : Session) : s.relax.realms = s.realms.relax := rfl

theorem relax_lookup (s : Session) (name : String) :
    s.relax.bindings.lookup name = (s.bindings.lookup name).map Binding.relax :=
  Entries.lookup_map Binding.relax s.bindings name

end Session

/-! ### Parts of commands that correspond -/

namespace Script

variable {α β γ δ : Type}

/-- A sequence gives a result if both of its parts do. -/
theorem bind_eq_ok {x : Script α} {f : α → Script β} {s s'' : Session} {c : β}
    (h : (x >>= f).run.run s = (.ok c, s'')) :
    ∃ a s', x.run.run s = (.ok a, s') ∧ (f a).run.run s' = (.ok c, s'') := by
  rw [ExceptT.run_bind, StateT.run_bind] at h
  rcases hx : x.run.run s with ⟨e | a, s'⟩
  · rw [hx] at h
    cases h
  · rw [hx] at h
    exact ⟨a, s', rfl, h⟩

theorem run_bind_of_ok {x : Script α} {f : α → Script β} {s s' : Session} {a : α}
    (h : x.run.run s = (.ok a, s')) : (x >>= f).run.run s = (f a).run.run s' := by
  rw [ExceptT.run_bind, StateT.run_bind, h]
  rfl

theorem run_update (f : Realms MethodBody → α × Realms MethodBody) (s : Session) :
    (update f).run.run s = (.ok (f s.realms).1, { s with realms := (f s.realms).2 }) := rfl

/-- Whenever `x` gives a result for which `G` holds, in a session with realms up to `n`, then `x'`
gives the corresponding one in the relaxed session. Names stand for realms up to some `n'` then, and
`Q` holds of it and of the result. -/
def Relaxes (n : Nat) (x : Script α) (x' : Script β) (r : α → β)
    (Q : Nat → α → Prop := fun _ _ => True) (G : α → Prop := fun _ => True) : Prop :=
  ∀ s a s', s.Bounded n → x.run.run s = (.ok a, s') → G a →
    x'.run.run s.relax = (.ok (r a), s'.relax) ∧ ∃ n', n ≤ n' ∧ s'.Bounded n' ∧ Q n' a

namespace Relaxes

variable {n : Nat} {r : α → β} {q : γ → δ} {P : Nat → α → Prop} {Q : Nat → γ → Prop}
  {F : α → Prop} {G : γ → Prop}

theorem pure {a : α} {a' : β} (h : a' = r a) (ha : P n a) :
    Relaxes n (Pure.pure a) (Pure.pure a') r P F := by
  intro s a'' s' hs hrun _
  cases hrun
  exact ⟨by rw [h]; rfl, n, Nat.le_refl n, hs, ha⟩

theorem throw (e : Failure) (x' : Script β) : Relaxes n (throw e : Script α) x' r P F := by
  intro s a s' _ hrun
  cases hrun

theorem bind {x : Script α} {x' : Script β} {f : α → Script γ} {f' : β → Script δ}
    (hx : Relaxes n x x' r P)
    (hf : ∀ {n'}, n ≤ n' → ∀ a, P n' a → Relaxes n' (f a) (f' (r a)) q Q G) :
    Relaxes n (x >>= f) (x' >>= f') q Q G := by
  intro s c s'' hs hrun hc
  obtain ⟨a, s', hstep, hrest⟩ := bind_eq_ok hrun
  obtain ⟨hstep', n', hn', hs', ha⟩ := hx s a s' hs hstep trivial
  obtain ⟨hrest', n'', hn'', hs'', hQ⟩ := hf hn' a ha s' c s'' hs' hrest hc
  rw [run_bind_of_ok hstep']
  exact ⟨hrest', n'', Nat.le_trans hn' hn'', hs'', hQ⟩

/-- A sequence whose second part asks nothing of the first but its result. -/
theorem andThen {x : Script α} {x' : Script β} {f : α → Script γ} {f' : β → Script δ}
    (hx : Relaxes n x x' r P) (hf : ∀ {n'} a, Relaxes n' (f a) (f' (r a)) q Q G) :
    Relaxes n (x >>= f) (x' >>= f') q Q G :=
  hx.bind fun _ a _ => hf a

theorem map {x : Script α} {x' : Script β} {f : α → γ} {f' : β → δ} (hx : Relaxes n x x' r P)
    (hf : ∀ a, f' (r a) = q (f a)) : Relaxes n (f <$> x) (f' <$> x') q := by
  rw [map_eq_pure_bind, map_eq_pure_bind]
  exact hx.andThen fun a => .pure (hf a) trivial

/-- Reading of the session. -/
theorem get : Relaxes n (MonadState.get : Script Session) MonadState.get Session.relax
    fun n' s => s.Bounded n' := by
  intro s a s' hs hrun _
  cases hrun
  exact ⟨rfl, n, Nat.le_refl n, hs, hs⟩

/-- An action on the realms that cannot fail, and leaves no fewer of them. -/
theorem update {f : Realms MethodBody → α × Realms MethodBody}
    {f' : Realms MethodBody → β × Realms MethodBody}
    (h : ∀ rs : Realms MethodBody, n ≤ rs.members.size →
      f' rs.relax = (r (f rs).1, (f rs).2.relax) ∧ n ≤ (f rs).2.members.size) :
    Relaxes n (Script.update f) (Script.update f') r := by
  intro s a s' hs hrun _
  cases hrun
  obtain ⟨hf, hsize⟩ := h s.realms hs.size
  rw [run_update, Session.relax_realms, hf]
  exact ⟨rfl, n, Nat.le_refl n, ⟨hsize, hs.bindings⟩, trivial⟩

/-- A new realm is one of those that names stand for from then on. -/
theorem newRealm (config : RealmConfig) (table : TableId) :
    Relaxes n (Script.update fun rs => rs.newRealm config table)
      (Script.update fun rs => rs.newRealm config.relax table) (fun id => id)
      fun n' id => Numbers n' id := by
  intro s id s' hs hrun _
  cases hrun
  have hsize : (s.realms.newRealm config table).2.members.size = s.realms.members.size + 1 :=
    Array.size_push ..
  have hle : n ≤ s.realms.members.size + 1 := Nat.le_succ_of_le hs.size
  rw [run_update, Session.relax_realms, relax_newRealm]
  refine ⟨rfl, s.realms.members.size + 1, hle, ⟨hsize.ge, fun name b hb => ?_⟩, ?_⟩
  · exact (hs.bindings name b hb).mono hle
  · exact ⟨Nat.succ_pos _, Nat.le_refl _⟩

/-- An action on the realms that can fail. -/
theorem act {f : Realms MethodBody → Except Error α × Realms MethodBody}
    {f' : Realms MethodBody → Except Error β × Realms MethodBody}
    (h : ∀ rs : Realms MethodBody, n ≤ rs.members.size →
      Realms.Relaxes n (f rs) (f' rs.relax) r) :
    Relaxes n (Script.act f) (Script.act f') r := by
  intro s a s'' hs hrun _
  obtain ⟨result, s', hupdate, hrest⟩ := bind_eq_ok hrun
  rw [run_update] at hupdate
  rcases hf : f s.realms with ⟨e | a', rs⟩
  · rw [hf] at hupdate
    cases hupdate
    cases hrest
  · rw [hf] at hupdate
    cases hupdate
    cases hrest
    obtain ⟨hf', hsize⟩ := h s.realms hs.size _ rs hf
    have hupdate' := run_update f' s.relax
    rw [Session.relax_realms, hf'] at hupdate'
    rw [Script.act, run_bind_of_ok hupdate']
    exact ⟨rfl, n, Nat.le_refl n, ⟨hsize, hs.bindings⟩, trivial⟩

theorem build {b : Build α} {b' : Build β} (h : b.Relaxes b' r) :
    Relaxes n (Script.build b) (Script.build b') r :=
  act fun _ hn => build_relaxes hn h

theorem store : Relaxes n Script.store Script.store Store.relax :=
  get.andThen fun _ => pure rfl trivial

theorem content (v : Value) :
    Relaxes n (Script.content v) (Script.content v.relax) fun c => c :=
  store.andThen fun store => pure (store.content_relax v) trivial

/-! ### Names of each sort -/

theorem find (name : String) :
    Relaxes n (Script.find name) (Script.find name) Binding.relax fun n' b => b.Numbered n' := by
  refine get.bind fun _ s hs => ?_
  rw [Session.relax_lookup]
  cases hb : s.bindings.lookup name with
  | some b => exact pure rfl (hs.bindings name b hb)
  | none => exact throw _ _

theorem realmId (name : String) :
    Relaxes n (Script.realmId name) (Script.realmId name) (fun id => id)
      fun n' id => Numbers n' id := by
  refine (find name).bind fun _ b hb => ?_
  cases b with
  | realm id => exact pure rfl hb
  | _ => exact throw _ _

theorem realm (name : String) :
    Relaxes n (Script.realm name) (Script.realm name) Realm.relax := by
  refine (realmId name).bind fun _ id hid => get.bind fun hn'' s hs => ?_
  exact pure (relax_realm hs.size (hid.mono hn'')) trivial

theorem table (name : String) :
    Relaxes n (Script.table name) (Script.table name) fun id => id := by
  refine (find name).bind fun _ b hb => ?_
  cases b with
  | table id => exact pure rfl trivial
  | realm id =>
      refine get.bind fun hn'' s hs => pure ?_ trivial
      exact (congrArg Realm.table (relax_realm hs.size (Numbers.mono hn'' hb))).trans rfl
  | _ => exact throw _ _

theorem symbol (name : String) :
    Relaxes n (Script.symbol name) (Script.symbol name) fun s => s := by
  refine (find name).andThen fun b => ?_
  cases b with
  | symbol s => exact pure rfl trivial
  | valueType t => exact pure t.relax_symbol trivial
  | value v =>
      cases v with
      | symbol s => exact pure rfl trivial
      | _ => exact throw _ _
  | _ => exact throw _ _

theorem schema (name : String) :
    Relaxes n (Script.schema name) (Script.schema name) Schema.relax := by
  refine (find name).andThen fun b => ?_
  cases b with
  | schema s => exact pure rfl trivial
  | structType s => exact pure s.relax_schema trivial
  | valueType t =>
      dsimp only [Binding.relax]
      rw [ValueType.relax_schema?]
      cases t.schema? with
      | some schema => exact pure rfl trivial
      | none => exact throw _ _
  | _ => exact throw _ _

theorem draft (name : String) :
    Relaxes n (Script.draft name) (Script.draft name) Draft.relax := by
  refine (find name).andThen fun b => ?_
  cases b with
  | draft d => exact pure rfl trivial
  | _ => exact throw _ _

theorem definition (name : String) :
    Relaxes n (Script.definition name) (Script.definition name) Definition.relax := by
  refine (find name).andThen fun b => ?_
  cases b with
  | valueType t => exact pure rfl trivial
  | draft d => exact pure rfl trivial
  | _ => exact throw _ _

theorem method (name : String) :
    Relaxes n (Script.method name) (Script.method name) BoundMethod.relax := by
  refine (find name).andThen fun b => ?_
  cases b with
  | method m => exact pure rfl trivial
  | _ => exact throw _ _

theorem fieldType (realmName name : String) :
    Relaxes n (Script.fieldType realmName name) (Script.fieldType realmName name)
      FieldType.relax := by
  refine get.andThen fun s => ?_
  rw [Session.relax_lookup]
  cases s.bindings.lookup name with
  | some b =>
      cases b with
      | valueType t => exact pure rfl trivial
      | structType s => exact pure rfl trivial
      | _ => exact throw _ _
  | none =>
      refine (realm realmName).andThen fun realm => ?_
      rw [realm.relax_primitiveOfName?]
      cases realm.primitiveOfName? name with
      | some t => exact pure rfl trivial
      | none => exact throw _ _

theorem valueType (realmName name : String) :
    Relaxes n (Script.valueType realmName name) (Script.valueType realmName name)
      ValueType.relax := by
  refine (fieldType realmName name).andThen fun type => ?_
  cases type with
  | value t => exact pure rfl trivial
  | struct s => exact throw _ _

/-! ### Values -/

mutual

/-- Expressions stand for corresponding values. -/
theorem eval : ∀ (e : Expr) {n : Nat}, Relaxes n e.eval e.eval Value.relax
  | .record entries, _ => by
    refine (evalEntries entries).andThen fun pairs => build ?_
    have hpairs : Entries.ofPairs (pairs.map relaxEntry) =
        (Entries.ofPairs pairs).map relaxEntry := Entries.ofPairs_map Value.relax pairs
    rw [hpairs]
    exact .newRecord _
  | .symbol name, _ => (symbol name).andThen fun _ => pure rfl trivial
  | .ref name, _ => by
    refine (find name).andThen fun b => ?_
    cases b with
    | value v => exact pure rfl trivial
    | symbol s => exact pure rfl trivial
    | _ => exact throw _ _
  | .undefined, _ => pure rfl trivial
  | .bool _, _ => pure rfl trivial
  | .int _, _ => pure rfl trivial
  | .float _, _ => pure rfl trivial
  | .str _, _ => pure rfl trivial
termination_by structural e => e

theorem evalEntries : ∀ (entries : List (String × Expr)) {n : Nat},
    Relaxes n (ValueTypes.evalEntries entries) (ValueTypes.evalEntries entries)
      (List.map relaxEntry)
  | [], _ => pure rfl trivial
  | (_, e) :: entries, _ =>
    (eval e).andThen fun _ => (evalEntries entries).andThen fun _ => pure rfl trivial
termination_by structural entries => entries

end

theorem evalAll (es : List Expr) :
    Relaxes n (ValueTypes.evalAll es) (ValueTypes.evalAll es) (List.map Value.relax) := by
  induction es generalizing n with
  | nil => exact pure rfl trivial
  | cons e es ih =>
      exact (eval e).andThen fun v => ih.andThen fun vs => pure rfl trivial

theorem evalInstance (e : Expr) : Relaxes n e.evalInstance e.evalInstance Instance.relax := by
  refine (eval e).andThen fun v => ?_
  cases v with
  | inst i => exact pure rfl trivial
  | _ => exact throw _ _

theorem evalSource (e : Expr) : Relaxes n e.evalSource e.evalSource Source.relax := by
  refine (eval e).andThen fun v => ?_
  rw [Source.ofValue?_relax]
  cases Source.ofValue? v with
  | some source => exact pure rfl trivial
  | none => exact throw _ _

end Relaxes

end Script

end ValueTypes
