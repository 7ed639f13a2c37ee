import ValueTypes.Proofs.World.Interning

/-! Requests for value types. To ask for the type of some fields, or for one of arrays, is to ask for
a schema and then for the definition of its draft. So every run has a counterpart in which callers
take both steps themselves, and what is so of drafts that are interned is so of these requests. -/

namespace ValueTypes

variable {μ : Type}

/-! ### One request -/

/-- Whether an operation asks a realm for the value type of a symbol, and which operation asks for
the schema alone. -/
inductive Operation.Request (id : RealmId) : Operation μ → Symbol → Operation μ → Prop where
  | valueType (symbol drafts) :
      Request id (.valueType id symbol drafts) symbol (.makeSchema id .value drafts)
  | arrayType (symbol element length) :
      Request id (.arrayType id symbol element length) symbol
        (.makeArraySchema id .value element length)

namespace Operation.Request

variable {id : RealmId} {op first : Operation μ} {symbol : Symbol}

theorem uses_eq (h : Request id op symbol first) : first.uses = op.uses := by
  cases h <;> rfl

theorem realm_mem (h : Request id op symbol first) : .realm id ∈ op.uses := by
  cases h <;> exact List.mem_cons_self ..

/-- An operation asks for one thing at most. -/
theorem unique {id' : RealmId} {symbol' : Symbol} {first' : Operation μ}
    (h : Request id op symbol first) (h' : Request id' op symbol' first') :
    id' = id ∧ symbol' = symbol ∧ first' = first := by
  cases h <;> cases h' <;> exact ⟨rfl, rfl, rfl⟩

/-- A request fails as the one for its schema does, or comes to interning the draft of that. -/
theorem run_eq (h : Request id op symbol first) (rs : Realms μ) :
    (∃ e, (first.run rs).1 = .error e ∧ op.run rs = (.error e, (first.run rs).2)) ∨
    ∃ s, (first.run rs).1 = .ok [.schema s] ∧
      op.run rs = (Operation.intern id ⟨symbol, s⟩).run (first.run rs).2 := by
  have hrequest : ∃ schema,
      first.run rs = hand (fun s => [.schema s]) (rs.build schema) ∧
      op.run rs = hand (fun t => [.type (.value t)]) (rs.internSchema id symbol schema) := by
    cases h with
    | valueType => exact ⟨_, rfl, rfl⟩
    | arrayType => exact ⟨_, rfl, rfl⟩
  rcases hrequest with ⟨schema, hfirst, hop⟩
  rw [hfirst, hop]
  rcases Realms.internSchema_cases rs id symbol schema with
    ⟨e, rs', hbuild, hintern⟩ | ⟨s, rs', hbuild, hintern⟩
  · rw [hbuild, hintern]
    exact .inl ⟨e, rfl, rfl⟩
  · rw [hbuild, hintern]
    exact .inr ⟨s, rfl, rfl⟩

end Operation.Request

/-! ### Runs in smaller steps -/

namespace World

/-- Whether an answer was given: to a request for a value type in two steps, to any other operation
as it is. -/
inductive Spelled (w : World μ) (items : List Item) : Operation μ → Prop where
  | whole {op} (other : ∀ id symbol first, ¬op.Request id symbol first)
      (answer : w.Answered op items) : Spelled w items op
  | steps {op id symbol first s} (request : op.Request id symbol first)
      (schema : w.Answered first [.schema s]) (answer : w.Answered (.intern id ⟨symbol, s⟩) items) :
      Spelled w items op

theorem Spelled.leads {w w' : World μ} {items : List Item} {op : Operation μ}
    (h : w.Spelled items op) (hrun : w.Leads w') : w'.Spelled items op := by
  cases h with
  | whole other answer => exact .whole other (answer.leads hrun)
  | steps request schema answer => exact .steps request (schema.leads hrun) (answer.leads hrun)

theorem Spelled.of_request {w : World μ} {items : List Item} {op first : Operation μ}
    {id : RealmId} {symbol : Symbol} (h : w.Spelled items op) (hop : op.Request id symbol first) :
    ∃ s, w.Answered first [.schema s] ∧ w.Answered (.intern id ⟨symbol, s⟩) items := by
  cases h with
  | whole other => exact absurd hop (other id symbol first)
  | steps request schema answer =>
      rcases hop.unique request with ⟨rfl, rfl, rfl⟩
      exact ⟨_, schema, answer⟩

/-- Whether in one world all happened that happened in another, with each request for a value type
taken in two steps. -/
structure Spells (w w' : World μ) : Prop where
  realms : w'.realms = w.realms
  answered : ∀ op items, w.Answered op items → w'.Spelled items op

namespace Spells

variable {w w' : World μ}

theorem gave (h : w.Spells w') {x : Item} (hx : w.Gave x) : w'.Gave x := by
  rcases hx with ⟨op, items, hanswer, hx⟩
  cases h.answered op items hanswer with
  | whole _ answer => exact ⟨op, items, answer, hx⟩
  | steps _ _ answer => exact ⟨_, items, answer, hx⟩

theorem holds (h : w.Spells w') {x : Item} (hx : w.Holds x) : w'.Holds x := by
  cases hx with
  | plain hx => exact .plain hx
  | given hx => exact .given (h.gave hx)

/-- An operation is matched by a run that leaves the same realms behind and gives its answer. -/
theorem perform (h : w.Spells w') {op : Operation μ} {w'' : World μ} (hrun : w'.Leads w'')
    (hrealms : w''.realms = (op.run w.realms).2)
    (hanswer : ∀ items, (op.run w.realms).1 = .ok items → w''.Spelled items op) :
    (w.perform op).Spells w'' where
  realms := hrealms
  answered op' items hanswered := by
    rcases answered_perform_iff.mp hanswered with ⟨rfl, hnew⟩ | hold
    · exact hanswer items hnew
    · exact (h.answered op' items hold).leads hrun

/-- Each operation has its counterpart in one step or in two. -/
theorem step (h : w.Spells w') {op : Operation μ} (admits : w.Admits op) :
    ∃ w'', w'.Leads w'' ∧ (w.perform op).Spells w'' := by
  by_cases hop : ∃ id symbol first, op.Request id symbol first
  · rcases hop with ⟨id, symbol, first, hop⟩
    have hfirst : w'.Leads (w'.perform first) := by
      refine .step .refl first fun x hx => h.holds (admits x ?_)
      rwa [hop.uses_eq] at hx
    rcases hop.run_eq w.realms with ⟨e, _, hop_run⟩ | ⟨s, hschema, hop_run⟩
    · refine ⟨_, hfirst, h.perform hfirst ?_ fun items hitems => ?_⟩
      · rw [World.perform, hop_run, h.realms]
      · rw [hop_run] at hitems
        cases hitems
    · rw [← h.realms] at hschema hop_run
      have hgave : (w'.perform first).Gave (.schema s) :=
        gave_of_run hschema _ (List.mem_singleton.mpr rfl)
      have hsecond : w'.Leads ((w'.perform first).perform (.intern id ⟨symbol, s⟩)) := by
        refine .step hfirst _ (List.forall_mem_cons.mpr ⟨?_, ?_⟩)
        · exact (h.holds (admits _ hop.realm_mem)).leads hfirst
        · exact List.forall_mem_singleton.mpr (.given hgave)
      refine ⟨_, hsecond, h.perform hsecond ?_ fun items hitems => ?_⟩
      · rw [← h.realms, hop_run]
        rfl
      · rw [← h.realms, hop_run] at hitems
        exact .steps hop (answered_perform_iff.mpr (.inr (answered_perform_iff.mpr
          (.inl ⟨rfl, hschema⟩)))) (answered_perform_iff.mpr (.inl ⟨rfl, hitems⟩))
  · have hsame : w'.Leads (w'.perform op) :=
      .step .refl op fun x hx => h.holds (admits x hx)
    refine ⟨_, hsame, h.perform hsame ?_ fun items hitems => ?_⟩
    · rw [World.perform, h.realms]
    · rw [← h.realms] at hitems
      exact .whole (fun id symbol first hrequest => hop ⟨id, symbol, first, hrequest⟩)
        (answered_perform_iff.mpr (.inl ⟨rfl, hitems⟩))

end Spells

/-- Every run has a counterpart in which each request for a value type is taken in its two steps. -/
theorem Reachable.exists_spells {w : World μ} (hw : w.Reachable) :
    ∃ w', w'.Reachable ∧ w.Spells w' := by
  rcases hw with ⟨hashing, hrun⟩
  induction hrun with
  | refl =>
      exact ⟨start hashing, ⟨hashing, .refl⟩, ⟨rfl, fun _ _ h => nomatch h⟩⟩
  | step _ op admits ih =>
      rcases ih with ⟨w', hw', hspells⟩
      rcases hspells.step admits with ⟨w'', hrun', hspells'⟩
      exact ⟨w'', hw'.leads hrun', hspells'⟩

/-- Requests for value types are canonical as interning is: of two of them in a run, each gets the
definition of a draft, made of the schema that it asks for, and both get the same exactly if these
drafts are equivalent. -/
theorem requests_canonical {w : World μ} (hw : w.Reachable) {id : RealmId}
    (hid : w.Gave (.realm id)) {op op' first first' : Operation μ} {symbol symbol' : Symbol}
    (hop : op.Request id symbol first) (hop' : op'.Request id symbol' first') {t t' : ValueType}
    (ht : w.Answered op [.type (.value t)]) (ht' : w.Answered op' [.type (.value t')]) :
    ∃ w' s s', w'.Reachable ∧ w.Spells w' ∧
      w'.Answered first [.schema s] ∧ w'.Answered (.intern id ⟨symbol, s⟩) [.type (.value t)] ∧
      w'.Answered first' [.schema s'] ∧ w'.Answered (.intern id ⟨symbol', s'⟩) [.type (.value t')] ∧
      (t.same t' = true ↔
        (Definition.draft ⟨symbol, s⟩).equivalent (.draft ⟨symbol', s'⟩) = true) := by
  rcases hw.exists_spells with ⟨w', hw', hspells⟩
  have hsound := hw'.sound
  have hwf := hsound.realms.registry (hsound.gave _ (hspells.gave hid)).realm_of
  rcases (hspells.answered _ _ ht).of_request hop with ⟨s, hschema, hintern⟩
  rcases (hspells.answered _ _ ht').of_request hop' with ⟨s', hschema', hintern'⟩
  exact ⟨w', s, s', hw', hspells, hschema, hintern, hschema', hintern',
    (hsound.resolves hintern).same_iff_equivalent hwf (hsound.resolves hintern')⟩

end World

end ValueTypes
