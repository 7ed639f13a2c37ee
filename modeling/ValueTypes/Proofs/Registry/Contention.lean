import ValueTypes.Proofs.World.Interning

/-! Concurrent interning. A call has three atomic phases: the check of the draft, a first look-up
under the read lock, and a second one together with the registration under the write lock. Any
number of callers can be in any phase, and what the first look-up found may be out of date by the
time of the second. -/

namespace ValueTypes

/-- How far a call has come. -/
inductive Phase where
  | entered
  | checked
  | missed
  | finished (answer : Except Error ValueType)

/-- A call that interns a draft. -/
structure Call where
  draft : Draft
  phase : Phase

namespace Call

variable {μ : Type}

/-- Performs the next phase of a call. -/
def advance (c : Call) (r : Registry μ) : Call × Registry μ :=
  match c.phase with
  | .entered =>
    match r.check c.draft with
    | .error e => (⟨c.draft, .finished (.error e)⟩, r)
    | .ok () => (⟨c.draft, .checked⟩, r)
  | .checked =>
    match r.find? c.draft with
    | some t => (⟨c.draft, .finished (.ok t)⟩, r)
    | none => (⟨c.draft, .missed⟩, r)
  | .missed =>
    let (t, r) := r.registerUnlessPresent c.draft
    (⟨c.draft, .finished (.ok t)⟩, r)
  | .finished _ => (c, r)

/-- A call that nothing comes between interns its draft. -/
theorem advance_thrice (r : Registry μ) (d : Draft) :
    (fun p : Call × Registry μ => p.1.advance p.2)^[3] (⟨d, .entered⟩, r) =
      match r.intern d with
      | .error e => (⟨d, .finished (.error e)⟩, r)
      | .ok (t, r) => (⟨d, .finished (.ok t)⟩, r) := by
  simp only [Function.iterate_succ, Function.iterate_zero, Function.comp, id, Registry.intern]
  cases hcheck : r.check d with
  | error e => simp only [advance, hcheck]
  | ok _ =>
      cases hfind : r.find? d with
      | some t => simp only [advance, hcheck, hfind]
      | none => simp only [advance, hcheck, hfind]

/-- What is true of a call at every moment: its draft is known to the registry until it is checked,
fits it from then on, and the answer is the definition that it stands for. -/
def Valid (c : Call) (r : Registry μ) : Prop :=
  match c.phase with
  | .entered => r.Knows c.draft
  | .checked | .missed => r.Fits c.draft
  | .finished (.error _) => True
  | .finished (.ok t) => r.Resolves c.draft t

end Call

namespace Registry

variable {μ : Type}

/-- Whether a registry has only been appended to. -/
structure Grows (r r' : Registry μ) : Prop where
  definitions : r.definitions <+: r'.definitions
  realm : r'.realm = r.realm

theorem Grows.refl (r : Registry μ) : r.Grows r :=
  ⟨List.prefix_refl _, rfl⟩

theorem Grows.trans {r r' r'' : Registry μ} (h : r.Grows r') (h' : r'.Grows r'') : r.Grows r'' :=
  ⟨h.definitions.trans h'.definitions, h'.realm.trans h.realm⟩

theorem Knows.mono {r r' : Registry μ} {d : Draft} (hd : r.Knows d) (h : r.Grows r') :
    r'.Knows d := by
  intro f hf u htype hrealm
  rw [h.realm] at hrealm
  exact h.definitions.subset (hd f hf u htype hrealm)

end Registry

namespace Call

variable {μ : Type} {c : Call} {r r' : Registry μ}

theorem Valid.mono (hc : c.Valid r) (h : r.Grows r') : c.Valid r' := by
  rw [Valid] at hc ⊢
  split at hc
  · exact hc.mono h
  · exact hc.mono h.definitions
  · exact hc.mono h.definitions
  · trivial
  · exact hc.mono h.definitions

/-- One phase keeps the registry well formed, only appends to it, and keeps the call valid, whatever
other calls have done since its last phase. -/
theorem Valid.advance (hr : r.WellFormed) (hc : c.Valid r) :
    (c.advance r).2.WellFormed ∧ r.Grows (c.advance r).2 ∧
      (c.advance r).1.Valid (c.advance r).2 := by
  rcases c with ⟨d, phase⟩
  cases phase with
  | entered =>
      rw [Call.advance]
      cases hcheck : r.check d with
      | error e => exact ⟨hr, .refl r, trivial⟩
      | ok _ => exact ⟨hr, .refl r, (Registry.check_eq_ok_iff hr hc).mp hcheck⟩
  | checked =>
      rw [Call.advance]
      cases hfind : r.find? d with
      | some t =>
          rcases Registry.find?_eq_some hr hc hfind with ⟨hmem, hshape⟩
          exact ⟨hr, .refl r, hc, hmem, hshape⟩
      | none => exact ⟨hr, .refl r, hc⟩
  | missed =>
      -- That the first look-up found nothing is not used: by now it may be out of date.
      have hanswers := Registry.registerUnlessPresent_answers hr (d := d) hc
      have hgrows : r.Grows (r.registerUnlessPresent d).2 :=
        ⟨hanswers.definitions_grow, hanswers.realm_eq⟩
      exact ⟨hanswers.wellFormed hr hc, hgrows, hanswers.resolves hc⟩
  | finished answer => exact ⟨hr, .refl r, hc⟩

end Call

/-! ### Interleavings -/

/-- A registry, and all calls that have come in so far. -/
structure Contention (μ : Type) where
  registry : Registry μ
  calls : List Call

namespace Contention

variable {μ : Type}

/-- What can happen next: another call comes in, whose draft is made of types that were handed out,
or some call performs its next phase. -/
inductive Step (s : Contention μ) : Contention μ → Prop where
  | enter (d) (known : s.registry.Knows d) : Step s ⟨s.registry, s.calls ++ [⟨d, .entered⟩]⟩
  | advance (k : Nat) (c) (h : s.calls[k]? = some c) :
      Step s ⟨(c.advance s.registry).2, s.calls.set k (c.advance s.registry).1⟩

/-- Whether one moment can come after another. -/
inductive Leads (s : Contention μ) : Contention μ → Prop where
  | refl : Leads s s
  | step {s' s''} (h : Leads s s') (hstep : s'.Step s'') : Leads s s''

/-- The invariant of interleavings. -/
structure Valid (s : Contention μ) : Prop where
  wellFormed : s.registry.WellFormed
  calls : ∀ c ∈ s.calls, c.Valid s.registry

variable {s s' : Contention μ}

theorem Valid.step (hs : s.Valid) (h : s.Step s') :
    s'.Valid ∧ s.registry.Grows s'.registry := by
  cases h with
  | enter d known =>
      refine ⟨⟨hs.wellFormed, fun c hc => ?_⟩, .refl _⟩
      rcases List.mem_append.mp hc with hc | hc
      · exact hs.calls c hc
      · rw [List.mem_singleton.mp hc]
        exact known
  | advance k c h =>
      rcases (hs.calls c (List.mem_of_getElem? h)).advance hs.wellFormed with ⟨hr, hgrows, hvalid⟩
      refine ⟨⟨hr, fun c' hc' => ?_⟩, hgrows⟩
      rcases List.mem_or_eq_of_mem_set hc' with hc' | rfl
      · exact (hs.calls c' hc').mono hgrows
      · exact hvalid

theorem Valid.leads (hs : s.Valid) (h : s.Leads s') : s'.Valid ∧ s.registry.Grows s'.registry := by
  induction h with
  | refl => exact ⟨hs, .refl _⟩
  | step _ hstep ih =>
      rcases ih with ⟨hs', hgrows⟩
      rcases hs'.step hstep with ⟨hs'', hgrows'⟩
      exact ⟨hs'', hgrows.trans hgrows'⟩

/-! ### Answers -/

/-- Whether some call for a draft has been answered with a definition. -/
def Answered (s : Contention μ) (d : Draft) (t : ValueType) : Prop :=
  ⟨d, .finished (.ok t)⟩ ∈ s.calls

/-- An answer is final. -/
theorem Answered.step {d : Draft} {t : ValueType} (h : s.Answered d t) (hstep : s.Step s') :
    s'.Answered d t := by
  rcases List.mem_iff_getElem?.mp h with ⟨k, hk⟩
  cases hstep with
  | enter => exact List.mem_append_left _ h
  | advance l c hl =>
      by_cases hkl : l = k
      · rw [hkl, hk] at hl
        cases hl
        rcases List.getElem?_eq_some_iff.mp hk with ⟨hlt, _⟩
        rw [hkl]
        exact List.mem_of_getElem? (List.getElem?_set_self hlt)
      · refine List.mem_of_getElem? (i := k) ?_
        rw [List.getElem?_set_ne hkl]
        exact hk

theorem Answered.leads {d : Draft} {t : ValueType} (h : s.Answered d t) (hs : s.Leads s') :
    s'.Answered d t := by
  induction hs with
  | refl => exact h
  | step _ hstep ih => exact ih.step hstep

theorem Valid.resolves (hs : s.Valid) {d : Draft} {t : ValueType} (h : s.Answered d t) :
    s.registry.Resolves d t :=
  hs.calls _ h

end Contention

/-! ### Definitions in order -/

namespace Registry.WellFormed

variable {μ : Type} {r : Registry μ}

theorem pairwise_not_equivalent (hr : r.WellFormed) :
    r.definitions.Pairwise fun t u => t.equivalent u = false := by
  refine hr.pairwise_id.imp_of_mem fun ht hu hlt => ?_
  rw [← Bool.not_eq_true, hr.equivalent_iff_same ht hu, hr.same_iff ht hu]
  rintro rfl
  exact Nat.lt_irrefl _ hlt

end Registry.WellFormed

namespace World

variable {μ : Type}

/-- Whatever order the phases of any number of calls on a realm come in, at every moment no bucket
holds two equivalent definitions, nothing that was registered moves or disappears, calls that are
answered get the same handle exactly if their drafts are equivalent, and the numbers handed out are
consecutive. -/
theorem concurrent_interning {w : World μ} (hw : w.Reachable) {id : RealmId}
    (hid : w.Gave (.realm id)) {s s' : Contention μ}
    (hs : Contention.Leads ⟨(w.realms.realm id).registry, []⟩ s) (hs' : s.Leads s') :
    (∀ symbol, (s.registry.definitionsOf symbol).Pairwise fun t u => t.equivalent u = false) ∧
    (∀ symbol, s.registry.definitionsOf symbol <+: s'.registry.definitionsOf symbol) ∧
    s.registry.definitions <+: s'.registry.definitions ∧
    s.registry.definitions.map ValueType.id = List.range' 1 s.registry.definitions.length ∧
    (∀ d t d' t', s'.Answered d t → s'.Answered d' t' →
      (t.same t' = true ↔ (Definition.draft d).equivalent (.draft d') = true) ∧
      (t.id = t'.id ↔ (Definition.draft d).equivalent (.draft d') = true)) ∧
    ∀ d t, s.Answered d t → s'.Answered d t ∧ t ∈ s.registry.definitions := by
  have hsound := hw.sound
  have hstart : Contention.Valid ⟨(w.realms.realm id).registry, []⟩ :=
    ⟨hsound.realms.registry (hsound.gave _ hid).realm_of, fun c hc => nomatch hc⟩
  rcases hstart.leads hs with ⟨hvalid, _⟩
  rcases hvalid.leads hs' with ⟨hvalid', hgrows⟩
  refine ⟨fun symbol => ?_, hvalid.wellFormed.definitionsOf_prefix hvalid'.wellFormed
    hgrows.definitions, hgrows.definitions, hvalid.wellFormed.map_id,
    fun d t d' t' h h' => ?_, fun d t h => ?_⟩
  · rw [hvalid.wellFormed.definitionsOf_eq]
    exact hvalid.wellFormed.pairwise_not_equivalent.filter _
  · have ht := hvalid'.resolves h
    have ht' := hvalid'.resolves h'
    exact ⟨ht.same_iff_equivalent hvalid'.wellFormed ht',
      ht.id_eq_iff_equivalent hvalid'.wellFormed ht'⟩
  · exact ⟨h.leads hs', (hvalid.resolves h).mem⟩

namespace Sample

/-- The registry before any of the two drafts was interned. -/
def registry : Registry Unit :=
  (schemas.realms.realm 1).registry

theorem registry_knows : registry.Knows (draft none) ∧ registry.Knows (draft (some (.int 5))) := by
  have hsound := schemas_reachable.sound
  have hrealm : schemas.realms.scope.realm 1 := ⟨Nat.one_pos, Nat.le_refl 1⟩
  exact ⟨hsound.realms.knows hrealm (hsound.gave _ (gave_at 1 0 rfl rfl)),
    hsound.realms.knows hrealm (hsound.gave _ (gave_at 0 0 rfl rfl))⟩

/-- Both calls have missed in their first look-up, and have then been answered. -/
def raced : Contention Unit :=
  ⟨registry.register (draft none), [⟨draft none, .finished (.ok color)⟩,
    ⟨draft (some (.int 5)), .finished (.ok color)⟩]⟩

theorem leads_raced : Contention.Leads ⟨registry, []⟩ raced := by
  rcases registry_knows with ⟨hfirst, hsecond⟩
  have hentered : Contention.Leads ⟨registry, []⟩ ⟨registry, [⟨draft none, .entered⟩,
      ⟨draft (some (.int 5)), .entered⟩]⟩ :=
    .step (.step .refl (.enter _ hfirst)) (.enter _ hsecond)
  have hchecked : Contention.Leads ⟨registry, []⟩ ⟨registry, [⟨draft none, .checked⟩,
      ⟨draft (some (.int 5)), .checked⟩]⟩ :=
    .step (.step hentered (.advance 0 ⟨draft none, .entered⟩ rfl))
      (.advance 1 ⟨draft (some (.int 5)), .entered⟩ rfl)
  have hmissed : Contention.Leads ⟨registry, []⟩ ⟨registry, [⟨draft none, .missed⟩,
      ⟨draft (some (.int 5)), .missed⟩]⟩ :=
    .step (.step hchecked (.advance 0 ⟨draft none, .checked⟩ rfl))
      (.advance 1 ⟨draft (some (.int 5)), .checked⟩ rfl)
  exact .step (.step hmissed (.advance 0 ⟨draft none, .missed⟩ rfl))
      (.advance 1 ⟨draft (some (.int 5)), .missed⟩ rfl)

/-- The second call is answered with what the first has registered in the meantime. -/
theorem concurrent_interning_race : schemas.Reachable ∧ schemas.Gave (.realm 1) ∧
    Contention.Leads ⟨registry, []⟩ raced ∧ raced.Leads raced ∧
    (color.same color = true ↔
      (Definition.draft (draft none)).equivalent (.draft (draft (some (.int 5)))) = true) := by
  have hgave : schemas.Gave (.realm 1) := gave_at 3 0 rfl rfl
  obtain ⟨_, _, _, _, hcanonical, _⟩ :=
    concurrent_interning schemas_reachable hgave leads_raced .refl
  have hfirst : raced.Answered (draft none) color := List.mem_cons_self ..
  have hsecond : raced.Answered (draft (some (.int 5))) color :=
    List.mem_cons_of_mem _ (List.mem_cons_self ..)
  exact ⟨schemas_reachable, hgave, leads_raced, .refl, (hcanonical _ _ _ _ hfirst hsecond).1⟩

end Sample

end World

end ValueTypes
