import ValueTypes.Proofs.Lenient.Command

/-! Lenient realms extend strict ones: a list of steps all of which succeed in strict realms
succeeds in lenient realms too, and makes what corresponds, with the same contents. -/

namespace ValueTypes

def Step.withMode (mode : CoercionMode) (step : Step) : Step :=
  { step with command := step.command.withMode mode }

theorem Step.withMode_withMode (step : Step) (mode mode' : CoercionMode) :
    (step.withMode mode).withMode mode' = step.withMode mode' := by
  obtain ⟨command, name⟩ := step
  cases command <;> rfl

namespace Session

/-- A session without realms and names. -/
def fresh (hashing : Hashing) : Session :=
  { realms := { hashing := hashing } }

/-- Whether a step came to something, and its write did not fail if it was one. -/
def succeeded : Except Failure Answer → Bool
  | .ok answer => answer.succeeds
  | .error _ => false

/-! ### One step -/

/-- The session in which a name, if there is one, stands for what was made, if anything was. -/
def named (s : Session) : Option String → Option Binding → Session
  | some name, some b => { s with bindings := Entries.insert s.bindings name b }
  | _, _ => s

theorem run_of_perform {s s' : Session} (step : Step) {a : Answer} {given : Option Binding}
    (h : step.command.perform.run.run s = (.ok (a, given), s')) :
    s.run step = (.ok a, s'.named step.name given) := by
  rw [run, Step.script, Script.run_bind_of_ok h]
  obtain ⟨command, name⟩ := step
  cases name <;> cases given <;> rfl

theorem perform_of_run {s s' : Session} {step : Step} {a : Answer}
    (h : s.run step = (.ok a, s')) :
    ∃ given s₁, step.command.perform.run.run s = (.ok (a, given), s₁) ∧
      s' = s₁.named step.name given := by
  obtain ⟨⟨answer, given⟩, s₁, hperform, _⟩ := Script.bind_eq_ok h
  have hrun := run_of_perform step hperform
  rw [h] at hrun
  cases hrun
  exact ⟨given, s₁, hperform, rfl⟩

theorem relax_named (s : Session) (name : Option String) (given : Option Binding) :
    s.relax.named name (given.map Binding.relax) = (s.named name given).relax := by
  cases name with
  | none => rfl
  | some name =>
      cases given with
      | none => rfl
      | some b => simp only [named, relax, Option.map_some, Entries.insert_map]

theorem Bounded.named {n : Nat} {s : Session} (hs : s.Bounded n) {given : Option Binding}
    (hgiven : ∀ b, given = some b → b.Numbered n) (name : Option String) :
    (s.named name given).Bounded n := by
  cases name with
  | none => exact hs
  | some name =>
      cases given with
      | none => exact hs
      | some b =>
          refine ⟨hs.size, fun other b' hb' => ?_⟩
          rw [Session.named, Entries.lookup_insert] at hb'
          split at hb'
          · cases hb'
            exact hgiven b rfl
          · exact hs.bindings other b' hb'

/-- A step that succeeds does so in the relaxed session, which it leaves relaxed. -/
theorem run_relax {n : Nat} {s s' : Session} (hs : s.Bounded n) {step : Step} {a : Answer}
    (h : s.run step = (.ok a, s')) (ha : a.succeeds) :
    s.relax.run (step.withMode .lenient) = (.ok a.relax, s'.relax) ∧
      ∃ n', n ≤ n' ∧ s'.Bounded n' := by
  obtain ⟨given, s₁, hperform, rfl⟩ := perform_of_run h
  obtain ⟨hperform', n', hn', hs', hgiven⟩ :=
    step.command.relaxes s (a, given) s₁ hs hperform ha
  rw [run_of_perform (step.withMode .lenient) hperform', ← relax_named]
  exact ⟨rfl, n', hn', hs'.named hgiven step.name⟩

/-! ### All steps -/

theorem succeeded_relax (outcome : Except Failure Answer) :
    succeeded (outcome.map Answer.relax) = succeeded outcome := by
  rcases outcome with e | a
  · rfl
  · exact a.relax_succeeds

theorem runAll_cons (s : Session) (step : Step) (steps : List Step) :
    s.runAll (step :: steps) =
      ((s.run step).1 :: ((s.run step).2.runAll steps).1, ((s.run step).2.runAll steps).2) := rfl

/-- The steps of a run that all succeed do so in the relaxed session. The induction is on the steps;
the realms that names stand for become more along the way. -/
theorem runAll_relax {n : Nat} {s : Session} (hs : s.Bounded n) {steps : List Step}
    (h : (s.runAll steps).1.all succeeded = true) :
    s.relax.runAll (steps.map (·.withMode .lenient)) =
      ((s.runAll steps).1.map (Except.map Answer.relax), (s.runAll steps).2.relax) := by
  induction steps generalizing n s with
  | nil => rfl
  | cons step steps ih =>
      rw [runAll_cons] at h ⊢
      rcases hrun : s.run step with ⟨e | a, s'⟩
      · rw [hrun] at h
        cases h
      · rw [hrun, List.all_cons, Bool.and_eq_true] at h
        obtain ⟨hrun', n', -, hs'⟩ := run_relax hs hrun h.1
        rw [List.map_cons, runAll_cons, hrun', ih hs' h.2]
        rfl

theorem fresh_relax (hashing : Hashing) : (fresh hashing).relax = fresh hashing := by
  simp [fresh, relax, Realms.relax, Store.relax]

theorem fresh_bounded (hashing : Hashing) : (fresh hashing).Bounded 0 :=
  ⟨Nat.zero_le _, fun _ _ h => nomatch h⟩

/-- Steps all of which succeed in strict realms all succeed when the realms are lenient and the same
otherwise. The answers are the same but for the modes in descriptions, what was constructed, converted,
written, read and compared among them. Names stand for what corresponds, and every value shows the
same content, the fields of structs included. -/
theorem lenient_extends_strict (hashing : Hashing) (steps : List Step)
    (h : ((fresh hashing).runAll (steps.map (·.withMode .strict))).1.all succeeded = true) :
    let strict := (fresh hashing).runAll (steps.map (·.withMode .strict))
    let lenient := (fresh hashing).runAll (steps.map (·.withMode .lenient))
    lenient.1.all succeeded = true ∧
      lenient.1 = strict.1.map (Except.map Answer.relax) ∧
      (∀ (k : Nat) (a : Answer), strict.1[k]? = some (.ok a) → (∀ d, a ≠ .description d) →
        lenient.1[k]? = some (.ok a)) ∧
      lenient.2 = strict.2.relax ∧
      (∀ name b, strict.2.bindings.lookup name = some b →
        lenient.2.bindings.lookup name = some b.relax) ∧
      ∀ v : Value, lenient.2.realms.store.content v.relax = strict.2.realms.store.content v := by
  have hsteps : (steps.map (·.withMode .strict)).map (·.withMode .lenient) =
      steps.map (·.withMode .lenient) := by
    rw [List.map_map]
    exact List.map_congr_left fun step _ => step.withMode_withMode .strict .lenient
  have hrun := runAll_relax (fresh_bounded hashing) h
  rw [hsteps, fresh_relax] at hrun
  intro strict lenient
  have houtcomes : lenient.1 = strict.1.map (Except.map Answer.relax) := congrArg Prod.fst hrun
  have hsession : lenient.2 = strict.2.relax := congrArg Prod.snd hrun
  refine ⟨?_, houtcomes, fun k a hk ha => ?_, hsession, fun name b hb => ?_, fun v => ?_⟩
  · rw [houtcomes, List.all_map, Function.comp_def]
    simp only [succeeded_relax]
    exact h
  · rw [houtcomes, List.getElem?_map, hk, Option.map_some, Except.map, Answer.relax_eq ha]
  · rw [hsession, relax_lookup, hb, Option.map_some]
  · rw [hsession]
    exact strict.2.realms.store.content_relax v

namespace Sample

/-- Coins with an explicit default that is a floating-point number and a static one, two of them in
an array, and a purse with one that is written. -/
def purses : List Step :=
  [⟨.newRealm {} none, some "r"⟩,
    ⟨.valueType "r" (.key "coin")
      [{ name := "amount", type := "uint8", default := some (.float (.ofInt 5)) },
        { name := "unit", type := "string", default := some (.str "c"), isStatic := true }],
      some "coin"⟩,
    ⟨.arrayType "r" (.key "coins") "coin" 2, some "coins"⟩,
    ⟨.structType "r" "purse"
      [{ name := "first", type := "coin" }, { name := "weight", type := "float32" }],
      some "purse"⟩,
    ⟨.construct "r" "coin" (some (.record [("amount", .int 7)])), some "c"⟩,
    ⟨.coerce "r" "coins" (.record [("1", .ref "c")]), some "two"⟩,
    ⟨.construct "r" "purse" (some (.record [("first", .ref "c")])), some "p"⟩,
    ⟨.set (.ref "p") "weight" (.int 3), none⟩,
    ⟨.get (.ref "p") "first", some "first"⟩,
    ⟨.strictEquals (.ref "first") (.ref "c"), none⟩,
    ⟨.describe "coin", none⟩,
    ⟨.display (.ref "p"), none⟩]

theorem lenient_extends_strict_purses :
    let strict := (fresh .polynomial).runAll (purses.map (·.withMode .strict))
    let lenient := (fresh .polynomial).runAll (purses.map (·.withMode .lenient))
    strict.1.all succeeded = true ∧ lenient.1.all succeeded = true ∧
      lenient.1 = strict.1.map (Except.map Answer.relax) := by
  have hstrict : ((fresh .polynomial).runAll (purses.map (·.withMode .strict))).1.all succeeded =
      true := by decide +kernel
  have hrun := lenient_extends_strict .polynomial purses hstrict
  exact ⟨hstrict, hrun.1, hrun.2.1⟩

end Sample

/-- The converse fails: lenient realms wrap what strict ones refuse. -/
example :
    let steps : List Step :=
      [⟨.newRealm {} none, some "r"⟩, ⟨.coerce "r" "uint8" (.int 300), none⟩]
    ((fresh .polynomial).runAll (steps.map (·.withMode .strict))).1.all succeeded = false ∧
      ((fresh .polynomial).runAll (steps.map (·.withMode .lenient))).1.all succeeded = true := by
  decide +kernel

end Session

end ValueTypes
