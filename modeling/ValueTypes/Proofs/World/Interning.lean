import ValueTypes.Proofs.World.Sound

/-! Interning over whole runs. Whatever happens in between, and to whatever realms, two drafts that
a realm interns get one definition exactly if they are equivalent. -/

namespace ValueTypes

variable {μ : Type}

namespace World

/-- An answer to a draft is what the draft stands for. -/
theorem Sound.resolves {Δ : Demands} {w : World μ} (hw : w.Sound Δ) {id : RealmId} {d : Draft}
    {t : ValueType} (h : w.Answered (.intern id d) [.type (.value t)]) :
    (w.realms.realm id).registry.Resolves d t := by
  rcases hw.interned id d _ h with ⟨u, hitems, hu⟩
  cases hitems
  exact hu.resolves

/-- Interning is canonical in every run: in each realm, equivalent drafts, whenever they are
interned, get the same handle with the same number, drafts that are not equivalent get different
ones, every handle is equivalent to its draft, and registered types are equivalent only to
themselves. -/
theorem interning_canonical {w : World μ} (hw : w.Reachable) {id : RealmId}
    (hid : w.Gave (.realm id)) :
    (∀ d t d' t', w.Answered (.intern id d) [.type (.value t)] →
      w.Answered (.intern id d') [.type (.value t')] →
        (t = t' ↔ (Definition.draft d).equivalent (.draft d') = true) ∧
        (t.same t' = true ↔ (Definition.draft d).equivalent (.draft d') = true) ∧
        (t.id = t'.id ↔ (Definition.draft d).equivalent (.draft d') = true)) ∧
    (∀ d items, w.Answered (.intern id d) items → ∃ t, items = [.type (.value t)] ∧
      t ∈ (w.realms.realm id).registry.definitions ∧
      (Definition.canonical t).equivalent (.draft d) = true) ∧
    ∀ t ∈ (w.realms.realm id).registry.definitions,
      ∀ u ∈ (w.realms.realm id).registry.definitions,
        t.equivalent u = true ↔ t.same u = true := by
  have hsound := hw.sound
  have hwf := hsound.realms.registry (hsound.gave _ hid).realm_of
  refine ⟨fun d t d' t' h h' => ?_, fun d items h => ?_, fun t ht u hu => ?_⟩
  · have ht := hsound.resolves h
    have ht' := hsound.resolves h'
    exact ⟨ht.eq_iff_equivalent hwf ht', ht.same_iff_equivalent hwf ht',
      ht.id_eq_iff_equivalent hwf ht'⟩
  · rcases hsound.interned id d items h with ⟨t, hitems, ht⟩
    exact ⟨t, hitems, ht.resolves.mem, ht.resolves.equivalent_draft hwf⟩
  · exact hwf.equivalent_iff_same ht hu

/-! ### A run -/

namespace Sample

/-- Hash functions under which all fingerprints collide. -/
def hashing : Hashing :=
  ⟨fun _ => 0, fun _ => 0, fun _ => 0, fun _ _ => 0⟩

/-- The second type of the first realm. -/
def byte : ValueType :=
  ⟨2, 1, ⟨2, some "uint8"⟩, .primitive .uint8, .strict, 0⟩

/-- A draft of a type with one field, with or without a default. -/
def draft (default : Option Value) : Draft :=
  ⟨⟨13, some "C"⟩, ⟨.value, [⟨"r", .value byte, false, default⟩], 0, 1⟩⟩

/-- What both drafts are answered with. -/
def color : ValueType :=
  ⟨13, 1, ⟨13, some "C"⟩, .composite (draft none).schema, .strict, 0⟩

/-- A world with one realm, in which two schemas were made that differ in a default. -/
def schemas : World Unit :=
  (((((start hashing).perform .newTable).perform (.newRealm {} 0)).perform
    (.definitions 1)).perform
    (.makeSchema 1 .value [⟨"r", .value byte, false, none⟩])).perform
    (.makeSchema 1 .value [⟨"r", .value byte, false, some (.int 5)⟩])

/-- The world after both drafts were interned. -/
def world : World Unit :=
  (schemas.perform (.intern 1 (draft none))).perform (.intern 1 (draft (some (.int 5))))

theorem schemas_reachable : schemas.Reachable := by
  refine ⟨hashing, .step (.step (.step (.step (.step .refl _ ?_) _ ?_) _ ?_) _ ?_) _ ?_⟩
  · exact fun _ h => nomatch h
  · exact List.forall_mem_singleton.mpr (.given (gave_at 0 0 rfl rfl))
  · exact List.forall_mem_singleton.mpr (.given (gave_at 0 0 rfl rfl))
  · exact List.forall_mem_cons.mpr ⟨.given (gave_at 1 0 rfl rfl),
      List.forall_mem_singleton.mpr (.given (gave_at 0 1 rfl rfl))⟩
  · exact List.forall_mem_cons.mpr ⟨.given (gave_at 2 0 rfl rfl),
      List.forall_mem_cons.mpr ⟨.given (gave_at 1 1 rfl rfl),
        List.forall_mem_singleton.mpr (.plain (.int 5))⟩⟩

theorem world_reachable : world.Reachable := by
  refine schemas_reachable.leads (.step (.step .refl _ ?_) _ ?_)
  · exact List.forall_mem_cons.mpr ⟨.given (gave_at 3 0 rfl rfl),
      List.forall_mem_singleton.mpr (.given (gave_at 1 0 rfl rfl))⟩
  · exact List.forall_mem_cons.mpr ⟨.given (gave_at 4 0 rfl rfl),
      List.forall_mem_singleton.mpr (.given (gave_at 1 0 rfl rfl))⟩

/-- The two drafts differ in a default, and share their definition. -/
theorem interning_canonical_drafts : world.Reachable ∧ world.Gave (.realm 1) ∧
    world.Answered (.intern 1 (draft none)) [.type (.value color)] ∧
    world.Answered (.intern 1 (draft (some (.int 5)))) [.type (.value color)] ∧
    (Definition.draft (draft none)).equivalent (.draft (draft (some (.int 5)))) = true := by
  have hgave : world.Gave (.realm 1) := gave_at 5 0 rfl rfl
  have hfirst : world.Answered (.intern 1 (draft none)) [.type (.value color)] :=
    List.mem_of_getElem? (i := 1) rfl
  have hsecond : world.Answered (.intern 1 (draft (some (.int 5)))) [.type (.value color)] :=
    List.mem_of_getElem? (i := 0) rfl
  have hcanonical := (interning_canonical world_reachable hgave).1 _ _ _ _ hfirst hsecond
  exact ⟨world_reachable, hgave, hfirst, hsecond, hcanonical.1.mp rfl⟩

end Sample

end World

end ValueTypes
