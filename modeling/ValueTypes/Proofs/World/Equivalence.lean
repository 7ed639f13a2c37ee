import ValueTypes.Proofs.Definition.Alike
import ValueTypes.Proofs.World.Registration

/-! Equivalence of definitions in every run. The realms of a run never give one handle to two
different definitions, so the comparison of handles only saves the plain rule some work, among
drafts and registered types of any realms. -/

namespace ValueTypes

variable {μ : Type}

namespace World

/-- Whether callers can come by a definition: it is a registered type that is there, or a draft,
under any symbol, with a schema that is there. -/
inductive Obtains (w : World μ) : Definition → Prop where
  | canonical {t} (h : w.Present (.type (.value t))) : Obtains w (.canonical t)
  | draft {d} (h : w.Present (.schema d.schema)) : Obtains w (.draft d)

/-- All value types in a definition that callers can come by are registered somewhere. -/
theorem Obtains.within {w : World μ} (hw : w.Reachable) {d : Definition} (h : w.Obtains d) :
    d.Within w.realms.scope.type := by
  have hsound := hw.sound_demands
  cases h with
  | canonical ht =>
      cases hsound.present ht with
      | valueType hknown => exact hknown
  | @draft d hschema =>
      intro f hf t htype
      have hfield := (hsound.present hschema).types f hf
      rw [htype] at hfield
      cases hfield with
      | valueType hknown => exact hknown

/-- Equivalence is an equivalence relation on the definitions that callers can come by, and answers
what the plain rule says, which knows nothing of handles. It ends: as many levels of comparison as
the first definition is deep decide it, whatever would be asked below them. -/
theorem equivalent_is_equivalence {w : World μ} (hw : w.Reachable) :
    Equivalence (fun a b : { d : Definition // w.Obtains d } => a.1.equivalent b.1 = true) ∧
    (∀ a b, w.Obtains a → w.Obtains b → (a.equivalent b = true ↔ a.Alike b)) ∧
    ∀ (a b : Definition) stop,
      Definition.equivalentWith (FieldType.equivalentWith^[a.depth] stop) a b = a.equivalent b := by
  have hfaithful := hw.sound.realms.faithful
  have hlaws := Definition.equivalent_equivalence hfaithful
  refine ⟨⟨fun a => ?_, fun {a b} h => ?_, fun {a b c} h h' => ?_⟩, fun a b ha hb => ?_,
    fun a b stop => Definition.equivalentWith_iterate stop (Nat.le_refl _) b⟩
  · exact hlaws.refl ⟨a, a.2.within hw⟩
  · exact hlaws.symm (x := ⟨a, a.2.within hw⟩) (y := ⟨b, b.2.within hw⟩) h
  · exact hlaws.trans (x := ⟨a, a.2.within hw⟩) (y := ⟨b, b.2.within hw⟩)
      (z := ⟨c, c.2.within hw⟩) h h'
  · exact Definition.equivalent_iff_alike hfaithful (ha.within hw) (hb.within hw)

namespace Sample

/-- A registered type, the draft it was made from, and a draft with another default. -/
theorem equivalent_is_equivalence_drafts : world.Reachable ∧
    world.Obtains (.canonical color) ∧ world.Obtains (.draft (draft none)) ∧
    world.Obtains (.draft (draft (some (.int 5)))) ∧
    (Definition.canonical color).Alike (.draft (draft none)) ∧
    (Definition.draft (draft none)).equivalent (.canonical color) = true ∧
    (Definition.draft (draft none)).equivalent (.draft (draft (some (.int 5)))) = true := by
  have hcolor : world.Obtains (.canonical color) := .canonical (.given (gave_at 0 0 rfl rfl))
  have hfirst : world.Obtains (.draft (draft none)) := .draft (.given (gave_at 3 0 rfl rfl))
  have hsecond : world.Obtains (.draft (draft (some (.int 5)))) :=
    .draft (.given (gave_at 2 0 rfl rfl))
  obtain ⟨hlaws, hplain, -⟩ := equivalent_is_equivalence world_reachable
  have hdraft : (Definition.canonical color).equivalent (.draft (draft none)) = true := by decide
  have hother : (Definition.canonical color).equivalent (.draft (draft (some (.int 5)))) = true :=
    by decide
  have hback : (Definition.draft (draft none)).equivalent (.canonical color) = true :=
    hlaws.symm (x := ⟨_, hcolor⟩) (y := ⟨_, hfirst⟩) hdraft
  exact ⟨world_reachable, hcolor, hfirst, hsecond, (hplain _ _ hcolor hfirst).mp hdraft, hback,
    hlaws.trans (x := ⟨_, hfirst⟩) (y := ⟨_, hcolor⟩) (z := ⟨_, hsecond⟩) hback hother⟩

end Sample

end World

end ValueTypes
