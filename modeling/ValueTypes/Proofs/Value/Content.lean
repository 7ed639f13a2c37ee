import ValueTypes.Content
import ValueTypes.Proofs.Value.Path

/-! Conforming values show the same in every store: there is no struct in them through which a write
could be seen. -/

namespace ValueTypes

theorem slotContents_eq_map (look : StructInstance → Content) (slots : List Value) :
    slotContents look slots = slots.map (·.contentWith look) := by
  induction slots with
  | nil => rfl
  | cons v slots ih => rw [slotContents, ih, List.map_cons]

namespace Value

theorem contentWith_inst (look : StructInstance → Content) (i : Instance) :
    (inst i).contentWith look = .inst i.type.name i.type.id i.type.realm
      ((i.type.schema?.elim [] Schema.names).zip (i.slots.map (·.contentWith look))) := by
  rw [← slotContents_eq_map]
  cases i
  rfl

theorem contentWith_plain {v : Value} (hv : v.Plain) (look look' : StructInstance → Content) :
    v.contentWith look = v.contentWith look' := by
  cases hv <;> rfl

namespace Conforms

variable {v : Value} {t : ValueType}

/-- No struct is looked at to see a conforming value. The induction is on the value: the slots of an
instance conform as well. -/
theorem contentWith_eq (h : v.Conforms t) (look look' : StructInstance → Content) :
    v.contentWith look = v.contentWith look' := by
  induction v using Value.inductionOn generalizing t with
  | inst i ih =>
      have hslots : i.slots.map (·.contentWith look) = i.slots.map (·.contentWith look') := by
        refine List.map_congr_left fun v hv => ?_
        rcases h.slots v hv with ⟨u, hu⟩
        exact ih v hv hu
      rw [contentWith_inst, contentWith_inst, hslots]
  | other v hv => exact contentWith_plain (h.plain_of_not_inst hv) look look'

theorem content_eq (h : v.Conforms t) (σ σ' : Store) : σ'.content v = σ.content v :=
  h.contentWith_eq _ _

theorem field?_eq (h : v.Conforms t) (σ σ' : Store) (name : String) :
    σ'.field? v name = σ.field? v name := by
  cases h with
  | primitive _ haccepts =>
      rw [Store.field?_plain haccepts.plain, Store.field?_plain haccepts.plain]
  | inst => rw [Store.field?_inst, Store.field?_inst]

/-- Every path leads to the same value in every store. -/
theorem read?_eq (h : v.Conforms t) (σ σ' : Store) (path : List String) :
    σ'.read? v path = σ.read? v path := by
  induction path generalizing v t with
  | nil => rfl
  | cons name path ih =>
      rw [Store.read?_cons, Store.read?_cons, h.field?_eq σ σ']
      cases hw : σ.field? v name with
      | none => rfl
      | some w =>
          rcases h.field? σ hw with ⟨u, hu⟩
          exact ih hu

end Conforms

end Value

end ValueTypes
