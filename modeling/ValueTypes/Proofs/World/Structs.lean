import ValueTypes.Proofs.Store.Acyclic
import ValueTypes.Proofs.World.Immutable

/-! Structs in every run. Whatever is written into them, in any order, they stay of their types, and
none of them comes to contain itself. -/

namespace ValueTypes

variable {μ : Type}

theorem Cell.get?_eq {cell : Cell} (hnodup : cell.type.schema.names.Nodup) {k : Nat} {f : Field}
    (hf : cell.type.schema.fields[k]? = some f) : cell.get? f.name = cell.slots[k]? :=
  lookup_zip hnodup (Schema.getElem?_names hf)

namespace World

/-- The handle of a struct leads to a struct of the type that it tells, and following fields of any
value comes to an end. Every struct has one slot for each field of its type, found under the name of
the field, with a value of the type of the field in it, which is the stored default if the field is
static. No path of fields leads from a struct back to itself, and its content is that of its
fields. -/
theorem structs_typed_acyclic {w : World μ} (hw : w.Reachable) :
    (∀ s, w.Gave (.value (.struct s)) →
      ∃ cell, w.realms.store.cell? s = some cell ∧ cell.type = s.type) ∧
    (∀ v, w.Holds (.value v) → Acc w.realms.store.PartOf v) ∧
    ∀ (k : Nat) cell, w.realms.store.cells[k]? = some cell →
      cell.slots.length = cell.type.schema.fields.length ∧
      (∀ (n : Nat) f v, cell.type.schema.fields[n]? = some f → cell.slots[n]? = some v →
        cell.get? f.name = some v ∧ w.realms.store.Fits v f.type ∧
          (f.isStatic = true → f.default = some v)) ∧
      (∀ path s, path ≠ [] →
        w.realms.store.read? (.struct ⟨k, cell.type⟩) path = some (.struct s) →
          s.address ≠ k) ∧
      Acc w.realms.store.PartOf (.struct ⟨k, cell.type⟩) ∧
      w.realms.store.content (.struct ⟨k, cell.type⟩) = .struct cell.type.name cell.type.id
        (cell.type.schema.names.zip (cell.slots.map w.realms.store.content)) := by
  have hsound := hw.sound
  have hrealms := hsound.realms
  refine ⟨fun s hs => Realms.exists_cell (hsound.gave _ hs),
    fun v hv => hrealms.acc_partOf (hsound.holds hv) v rfl, fun k cell hcell => ?_⟩
  have hcellSound := hrealms.cells cell (Array.mem_of_getElem? hcell)
  have hhandle := hrealms.struct_sound hcell
  refine ⟨hcellSound.fills.admits.length_eq.symm, fun n f v hf hv => ?_,
    fun path s hpath => hrealms.address_ne_of_read? hhandle hpath,
    hrealms.acc_partOf_struct hhandle, hrealms.content_struct hhandle hcell⟩
  have hadmits := forall₂_getElem? hcellSound.fills.admits hf hv
  have hv' := hcellSound.fills.sound v (List.mem_of_getElem? hv)
  refine ⟨?_, hrealms.fits ⟨hv', hadmits.typed⟩, hadmits.fixed⟩
  rw [Cell.get?_eq hcellSound.type.struct_schema.names hf, hv]

namespace Sample

/-- A type of structs that hold a struct of the first type. -/
def crate : StructType :=
  ⟨2, 1, "S", ⟨.struct,
    [⟨"b", .struct box, false, none⟩, ⟨"r", .value byte, false, none⟩], 0, 2⟩, .strict⟩

/-- The world with a struct of that type, which holds the first struct. -/
def crates : World Unit :=
  (boxes.perform (.structType 1 "S"
      [⟨"b", .struct box, false, none⟩, ⟨"r", .value byte, false, none⟩])).perform
    (.constructStruct crate (some (.record [("b", .struct ⟨0, box⟩), ("r", .int 7)])))

/-- The world after the struct was written into itself. -/
def nested : World Unit :=
  crates.perform (.setProperty (.struct ⟨1, crate⟩) "b" (.struct ⟨1, crate⟩))

theorem crates_reachable : crates.Reachable := by
  refine boxes_reachable.leads (.step (.step .refl _ ?_) _ ?_)
  · exact List.forall_mem_cons.mpr ⟨.given (gave_at 8 0 rfl rfl),
      List.forall_mem_cons.mpr ⟨.given (gave_at 1 0 rfl rfl),
        List.forall_mem_singleton.mpr (.given (gave_at 7 1 rfl rfl))⟩⟩
  · exact List.forall_mem_cons.mpr ⟨.given (gave_at 0 0 rfl rfl),
      List.forall_mem_cons.mpr ⟨.given (gave_at 1 0 rfl rfl),
        List.forall_mem_singleton.mpr (.plain (.int 7))⟩⟩

theorem nested_reachable : nested.Reachable := by
  refine crates_reachable.leads (.step .refl _ ?_)
  exact List.forall_mem_cons.mpr ⟨.given (gave_at 0 0 rfl rfl),
    List.forall_mem_singleton.mpr (.given (gave_at 0 0 rfl rfl))⟩

set_option maxRecDepth 4000 in
/-- What is written is a new struct that is made of the old one. -/
theorem structs_typed_acyclic_nested : nested.Reachable ∧
    crates.realms.store.cells[1]? = some ⟨crate, [.struct ⟨0, box⟩, .int 7]⟩ ∧
    nested.realms.store.cells[1]? = some ⟨crate, [.struct ⟨2, box⟩, .int 7]⟩ ∧
    nested.realms.store.cells[2]? = some ⟨box, [.int 7]⟩ ∧
    nested.realms.store.Fits (.struct ⟨2, box⟩) (.struct box) ∧
    Acc nested.realms.store.PartOf (.struct ⟨1, crate⟩) := by
  have hcell : nested.realms.store.cells[1]? = some ⟨crate, [.struct ⟨2, box⟩, .int 7]⟩ := rfl
  obtain ⟨_, _, hstructs⟩ := structs_typed_acyclic nested_reachable
  obtain ⟨_, hslots, _, hends, _⟩ := hstructs 1 _ hcell
  exact ⟨nested_reachable, rfl, hcell, rfl, (hslots 0 _ _ rfl rfl).2.1, hends⟩

end Sample

end World

end ValueTypes
