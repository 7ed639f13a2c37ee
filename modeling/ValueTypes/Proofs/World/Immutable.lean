import ValueTypes.Proofs.Value.Content
import ValueTypes.Proofs.World.Equality

/-! Sealed instances are immutable at every depth: nothing that happens after an instance was made
can be seen in it, whatever it was made from, and nothing inside can be written. -/

namespace ValueTypes

variable {μ : Type}

/-- A write to an instance is refused, and leaves everything as it was. -/
theorem Operation.setProperty_inst (rs : Realms μ) (i : Instance) (name : String) (v : Value) :
    (setProperty (.inst i) name v).run rs =
      (.error (.immutableWrite i.type.name name), rs) := rfl

namespace World

/-- Whatever is done after an instance was made, and to whatever it was made from, all that can be
read of it stays the same: its whole content, and the value at the end of every path of field
names, decimal indices among them. No struct or record is inside, and every write to the instance,
or to one inside it, is refused. -/
theorem instances_immutable {w w' : World μ} (hw : w.Reachable) (hrun : w.Leads w')
    {i : Instance} (hi : w.Gave (.value (.inst i))) :
    w'.realms.store.content (.inst i) = w.realms.store.content (.inst i) ∧
    (∀ path, w'.realms.store.read? (.inst i) path = w.realms.store.read? (.inst i) path) ∧
    (∀ path v, w'.realms.store.read? (.inst i) path = some v → v.Proper) ∧
    ∀ path j, w'.realms.store.read? (.inst i) path = some (.inst j) → ∀ name v,
      (Operation.setProperty (.inst j) name v).run w'.realms =
        (.error (.immutableWrite j.type.name name), w'.realms) := by
  -- The instance still conforms to its type when the run has ended.
  have hsound := (hw.leads hrun).sound
  have hconforms : (Value.inst i).Conforms i.type :=
    hsound.realms.conforms (hsound.gave _ (hi.leads hrun)) i i.type rfl i.type.equivalent_refl
  refine ⟨hconforms.content_eq _ _, hconforms.read?_eq _ _, fun path v hv => ?_,
    fun path j _ name v => Operation.setProperty_inst _ j name v⟩
  rcases hconforms.read? _ hv with ⟨t, ht⟩
  exact ht.proper_self

namespace Sample

/-- A type with a field of another type. -/
def framed : ValueType :=
  ⟨14, 1, ⟨14, some "P"⟩, .composite ⟨.value,
    [⟨"c", .value color, false, none⟩, ⟨"x", .value byte, false, none⟩], 0, 2⟩, .strict, 0⟩

/-- A type of structs with the fields of that other type. -/
def box : StructType :=
  ⟨1, 1, "B", ⟨.struct, [⟨"r", .value byte, false, none⟩], 0, 1⟩, .strict⟩

/-- What is made of a record that holds the struct. -/
def frame : Instance :=
  ⟨2, framed, [.inst ⟨1, color, [.int 5]⟩, .int 1]⟩

/-- The world with the struct. -/
def boxes : World Unit :=
  ((world.perform (.valueType 1 ⟨14, some "P"⟩
      [⟨"c", .value color, false, none⟩, ⟨"x", .value byte, false, none⟩])).perform
    (.structType 1 "B" [⟨"r", .value byte, false, none⟩])).perform
    (.constructStruct box (some (.record [("r", .int 5)])))

/-- The world in which the instance was constructed from it. -/
def frames : World Unit :=
  boxes.perform (.construct framed (some (.record [("c", .struct ⟨0, box⟩), ("x", .int 1)])))

/-- The world after the struct was written. -/
def rewritten : World Unit :=
  frames.perform (.setProperty (.struct ⟨0, box⟩) "r" (.int 9))

theorem boxes_reachable : boxes.Reachable := by
  refine world_reachable.leads (.step (.step (.step .refl _ ?_) _ ?_) _ ?_)
  · exact List.forall_mem_cons.mpr ⟨.given (gave_at 5 0 rfl rfl),
      List.forall_mem_cons.mpr ⟨.given (gave_at 0 0 rfl rfl),
        List.forall_mem_singleton.mpr (.given (gave_at 4 1 rfl rfl))⟩⟩
  · exact List.forall_mem_cons.mpr ⟨.given (gave_at 6 0 rfl rfl),
      List.forall_mem_singleton.mpr (.given (gave_at 5 1 rfl rfl))⟩
  · exact List.forall_mem_cons.mpr ⟨.given (gave_at 0 0 rfl rfl),
      List.forall_mem_singleton.mpr (.plain (.int 5))⟩

theorem frames_reachable : frames.Reachable := by
  refine boxes_reachable.leads (.step .refl _ ?_)
  exact List.forall_mem_cons.mpr ⟨.given (gave_at 2 0 rfl rfl),
    List.forall_mem_cons.mpr ⟨.given (gave_at 0 0 rfl rfl),
      List.forall_mem_singleton.mpr (.plain (.int 1))⟩⟩

set_option maxRecDepth 4000 in
/-- The write is seen in the struct, and not in the instance that was made of it. -/
theorem instances_immutable_frame : frames.Reachable ∧ frames.Leads rewritten ∧
    frames.Gave (.value (.inst frame)) ∧
    frames.realms.store.read? (.struct ⟨0, box⟩) ["r"] = some (.int 5) ∧
    rewritten.realms.store.read? (.struct ⟨0, box⟩) ["r"] = some (.int 9) ∧
    rewritten.realms.store.read? (.inst frame) ["c", "r"] = some (.int 5) ∧
    rewritten.realms.store.content (.inst frame) = frames.realms.store.content (.inst frame) := by
  have hgave : frames.Gave (.value (.inst frame)) := gave_at 0 0 rfl rfl
  have hwrite : frames.Leads rewritten := by
    refine .step .refl _ ?_
    exact List.forall_mem_cons.mpr ⟨.given (gave_at 1 0 rfl rfl),
      List.forall_mem_singleton.mpr (.plain (.int 9))⟩
  obtain ⟨hcontent, hread, _, _⟩ := instances_immutable frames_reachable hwrite hgave
  refine ⟨frames_reachable, hwrite, hgave, rfl, rfl, ?_, hcontent⟩
  rw [hread]
  rfl

end Sample

end World

end ValueTypes
