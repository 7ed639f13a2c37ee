import ValueTypes.Proofs.Construction.Update
import ValueTypes.Proofs.Value.Shown
import ValueTypes.Proofs.World.Immutable
import ValueTypes.Proofs.World.Schemas

/-! Update of the instances of a run. One field changes and nothing else does, and updates of
different fields may be done in any order. -/

namespace ValueTypes

variable {μ : Type}

theorem Value.Twin.sameHead {there : Value → Prop} {base : Store} {u v : Value}
    (h : u.Twin there base v) : u.SameHead v := by
  cases h with
  | same => exact .same _
  | inst type => exact .inst type
  | struct type => exact .struct type

namespace World

/-- What two updates in turn make of an instance conforms to its type. -/
theorem conforms_of_updates {w : World μ} (hw : w.Reachable) {i : Instance}
    (hi : w.Present (.value (.inst i))) {m n : String} {x y : Value} (hx : w.There x)
    (hy : w.There y) {a : Instance} {σ : Store}
    (hrun : (do let j ← i.update m x; j.update n y : Build Instance).run w.realms.store =
      .ok (a, σ)) : (Value.inst a).Conforms a.type := by
  have hrealms := hw.sound.realms
  have hensures : Build.Ensures w.realms.scope (do let j ← i.update m x; j.update n y)
      fun Θ j => Θ.Sound (.value (.inst j)) :=
    ((hw.sound.present hi).update_ensures hrealms.closed m (hx.sound hw)).bind
      fun Θ hΘ j hj => hj.update_ensures (hΘ.closed hrealms.closed) n ((hy.sound hw).mono hΘ.within)
  have hadvances := Realms.build_advances hrealms hensures
  rw [Realms.build, hrun] at hadvances
  exact hadvances.sound.conforms (hadvances.answer a rfl).2 a a.type rfl a.type.equivalent_refl

/-- Updates of different fields may be done in any order. -/
theorem updates_swap {w : World μ} (hw : w.Reachable) {i : Instance}
    (hi : w.Present (.value (.inst i))) {m n : String} (hmn : m ≠ n) {x y : Value}
    (hx : w.There x) (hy : w.There y) (hxd : x.isUndefined = false) (hyd : y.isUndefined = false)
    {a : Instance} {σ : Store}
    (hrun : (do let j ← i.update m x; j.update n y : Build Instance).run w.realms.store =
      .ok (a, σ)) :
    ∃ b τ, (do let j ← i.update n y; j.update m x : Build Instance).run w.realms.store =
      .ok (b, τ) ∧ τ.content (.inst b) = σ.content (.inst a) := by
  have hrealms := hw.sound.realms
  obtain ⟨schema, hfilled⟩ := (hw.sound.present hi).filled hrealms.closed
  have hbase := Store.Retains.refl w.realms.store w.There
  have hrelated : ∀ {v : Value}, w.There v →
      hw.inventory.twins.Rel w.realms.store w.realms.store v v :=
    fun hv => hw.inventory.related hbase hbase hv
  have htypes : ∀ f ∈ schema.fields, hw.inventory.twins.types f.type := by
    intro f hf
    have htype : w.Present (.type (.value i.type)) := .part hi (List.mem_cons_self ..)
    refine htype.field ?_ (List.mem_cons_self ..)
    rw [FieldType.fields_composite hfilled.layout]
    exact hf
  have hslots : List.Forall₂ (hw.inventory.twins.Rel w.realms.store w.realms.store)
      i.slots i.slots :=
    List.forall₂_same.mpr fun v hv => hrelated (hw.inventory.slots i (.inr hi) v hv)
  obtain ⟨b, τ, hrun', hatype, hbtype, hslots⟩ := Correspondence.updates_comm hfilled htypes
    ⟨hbase, hbase⟩ hslots hmn hxd hyd (hrelated hx) (hrelated hy) hrun
  have htype : a.type = b.type := hatype.trans hbtype.symm
  have hsame : Store.Related Value.SameHead σ τ (.inst a) (.inst b) := by
    refine .of_fields (.inst htype) fun name => ?_
    rw [Store.field?_inst, Store.field?_inst, Instance.get?, Instance.get?, Instance.fields,
      Instance.fields, htype]
    exact lookup_zip_rel (hslots.imp fun _ _ huv => huv.imp fun _ _ h => h.1.sameHead) _ name
  refine ⟨b, τ, hrun', ?_⟩
  have ha := conforms_of_updates hw hi hx hy hrun
  have hb := conforms_of_updates hw hi hy hx hrun'
  exact (ha.contentWith_eq_of_related hb hsame _ _).symm

/-- Update of an instance through the record of its fields. A field that is not static takes a value
exactly if the value converts to its type; then it has what the value was converted to, and every
other field has what it had, and shows the same along all paths. A static field stays as it is, and
a name without a field is left out: the result is a copy. Two updates of different fields give the
same contents in either order. -/
theorem field_update {w : World μ} (hw : w.Reachable) {i : Instance}
    (hi : w.Present (.value (.inst i))) :
    ∃ schema, i.type.layout = .composite schema ∧
      (∀ f ∈ schema.fields, f.isStatic = false → ∀ x : Value, x.isUndefined = false → ∀ σ,
        (∀ e, (i.update f.name x).run σ = .error e ↔
          (f.type.coerce i.type.coercion f.name x).run σ = .error e) ∧
        ((∃ r, (i.update f.name x).run σ = .ok r) ↔
          ∃ r, (f.type.coerce i.type.coercion f.name x).run σ = .ok r) ∧
        ∀ j τ, (i.update f.name x).run σ = .ok (j, τ) → j.type = i.type ∧
          (∃ v σ', (f.type.coerce i.type.coercion f.name x).run σ = .ok (v, σ') ∧
            j.get? f.name = some v) ∧
          ∀ name ≠ f.name, j.get? name = i.get? name ∧
            ∀ path, τ.read? (.inst j) (name :: path) = σ.read? (.inst i) (name :: path)) ∧
      (∀ name, (∀ f ∈ schema.fields, f.name = name → f.isStatic = true) →
        ∀ x : Value, x.isUndefined = false → ∀ σ, (i.update name x).run σ =
          .ok (⟨σ.nextId, i.type, i.slots⟩, { σ with nextId := σ.nextId + 1 })) ∧
      ∀ m n, m ≠ n → ∀ x y, w.There x → w.There y → x.isUndefined = false →
        y.isUndefined = false → ∀ a σ,
          (do let j ← i.update m x; j.update n y : Build Instance).run w.realms.store =
            .ok (a, σ) →
          ∃ b τ, (do let j ← i.update n y; j.update m x : Build Instance).run w.realms.store =
            .ok (b, τ) ∧ τ.content (.inst b) = σ.content (.inst a) := by
  have hrealms := hw.sound.realms
  have hsound := hw.sound.present hi
  obtain ⟨schema, hfilled⟩ := hsound.filled hrealms.closed
  have hconforms := hrealms.conforms hsound i i.type rfl i.type.equivalent_refl
  refine ⟨schema, hfilled.layout, fun f hf hstatic x hx σ => ?_, fun name hname x hx σ => ?_,
    fun m n hmn x y hx hy hxd hyd a σ hrun => updates_swap hw hi hmn hx hy hxd hyd hrun⟩
  · obtain ⟨k, hk⟩ := List.mem_iff_getElem?.mp hf
    rw [hfilled.update_field_run hk hstatic hx]
    cases hrun : (f.type.coerce i.type.coercion f.name x).run σ with
    | error e => simp [Except.map]
    | ok r =>
        refine ⟨fun e => by simp [Except.map], by simp [Except.map], ?_⟩
        · intro j τ heq
          cases heq
          refine ⟨rfl, ⟨r.1, r.2, rfl, ?_⟩, fun name hname => ?_⟩
          · rw [hfilled.get?_set hk, if_pos rfl]
          · have hget := hfilled.get?_set hk r.2.nextId r.1 name
            rw [if_neg hname] at hget
            refine ⟨hget, fun path => ?_⟩
            rw [← hconforms.read?_eq σ { r.2 with nextId := r.2.nextId + 1 }, Store.read?_cons,
              Store.read?_cons, Store.field?_inst, Store.field?_inst, hget]
  · rw [hfilled.update_run hx (.none hname)]
    rfl

namespace Sample

set_option maxRecDepth 4000 in
/-- The color of a frame is converted from a struct, and its number is given, in either order. A text
is no number, and a name without a field, or of a static field, leaves a copy. -/
theorem field_update_frame : frames.Reachable ∧ frames.Present (.value (.inst frame)) ∧
    frames.There (.struct ⟨0, box⟩) ∧
    (∃ a σ b τ,
      (do let j ← frame.update "c" (.struct ⟨0, box⟩); j.update "x" (.int 7) :
        Build Instance).run frames.realms.store = .ok (a, σ) ∧
      (do let j ← frame.update "x" (.int 7); j.update "c" (.struct ⟨0, box⟩) :
        Build Instance).run frames.realms.store = .ok (b, τ) ∧
      τ.content (.inst b) = σ.content (.inst a) ∧ σ.read? (.inst a) ["c", "r"] = some (.int 5)) ∧
    (frame.update "x" (.str "a")).run frames.realms.store =
      .error (.typeMismatch "x" "uint8" "string") ∧
    (∃ σ, (frame.update "z" (.int 7)).run frames.realms.store =
      .ok (⟨3, framed, frame.slots⟩, σ)) ∧
    shots.Reachable ∧ shots.Present (.value (.inst shot)) ∧
    ∃ σ, (shot.update "c" (.int 7)).run shots.realms.store = .ok (⟨3, pixel, shot.slots⟩, σ) := by
  have hframe : frames.Present (.value (.inst frame)) := .given (gave_at 0 0 rfl rfl)
  have hbox : frames.There (.struct ⟨0, box⟩) := .inr (.given (gave_at 1 0 rfl rfl))
  have hshot : shots.Present (.value (.inst shot)) := .given (gave_at 0 0 rfl rfl)
  obtain ⟨_, hlayout, hfield, hcopy, hswap⟩ := field_update frames_reachable hframe
  cases hlayout
  obtain ⟨_, hlayout, _, hcopy', _⟩ := field_update shots_reachable hshot
  cases hlayout
  obtain ⟨b, τ, hb, hcontent⟩ := hswap "c" "x" (by decide) (.struct ⟨0, box⟩) (.int 7) hbox
    (.inl (.int 7)) rfl rfl _ _ rfl
  have htext := (hfield _ (List.mem_cons_of_mem _ (List.mem_singleton.mpr rfl)) rfl (.str "a") rfl
    frames.realms.store).1 (.typeMismatch "x" "uint8" "string")
  exact ⟨frames_reachable, hframe, hbox, ⟨_, _, b, τ, rfl, hb, hcontent, rfl⟩, htext.mpr rfl,
    ⟨_, hcopy "z" (by decide) (.int 7) rfl frames.realms.store⟩, shots_reachable, hshot,
    _, hcopy' "c" (by decide) (.int 7) rfl shots.realms.store⟩

end Sample

end World

end ValueTypes
