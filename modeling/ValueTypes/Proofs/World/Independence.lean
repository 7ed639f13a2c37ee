import ValueTypes.Proofs.Construction.Own
import ValueTypes.Proofs.Value.Shown
import ValueTypes.Proofs.World.Fieldwise
import ValueTypes.Proofs.World.Sparing

/-! Default construction in every run. A struct that is constructed without a source has structs of its
own in the fields without a default in the schema, and it shares the structs of stored defaults with
all others of its type. So it is independent of the others in all but the stored defaults. -/

namespace ValueTypes

variable {μ : Type}

/-! ### What paths lead to -/

namespace Store

/-- Whether a path leads from a value to a struct. -/
def LeadsTo (σ : Store) (v : Value) (s : StructInstance) : Prop :=
  ∃ path, σ.read? v path = some (.struct s)

theorem read?_snoc {σ : Store} {v u : Value} {path : List String} (h : σ.read? v path = some u)
    (name : String) : σ.read? v (path ++ [name]) = σ.field? u name := by
  induction path generalizing v with
  | nil =>
      cases h
      rw [List.nil_append, read?_cons]
      cases σ.field? u name <;> rfl
  | cons other path ih =>
      rw [read?_cons] at h
      obtain ⟨w, hw, h⟩ := Option.bind_eq_some_iff.mp h
      rw [List.cons_append, read?_cons, hw, Option.bind_some, ih h]

end Store

/-- What a conforming instance has in a slot it has under a name. -/
theorem Value.Conforms.exists_field? {i : Instance} {t : ValueType} (h : (Value.inst i).Conforms t)
    (σ : Store) {v : Value} (hv : v ∈ i.slots) : ∃ name, σ.field? (.inst i) name = some v := by
  cases h with
  | primitive _ haccepts => cases haccepts
  | inst _ hlayout hnodup hlength =>
      obtain ⟨k, hk⟩ := List.mem_iff_getElem?.mp hv
      obtain ⟨hlt, _⟩ := List.getElem?_eq_some_iff.mp hk
      have hf := List.getElem?_eq_getElem (hlength ▸ hlt)
      exact ⟨_, (Instance.get?_eq hlayout hnodup hf).trans hk⟩

namespace Realms.Sound

variable {rs : Realms μ}

/-- What a struct has in a slot it has under a name. -/
theorem exists_field? (hrs : rs.Sound) {s : StructInstance} {cell : Cell}
    (hcell : rs.store.cell? s = some cell) {v : Value} (hv : v ∈ cell.slots) :
    ∃ name, rs.store.field? (.struct s) name = some v := by
  have hsound := hrs.cells cell (Array.mem_of_getElem? hcell)
  obtain ⟨k, hk⟩ := List.mem_iff_getElem?.mp hv
  obtain ⟨f, hf, _⟩ := exists_left_of_forall₂ hsound.fills.admits hk
  refine ⟨f.name, ?_⟩
  change (rs.store.cell? s).bind (·.get? f.name) = some v
  rw [hcell, Option.bind_some, Cell.get?_eq hsound.type.struct_schema.names hf, hk]

/-- From a conforming value or a sound struct, paths lead to such values only. -/
theorem read?_cases (hrs : rs.Sound) {d : Value}
    (hd : (∃ t, d.Conforms t) ∨ ∃ s, d = .struct s ∧ rs.scope.Sound (.value (.struct s)))
    {path : List String} {v : Value} (h : rs.store.read? d path = some v) :
    (∃ t, v.Conforms t) ∨ ∃ s, v = .struct s ∧ rs.scope.Sound (.value (.struct s)) := by
  induction path generalizing d with
  | nil =>
      cases h
      exact hd
  | cons name path ih =>
      rcases hd with ⟨t, ht⟩ | ⟨s, rfl, hs⟩
      · exact .inl (ht.read? _ h)
      · rw [Store.read?_cons] at h
        obtain ⟨u, hu, h⟩ := Option.bind_eq_some_iff.mp h
        refine ih ?_ h
        rcases hrs.field?_cases hs hu with hconforms | ⟨u, rfl, hsound, _⟩
        · exact .inl hconforms
        · exact .inr ⟨u, rfl, hsound⟩

theorem sound_of_leadsTo (hrs : rs.Sound) {s u : StructInstance}
    (hs : rs.scope.Sound (.value (.struct s))) (h : rs.store.LeadsTo (.struct s) u) :
    rs.scope.Sound (.value (.struct u)) := by
  obtain ⟨path, hpath⟩ := h
  rcases hrs.read?_cases (.inr ⟨s, rfl, hs⟩) hpath with ⟨t, ht⟩ | ⟨_, heq, hu⟩
  · cases ht.proper_self
  · cases heq
    exact hu

end Realms.Sound

/-- A struct shows the same in a run in which no struct is written that a path leads to. -/
theorem World.LeadsSparing.content_eq {w w' : World μ} {s : StructInstance}
    (h : w.LeadsSparing (w.realms.store.LeadsTo (.struct s)) w') (hw : w.Sound)
    (hs : w.realms.scope.Sound (.value (.struct s))) :
    w'.realms.store.content (.struct s) = w.realms.store.content (.struct s) := by
  have hs' := hs.mono (hw.leads_extends h.leads).within
  refine hw.realms.content_eq_of_cells (hw.leads h.leads).realms hs hs' fun path u hu => ?_
  exact h.cell? hw (hw.realms.sound_of_leadsTo hs ⟨path, hu⟩) ⟨path, hu⟩

/-! ### Stored defaults -/

/-- Whether a value is a default in the definition of a type, or of a type below it. -/
def FieldType.HasDefault (type : FieldType) (d : Value) : Prop :=
  ∃ b, type.Reaches b ∧ ∃ f ∈ b.fields, f.default = some d

/-- Whether a path leads from a default in the definition of a type to a struct. -/
def Store.Stores (σ : Store) (type : FieldType) (s : StructInstance) : Prop :=
  ∃ d, type.HasDefault d ∧ σ.LeadsTo d s

/-- Whether a value is plain, or is read along a path from a default in the definition of a type. -/
def Store.FromDefaults (σ : Store) (type : FieldType) (v : Value) : Prop :=
  v.Plain ∨ ∃ d path, type.HasDefault d ∧ σ.read? d path = some v

theorem Store.FromDefaults.stores {σ : Store} {type : FieldType} {s : StructInstance}
    (h : σ.FromDefaults type (.struct s)) : σ.Stores type s := by
  rcases h with hplain | ⟨d, path, hd, hpath⟩
  · cases hplain
  · exact ⟨d, hd, path, hpath⟩

namespace World

theorem Present.reaches {w : World μ} {type b : FieldType} (h : w.Present (.type type))
    (hb : type.Reaches b) : w.Present (.type b) := by
  induction hb with
  | refl => exact h
  | field _ hf ih => exact ih.field hf (List.mem_cons_self ..)

/-- A stored default conforms to a value type, or is a struct that is there. -/
theorem Reachable.default_cases {w : World μ} (hw : w.Reachable) {type : FieldType}
    (htype : w.Present (.type type)) {d : Value} (hd : type.HasDefault d) :
    (∃ t, d.Conforms t) ∨ ∃ s, d = .struct s ∧ w.realms.scope.Sound (.value (.struct s)) := by
  obtain ⟨b, hb, f, hf, hdefault⟩ := hd
  obtain ⟨schema, hschema, hf⟩ := (htype.reaches hb).exists_schema hf
  have htyped := ((hw.sound.present hschema).field f hf).default d hdefault
  have hfits := hw.sound.realms.fits htyped
  generalize f.type = type at hfits
  cases hfits with
  | value h => exact .inl ⟨_, h⟩
  | struct => exact .inr ⟨_, rfl, htyped.sound⟩

theorem Reachable.fromDefaults_cases {w : World μ} (hw : w.Reachable) {type : FieldType}
    (htype : w.Present (.type type)) {v : Value} (hv : w.realms.store.FromDefaults type v) :
    v.Plain ∨ (∃ t, v.Conforms t) ∨
      ∃ s, v = .struct s ∧ w.realms.scope.Sound (.value (.struct s)) := by
  rcases hv with hplain | ⟨d, path, hd, hpath⟩
  · exact .inl hplain
  · exact .inr (hw.sound.realms.read?_cases (hw.default_cases htype hd) hpath)

theorem Reachable.sound_of_stores {w : World μ} (hw : w.Reachable) {type : FieldType}
    (htype : w.Present (.type type)) {s : StructInstance} (hs : w.realms.store.Stores type s) :
    w.realms.scope.Sound (.value (.struct s)) := by
  obtain ⟨d, hd, path, hpath⟩ := hs
  rcases hw.fromDefaults_cases htype (.inr ⟨d, path, hd, hpath⟩) with hplain | ⟨t, ht⟩ | ⟨_, heq, hs⟩
  · cases hplain
  · cases ht.proper_self
  · cases heq
    exact hs

/-- The cells of a store, whatever numbers it gives out next. -/
def base (w : World μ) : Store :=
  { cells := w.realms.store.cells, nextId := 0 }

/-- What is read from stored defaults, with the types that the definition of a type is made of. -/
theorem Reachable.defaults {w : World μ} (hw : w.Reachable) {type : FieldType}
    (htype : w.Present (.type type)) :
    Inventory w.base (w.realms.store.FromDefaults type) type.Reaches where
  plain _ hv := .inl hv
  entries id entries h e he := by
    rcases hw.fromDefaults_cases htype h with hplain | ⟨t, ht⟩ | ⟨_, heq, _⟩
    · cases hplain
    · cases ht.proper_self
    · cases heq
  slots i h v hv := by
    rcases h with hplain | ⟨d, path, hd, hpath⟩
    · cases hplain
    · rcases hw.sound.realms.read?_cases (hw.default_cases htype hd) hpath with ⟨t, ht⟩ | ⟨_, heq, _⟩
      · obtain ⟨name, hname⟩ := ht.exists_field? w.realms.store hv
        exact .inr ⟨d, path ++ [name], hd, (Store.read?_snoc hpath name).trans hname⟩
      · cases heq
  cell s h := by
    obtain ⟨cell, hcell, _⟩ := Realms.exists_cell (hw.sound_of_stores htype h.stores)
    refine ⟨cell, hcell, fun v hv => ?_⟩
    rcases h with hplain | ⟨d, path, hd, hpath⟩
    · cases hplain
    · obtain ⟨name, hname⟩ := hw.sound.realms.exists_field? hcell hv
      exact .inr ⟨d, path ++ [name], hd, (Store.read?_snoc hpath name).trans hname⟩
  fields b hb f hf := .field hb hf
  default b hb f hf d hd := .inr ⟨d, [], ⟨b, hb, f, hf, hd⟩, rfl⟩

theorem base_retains {w : World μ} {σ : Store} {there : Value → Prop}
    (hcells : ∀ s, there (.struct s) → σ.cell? s = w.realms.store.cell? s)
    (hsize : w.realms.store.cells.size ≤ σ.cells.size) : w.base.Retains there σ :=
  ⟨fun s _ hs hcell => (hcells s hs).trans hcell, hsize, Nat.zero_le _⟩

/-! ### Two default constructions -/

/-- What a construction has made, a run that spares the stored defaults makes again. -/
theorem Reachable.construct_again {w w' : World μ} (hw : w.Reachable) {S : StructType}
    (hS : w.Present (.type (.struct S)))
    (hrun : w.LeadsSparing (w.realms.store.Stores (.struct S)) w') {a : StructInstance} {σ : Store}
    (ha : (S.construct none).run w.realms.store = .ok (a, σ)) :
    ∃ b τ, (S.construct none).run w'.realms.store = .ok (b, τ) ∧
      Store.Related (Value.Twin (w.realms.store.FromDefaults (.struct S)) w.base) σ τ
        (.struct a) (.struct b) := by
  have hdefaults := hw.defaults hS
  have hstart : w.base.Retains (w.realms.store.FromDefaults (.struct S)) w.realms.store :=
    base_retains (fun _ _ => rfl) (Nat.le_refl _)
  have hlater : w.base.Retains (w.realms.store.FromDefaults (.struct S)) w'.realms.store := by
    refine base_retains (fun s hs => ?_) ?_
    · exact hrun.cell? hw.sound (hw.sound_of_stores hS hs.stores) hs.stores
    · exact (hw.sound.leads_extends hrun.leads).store.size_le
  have hparallel : Build.Parallel w.realms.store w'.realms.store
      ((FieldType.struct S).construct none) ((FieldType.struct S).construct none)
      hdefaults.twins.Rel :=
    Correspondence.construct_parallel (C := hdefaults.twins) .refl ⟨hstart, hlater⟩ .none
  obtain ⟨b, τ, hb, _, _, hrelated⟩ := hparallel.of_map.of_ok ha
  exact ⟨b, τ, hb, hrelated.imp fun _ _ h => h.1⟩

/-- From a struct that was constructed without a source, paths lead to structs of stored defaults and
to new ones only. -/
theorem Reachable.stores_or_new {w : World μ} (hw : w.Reachable) {S : StructType}
    (hS : w.Present (.type (.struct S))) {b : StructInstance} {τ : Store}
    (hb : (S.construct none).run w.realms.store = .ok (b, τ)) {u : StructInstance}
    (hu : τ.LeadsTo (.struct b) u) :
    w.realms.store.Stores (.struct S) u ∨ w.realms.store.cells.size ≤ u.address := by
  obtain ⟨_, _, hsame, hrelated⟩ := hw.construct_again hS .refl hb
  rw [hb] at hsame
  cases hsame
  obtain ⟨path, hpath⟩ := hu
  obtain ⟨_, _, htwin⟩ := exists_of_rel_left (hrelated path) hpath
  cases htwin with
  | same hthere => exact .inl hthere.stores
  | struct _ hleft => exact .inr hleft

/-- A run that spares the structs of stored defaults adds none to them. -/
theorem LeadsSparing.stores {w w' : World μ} {type : FieldType}
    (hrun : w.LeadsSparing (w.realms.store.Stores type) w') (hw : w.Reachable)
    (htype : w.Present (.type type)) {u : StructInstance} (hu : w'.realms.store.Stores type u) :
    w.realms.store.Stores type u := by
  obtain ⟨d, hd, path, hpath⟩ := hu
  have hcells : ∀ path s, w.realms.store.read? d path = some (.struct s) →
      w'.realms.store.cell? s = w.realms.store.cell? s := by
    intro path s hs
    have hstores : w.realms.store.Stores type s := ⟨d, hd, path, hs⟩
    exact hrun.cell? hw.sound (hw.sound_of_stores htype hstores) hstores
  rw [Store.read?_eq_of_cells hcells] at hpath
  exact ⟨d, hd, path, hpath⟩

theorem lt_size_of_sound {w : World μ} {s : StructInstance}
    (hs : w.realms.scope.Sound (.value (.struct s))) : s.address < w.realms.store.cells.size := by
  obtain ⟨cell, hcell, _⟩ := Realms.exists_cell hs
  obtain ⟨hlt, _⟩ := Array.getElem?_eq_some_iff.mp hcell
  exact hlt

/-- The world after a struct was constructed without a source. -/
def constructed (w : World μ) (S : StructType) : World μ :=
  w.perform (.constructStruct S none)

theorem store_constructed {w : World μ} {S : StructType} {a : StructInstance} {σ : Store}
    (ha : (S.construct none).run w.realms.store = .ok (a, σ)) :
    (w.constructed S).realms.store = σ := by
  rw [constructed, perform, Operation.run, Operation.hand, Realms.build, ha]

theorem gave_constructed {w : World μ} {S : StructType} {a : StructInstance} {σ : Store}
    (ha : (S.construct none).run w.realms.store = .ok (a, σ)) :
    (w.constructed S).Gave (.value (.struct a)) := by
  have hanswer : ((Operation.constructStruct S none).run w.realms).1 =
      .ok [.value (.struct a)] := by
    rw [Operation.run, Operation.hand, Realms.build, ha]
    rfl
  exact gave_of_run hanswer _ (List.mem_singleton.mpr rfl)

theorem admits_construct {w : World μ} {S : StructType} (hS : w.Gave (.type (.struct S))) :
    w.Admits (.constructStruct S none) :=
  List.forall_mem_singleton.mpr (.given hS)

theorem leads_constructed {w : World μ} {S : StructType} (hS : w.Gave (.type (.struct S))) :
    w.Leads (w.constructed S) :=
  .step .refl _ (admits_construct hS)

theorem LeadsSparing.of_constructed {w w' : World μ} {S : StructType}
    {P : StructInstance → Prop} (h : (w.constructed S).LeadsSparing P w')
    (hS : w.Gave (.type (.struct S))) : w.LeadsSparing P w' :=
  h.of_perform (admits_construct hS) (by rintro s ⟨_, _, heq⟩; cases heq)

/-- Default-constructed structs are independent in all but the stored defaults. All structs of a new
struct's own are new: no path leads to them from any struct that was there, or from a default in the
definition of the type. In whatever else happens, a struct that was there shows the same as before,
if no struct was written that a path leads to from it. If no struct was written that a path leads to
from a stored default, then a later construction succeeds and shows the same; no path leads from it to
the structs of the first one's own; and it goes on to show the same, if no struct is written that a
path leads to from it. -/
theorem default_structs_independent {w : World μ} (hw : w.Reachable) {S : StructType}
    (hS : w.Gave (.type (.struct S))) {a : StructInstance} {σ : Store}
    (ha : (S.construct none).run w.realms.store = .ok (a, σ)) :
    (∀ u, a.Owns σ u → ¬ w.realms.store.Stores (.struct S) u ∧
      ∀ b, w.Present (.value (.struct b)) → ¬ w.realms.store.LeadsTo (.struct b) u) ∧
    (∀ b, w.Present (.value (.struct b)) → ∀ w',
      (w.constructed S).LeadsSparing (w.realms.store.LeadsTo (.struct b)) w' →
        w'.realms.store.content (.struct b) = w.realms.store.content (.struct b)) ∧
    ∀ w', (w.constructed S).LeadsSparing (w.realms.store.Stores (.struct S)) w' →
      ∃ b τ, (S.construct none).run w'.realms.store = .ok (b, τ) ∧
        τ.content (.struct b) = σ.content (.struct a) ∧
        (∀ u, a.Owns σ u → ¬ τ.LeadsTo (.struct b) u) ∧
        ∀ w'', (w'.constructed S).LeadsSparing (τ.LeadsTo (.struct b)) w'' →
          w''.realms.store.content (.struct b) = τ.content (.struct b) := by
  have hpresent : w.Present (.type (.struct S)) := .given hS
  have hnew : ∀ u, a.Owns σ u → w.realms.store.cells.size ≤ u.address ∧ u.address < σ.cells.size :=
    StructType.construct_new ha σ (.refl σ)
  refine ⟨fun u hu => ⟨fun hstores => ?_, fun b hb hleads => ?_⟩, fun b hb w' hrun => ?_,
    fun w' hrun => ?_⟩
  · exact (hnew u hu).1.not_gt (lt_size_of_sound (hw.sound_of_stores hpresent hstores))
  · have hsound := hw.sound.realms.sound_of_leadsTo (hw.sound.present hb) hleads
    exact (hnew u hu).1.not_gt (lt_size_of_sound hsound)
  · exact (hrun.of_constructed hS).content_eq hw.sound (hw.sound.present hb)
  · have hspares := hrun.of_constructed hS
    have hw₁ := hw.leads (leads_constructed hS)
    have hw' := hw.leads hspares.leads
    have hS' := hS.leads hspares.leads
    have hw₂ := hw'.leads (leads_constructed hS')
    obtain ⟨b, τ, hb, hrelated⟩ := hw.construct_again hpresent hspares ha
    have hσ := store_constructed ha
    have hτ := store_constructed hb
    have ha' := hw₁.sound.gave _ (gave_constructed ha)
    have hb' := hw₂.sound.gave _ (gave_constructed hb)
    have hlater : σ.cells.size ≤ w'.realms.store.cells.size :=
      hσ ▸ (hw₁.sound.leads_extends hrun.leads).store.size_le
    refine ⟨b, τ, hb, ?_, fun u hu hleads => ?_, fun w'' hrun' => ?_⟩
    · rw [← hσ, ← hτ] at hrelated ⊢
      refine (hw₁.sound.realms.content_eq_of_related hw₂.sound.realms ha' hb'
        (hrelated.imp fun _ _ h => ?_)).symm
      cases h with
      | same => exact .same _
      | inst type => exact .inst type
      | struct type => exact .struct type
    · rcases hw'.stores_or_new (.given hS') hb hleads with hstores | haddress
      · have hold := lt_size_of_sound (hw.sound_of_stores hpresent
          (hspares.stores hw hpresent hstores))
        exact (hnew u hu).1.not_gt hold
      · exact (hlater.trans haddress).not_gt (hnew u hu).2
    · rw [← hτ] at hrun' ⊢
      exact hrun'.content_eq hw₂.sound hb'

namespace Sample

/-- A type of structs with two boxes, one of which is stored in the definition. -/
def shelf : StructType :=
  ⟨2, 1, "H", ⟨.struct,
    [⟨"b", .struct box, false, none⟩, ⟨"d", .struct box, false, some (.struct ⟨0, box⟩)⟩], 0, 2⟩,
    .strict⟩

/-- The world with the definition. -/
def shelves : World Unit :=
  boxes.perform (.structType 1 "H"
    [⟨"b", .struct box, false, none⟩, ⟨"d", .struct box, false, some (.struct ⟨0, box⟩)⟩])

/-- What a new shelf shows, by the number in the stored box. -/
def shelfContent (n : Int) : Content :=
  .struct "H" 2 [("b", .struct "B" 1 [("r", .int 0)]), ("d", .struct "B" 1 [("r", .int n)])]

theorem shelves_reachable : shelves.Reachable := by
  refine boxes_reachable.leads (.step .refl _ ?_)
  exact List.forall_mem_cons.mpr ⟨.given (gave_at 8 0 rfl rfl),
    List.forall_mem_cons.mpr ⟨.given (gave_at 1 0 rfl rfl),
      List.forall_mem_cons.mpr ⟨.given (gave_at 1 0 rfl rfl),
        List.forall_mem_singleton.mpr (.given (gave_at 0 0 rfl rfl))⟩⟩⟩

/-- The world with one shelf, after the box of its own was looked up and written. -/
def filled : World Unit :=
  ((shelves.constructed shelf).perform (.inspect (.value (.struct ⟨2, shelf⟩)))).perform
    (.setProperty (.struct ⟨1, box⟩) "r" (.int 9))

/-- The world with two shelves, each with a box of its own and the stored box. -/
def stocked : World Unit :=
  (shelves.constructed shelf).constructed shelf

/-- The world after the stored box was written. -/
def relabeled : World Unit :=
  stocked.perform (.setProperty (.struct ⟨0, box⟩) "r" (.int 9))

set_option maxRecDepth 4000 in
/-- The box in the field without a default is the shelf's own. It is written, and a later shelf shows
the same as the first one did. -/
theorem default_structs_independent_shelf : shelves.Reachable ∧
    shelves.Gave (.type (.struct shelf)) ∧
    ∃ σ, (shelf.construct none).run shelves.realms.store = .ok (⟨2, shelf⟩, σ) ∧
      (StructInstance.mk 2 shelf).Owns σ ⟨1, box⟩ ∧
      σ.content (.struct ⟨2, shelf⟩) = shelfContent 5 ∧
      ∃ b τ, (shelf.construct none).run filled.realms.store = .ok (b, τ) ∧
        τ.content (.struct b) = shelfContent 5 ∧ ¬ τ.LeadsTo (.struct b) ⟨1, box⟩ := by
  have htype : shelves.Gave (.type (.struct shelf)) := gave_at 0 0 rfl rfl
  have hrun : (shelf.construct none).run shelves.realms.store =
      .ok (⟨2, shelf⟩, (shelves.constructed shelf).realms.store) := rfl
  have howns : (StructInstance.mk 2 shelf).Owns (shelves.constructed shelf).realms.store ⟨1, box⟩ :=
    .field (k := 0) .self rfl rfl rfl rfl rfl
  obtain ⟨hown, _, hlater⟩ := default_structs_independent shelves_reachable htype hrun
  have hspares : (shelves.constructed shelf).LeadsSparing
      (shelves.realms.store.Stores (.struct shelf)) filled := by
    refine .step (.step .refl _ ?_ ?_) _ ?_ ?_
    · exact List.forall_mem_singleton.mpr (.given (gave_at 0 0 rfl rfl))
    · rintro s ⟨_, _, ⟨⟩⟩
    · exact List.forall_mem_cons.mpr ⟨.given (gave_at 0 1 rfl rfl),
        List.forall_mem_singleton.mpr (.plain (.int 9))⟩
    · rintro s ⟨_, _, heq⟩
      cases heq
      exact (hown _ howns).1
  obtain ⟨b, τ, hagain, hcontent, hdisjoint, _⟩ := hlater _ hspares
  exact ⟨shelves_reachable, htype, _, hrun, howns, rfl, b, τ, hagain, hcontent, hdisjoint _ howns⟩

set_option maxRecDepth 4000 in
/-- The stored box is found in both shelves and in any later one, so a write to it through one shelf
shows in all of them. -/
theorem default_structs_share_stored : stocked.Reachable ∧
    stocked.Answered (.constructStruct shelf none) [.value (.struct ⟨2, shelf⟩)] ∧
    stocked.Answered (.constructStruct shelf none) [.value (.struct ⟨4, shelf⟩)] ∧
    stocked.realms.store.get? ⟨2, shelf⟩ "d" = some (.struct ⟨0, box⟩) ∧
    (shelf.schema.field? "d").map (·.isStatic) = some false ∧
    stocked.Leads relabeled ∧
    relabeled.Answered (.setProperty (.struct ⟨0, box⟩) "r" (.int 9)) [] ∧
    stocked.realms.store.content (.struct ⟨4, shelf⟩) = shelfContent 5 ∧
    relabeled.realms.store.content (.struct ⟨4, shelf⟩) = shelfContent 9 ∧
    (∃ c τ, (shelf.construct none).run relabeled.realms.store = .ok (c, τ) ∧
      τ.content (.struct c) = shelfContent 9) ∧
    shelfContent 9 ≠ shelfContent 5 := by
  have htype : shelves.Gave (.type (.struct shelf)) := gave_at 0 0 rfl rfl
  have hfirst := leads_constructed htype
  have hstocked : stocked.Reachable :=
    shelves_reachable.leads (hfirst.trans (leads_constructed (htype.leads hfirst)))
  have hwrite : stocked.Leads relabeled := by
    refine .step .refl _ ?_
    exact List.forall_mem_cons.mpr ⟨.given (gave_at 3 0 rfl rfl),
      List.forall_mem_singleton.mpr (.plain (.int 9))⟩
  refine ⟨hstocked, List.mem_of_getElem? (i := 1) rfl, List.mem_of_getElem? (i := 0) rfl, rfl, rfl,
    hwrite, List.mem_of_getElem? (i := 0) rfl, rfl, rfl, ⟨_, _, rfl, rfl⟩, ?_⟩
  rintro ⟨⟩

end Sample

end World

end ValueTypes
