import Mathlib.Data.Finset.Card
import ValueTypes.Proofs.Value.Content

/-! The structs in a sound store. What a struct has in its fields conforms to their types, and each
struct among it is of an earlier struct type. So no struct can be reached from itself, everything
that follows fields comes to an end, and contents show all of a struct. -/

namespace ValueTypes

variable {μ : Type}

namespace Store

/-- Whether a value is of the type of a field in a store: it conforms to a value type, or it is a
struct of the very type, which is in the store and of the type that its handle tells. -/
inductive Fits (store : Store) : Value → FieldType → Prop where
  | value {v t} (h : v.Conforms t) : Fits store v (.value t)
  | struct {s u cell} (same : s.type.same u = true) (live : store.cell? s = some cell)
      (type : cell.type = s.type) : Fits store (.struct s) (.struct u)

/-- Whether one value is in a field of another. -/
def PartOf (store : Store) (u v : Value) : Prop :=
  ∃ name, store.field? v name = some u

/-- The number of structs of types before that of a given number. -/
def level (store : Store) (id : StructId) : Nat :=
  ((Finset.range store.cells.size).filter fun k => (store.typeAt? k).any (·.id < id)).card

variable {store : Store}

theorem level_lt_level {k : Nat} {s : StructType} (hs : store.typeAt? k = some s) {id : StructId}
    (h : s.id < id) : store.level s.id < store.level id := by
  refine Finset.card_lt_card (Finset.ssubset_iff_of_subset ?_ |>.mpr ⟨k, ?_, ?_⟩)
  · intro j hj
    rw [Finset.mem_filter, Option.any_eq_true] at hj ⊢
    rcases hj with ⟨hrange, t, ht, hlt⟩
    refine ⟨hrange, t, ht, ?_⟩
    rw [decide_eq_true_eq] at hlt ⊢
    exact hlt.trans h
  · rcases exists_cell hs with ⟨cell, hcell, _⟩
    rcases Array.getElem?_eq_some_iff.mp hcell with ⟨hlt, _⟩
    rw [Finset.mem_filter, hs]
    exact ⟨Finset.mem_range.mpr hlt, decide_eq_true h⟩
  · rw [Finset.mem_filter, hs]
    rintro ⟨_, hlt⟩
    exact Nat.lt_irrefl _ (of_decide_eq_true hlt)

theorem level_lt_size {k : Nat} {s : StructType} (hs : store.typeAt? k = some s) :
    store.level s.id < store.cells.size := by
  refine (level_lt_level hs (Nat.lt_succ_self _)).trans_le ?_
  exact (Finset.card_filter_le _ _).trans (Finset.card_range _).le

/-- What a struct has in a field is in a slot of it. -/
theorem mem_slots_of_field? {s : StructInstance} {name : String} {v : Value}
    (h : store.field? (.struct s) name = some v) :
    ∃ cell, store.cell? s = some cell ∧ v ∈ cell.slots := by
  have hget : store.get? s name = some v := h
  rcases Option.bind_eq_some_iff.mp hget with ⟨cell, hcell, hv⟩
  exact ⟨cell, hcell, (List.of_mem_zip (mem_of_lookup hv)).2⟩

end Store

theorem Value.Plain.acc_partOf {v : Value} (hv : v.Plain) (store : Store) :
    Acc store.PartOf v := by
  refine ⟨_, fun u ⟨name, hu⟩ => ?_⟩
  rw [Store.field?_plain hv] at hu
  cases hu

/-- Following fields of a conforming value comes to an end. -/
theorem Value.Conforms.acc_partOf {v : Value} {t : ValueType} (h : v.Conforms t) (store : Store) :
    Acc store.PartOf v := by
  induction v using Value.inductionOn generalizing t with
  | inst i ih =>
      refine ⟨_, fun u ⟨name, hu⟩ => ?_⟩
      rcases h.field? store hu with ⟨t', ht'⟩
      rw [Store.field?_inst] at hu
      exact ih u (List.of_mem_zip (mem_of_lookup hu)).2 ht'
  | other v hv => exact (h.plain_of_not_inst hv).acc_partOf store

/-! ### Sound structs -/

/-- The handle of a sound struct leads to a struct of the type that it tells. -/
theorem Realms.exists_cell {rs : Realms μ} {s : StructInstance}
    (h : rs.scope.Sound (.value (.struct s))) :
    ∃ cell, rs.store.cell? s = some cell ∧ cell.type = s.type :=
  Store.exists_cell h.live

namespace Realms.Sound

variable {rs : Realms μ}

/-- The handle of each struct in the store is sound. -/
theorem struct_sound (hrs : rs.Sound) {k : Nat} {cell : Cell}
    (hcell : rs.store.cells[k]? = some cell) :
    rs.scope.Sound (.value (.struct ⟨k, cell.type⟩)) :=
  .struct (hrs.cells cell (Array.mem_of_getElem? hcell)).type (Store.typeAt?_of_getElem? hcell)

theorem fits (hrs : rs.Sound) {type : FieldType} {v : Value} (h : rs.scope.Typed type v) :
    rs.store.Fits v type := by
  cases h.typed with
  | primitive ht hv => exact .value (.primitive ht hv)
  | composite ht hv =>
      cases v with
      | inst i => exact .value (hrs.conforms h.sound i _ rfl hv)
      | _ => cases hv
  | struct hv =>
      cases v with
      | struct s =>
          rcases exists_cell h.sound with ⟨cell, hcell, htype⟩
          exact .struct hv hcell htype
      | _ => cases hv

/-- A slot of a struct holds a conforming value, or a struct of an earlier struct type. -/
theorem slot_cases (hrs : rs.Sound) {cell : Cell} (hcell : cell ∈ rs.store.cells) {v : Value}
    (hv : v ∈ cell.slots) :
    (∃ t, v.Conforms t) ∨
      ∃ s, v = .struct s ∧ rs.scope.Sound (.value (.struct s)) ∧ s.type.id < cell.type.id := by
  have hsound := hrs.cells cell hcell
  rcases List.mem_iff_getElem?.mp hv with ⟨k, hk⟩
  rcases exists_left_of_forall₂ hsound.fills.admits hk with ⟨f, hf, hadmits⟩
  have hv' := hsound.fills.sound v hv
  have hfits := hrs.fits ⟨hv', hadmits.typed⟩
  generalize htype : f.type = type at hfits
  cases hfits with
  | value h => exact .inl ⟨_, h⟩
  | @struct s u _ hsame =>
      refine .inr ⟨s, rfl, hv', ?_⟩
      rw [eq_of_beq hsame]
      exact hsound.type.struct_below f (List.mem_of_getElem? hf) u htype

/-- What a struct has in a field conforms to a type, or is a struct of an earlier struct type. -/
theorem field?_cases (hrs : rs.Sound) {s : StructInstance}
    (hs : rs.scope.Sound (.value (.struct s))) {name : String} {v : Value}
    (h : rs.store.field? (.struct s) name = some v) :
    (∃ t, v.Conforms t) ∨
      ∃ u, v = .struct u ∧ rs.scope.Sound (.value (.struct u)) ∧ u.type.id < s.type.id := by
  rcases Store.mem_slots_of_field? h with ⟨cell, hcell, hv⟩
  rcases exists_cell hs with ⟨other, hother, htype⟩
  rw [hcell] at hother
  cases hother
  rw [← htype]
  exact hrs.slot_cases (Array.mem_of_getElem? hcell) hv

/-- Along every path from struct to struct the numbers of the struct types decrease. -/
theorem id_lt_of_read? (hrs : rs.Sound) {s u : StructInstance}
    (hs : rs.scope.Sound (.value (.struct s))) {path : List String} (hpath : path ≠ [])
    (h : rs.store.read? (.struct s) path = some (.struct u)) :
    rs.scope.Sound (.value (.struct u)) ∧ u.type.id < s.type.id := by
  induction path generalizing s with
  | nil => exact absurd rfl hpath
  | cons name path ih =>
      rw [Store.read?_cons] at h
      rcases Option.bind_eq_some_iff.mp h with ⟨v, hv, hread⟩
      rcases hrs.field?_cases hs hv with ⟨t, ht⟩ | ⟨w, rfl, hw, hlt⟩
      · rcases ht.read? rs.store hread with ⟨t', ht'⟩
        cases ht'.proper_self
      · by_cases hend : path = []
        · subst hend
          cases hread
          exact ⟨hw, hlt⟩
        · rcases ih hw hend hread with ⟨hu, hlt'⟩
          exact ⟨hu, hlt'.trans hlt⟩

/-- No struct is reached from itself. -/
theorem address_ne_of_read? (hrs : rs.Sound) {s u : StructInstance}
    (hs : rs.scope.Sound (.value (.struct s))) {path : List String} (hpath : path ≠ [])
    (h : rs.store.read? (.struct s) path = some (.struct u)) : u.address ≠ s.address := by
  intro haddress
  rcases hrs.id_lt_of_read? hs hpath h with ⟨hu, hlt⟩
  have htype := hu.live
  rw [haddress, hs.live] at htype
  rw [Option.some.inj htype] at hlt
  exact Nat.lt_irrefl _ hlt

/-- Following fields of a struct comes to an end. The induction is on the number of its type. -/
theorem acc_partOf_struct (hrs : rs.Sound) {s : StructInstance}
    (hs : rs.scope.Sound (.value (.struct s))) : Acc rs.store.PartOf (.struct s) := by
  induction hid : s.type.id using Nat.strong_induction_on generalizing s with
  | h id ih =>
      refine ⟨_, fun v ⟨name, hv⟩ => ?_⟩
      rcases hrs.field?_cases hs hv with ⟨t, ht⟩ | ⟨u, rfl, hu, hlt⟩
      · exact ht.acc_partOf rs.store
      · exact ih u.type.id (hid ▸ hlt) hu rfl

/-- Following fields of any sound value comes to an end. -/
theorem acc_partOf (hrs : rs.Sound) {x : Item} (hx : rs.scope.Sound x) :
    ∀ v, x = .value v → Acc rs.store.PartOf v := by
  induction hx with
  | plain hplain =>
      rintro v ⟨⟩
      exact hplain.acc_partOf rs.store
  | record _ ih =>
      rintro v ⟨⟩
      refine ⟨_, fun u ⟨name, hu⟩ => ?_⟩
      exact ih _ (mem_of_lookup hu) u rfl
  | @inst i _ htype hlayout hslots hsound =>
      rintro v ⟨⟩
      have hconforms := hrs.conforms (.inst htype hlayout hslots hsound) i i.type rfl
        i.type.equivalent_refl
      exact hconforms.acc_partOf rs.store
  | struct htype hlive =>
      rintro v ⟨⟩
      exact hrs.acc_partOf_struct (.struct htype hlive)
  | _ =>
      rintro v ⟨⟩

/-! ### Contents -/

theorem slotContents_congr (hrs : rs.Sound) {cell : Cell} (hcell : cell ∈ rs.store.cells)
    {look look' : StructInstance → Content}
    (h : ∀ s : StructInstance, rs.scope.Sound (.value (.struct s)) →
      s.type.id < cell.type.id → look s = look' s) :
    slotContents look cell.slots = slotContents look' cell.slots := by
  rw [slotContents_eq_map, slotContents_eq_map]
  refine List.map_congr_left fun v hv => ?_
  rcases hrs.slot_cases hcell hv with ⟨t, ht⟩ | ⟨s, rfl, hs, hlt⟩
  · exact ht.contentWith_eq look look'
  · exact h s hs hlt

/-- With more hops than there are structs of earlier types, one more makes no difference. -/
theorem structContent_succ (hrs : rs.Sound) {hops : Nat} {s : StructInstance}
    (hs : rs.scope.Sound (.value (.struct s))) (h : rs.store.level s.type.id < hops) :
    rs.store.structContent (hops + 1) s = rs.store.structContent hops s := by
  induction hops generalizing s with
  | zero => exact absurd h (Nat.not_lt_zero _)
  | succ hops ih =>
      rcases exists_cell hs with ⟨cell, hcell, htype⟩
      have hslots : slotContents (rs.store.structContent (hops + 1)) cell.slots =
          slotContents (rs.store.structContent hops) cell.slots := by
        refine hrs.slotContents_congr (Array.mem_of_getElem? hcell) fun u hu hlt => ih hu ?_
        rw [htype] at hlt
        exact (Store.level_lt_level hu.live hlt).trans_le (Nat.lt_succ_iff.mp h)
      rw [Store.structContent, Store.structContent, hcell, Option.elim_some, Option.elim_some,
        hslots]

/-- The content of a struct shows its fields in full. -/
theorem content_struct (hrs : rs.Sound) {s : StructInstance}
    (hs : rs.scope.Sound (.value (.struct s))) {cell : Cell}
    (hcell : rs.store.cell? s = some cell) :
    rs.store.content (.struct s) = .struct s.type.name s.type.id
      (cell.type.schema.names.zip (cell.slots.map rs.store.content)) := by
  have hlevel := Store.level_lt_size hs.live
  calc rs.store.content (.struct s)
      = rs.store.structContent (rs.store.cells.size + 1) s := (hrs.structContent_succ hs hlevel).symm
    _ = .struct s.type.name s.type.id (cell.type.schema.names.zip
          (slotContents (rs.store.structContent rs.store.cells.size) cell.slots)) := by
        rw [Store.structContent, hcell, Option.elim_some]
    _ = _ := by
        rw [slotContents_eq_map]
        rfl

end Realms.Sound

end ValueTypes
