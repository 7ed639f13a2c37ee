import ValueTypes.Proofs.Construction.Correspondence
import ValueTypes.Proofs.Store.Acyclic

/-! Contents show nothing but what is read along paths. If all paths lead to the same in two structs,
up to the numbers of instances and the addresses of structs, then their contents are the same. In
particular a struct shows the same as long as no struct is changed that a path leads to. -/

namespace ValueTypes

variable {μ : Type}

/-- Whether two values are one, or two objects of one type. -/
inductive Value.SameHead : Value → Value → Prop where
  | same (v) : SameHead v v
  | inst {i j} (type : i.type = j.type) : SameHead (.inst i) (.inst j)
  | struct {s t} (type : s.type = t.type) : SameHead (.struct s) (.struct t)

/-! ### Slots by name -/

/-- What is made of the slots of two objects with the same names is the same, if it is for the slots
of each name. -/
theorem map_eq_map_of_lookup {α β : Type} {R : α → α → Prop} {names : List String}
    (hnodup : names.Nodup) {us vs : List α} (hus : us.length = names.length)
    (hvs : vs.length = names.length)
    (h : ∀ name, Option.Rel R ((names.zip us).lookup name) ((names.zip vs).lookup name))
    {f g : α → β} (hfg : ∀ u ∈ us, ∀ v ∈ vs, R u v → f u = g v) : us.map f = vs.map g := by
  refine List.ext_getElem (by rw [List.length_map, List.length_map, hus, hvs]) fun k hk hk' => ?_
  rw [List.length_map] at hk hk'
  have hlt : k < names.length := hus ▸ hk
  have hname := List.getElem?_eq_getElem hlt
  have hpair := h names[k]
  rw [lookup_zip hnodup hname, lookup_zip hnodup hname, List.getElem?_eq_getElem hk,
    List.getElem?_eq_getElem hk'] at hpair
  rw [List.getElem_map, List.getElem_map]
  cases hpair with
  | some huv => exact hfg _ (List.getElem_mem hk) _ (List.getElem_mem hk') huv

theorem Schema.length_names (schema : Schema) : schema.names.length = schema.fields.length :=
  List.length_map _

/-! ### Contents -/

namespace Value.Conforms

variable {σ τ : Store} {u v : Value} {t t' : ValueType}

/-- Conforming values show the same, if they read the same. The induction is on the first: slots of
the same name conform and read the same as well. -/
theorem contentWith_eq_of_related (hu : u.Conforms t) (hv : v.Conforms t')
    (h : Store.Related SameHead σ τ u v) (look look' : StructInstance → Content) :
    u.contentWith look = v.contentWith look' := by
  induction u using Value.inductionOn generalizing v t t' with
  | other u hu' =>
      cases h.head with
      | same => exact hu.contentWith_eq look look'
      | inst => exact absurd rfl (hu' _)
      | struct => cases hu.proper_self
  | inst i ih =>
      cases h.head with
      | same => exact hu.contentWith_eq look look'
      | @inst _ j type =>
          have huslots := hu.slots
          have hvslots := hv.slots
          cases hu with
          | primitive _ haccepts => cases haccepts
          | inst _ hlayout hnodup hlength =>
              cases hv with
              | primitive _ haccepts => cases haccepts
              | inst _ hlayout' _ hlength' =>
                  rw [← type, hlayout] at hlayout'
                  cases hlayout'
                  have hfields := h.field?
                  simp only [Store.field?_inst, Instance.get?, Instance.fields, ← type,
                    ValueType.schema?, hlayout, Option.elim_some] at hfields
                  rw [contentWith_inst, contentWith_inst, ← type]
                  congr 2
                  refine map_eq_map_of_lookup hnodup (hlength.trans (Schema.length_names _).symm)
                    (hlength'.trans (Schema.length_names _).symm) hfields fun a ha b hb hab => ?_
                  obtain ⟨_, ha'⟩ := huslots a ha
                  obtain ⟨_, hb'⟩ := hvslots b hb
                  exact ih a ha ha' hb' hab

end Value.Conforms

namespace Realms.Sound

variable {rs rs' : Realms μ}

/-- Structs show the same, if they read the same. The induction is on the number of their type: a slot
holds a conforming value, or a struct of an earlier type. -/
theorem content_eq_of_related (hrs : rs.Sound) (hrs' : rs'.Sound) {s t : StructInstance}
    (hs : rs.scope.Sound (.value (.struct s))) (ht : rs'.scope.Sound (.value (.struct t)))
    (h : Store.Related Value.SameHead rs.store rs'.store (.struct s) (.struct t)) :
    rs.store.content (.struct s) = rs'.store.content (.struct t) := by
  induction hid : s.type.id using Nat.strong_induction_on generalizing s t with
  | h id ih =>
      have htypes : s.type = t.type := by
        cases h.head with
        | same => rfl
        | struct type => exact type
      obtain ⟨cell, hcell, htype⟩ := exists_cell hs
      obtain ⟨cell', hcell', htype'⟩ := exists_cell ht
      have hmem := Array.mem_of_getElem? hcell
      have hmem' := Array.mem_of_getElem? hcell'
      have hsame : cell'.type = cell.type := htype'.trans (htypes.symm.trans htype.symm)
      have hlength := (hrs.cells cell hmem).fills.admits.length_eq
      have hlength' := (hrs'.cells cell' hmem').fills.admits.length_eq
      rw [hsame] at hlength'
      have hnodup := hs.struct_type.struct_schema.names
      rw [← htype] at hnodup
      have hread : ∀ name, Option.Rel (Store.Related Value.SameHead rs.store rs'.store)
          ((cell.type.schema.names.zip cell.slots).lookup name)
          ((cell.type.schema.names.zip cell'.slots).lookup name) := by
        intro name
        have hname := h.field? name
        change Option.Rel _ ((rs.store.cell? s).bind (·.get? name))
          ((rs'.store.cell? t).bind (·.get? name)) at hname
        rw [hcell, hcell', Option.bind_some, Option.bind_some, Cell.get?, Cell.get?, Cell.fields,
          Cell.fields, hsame] at hname
        exact hname
      rw [hrs.content_struct hs hcell, hrs'.content_struct ht hcell', htypes, hsame]
      congr 2
      refine map_eq_map_of_lookup hnodup (hlength.symm.trans (Schema.length_names _).symm)
        (hlength'.symm.trans (Schema.length_names _).symm) hread fun u hu v hv huv => ?_
      rcases hrs.slot_cases hmem hu with ⟨_, hu⟩ | ⟨a, rfl, ha, hlt⟩ <;>
        rcases hrs'.slot_cases hmem' hv with ⟨_, hv⟩ | ⟨b, rfl, hb, _⟩
      · exact hu.contentWith_eq_of_related hv huv _ _
      · cases huv.head with
        | same => cases hu.proper_self
        | struct => cases hu.proper_self
      · cases huv.head with
        | same => cases hv.proper_self
        | struct => cases hv.proper_self
      · rw [htype] at hlt
        exact ih a.type.id (hid ▸ hlt) ha hb huv rfl

end Realms.Sound

/-! ### Changes elsewhere -/

/-- If no struct is changed that a path leads to, then every path leads to the same as before. -/
theorem Store.read?_eq_of_cells {σ τ : Store} {v : Value}
    (h : ∀ path s, σ.read? v path = some (.struct s) → τ.cell? s = σ.cell? s) (path : List String) :
    τ.read? v path = σ.read? v path := by
  induction path generalizing v with
  | nil => rfl
  | cons name path ih =>
      have hfield : τ.field? v name = σ.field? v name := by
        cases v with
        | struct s =>
            change (τ.cell? s).bind (·.get? name) = (σ.cell? s).bind (·.get? name)
            rw [h [] s rfl]
        | _ => rfl
      rw [read?_cons, read?_cons, hfield]
      cases hu : σ.field? v name with
      | none => rfl
      | some u =>
          refine ih fun path s hs => h (name :: path) s ?_
          rw [read?_cons, hu]
          exact hs

namespace Realms.Sound

variable {rs rs' : Realms μ}

/-- A struct shows the same as long as no struct is changed that a path leads to. -/
theorem content_eq_of_cells (hrs : rs.Sound) (hrs' : rs'.Sound) {s : StructInstance}
    (hs : rs.scope.Sound (.value (.struct s))) (hs' : rs'.scope.Sound (.value (.struct s)))
    (h : ∀ path u, rs.store.read? (.struct s) path = some (.struct u) →
      rs'.store.cell? u = rs.store.cell? u) :
    rs'.store.content (.struct s) = rs.store.content (.struct s) := by
  refine (hrs.content_eq_of_related hrs' hs hs' fun path => ?_).symm
  rw [Store.read?_eq_of_cells h]
  cases rs.store.read? (.struct s) path with
  | none => exact .none
  | some u => exact .some (.same u)

end Realms.Sound

end ValueTypes
