import ValueTypes.Proofs.World.Changes

/-! The methods of types in every run: a registry finds under a name what was attached last to the
type under that name. -/

namespace ValueTypes

variable {μ : Type}

/-! ### Tables -/

namespace MethodTable

/-- What a table has under a name after another one was merged into it: the last entry of that one,
if it has any. -/
theorem find?_merge (table added : MethodTable μ) (name : String) :
    (table.merge added).find? name =
      (added.entries.reverse.lookup name).or (table.find? name) := by
  rw [merge]
  induction added.entries generalizing table with
  | nil => rfl
  | cons entry entries ih =>
      rw [List.foldl_cons, ih, List.reverse_cons, List.lookup_append, Option.or_assoc]
      congr 1
      rw [find?, register, Entries.lookup_insert, List.lookup_cons, List.lookup_nil, find?]
      cases name == entry.1 <;> rfl

end MethodTable

/-! ### What was attached -/

/-- What an event attaches to a type of a realm under a name. -/
def Event.attached? (id : RealmId) (t : ValueType) (name : String) : Event μ → Option μ
  | ⟨.attach realm u added, .ok _⟩ =>
    if realm = id ∧ u.same t then added.entries.reverse.lookup name else none
  | _ => none

/-- What was attached last to a type of a realm under a name. -/
def World.attached? (w : World μ) (id : RealmId) (t : ValueType) (name : String) : Option μ :=
  w.log.findSome? (·.attached? id t name)

theorem Event.attached?_of_ne {op : Operation μ} (h : ∀ id t added, op ≠ .attach id t added)
    (answer : Except Error (List Item)) (id : RealmId) (t : ValueType) (name : String) :
    Event.attached? id t name ⟨op, answer⟩ = none := by
  cases op with
  | attach id t added => exact absurd rfl (h id t added)
  | _ => rfl

theorem Registry.attach_eq_ok {r r' : Registry μ} {u : ValueType} {added : MethodTable μ}
    (h : r.attach u added = .ok r') :
    u.realm = r.realm ∧ ∀ (t : ValueType) name, (r'.methods.lookup t.id).bind (·.find? name) =
      (if u.id = t.id then added.entries.reverse.lookup name else none).or
        ((r.methods.lookup t.id).bind (·.find? name)) := by
  rw [attach] at h
  split at h
  · rename_i hcontains
    cases h
    rw [contains, Bool.and_eq_true, beq_iff_eq] at hcontains
    refine ⟨hcontains.1, fun t name => ?_⟩
    rw [Entries.lookup_insert]
    by_cases hid : u.id = t.id
    · rw [hid, beq_self_eq_true, if_pos rfl, if_pos rfl, Option.bind_some,
        MethodTable.find?_merge]
      cases r.methods.lookup t.id <;> rfl
    · rw [if_neg hid, beq_false_of_ne (Ne.symm hid)]
      rfl
  · cases h

namespace Operation

variable {rs : Realms μ} {id : RealmId} {u : ValueType} {added : MethodTable μ}

/-- What an attachment comes to, by what the registry answers. -/
theorem run_attach_of_ok {registry : Registry μ}
    (h : (rs.realm id).registry.attach u added = .ok registry) :
    (Operation.attach id u added).run rs = (.ok [], rs.setRegistry id registry) := by
  rw [run, hand, Realms.attach, h]
  rfl

theorem run_attach_of_error {e : Error} (h : (rs.realm id).registry.attach u added = .error e) :
    (Operation.attach id u added).run rs = (.error e, rs) := by
  rw [run, hand, Realms.attach, h]
  rfl

end Operation

namespace World

theorem attached?_perform (w : World μ) (op : Operation μ) (id : RealmId) (t : ValueType)
    (name : String) : (w.perform op).attached? id t name =
      (Event.attached? id t name ⟨op, (op.run w.realms).1⟩).or (w.attached? id t name) := by
  rw [attached?, perform, List.findSome?_cons]
  cases Event.attached? id t name ⟨op, (op.run w.realms).1⟩ <;> rfl

/-- What the methods of a realm are, by the history of a run; a realm that is not there has none. -/
structure Recorded (w : World μ) : Prop where
  lookup : ∀ id, w.realms.scope.realm id → ∀ t name, t.realm = id →
    ((w.realms.realm id).registry.methods.lookup t.id).bind (·.find? name) = w.attached? id t name
  none : ∀ id, w.realms.members.size < id → ∀ t name, w.attached? id t name = none

theorem Recorded.of_eq {w w' : World μ} (h : w.Recorded) (hrealms : w'.realms = w.realms)
    (hhistory : ∀ id t name, w'.attached? id t name = w.attached? id t name) : w'.Recorded := by
  refine ⟨fun id hid t name ht => ?_, fun id hid t name => ?_⟩
  · rw [hrealms] at hid ⊢
    rw [hhistory]
    exact h.lookup id hid t name ht
  · rw [hrealms] at hid
    rw [hhistory]
    exact h.none id hid t name

/-- Operations other than attachment change neither methods nor history. -/
theorem Recorded.of_ne {w : World μ} (h : w.Recorded) (hw : w.Sound) {op : Operation μ}
    (hop : w.Admits op) (hne : ∀ id t added, op ≠ .attach id t added) :
    (w.perform op).Recorded := by
  have hhistory : ∀ id t name, (w.perform op).attached? id t name = w.attached? id t name := by
    intro id t name
    rw [attached?_perform, Event.attached?_of_ne hne, Option.none_or]
  refine ⟨fun id hid t name ht => ?_, fun id hid t name => ?_⟩
  · rw [hhistory]
    have hk := Realms.getElem?_realm hid
    rcases (op.run_changes w.realms).realm_cases hk with ⟨realm, hrealm, hgrows⟩ | ⟨hsize, _, hnew⟩
    · have hold : w.realms.scope.realm id := by
        obtain ⟨hlt, _⟩ := Array.getElem?_eq_some_iff.mp hrealm
        exact ⟨hid.1, Nat.le_of_pred_lt hlt⟩
      have hmethods : ((w.perform op).realms.realm id).registry.methods =
          (w.realms.realm id).registry.methods := by
        rw [Realms.realm_of_getElem? hrealm]
        rcases hgrows.methods with hsame | ⟨place, u, added, hattach, _⟩
        · exact hsame
        · exact absurd hattach (hne place u added)
      rw [hmethods]
      exact h.lookup id hold t name ht
    · rw [h.none id (hsize ▸ Nat.sub_one_lt_of_lt hid.1)]
      change ((w.perform op).realms.realm id).registry = _ at hnew
      rw [hnew]
      rfl
  · rw [hhistory]
    have hgrows := (hw.run_advances hop).grows
    exact h.none id (Nat.lt_of_le_of_lt hgrows.size_le hid) t name

theorem Recorded.attach {w : World μ} (h : w.Recorded) {id : RealmId}
    (hid : w.realms.scope.realm id) (hrealm : (w.realms.realm id).registry.realm = id)
    (u : ValueType) (added : MethodTable μ) : (w.perform (.attach id u added)).Recorded := by
  cases hattach : (w.realms.realm id).registry.attach u added with
  | error e =>
      have hrun := Operation.run_attach_of_error hattach
      refine h.of_eq ?_ fun place t name => ?_
      · rw [perform, hrun]
      · rw [attached?_perform, hrun]
        rfl
  | ok registry =>
      have hrun := Operation.run_attach_of_ok hattach
      have hrealms : (w.perform (.attach id u added)).realms = w.realms.setRegistry id registry := by
        rw [perform, hrun]
      obtain ⟨howner, hlookup⟩ := Registry.attach_eq_ok hattach
      rw [hrealm] at howner
      have hsize : (w.realms.setRegistry id registry).members.size = w.realms.members.size := by
        rw [Realms.setRegistry, Array.size_modify]
      refine ⟨fun place hplace t name ht => ?_, fun place hplace t name => ?_⟩
      · rw [hrealms] at hplace ⊢
        rw [attached?_perform, hrun]
        have hold : w.realms.scope.realm place := ⟨hplace.1, hsize ▸ hplace.2⟩
        by_cases hsame : id = place
        · subst hsame
          have hthis : u.same t = true ↔ u.id = t.id := by
            rw [ValueType.same, howner, ht, beq_self_eq_true, Bool.true_and, beq_iff_eq]
          rw [Realms.realm_setRegistry hid, hlookup, h.lookup id hid t name ht, Event.attached?]
          simp only [true_and, hthis]
        · rw [Realms.realm_setRegistry_of_ne hid hold hsame, h.lookup place hold t name ht,
            Event.attached?, if_neg fun hboth => hsame hboth.1]
          rfl
      · rw [hrealms, hsize] at hplace
        rw [attached?_perform, hrun, h.none place hplace]
        have hne : id ≠ place := fun heq => Nat.not_lt_of_le hid.2 (heq ▸ hplace)
        rw [Event.attached?, if_neg fun hboth => hne hboth.1]
        rfl

/-- In every run, what a registry has for a type is what was attached last. -/
theorem Reachable.recorded {w : World μ} (hw : w.Reachable) : w.Recorded := by
  obtain ⟨hashing, hrun⟩ := hw
  induction hrun with
  | refl => exact ⟨fun id hid => absurd (hid.1.trans_le hid.2) (Nat.lt_irrefl 0), fun _ _ _ _ => rfl⟩
  | @step w run op admits ih =>
      have hsound := Reachable.sound ⟨hashing, run⟩
      by_cases hattach : ∃ id t added, op = .attach id t added
      · obtain ⟨id, t, added, rfl⟩ := hattach
        have hid := (hsound.holds (admits _ (List.mem_cons_self ..))).realm_of
        exact ih.attach hid (hsound.realms.realm_id hid) t added
      · exact ih.of_ne hsound admits fun id t added heq => hattach ⟨id, t, added, heq⟩

/-- A realm finds the method that was attached last in it, and none for the types of other
realms. -/
theorem Reachable.method?_eq {w : World μ} (hw : w.Reachable) {id : RealmId}
    (hid : w.Gave (.realm id)) (t : ValueType) (name : String) :
    (w.realms.realm id).registry.method? t name =
      if t.realm = id then w.attached? id t name else none := by
  have hrealm := (hw.sound.gave _ hid).realm_of
  rw [Registry.method?, Registry.methodsFor?, hw.sound.realms.realm_id hrealm]
  split
  · rename_i ht
    exact hw.recorded.lookup id hrealm t name ht
  · rfl

end World

end ValueTypes
