import ValueTypes.Proofs.World.Dispatch

/-! Attached methods in every run. The table of a definition is told by the attachments to it alone,
whatever handle they name it by, and all ways to a method lead through that table: a call by name
looks it up, a read of a property does so behind the fields, and a bound method keeps what was found
when it was read. -/

namespace ValueTypes

variable {μ : Type}

/-! ### One attachment -/

/-- An attachment leaves the tables of other definitions as they are. -/
theorem Registry.methodsFor?_attach {r r' : Registry μ} {u : ValueType} {added : MethodTable μ}
    (h : r.attach u added = .ok r') {t : ValueType} (hne : t.same u ≠ true) :
    r'.methodsFor? t = r.methodsFor? t := by
  rw [attach] at h
  split at h
  · rename_i hcontains
    rw [contains, Bool.and_eq_true, beq_iff_eq] at hcontains
    cases h
    by_cases hrealm : t.realm = r.realm
    · have hid : t.id ≠ u.id := by
        intro hid
        rw [ValueType.same, hrealm, hcontains.1, hid, beq_self_eq_true, beq_self_eq_true] at hne
        exact hne rfl
      rw [methodsFor?, if_pos hrealm, methodsFor?, if_pos hrealm, Entries.lookup_insert,
        beq_false_of_ne hid]
      rfl
    · rw [methodsFor?, if_neg hrealm, methodsFor?, if_neg hrealm]
  · cases h

namespace Operation

variable {rs : Realms μ} {id : RealmId} {u : ValueType} {added : MethodTable μ}

/-- An attachment changes one table at most. -/
theorem methodsFor?_run_attach (hid : rs.scope.realm id) {place : RealmId}
    (hplace : rs.scope.realm place) {t : ValueType} (h : ¬ (place = id ∧ t.same u = true)) :
    (((Operation.attach id u added).run rs).2.realm place).registry.methodsFor? t =
      (rs.realm place).registry.methodsFor? t := by
  cases hattach : (rs.realm id).registry.attach u added with
  | error e => rw [run_attach_of_error hattach]
  | ok registry =>
      rw [run_attach_of_ok hattach]
      by_cases hsame : id = place
      · subst hsame
        rw [Realms.realm_setRegistry hid]
        exact Registry.methodsFor?_attach hattach fun heq => h ⟨rfl, heq⟩
      · rw [Realms.realm_setRegistry_of_ne hid hplace hsame]

end Operation

namespace World

variable {w : World μ} {id : RealmId}

/-- A type that names a realm is registered there. -/
theorem Present.mem_definitions (hw : w.Reachable) (hid : w.Gave (.realm id)) {u : ValueType}
    (hu : w.Present (.type (.value u))) (hrealm : u.realm = id) :
    u ∈ (w.realms.realm id).registry.definitions := by
  exact hw.sound.realms.mem_of_realm_eq (hw.sound.gave _ hid).realm_of
    (hw.sound.present hu).type_of hrealm

/-- A realm attaches methods exactly to its own types. -/
theorem Present.attach_answer (hw : w.Reachable) (hid : w.Gave (.realm id)) {u : ValueType}
    (hu : w.Present (.type (.value u))) (added : MethodTable μ) :
    ((Operation.attach id u added).run w.realms).1 =
      if u.realm = id then .ok [] else .error (.foreignDefinition u.name) := by
  have hrealm := hw.sound.realms.realm_id (hw.sound.gave _ hid).realm_of
  have hwf := hw.sound.realms.registry (hw.sound.gave _ hid).realm_of
  have hcontains : (w.realms.realm id).registry.contains u = true ↔ u.realm = id := by
    rw [Registry.contains_iff hwf fun h => hu.mem_definitions hw hid (h.trans hrealm), hrealm]
  by_cases hown : u.realm = id
  · rw [if_pos hown, Operation.run_attach_of_ok
      (by rw [Registry.attach, if_pos (hcontains.mpr hown)])]
  · rw [if_neg hown, Operation.run_attach_of_error
      (by rw [Registry.attach, if_neg fun h => hown (hcontains.mp h)])]

/-- What a present instance has under the name of a field. -/
theorem Present.exists_get? (hw : w.Reachable) {v : Instance} (hv : w.Present (.value (.inst v)))
    {schema : Schema} (hlayout : v.type.layout = .composite schema) {name : String}
    (hname : name ∈ schema.names) : ∃ x, v.get? name = some x := by
  have hsound := hw.sound.present hv
  obtain ⟨_, hlayout', hslots⟩ := hsound.layout
  rw [hlayout] at hlayout'
  cases hlayout'
  obtain ⟨f, hf, rfl⟩ := List.mem_map.mp hname
  obtain ⟨k, hk⟩ := List.mem_iff_getElem?.mp hf
  obtain ⟨hlt, _⟩ := List.getElem?_eq_some_iff.mp hk
  rw [hslots.length_eq] at hlt
  have hnames := (hw.sound.realms.closed _ _ hsound.inst_type hlayout).names
  exact ⟨_, (Instance.get?_eq hlayout hnames hk).trans (List.getElem?_eq_getElem hlt)⟩

/-! ### All histories -/

/-- Method tables follow the history. Under each name, the table of a definition has what was
attached last to any handle of it, and a type of the realm that is equivalent to it is such a
handle; there are no tables for types of other realms, and attachment to those, and to no others,
fails. An attachment changes no other table in any realm. A call of an instance by name runs what
its table has, or fails; reading a property gives the field, if there is one, and else binds what
the table has. Calling a bound method is the same as a call by name, as long as nothing else is
attached, and runs the same body ever after. -/
theorem methods_follow_history (hw : w.Reachable) (hid : w.Gave (.realm id)) :
    (∀ t ∈ (w.realms.realm id).registry.definitions, ∀ name,
      ((w.realms.realm id).registry.methodsFor? t).bind (·.find? name) = w.attached? id t name) ∧
    (∀ t ∈ (w.realms.realm id).registry.definitions, ∀ u, w.Present (.type (.value u)) →
      u.realm = id → t.equivalent u = true → u = t) ∧
    (∀ u, u.realm ≠ id → (w.realms.realm id).registry.methodsFor? u = none) ∧
    (∀ u added, w.Present (.type (.value u)) →
      ((Operation.attach id u added).run w.realms).1 =
        (if u.realm = id then .ok [] else .error (.foreignDefinition u.name)) ∧
      ∀ place t, w.Gave (.realm place) → ¬ (place = id ∧ t.same u = true) →
        ((w.perform (.attach id u added)).realms.realm place).registry.methodsFor? t =
          (w.realms.realm place).registry.methodsFor? t) ∧
    ∀ v, w.Present (.value (.inst v)) → v.type ∈ (w.realms.realm id).registry.definitions →
      ∀ name,
        (∀ invoke args, w.realms.callMethod invoke id v name args =
          (w.attached? id v.type name).elim (.error (.notCallable v.type.name name), w.realms)
            fun body => w.realms.build (invoke body (w.realms.realm id) v args)) ∧
        (∀ schema, v.type.layout = .composite schema → name ∈ schema.names →
          ∃ x, v.get? name = some x ∧
            ∀ σ, (w.realms.realm id).getProperty σ (.inst v) name = .field x) ∧
        (∀ schema, v.type.layout = .composite schema → name ∉ schema.names →
          ∀ σ, (w.realms.realm id).getProperty σ (.inst v) name =
            (w.attached? id v.type name).elim .missing fun body => .method ⟨v, name, body⟩) ∧
        ∀ σ m, (w.realms.realm id).getProperty σ (.inst v) name = .method m →
          (∀ invoke args, w.realms.callBound invoke id m args =
            w.realms.callMethod invoke id v name args) ∧
          ∃ body, w.attached? id v.type name = some body ∧
            ∀ w', w.Leads w' → ∀ invoke args, w'.realms.callBound invoke id m args =
              w'.realms.build (invoke body (w'.realms.realm id) v args) := by
  have hsound := hw.sound
  have hscope := (hsound.gave _ hid).realm_of
  have hrealm := hsound.realms.realm_id hscope
  have hwf := hsound.realms.registry hscope
  have hmethod : ∀ t ∈ (w.realms.realm id).registry.definitions, ∀ name,
      (w.realms.realm id).registry.method? t name = w.attached? id t name := by
    intro t ht name
    rw [hw.method?_eq hid, if_pos ((hwf.owned t ht).1.trans hrealm)]
  refine ⟨hmethod, fun t ht u hu hown hequivalent => ?_, fun u hforeign => ?_,
    fun u added hu => ⟨hu.attach_answer hw hid added, fun place t hplace hne => ?_⟩,
    fun v hv htype name => ?_⟩
  · have hmem := hu.mem_definitions hw hid hown
    exact ((hwf.same_iff ht hmem).mp ((hwf.equivalent_iff_same ht hmem).mp hequivalent)).symm
  · rw [Registry.methodsFor?, hrealm, if_neg hforeign]
  · exact Operation.methodsFor?_run_attach hscope (hsound.gave _ hplace).realm_of hne
  · have hcall : ∀ invoke args, w.realms.callMethod invoke id v name args =
        (w.attached? id v.type name).elim (.error (.notCallable v.type.name name), w.realms)
          fun body => w.realms.build (invoke body (w.realms.realm id) v args) := by
      intro invoke args
      rw [Realms.callMethod_eq, hmethod _ htype]
    refine ⟨hcall, fun schema hlayout hname => ?_, fun schema hlayout hname σ => ?_,
      fun σ m hm => ?_⟩
    · obtain ⟨x, hx⟩ := hv.exists_get? hw hlayout hname
      refine ⟨x, hx, fun σ => ?_⟩
      rw [Realm.getProperty, hx]
    · rw [Realm.getProperty_of_get?_eq_none (Instance.get?_eq_none hlayout hname), hmethod _ htype]
    · cases hget : v.get? name with
      | some x =>
          rw [Realm.getProperty, hget] at hm
          cases hm
      | none =>
          rw [Realm.getProperty_of_get?_eq_none hget, hmethod _ htype] at hm
          cases hattached : w.attached? id v.type name with
          | none =>
              rw [hattached] at hm
              cases hm
          | some body =>
              rw [hattached] at hm
              cases hm
              refine ⟨fun invoke args => ?_, body, rfl, fun _ _ _ _ => rfl⟩
              rw [hcall, hattached]
              rfl

namespace Sample

/-- The instance of the type without fields in the second realm. -/
def mark : Instance :=
  ⟨1, unit 2, []⟩

/-- A world with two realms that share a symbol table and both have a type without fields, in which
the second has attached a method and there is an instance. -/
def marked : World Nat :=
  (((((((start hashing).perform .newTable).perform (.newRealm {} 0)).perform
    (.newRealm {} 0)).perform (.symbolFor 0 "E")).perform
    (.valueType 1 ⟨25, some "E"⟩ [])).perform (.valueType 2 ⟨25, some "E"⟩ [])).perform
    (.attach 2 (unit 2) ⟨[("m", 0)]⟩) |>.perform (.construct (unit 2) none)

/-- The world in which both realms then attached methods of that name. -/
def remarked : World Nat :=
  (marked.perform (.attach 2 (unit 2) ⟨[("m", 1)]⟩)).perform (.attach 1 (unit 1) ⟨[("m", 2)]⟩)

theorem marked_reachable : marked.Reachable := by
  refine ⟨hashing, .step (.step (.step (.step (.step (.step (.step (.step .refl _ ?_) _ ?_) _ ?_)
    _ ?_) _ ?_) _ ?_) _ ?_) _ ?_⟩
  · exact List.forall_mem_nil _
  · exact List.forall_mem_singleton.mpr (.given (gave_at 0 0 rfl rfl))
  · exact List.forall_mem_singleton.mpr (.given (gave_at 1 0 rfl rfl))
  · exact List.forall_mem_singleton.mpr (.given (gave_at 2 0 rfl rfl))
  · exact List.forall_mem_singleton.mpr (.given (gave_at 2 0 rfl rfl))
  · exact List.forall_mem_singleton.mpr (.given (gave_at 2 0 rfl rfl))
  · exact List.forall_mem_cons.mpr ⟨.given (gave_at 3 0 rfl rfl),
      List.forall_mem_singleton.mpr (.given (gave_at 0 0 rfl rfl))⟩
  · exact List.forall_mem_singleton.mpr (.given (gave_at 1 0 rfl rfl))

theorem marked_leads : marked.Leads remarked := by
  refine .step (.step .refl _ ?_) _ ?_
  · exact List.forall_mem_cons.mpr ⟨.given (gave_at 5 0 rfl rfl),
      List.forall_mem_singleton.mpr (.given (gave_at 2 0 rfl rfl))⟩
  · exact List.forall_mem_cons.mpr ⟨.given (gave_at 7 0 rfl rfl),
      List.forall_mem_singleton.mpr (.given (gave_at 4 0 rfl rfl))⟩

/-- A call by name finds what its own realm attached last, and a method that was bound before runs
its old body; the other realm has a definition of the same number. -/
theorem methods_follow_history_remarked : marked.Reachable ∧ remarked.Reachable ∧
    marked.Gave (.realm 2) ∧ remarked.Gave (.realm 2) ∧ (unit 1).id = (unit 2).id ∧
    (marked.realms.realm 2).getProperty marked.realms.store (.inst mark) "m" =
      .method ⟨mark, "m", 0⟩ ∧
    ((Operation.attach 2 (unit 1) ⟨[]⟩).run remarked.realms).1 =
      .error (.foreignDefinition "E") ∧
    (∀ invoke args, remarked.realms.callMethod invoke 2 mark "m" args =
      remarked.realms.build (invoke 1 (remarked.realms.realm 2) mark args)) ∧
    ∀ invoke args, remarked.realms.callBound invoke 2 ⟨mark, "m", 0⟩ args =
      remarked.realms.build (invoke 0 (remarked.realms.realm 2) mark args) := by
  have hgave : marked.Gave (.realm 2) := gave_at 5 0 rfl rfl
  have hgave' : remarked.Gave (.realm 2) := hgave.leads marked_leads
  have hmark : marked.Gave (.value (.inst mark)) := gave_at 0 0 rfl rfl
  have hunit : remarked.Present (.type (.value (unit 1))) := .given (gave_at 5 0 rfl rfl)
  have hmem : mark.type ∈ (marked.realms.realm 2).registry.definitions :=
    List.mem_of_getElem? (i := 12) rfl
  have hmem' : mark.type ∈ (remarked.realms.realm 2).registry.definitions :=
    List.mem_of_getElem? (i := 12) rfl
  have hreachable := marked_reachable.leads marked_leads
  have hproperty : (marked.realms.realm 2).getProperty marked.realms.store (.inst mark) "m" =
      .method ⟨mark, "m", 0⟩ := rfl
  obtain ⟨-, -, -, -, hread⟩ := methods_follow_history marked_reachable hgave
  obtain ⟨-, -, -, hattach, hcall⟩ := methods_follow_history hreachable hgave'
  obtain ⟨-, body, hbody, hbound⟩ :=
    (hread mark (.given hmark) hmem "m").2.2.2 marked.realms.store _ hproperty
  have hbody' : marked.attached? 2 mark.type "m" = some 0 := rfl
  cases hbody.symm.trans hbody'
  refine ⟨marked_reachable, hreachable, hgave, hgave', rfl, hproperty,
    (hattach (unit 1) _ hunit).1, fun invoke args => ?_, hbound remarked marked_leads⟩
  exact (hcall mark (.given (hmark.leads marked_leads)) hmem' "m").1 invoke args

end Sample

end World

end ValueTypes
