import Mathlib.Data.Finset.Card
import ValueTypes.Proofs.Symbol.Table
import ValueTypes.Proofs.World.Registration
import ValueTypes.Proofs.World.Tables

/-! Symbols in every run. Each number is given out once, for a key of a table, for a symbol that was
made directly, or for a primitive type of a realm, so keys and symbols determine each other. -/

namespace ValueTypes

variable {μ : Type}

/-! ### The history of symbols -/

/-- The key of a table that an event asks for. -/
def Event.key? (i : TableId) : Event μ → Option String
  | ⟨.symbolFor table key, _⟩ => if table = i then some key else none
  | _ => none

theorem PrimitiveKind.getElem?_index (kind : PrimitiveKind) : all[kind.index]? = some kind := by
  cases kind <;> rfl

namespace World

/-- How a symbol comes about: it is the symbol of a key in a table, or was made directly by the
event of some place in a run, or is that of a primitive type in a realm. -/
inductive Origin where
  | key (table : TableId) (key : String)
  | direct (place : Nat)
  | primitive (realm : RealmId) (kind : PrimitiveKind)

/-- Whether a symbol came about in a run in a certain way. -/
inductive Makes (w : World μ) : Origin → Symbol → Prop where
  | key {table key s} (h : w.Answered (.symbolFor table key) [.symbol s]) :
      Makes w (.key table key) s
  | direct {place description s}
      (h : w.log.reverse[place]? = some ⟨.newSymbol description, .ok [.symbol s]⟩) :
      Makes w (.direct place) s
  | primitive {id} (kind) (h : w.realms.scope.realm id) :
      Makes w (.primitive id kind) ((w.realms.realm id).primitive kind).symbol

/-- The keys that a table was asked for, as often as it was. -/
def keysAsked (w : World μ) (i : TableId) : List String :=
  w.log.filterMap (·.key? i)

/-- What an operation adds to the symbols of a run, by the number that the symbol takes. -/
inductive Brings (w : World μ) (op : Operation μ) : Origin → Nat → Prop where
  | key {table key} (h : op = .symbolFor table key) :
      Brings w op (.key table key) w.realms.nextSymbol
  | direct {description} (h : op = .newSymbol description) :
      Brings w op (.direct w.log.length) w.realms.nextSymbol
  | primitive (kind) (h : w.realms.members.size < (op.run w.realms).2.members.size) :
      Brings w op (.primitive (w.realms.members.size + 1) kind)
        (w.realms.nextSymbol + kind.index)

/-- What the tables and the numbers of symbols are, by the history of a run. -/
structure Named (w : World μ) : Prop where
  table_lt : ∀ i, w.Gave (.table i) → i < w.realms.tables.size
  wellFormed : ∀ i, (w.realms.table i).WellFormed
  entry : ∀ i key s, (key, s) ∈ (w.realms.table i).entries ↔
    w.Answered (.symbolFor i key) [.symbol s]
  below : ∀ o s, w.Makes o s → s.id < w.realms.nextSymbol
  origin_eq : ∀ o o' s s', w.Makes o s → w.Makes o' s' → s.id = s'.id → o = o'

/-- An operation takes a number for one symbol only. -/
theorem Brings.origin_eq {w : World μ} {op : Operation μ} {o o' : Origin} {n : Nat}
    (h : w.Brings op o n) (h' : w.Brings op o' n) : o = o' := by
  have hsize : ∀ op : Operation μ, (op.run w.realms).2.members = w.realms.members →
      ¬ w.realms.members.size < (op.run w.realms).2.members.size := by
    intro op hmembers
    rw [hmembers]
    exact Nat.lt_irrefl _
  generalize hn : n = m at h'
  cases h with
  | key hop =>
      subst hop
      cases h' with
      | key hop' =>
          cases hop'
          rfl
      | direct hop' => cases hop'
      | primitive _ hgrows => exact absurd hgrows (hsize _ rfl)
  | direct hop =>
      subst hop
      cases h' with
      | key hop' => cases hop'
      | direct _ => rfl
      | primitive _ hgrows => exact absurd hgrows (hsize _ rfl)
  | primitive kind hgrows =>
      cases h' with
      | key hop' =>
          subst hop'
          exact absurd hgrows (hsize _ rfl)
      | direct hop' =>
          subst hop'
          exact absurd hgrows (hsize _ rfl)
      | primitive other _ =>
          have hindex := congrArg (PrimitiveKind.all[·]?) (Nat.add_left_cancel hn)
          rw [PrimitiveKind.getElem?_index, PrimitiveKind.getElem?_index] at hindex
          rw [Option.some.inj hindex]

/-- The symbol that is given for a key was there, or takes the next number. -/
theorem makes_symbolFor {w : World μ} (h : w.Named) (table : TableId) (key : String) {s : Symbol}
    (hgiven : ((Operation.symbolFor table key).run w.realms).1 = .ok [.symbol s]) :
    w.Makes (.key table key) s ∨ s.id = w.realms.nextSymbol ∧
      (w.perform (.symbolFor table key)).realms.nextSymbol = w.realms.nextSymbol + 1 := by
  have hs : s = ((w.realms.table table).symbolFor key w.realms.nextSymbol).1 := by
    cases hgiven
    rfl
  have hnext : (w.perform (.symbolFor table key)).realms.nextSymbol =
      ((w.realms.table table).symbolFor key w.realms.nextSymbol).2.2 := rfl
  rcases (w.realms.table table).symbolFor_cases key w.realms.nextSymbol with
    ⟨t, hfind, heq⟩ | ⟨-, heq⟩ <;> rw [heq] at hs hnext
  · have hmem := (SymbolTable.find?_eq_some_iff (h.wellFormed table)).mp hfind
    rw [hs]
    exact .inl (.key ((h.entry table key t).mp hmem))
  · rw [hs]
    exact .inr ⟨rfl, hnext⟩

/-- A primitive type was there, or takes one of the next numbers for its symbol. -/
theorem makes_primitive {w : World μ} {op : Operation μ} {id : RealmId} (kind : PrimitiveKind)
    (hid : (w.perform op).realms.scope.realm id) :
    w.Makes (.primitive id kind) (((w.perform op).realms.realm id).primitive kind).symbol ∨
      id = w.realms.members.size + 1 ∧
        (((w.perform op).realms.realm id).primitive kind).symbol.id =
          w.realms.nextSymbol + kind.index ∧
        (w.perform op).realms.nextSymbol = w.realms.nextSymbol + 12 := by
  rcases (op.run_changes w.realms).realm_cases (Realms.getElem?_realm hid) with
    ⟨realm, hrealm, hgrows⟩ | ⟨hsize, hnext, hnew⟩
  · obtain ⟨hlt, _⟩ := Array.getElem?_eq_some_iff.mp hrealm
    have hsame := hgrows.primitive kind
    rw [← Realms.realm_of_getElem? hrealm] at hsame
    change (((op.run w.realms).2.realm id).primitive kind) = _ at hsame
    refine .inl ?_
    rw [perform, hsame]
    exact .primitive kind ⟨hid.1, Nat.le_of_pred_lt hlt⟩
  · refine .inr ⟨(Nat.sub_eq_iff_eq_add hid.1).mp hsize, ?_, hnext⟩
    change ((op.run w.realms).2.realm id).registry = _ at hnew
    rw [perform, Realm.primitive, hnew]
    rfl

/-- A symbol was there before an operation, or takes a new number. -/
theorem Makes.perform_cases {w : World μ} (h : w.Named) {op : Operation μ} {o : Origin}
    {s : Symbol} (hmakes : (w.perform op).Makes o s) :
    w.Makes o s ∨ w.Brings op o s.id ∧ w.realms.nextSymbol ≤ s.id ∧
      s.id < (w.perform op).realms.nextSymbol := by
  cases hmakes with
  | @key table key s hanswer =>
      rcases List.mem_cons.mp hanswer with heq | hold
      · obtain ⟨rfl, hgiven⟩ := Event.mk.inj heq
        rcases makes_symbolFor h table key hgiven.symm with hold | ⟨hid, hnext⟩
        · exact .inl hold
        · rw [hid, hnext]
          exact .inr ⟨.key rfl, Nat.le_refl _, Nat.lt_succ_self _⟩
      · exact .inl (.key hold)
  | @direct place description s hplace =>
      rw [perform, List.reverse_cons, List.getElem?_append] at hplace
      split at hplace
      · exact .inl (.direct hplace)
      · rename_i hle
        obtain ⟨hlt, hevent⟩ := List.getElem?_eq_some_iff.mp hplace
        have hlast : place = w.log.length := by
          rw [List.length_reverse, List.length_singleton] at *
          omega
        rw [List.getElem_singleton] at hevent
        obtain ⟨rfl, hgiven⟩ := Event.mk.inj hevent
        cases hgiven
        subst hlast
        exact .inr ⟨.direct rfl, Nat.le_refl _, Nat.lt_succ_self _⟩
  | @primitive id kind hid =>
      rcases makes_primitive kind hid with hold | ⟨hplace, hnumber, hnext⟩
      · exact .inl hold
      · have hindex := kind.index_lt
        subst hplace
        rw [hnumber, hnext]
        exact .inr ⟨.primitive kind hid.2, Nat.le_add_right _ _, Nat.add_lt_add_left hindex _⟩

/-! ### Runs -/

theorem named_start (hashing : Hashing) : (start (μ := μ) hashing).Named where
  table_lt i h := by
    obtain ⟨_, _, hanswer, _⟩ := h
    cases hanswer
  wellFormed i := SymbolTable.new_wellFormed
  entry i key s := ⟨nofun, nofun⟩
  below o s h := by
    cases h with
    | key hanswer => cases hanswer
    | direct hplace => cases hplace
    | primitive kind hid => exact absurd (hid.1.trans_le hid.2) (Nat.lt_irrefl 0)
  origin_eq o o' s s' h := by
    cases h with
    | key hanswer => cases hanswer
    | direct hplace => cases hplace
    | primitive kind hid => exact absurd (hid.1.trans_le hid.2) (Nat.lt_irrefl 0)

/-- An operation asks for one key of a table, or leaves the table as it is. -/
theorem Named.table_cases {w : World μ} (h : w.Named) {op : Operation μ} (hop : w.Admits op)
    (i : TableId) :
    (∃ key, op = .symbolFor i key ∧ (w.perform op).realms.table i =
      ((w.realms.table i).symbolFor key w.realms.nextSymbol).2.1) ∨
    (∀ key, op ≠ .symbolFor i key) ∧ (w.perform op).realms.table i = w.realms.table i := by
  by_cases hkey : ∃ table key, op = .symbolFor table key
  · obtain ⟨table, key, rfl⟩ := hkey
    have htable : w.Gave (.table table) := by
      cases hop _ (List.mem_singleton.mpr rfl) with
      | given hgave => exact hgave
    have hrun := Realms.table_symbolFor w.realms (h.table_lt table htable) key i
    by_cases hi : table = i
    · subst hi
      rw [if_pos rfl] at hrun
      exact .inl ⟨key, rfl, hrun⟩
    · rw [if_neg hi] at hrun
      exact .inr ⟨fun other heq => hi (Operation.symbolFor.inj heq).1, hrun⟩
  · refine .inr ⟨fun key heq => hkey ⟨i, key, heq⟩, ?_⟩
    by_cases hnew : op = .newTable
    · subst hnew
      exact Realms.table_newTable w.realms i
    · have hsame := Operation.run_tables w.realms hnew fun table key heq => hkey ⟨table, key, heq⟩
      rw [World.perform, Realms.table, hsame, Realms.table]

theorem Named.perform {w : World μ} (h : w.Named) {op : Operation μ} (hop : w.Admits op) :
    (w.perform op).Named where
  table_lt i hgave := by
    obtain ⟨op', items, hanswer, hi⟩ := hgave
    rcases List.mem_cons.mp hanswer with heq | hold
    · have hgiven := (Event.mk.inj heq).2
      obtain ⟨-, ⟨_, rfl⟩ | ⟨rfl, hplace⟩ | ⟨_, _, rfl⟩ | ⟨_, _, _, _, hrealm⟩⟩ :=
        Operation.name_of_run hgiven.symm hi rfl
      · cases hgiven
        cases List.mem_singleton.mp hi
      · cases hplace
        exact Array.size_push _ ▸ Nat.lt_succ_self _
      · cases hgiven
        cases List.mem_singleton.mp hi
      · cases hrealm
    · exact (h.table_lt i ⟨op', items, hold, hi⟩).trans_le (op.tables_size_le w.realms)
  wellFormed i := by
    rcases h.table_cases hop i with ⟨key, -, heq⟩ | ⟨-, heq⟩ <;> rw [heq]
    · exact SymbolTable.symbolFor_wellFormed (h.wellFormed i) key _
    · exact h.wellFormed i
  entry i key s := by
    rcases h.table_cases hop i with ⟨asked, rfl, heq⟩ | ⟨hne, heq⟩ <;> rw [heq]
    · rw [SymbolTable.mem_symbolFor (h.wellFormed i), h.entry]
      constructor
      · rintro (hold | ⟨rfl, rfl⟩)
        · exact hold.perform _
        · exact List.mem_cons_self ..
      · intro hanswer
        rcases List.mem_cons.mp hanswer with hevent | hold
        · cases hevent
          exact .inr ⟨rfl, rfl⟩
        · exact .inl hold
    · rw [h.entry]
      refine ⟨fun hold => hold.perform op, fun hanswer => ?_⟩
      rcases List.mem_cons.mp hanswer with hevent | hold
      · exact absurd (Event.mk.inj hevent).1.symm (hne key)
      · exact hold
  below o s hmakes := by
    rcases hmakes.perform_cases h with hold | ⟨-, -, hnew⟩
    · exact (h.below o s hold).trans_le (op.run_changes w.realms).nextSymbol_le
    · exact hnew
  origin_eq o o' s s' hmakes hmakes' hid := by
    rcases hmakes.perform_cases h with hold | ⟨hbrings, hnew, -⟩ <;>
      rcases hmakes'.perform_cases h with hold' | ⟨hbrings', hnew', -⟩
    · exact h.origin_eq o o' s s' hold hold' hid
    · have hlt := h.below o s hold
      omega
    · have hlt := h.below o' s' hold'
      omega
    · rw [hid] at hbrings
      exact hbrings.origin_eq hbrings'

theorem Reachable.named {w : World μ} (hw : w.Reachable) : w.Named := by
  obtain ⟨hashing, hrun⟩ := hw
  induction hrun with
  | refl => exact named_start hashing
  | step _ op admits ih => exact ih.perform admits

/-- Every answer is what some realms gave to the operation. -/
theorem Reachable.exists_run {w : World μ} (hw : w.Reachable) {e : Event μ} (he : e ∈ w.log) :
    ∃ rs, e.answer = (e.operation.run rs).1 := by
  obtain ⟨hashing, hrun⟩ := hw
  induction hrun with
  | refl => cases he
  | @step w run op _ ih =>
      rcases List.mem_cons.mp he with rfl | he
      · exact ⟨w.realms, rfl⟩
      · exact ih he

/-- A way of coming about gives one symbol, however often it is taken. -/
theorem Named.symbol_eq {w : World μ} (h : w.Named) {o : Origin} {s s' : Symbol}
    (hmakes : w.Makes o s) (hmakes' : w.Makes o s') : s = s' := by
  cases hmakes with
  | @key table key s hanswer =>
      cases hmakes' with
      | key hanswer' =>
          have hwf := h.wellFormed table
          have hfind := (SymbolTable.find?_eq_some_iff hwf).mpr ((h.entry table key s).mpr hanswer)
          rw [(SymbolTable.find?_eq_some_iff hwf).mpr ((h.entry table key s').mpr hanswer')]
            at hfind
          exact (Option.some.inj hfind).symm
  | direct hplace =>
      cases hmakes' with
      | direct hplace' =>
          rw [hplace] at hplace'
          cases hplace'
          rfl
  | primitive kind hid =>
      cases hmakes' with
      | primitive _ _ => rfl

theorem Reachable.mem_keysAsked {w : World μ} (hw : w.Reachable) {i : TableId} {key : String} :
    key ∈ w.keysAsked i ↔ ∃ s, (key, s) ∈ (w.realms.table i).entries := by
  simp only [hw.named.entry]
  rw [keysAsked, List.mem_filterMap]
  constructor
  · rintro ⟨⟨op, answer⟩, hmem, hkey⟩
    cases op with
    | symbolFor table asked =>
        obtain ⟨rs, hgiven⟩ := hw.exists_run hmem
        change answer = ((Operation.symbolFor table asked).run rs).1 at hgiven
        subst hgiven
        rw [Event.key?] at hkey
        split at hkey
        · rename_i htable
          subst htable
          cases hkey
          exact ⟨_, hmem⟩
        · cases hkey
    | _ => cases hkey
  · rintro ⟨s, hanswer⟩
    exact ⟨_, hanswer, if_pos rfl⟩

/-- Every symbol that was handed out came about in some way. -/
theorem Reachable.exists_makes {w : World μ} (hw : w.Reachable) {s : Symbol}
    (hs : w.Gave (.symbol s)) : ∃ o, w.Makes o s := by
  obtain ⟨op, items, hanswer, hmem⟩ := hs
  obtain ⟨rs, hgiven⟩ := hw.exists_run hanswer
  obtain ⟨rfl, ⟨description, rfl⟩ | ⟨-, hplace⟩ | ⟨table, key, rfl⟩ | ⟨_, _, _, _, hrealm⟩⟩ :=
    Operation.name_of_run hgiven.symm hmem rfl
  · obtain ⟨place, hplace⟩ := List.mem_iff_getElem?.mp (List.mem_reverse.mpr hanswer)
    exact ⟨.direct place, .direct hplace⟩
  · cases hplace
  · exact ⟨.key table key, .key hanswer⟩
  · cases hrealm

/-- Symbols are numbered by how they came about, in every run. Two symbols are the same, or have one
number, exactly if they are of the same key in the same table, or were made by the same event, or
are of the same primitive type. So a table gives a key the same symbol each time, and names the key
of that symbol and of no other one, and it is as large as the number of different keys that it was
asked for. -/
theorem keyed_symbols_bijective {w : World μ} (hw : w.Reachable) :
    (∀ o o' s s', w.Makes o s → w.Makes o' s' →
      (s = s' ↔ o = o') ∧ ((s == s') = true ↔ o = o') ∧ (s.id = s'.id ↔ o = o')) ∧
    (∀ s, w.Gave (.symbol s) → ∃ o, w.Makes o s) ∧
    (∀ i key s, w.Makes (.key i key) s → (w.realms.symbolFor i key).1 = s) ∧
    (∀ i key s, (w.realms.table i).keyFor? s = some key ↔ w.Makes (.key i key) s) ∧
    ∀ i, (w.realms.table i).size = (w.keysAsked i).toFinset.card := by
  have hnamed := hw.named
  have hentry : ∀ i key s, (key, s) ∈ (w.realms.table i).entries ↔ w.Makes (.key i key) s := by
    intro i key s
    rw [hnamed.entry]
    refine ⟨.key, fun hmakes => ?_⟩
    cases hmakes with
    | key hanswer => exact hanswer
  have hid : ∀ o o' s s', w.Makes o s → w.Makes o' s' → (s.id = s'.id ↔ o = o') := by
    intro o o' s s' hmakes hmakes'
    refine ⟨hnamed.origin_eq o o' s s' hmakes hmakes', ?_⟩
    rintro rfl
    rw [hnamed.symbol_eq hmakes hmakes']
  refine ⟨fun o o' s s' hmakes hmakes' => ?_, fun s => hw.exists_makes, fun i key s hmakes => ?_,
    fun i key s => ?_, fun i => ?_⟩
  · have hnumber := hid o o' s s' hmakes hmakes'
    refine ⟨⟨fun heq => hnumber.mp (heq ▸ rfl), ?_⟩, (Symbol.beq_iff s s').trans hnumber, hnumber⟩
    rintro rfl
    exact hnamed.symbol_eq hmakes hmakes'
  · have hfind := (SymbolTable.find?_eq_some_iff (hnamed.wellFormed i)).mpr
      ((hentry i key s).mpr hmakes)
    change ((w.realms.table i).symbolFor key w.realms.nextSymbol).1 = s
    rw [SymbolTable.symbolFor, hfind]
  · rw [SymbolTable.keyFor?_eq_some_iff (hnamed.wellFormed i), hentry]
  · have hkeys : (w.keysAsked i).toFinset =
        ((w.realms.table i).entries.map (·.1)).toFinset := by
      ext key
      rw [List.mem_toFinset, List.mem_toFinset, hw.mem_keysAsked, List.mem_map]
      constructor
      · rintro ⟨s, hs⟩
        exact ⟨(key, s), hs, rfl⟩
      · rintro ⟨e, he, rfl⟩
        exact ⟨e.2, he⟩
    rw [hkeys, List.toFinset_card_of_nodup (hnamed.wellFormed i).nodup, List.length_map,
      SymbolTable.size]

namespace Sample

/-- A world in which two tables were asked for one key, and a symbol was made directly that has the
key as its description. -/
def badges : World Unit :=
  ((((((start hashing).perform .newTable).perform .newTable).perform (.symbolFor 0 "k")).perform
    (.symbolFor 1 "k")).perform (.newSymbol (some "k"))).perform (.symbolFor 0 "k")

theorem badges_reachable : badges.Reachable := by
  refine ⟨hashing, .step (.step (.step (.step (.step (.step .refl _ ?_) _ ?_) _ ?_) _ ?_) _ ?_)
    _ ?_⟩
  · exact List.forall_mem_nil _
  · exact List.forall_mem_nil _
  · exact List.forall_mem_singleton.mpr (.given (gave_at 1 0 rfl rfl))
  · exact List.forall_mem_singleton.mpr (.given (gave_at 1 0 rfl rfl))
  · exact List.forall_mem_nil _
  · exact List.forall_mem_singleton.mpr (.given (gave_at 4 0 rfl rfl))

/-- The three symbols with one description are different, and each table knows its own one only. -/
theorem keyed_symbols_bijective_badges : badges.Reachable ∧
    badges.Makes (.key 0 "k") ⟨1, some "k"⟩ ∧ badges.Makes (.key 1 "k") ⟨2, some "k"⟩ ∧
    badges.Makes (.direct 4) ⟨3, some "k"⟩ ∧
    (badges.realms.table 0).keyFor? ⟨1, some "k"⟩ = some "k" ∧
    (badges.realms.table 0).keyFor? ⟨2, some "k"⟩ ≠ some "k" ∧
    (badges.realms.table 0).keyFor? ⟨3, some "k"⟩ ≠ some "k" ∧
    badges.keysAsked 0 = ["k", "k"] ∧ (badges.realms.table 0).size = 1 := by
  have hown : badges.Makes (.key 0 "k") ⟨1, some "k"⟩ := .key (List.mem_of_getElem? (i := 0) rfl)
  have hother : badges.Makes (.key 1 "k") ⟨2, some "k"⟩ :=
    .key (List.mem_of_getElem? (i := 2) rfl)
  have hdirect : badges.Makes (.direct 4) ⟨3, some "k"⟩ := .direct rfl
  obtain ⟨hsame, -, -, hkey, hsize⟩ := keyed_symbols_bijective badges_reachable
  refine ⟨badges_reachable, hown, hother, hdirect, (hkey 0 "k" _).mpr hown, fun h => ?_,
    fun h => ?_, rfl, hsize 0⟩
  · cases (hsame _ _ _ _ ((hkey 0 "k" _).mp h) hother).1.mp rfl
  · cases (hsame _ _ _ _ ((hkey 0 "k" _).mp h) hdirect).1.mp rfl

end Sample

end World

end ValueTypes
