import ValueTypes.Proofs.Lenient.Answer

/-! Commands in relaxed sessions. A command that succeeds does so in the relaxed session too, where
it gives the corresponding answer and makes what corresponds. -/

namespace ValueTypes

/-- What a command gives in the relaxed session: its answer, and what a name is to stand for. -/
def relaxOutput (output : Answer × Option Binding) : Answer × Option Binding :=
  (output.1.relax, output.2.map Binding.relax)

/-- Whether what a command gives is no realm beyond the first `n`. -/
def OutputNumbered (n : Nat) (output : Answer × Option Binding) : Prop :=
  ∀ b, output.2 = some b → b.Numbered n

namespace Script.Relaxes

open Realms

variable {n : Nat} {G : Answer × Option Binding → Prop}

/-! ### Ends of commands -/

theorem made {b b' : Binding} (h : b' = b.relax) (hb : b.Numbered n) :
    Relaxes n (Script.made b) (Script.made b') relaxOutput OutputNumbered G := by
  subst h
  refine store.bind fun hn' store _ => pure ?_ fun b' hb' => ?_
  · rw [b.brief_relax]
    rfl
  · cases hb'
    exact hb.mono hn'

theorem answer {a a' : Answer} (h : a' = a.relax) :
    Relaxes n (Script.answer a) (Script.answer a') relaxOutput OutputNumbered G := by
  subst h
  exact pure rfl fun b hb => nomatch hb

theorem found {v v' : Option Value} (h : v' = v.map Value.relax) :
    Relaxes n (Script.found v) (Script.found v') relaxOutput OutputNumbered G := by
  subst h
  refine store.bind fun hn' store _ => ?_
  cases v with
  | none => exact pure rfl fun b hb => nomatch hb
  | some v =>
      refine pure ?_ fun b hb => ?_
      · rw [Option.map_some, Option.map_some, store.content_relax]
        rfl
      · cases hb
        trivial

theorem madeInstance (t : ValueType) (source : Option Source) :
    Relaxes n (do Script.made (.value (.inst (← Script.build (t.construct source)))))
      (do Script.made (.value (.inst (← Script.build
        (t.relax.construct (source.map Source.relax)))))) relaxOutput OutputNumbered G :=
  (build (t.construct_relaxes source)).andThen fun _ => made rfl trivial

theorem madeStruct (s : StructType) (source : Option Source) :
    Relaxes n (do Script.made (.value (.struct (← Script.build (s.construct source)))))
      (do Script.made (.value (.struct (← Script.build
        (s.relax.construct (source.map Source.relax)))))) relaxOutput OutputNumbered G :=
  (build (s.construct_relaxes source)).andThen fun _ => made rfl trivial

/-- A write that succeeds does so in the lenient realms; what becomes of one that fails is left
open. -/
theorem written (target : Value) {write write' : Build Unit}
    (h : write.Relaxes write' fun done => done) :
    Relaxes n (Script.written target write) (Script.written target.relax write') relaxOutput
      OutputNumbered fun output => output.1.succeeds := by
  intro s output s'' hs hrun hsucceeds
  obtain ⟨result, s', hupdate, hrest⟩ := bind_eq_ok hrun
  rw [run_update] at hupdate
  rcases hbuild : s.realms.build write with ⟨e | done, rs⟩
  · rw [hbuild] at hupdate
    cases hupdate
    obtain ⟨c, s', _, hanswer⟩ := bind_eq_ok hrest
    cases hanswer
    cases hsucceeds
  · rw [hbuild] at hupdate
    cases hupdate
    obtain ⟨hbuild', hsize⟩ := build_relaxes hs.size h done rs hbuild
    have hupdate' := run_update (fun rs => rs.build write') s.relax
    rw [Session.relax_realms, hbuild'] at hupdate'
    rw [Script.written, run_bind_of_ok hupdate']
    have hshown : Relaxes n
        (do Script.answer (.written none (← Script.content target)))
        (do Script.answer (.written none (← Script.content target.relax))) relaxOutput
        OutputNumbered fun output => output.1.succeeds :=
      (content target).andThen fun c => answer rfl
    exact hshown { s with realms := rs } output s'' ⟨hsize, hs.bindings⟩ hrest hsucceeds

/-! ### Parts of commands -/

theorem symbolRef (realmName : String) (ref : SymbolRef) :
    Relaxes n (Script.symbolRef realmName ref) (Script.symbolRef realmName ref) fun s => s := by
  cases ref with
  | key key => exact (realm realmName).andThen fun realm => update fun _ hn => ⟨rfl, hn⟩
  | name name => exact symbol name

theorem fieldDraft (realmName : String) (request : FieldRequest) :
    Relaxes n (Script.fieldDraft realmName request) (Script.fieldDraft realmName request)
      FieldDraft.relax := by
  obtain ⟨name, typeName, default, isStatic⟩ := request
  refine (fieldType realmName typeName).andThen fun type => ?_
  cases default with
  | none => exact pure rfl trivial
  | some e =>
      exact ((eval e).map (f := some) (q := Option.map Value.relax) fun _ => rfl).andThen
        fun _ => pure rfl trivial

theorem fieldDrafts (realmName : String) (requests : List FieldRequest) :
    Relaxes n (Script.fieldDrafts realmName requests) (Script.fieldDrafts realmName requests)
      (List.map FieldDraft.relax) := by
  induction requests generalizing n with
  | nil => exact pure rfl trivial
  | cons request requests ih =>
      exact (fieldDraft realmName request).andThen fun draft =>
        ih.andThen fun drafts => pure rfl trivial

theorem fieldOf (target : Value) (name : String) :
    Relaxes n (Script.fieldOf target name) (Script.fieldOf target.relax name)
      (Option.map Value.relax) := by
  rw [Script.fieldOf, Script.fieldOf, Source.ofValue?_relax]
  cases Source.ofValue? target with
  | some source =>
      exact store.andThen fun store => pure (source.relax_get? store name) trivial
  | none => exact throw _ _

theorem requestTypes {id : RealmId} (hid : Numbers n id) (symbol : Symbol)
    (drafts : List FieldDraft) (times : Nat) :
    Relaxes n (Script.requestTypes id symbol drafts times)
      (Script.requestTypes id symbol (drafts.map FieldDraft.relax) times)
      (List.map ValueType.relax) := by
  induction times generalizing n with
  | zero => exact pure rfl trivial
  | succ times ih =>
      refine (act fun _ hn => valueType_relaxes hn hid symbol drafts).bind fun hn' t _ => ?_
      exact (ih (hid.mono hn')).andThen fun ts => pure rfl trivial

theorem findAll (names : List String) :
    Relaxes n (names.mapM Script.find) (names.mapM Script.find) (List.map Binding.relax) := by
  induction names generalizing n with
  | nil => exact pure rfl trivial
  | cons name names ih =>
      rw [List.mapM_cons]
      exact (find name).andThen fun b => ih.andThen fun bs => pure rfl trivial

end Script.Relaxes

/-! ### Commands -/

namespace Command

open Script

/-- The command with another mode for the realm that it makes, if it makes one. -/
def withMode (mode : CoercionMode) : Command → Command
  | newRealm config table => .newRealm { config with coercion := mode } table
  | c => c

/-- Whether a command, if it succeeds in a session with realms up to `n`, makes what corresponds in
the relaxed session. -/
def Relaxes (n : Nat) (c : Command) : Prop :=
  Script.Relaxes n c.perform (c.withMode .lenient).perform relaxOutput OutputNumbered
    fun output => output.1.succeeds

variable {n : Nat}

/-! ### Tables, realms and symbols -/

theorem newTable_relaxes : newTable.Relaxes n :=
  (Relaxes.update (r := fun id => id) fun _ hn => ⟨rfl, hn⟩).andThen fun _ =>
    Relaxes.made rfl trivial

theorem newRealm_relaxes (config : RealmConfig) (table : Option String) :
    (newRealm config table).Relaxes n := by
  have hmade : ∀ {n} table, Script.Relaxes n
      (do made (.realm (← update fun rs => rs.newRealm config table)))
      (do made (.realm (← update fun rs => rs.newRealm config.relax table))) relaxOutput
      OutputNumbered fun output => output.1.succeeds := fun table =>
    (Relaxes.newRealm config table).bind fun _ id hid => Relaxes.made rfl hid
  cases table with
  | some name => exact (Relaxes.table name).andThen fun table => hmade table
  | none =>
      exact (Relaxes.update (r := fun id => id) fun _ hn => ⟨rfl, hn⟩).andThen
        fun table => hmade table

theorem newSymbol_relaxes (description : Option String) : (newSymbol description).Relaxes n :=
  (Relaxes.update (r := fun s => s) fun _ hn => ⟨rfl, hn⟩).andThen fun _ =>
    Relaxes.made rfl trivial

theorem symbolFor_relaxes (table key : String) : (symbolFor table key).Relaxes n :=
  (Relaxes.table table).andThen fun _ =>
    (Relaxes.update (r := fun s => s) fun _ hn => ⟨rfl, hn⟩).andThen fun _ =>
      Relaxes.made rfl trivial

theorem keyFor_relaxes (table name : String) : (keyFor table name).Relaxes n := by
  refine (Relaxes.table table).andThen fun id => (Relaxes.symbol name).andThen fun key =>
    Relaxes.get.andThen fun s => Relaxes.answer ?_
  change ((s.realms.table id).keyFor? key).elim Answer.nothing Answer.text = _
  cases (s.realms.table id).keyFor? key <;> rfl

theorem tableSize_relaxes (table : String) : (tableSize table).Relaxes n :=
  (Relaxes.table table).andThen fun _ => Relaxes.get.andThen fun _ => Relaxes.answer rfl

/-! ### Types and schemas -/

theorem primitive_relaxes (realmName name : String) : (primitive realmName name).Relaxes n := by
  refine (Relaxes.realm realmName).andThen fun realm => ?_
  rw [realm.relax_primitiveOfName?]
  cases realm.primitiveOfName? name with
  | some t => exact Relaxes.made rfl trivial
  | none => exact Relaxes.answer rfl

theorem schema_relaxes (realmName : String) (kind : SchemaKind) (requests : List FieldRequest) :
    (schema realmName kind requests).Relaxes n :=
  (Relaxes.fieldDrafts realmName requests).andThen fun drafts =>
    (Relaxes.realm realmName).andThen fun realm =>
      (Relaxes.build (realm.makeSchema_relaxes kind drafts)).andThen fun _ =>
        Relaxes.made rfl trivial

theorem arraySchema_relaxes (realmName : String) (kind : SchemaKind) (element : String)
    (length : Nat) : (arraySchema realmName kind element length).Relaxes n :=
  (Relaxes.fieldType realmName element).andThen fun type =>
    (Relaxes.realm realmName).andThen fun realm =>
      (Relaxes.build (realm.makeArraySchema_relaxes kind type length)).andThen fun _ =>
        Relaxes.made rfl trivial

theorem draft_relaxes (realmName : String) (ref : SymbolRef) (schemaName : String) :
    (draft realmName ref schemaName).Relaxes n :=
  (Relaxes.symbolRef realmName ref).andThen fun _ =>
    (Relaxes.schema schemaName).andThen fun _ => Relaxes.made rfl trivial

theorem intern_relaxes (realmName draftName : String) : (intern realmName draftName).Relaxes n :=
  (Relaxes.draft draftName).andThen fun d =>
    (Relaxes.realmId realmName).bind fun _ _ hid =>
      (Relaxes.act fun _ hn => Realms.intern_relaxes hn hid d).andThen fun _ =>
        Relaxes.made rfl trivial

theorem valueType_relaxes (realmName : String) (ref : SymbolRef) (requests : List FieldRequest) :
    (valueType realmName ref requests).Relaxes n :=
  (Relaxes.symbolRef realmName ref).andThen fun symbol =>
    (Relaxes.fieldDrafts realmName requests).andThen fun drafts =>
      (Relaxes.realmId realmName).bind fun _ _ hid =>
        (Relaxes.act fun _ hn => Realms.valueType_relaxes hn hid symbol drafts).andThen
          fun _ => Relaxes.made rfl trivial

theorem arrayType_relaxes (realmName : String) (ref : SymbolRef) (element : String)
    (length : Nat) : (arrayType realmName ref element length).Relaxes n :=
  (Relaxes.symbolRef realmName ref).andThen fun symbol =>
    (Relaxes.fieldType realmName element).andThen fun type =>
      (Relaxes.realmId realmName).bind fun _ _ hid =>
        (Relaxes.act fun _ hn => Realms.arrayType_relaxes hn hid symbol type length).andThen
          fun _ => Relaxes.made rfl trivial

theorem structType_relaxes (realmName name : String) (requests : List FieldRequest) :
    (structType realmName name requests).Relaxes n :=
  (Relaxes.fieldDrafts realmName requests).andThen fun drafts =>
    (Relaxes.realmId realmName).bind fun _ _ hid =>
      (Relaxes.act fun _ hn => Realms.structType_relaxes hn hid name drafts).andThen
        fun _ => Relaxes.made rfl trivial

theorem repeatValueType_relaxes (realmName : String) (ref : SymbolRef)
    (requests : List FieldRequest) (times : Nat) :
    (repeatValueType realmName ref requests times).Relaxes n := by
  refine (Relaxes.symbolRef realmName ref).andThen fun symbol =>
    (Relaxes.fieldDrafts realmName requests).andThen fun drafts =>
      (Relaxes.realmId realmName).bind fun _ id hid =>
        (Relaxes.requestTypes hid symbol drafts times).bind fun hn₂ types _ =>
          Relaxes.get.bind fun hn₃ s hs => Relaxes.answer ?_
  have hid₃ := (hid.mono hn₂).mono hn₃
  rw [Session.relax_realms, Realms.relax_realm hs.size hid₃, Realm.relax,
    Registry.relax_definitionsOf, List.length_map, countDistinct_map ValueType.relax_same]
  rfl

theorem lookup_relaxes (realmName : String) (ref : SymbolRef) :
    (lookup realmName ref).Relaxes n := by
  refine (Relaxes.symbolRef realmName ref).andThen fun symbol =>
    Relaxes.store.andThen fun store => (Relaxes.realm realmName).andThen fun realm =>
      Relaxes.answer ?_
  rw [Realm.relax, Registry.relax_definitionsOf, List.map_map]
  exact congrArg Answer.briefs (List.map_congr_left fun t _ =>
    (Binding.valueType t).brief_relax store)

theorem contains_relaxes (realmName typeName : String) :
    (contains realmName typeName).Relaxes n :=
  (Relaxes.valueType realmName typeName).andThen fun t =>
    (Relaxes.realm realmName).andThen fun realm =>
      Relaxes.answer (congrArg Answer.truth (realm.registry.relax_contains t))

theorem describe_relaxes (name : String) : (describe name).Relaxes n :=
  (Relaxes.find name).bind fun _ _ hb => Relaxes.get.bind fun hn _ hs =>
    Relaxes.answer (congrArg Answer.description (Binding.describe_relax hs.size (hb.mono hn)))

theorem debug_relaxes (name : String) : (debug name).Relaxes n := by
  refine (Relaxes.find name).andThen fun b => Relaxes.store.andThen fun store => ?_
  rw [b.debug?_relax store]
  cases b.debug? store with
  | none => exact Relaxes.throw _ _
  | some text => exact Relaxes.answer rfl

theorem schemaField_relaxes (schemaName name : String) :
    (schemaField schemaName name).Relaxes n := by
  refine (Relaxes.schema schemaName).andThen fun schema => Relaxes.answer ?_
  simp [Answer.relax, Function.comp_def]

theorem equivalent_relaxes (a b : String) : (equivalent a b).Relaxes n :=
  (Relaxes.definition a).andThen fun d => (Relaxes.definition b).andThen fun e =>
    Relaxes.answer (congrArg Answer.truth (d.equivalent_relax e))

theorem fieldTypesEquivalent_relaxes (realmName a b : String) :
    (fieldTypesEquivalent realmName a b).Relaxes n :=
  (Relaxes.fieldType realmName a).andThen fun s =>
    (Relaxes.fieldType realmName b).andThen fun t =>
      Relaxes.answer (congrArg Answer.truth (s.equivalent_relax t))

theorem schemasEquivalent_relaxes (a b : String) : (schemasEquivalent a b).Relaxes n :=
  (Relaxes.schema a).andThen fun s => (Relaxes.schema b).andThen fun t =>
    Relaxes.answer (congrArg₂ Answer.schemas (s.equivalent_relax t) (s.same_relax t))

theorem same_relaxes (a b : String) : (same a b).Relaxes n := by
  refine (Relaxes.find a).andThen fun d => (Relaxes.find b).andThen fun e => ?_
  rw [d.compare?_relax e]
  cases d.compare? e with
  | some answers => exact Relaxes.answer rfl
  | none => exact Relaxes.throw _ _

theorem distinct_relaxes (names : List String) : (distinct names).Relaxes n := by
  refine (Relaxes.findAll names).andThen fun bindings => Relaxes.answer ?_
  rw [filterMap_relax (g := ValueType.relax), filterMap_relax (g := Schema.relax),
    filterMap_relax (g := id), countDistinct_map ValueType.relax_same,
    countDistinct_map Schema.same_relax, List.map_id]
  · rfl
  all_goals
    intro b
    cases b <;> rfl

/-! ### Values -/

theorem value_relaxes (e : Expr) : (value e).Relaxes n :=
  (Relaxes.eval e).andThen fun _ => Relaxes.made rfl trivial

theorem construct_relaxes (realmName typeName : String) (source : Option Expr) :
    (construct realmName typeName source).Relaxes n := by
  cases source with
  | none =>
      refine (Relaxes.fieldType realmName typeName).andThen fun type => ?_
      cases type with
      | value t => exact Relaxes.madeInstance t none
      | struct s => exact Relaxes.madeStruct s none
  | some e =>
      refine ((Relaxes.evalSource e).map (f := some) (q := Option.map Source.relax)
        fun _ => rfl).andThen fun source => ?_
      refine (Relaxes.fieldType realmName typeName).andThen fun type => ?_
      cases type with
      | value t => exact Relaxes.madeInstance t source
      | struct s => exact Relaxes.madeStruct s source

theorem coerce_relaxes (realmName typeName : String) (e : Expr) :
    (coerce realmName typeName e).Relaxes n :=
  (Relaxes.eval e).andThen fun v => (Relaxes.valueType realmName typeName).andThen
    fun t => (Relaxes.build (t.coerce_relaxes v)).andThen fun _ =>
      Relaxes.made rfl trivial

theorem display_relaxes (target : Expr) : (display target).Relaxes n :=
  (Relaxes.eval target).andThen fun v => (Relaxes.content v).andThen fun _ =>
    Relaxes.answer rfl

theorem get_relaxes (target : Expr) (field : String) : (get target field).Relaxes n :=
  (Relaxes.eval target).andThen fun v => (Relaxes.fieldOf v field).andThen fun _ =>
    Relaxes.found rfl

theorem getIndex_relaxes (target : Expr) (index : Nat) : (getIndex target index).Relaxes n :=
  (Relaxes.evalInstance target).andThen fun i => Relaxes.found (i.relax_get? (toString index))

theorem readField_relaxes (target : Expr) (field : String) : (readField target field).Relaxes n :=
  (Relaxes.evalSource target).andThen fun source => Relaxes.store.andThen fun store =>
    Relaxes.found (source.relax_get? store field)

theorem size_relaxes (target : Expr) : (size target).Relaxes n := by
  refine (Relaxes.evalInstance target).andThen fun i => Relaxes.answer ?_
  simp [Answer.relax]

theorem set_relaxes (target : Expr) (field : String) (e : Expr) :
    (set target field e).Relaxes n := by
  refine (Relaxes.eval target).andThen fun w => (Relaxes.eval e).andThen fun v => ?_
  cases w with
  | inst i => exact Relaxes.written (.inst i) (i.set_relaxes field v)
  | struct s => exact Relaxes.written (.struct s) (s.set_relaxes field v)
  | _ => exact Relaxes.throw _ _

theorem setProperty_relaxes (target : Expr) (name : String) (e : Expr) :
    (setProperty target name e).Relaxes n :=
  (Relaxes.eval target).andThen fun w => (Relaxes.eval e).andThen fun v =>
    Relaxes.written w (ValueTypes.setProperty_relaxes w name v)

theorem typeOf_relaxes (target : Expr) : (typeOf target).Relaxes n := by
  refine (Relaxes.evalInstance target).andThen fun i => Relaxes.made ?_ trivial
  rw [Instance.relax_type, ValueType.relax_symbol]
  rfl

theorem valueEquals_relaxes (a b : Expr) : (valueEquals a b).Relaxes n :=
  (Relaxes.evalInstance a).andThen fun i => (Relaxes.evalInstance b).andThen fun j =>
    Relaxes.answer (congrArg Answer.truth (i.equals_relax j))

theorem strictEquals_relaxes (a b : Expr) : (strictEquals a b).Relaxes n :=
  (Relaxes.eval a).andThen fun v => (Relaxes.eval b).andThen fun w =>
    Relaxes.answer (congrArg Answer.truth (v.strictEquals_relax w))

/-! ### Properties and methods -/

theorem getProperty_relaxes (realmName : String) (target : Expr) (name : String) :
    (getProperty realmName target name).Relaxes n := by
  refine (Relaxes.eval target).andThen fun v => Relaxes.store.andThen fun store =>
    (Relaxes.realm realmName).andThen fun realm => ?_
  rw [realm.relax_getProperty store v name]
  generalize realm.getProperty store v name = p
  refine Relaxes.pure (Prod.ext (p.answer_relax store) ?_) fun b hb => ?_
  · cases p <;> rfl
  · cases p <;> cases hb <;> trivial

theorem attach_relaxes (realmName typeName : String) (added : List (String × MethodBody)) :
    (attach realmName typeName added).Relaxes n :=
  (Relaxes.valueType realmName typeName).andThen fun t =>
    (Relaxes.realmId realmName).bind fun _ _ hid =>
      (Relaxes.act fun _ hn => Realms.attach_relaxes hn hid t _).andThen fun _ =>
        Relaxes.answer rfl

theorem methods_relaxes (realmName typeName : String) : (methods realmName typeName).Relaxes n := by
  refine (Relaxes.valueType realmName typeName).andThen fun t =>
    (Relaxes.realm realmName).andThen fun realm => ?_
  rw [Realm.relax, Registry.relax_methodsFor?]
  cases realm.registry.methodsFor? t with
  | some table => exact Relaxes.answer rfl
  | none => exact Relaxes.answer rfl

theorem call_relaxes (realmName : String) (target : Expr) (name : String) (args : List Expr) :
    (call realmName target name args).Relaxes n :=
  (Relaxes.evalInstance target).andThen fun i => (Relaxes.evalAll args).andThen fun vs =>
    (Relaxes.realmId realmName).bind fun _ _ hid =>
      (Relaxes.act fun _ hn => Realms.callMethod_relaxes hn
        (fun body realm receiver args => body.run_relaxes realm receiver args) hid i name vs).andThen
        fun _ => Relaxes.made rfl trivial

theorem callBound_relaxes (realmName methodName : String) (args : List Expr) :
    (callBound realmName methodName args).Relaxes n :=
  (Relaxes.method methodName).andThen fun m => (Relaxes.evalAll args).andThen fun vs =>
    (Relaxes.realmId realmName).bind fun _ _ hid =>
      (Relaxes.act fun _ hn => Realms.callBound_relaxes hn
        (fun body realm receiver args => body.run_relaxes realm receiver args) hid m vs).andThen
        fun _ => Relaxes.made rfl trivial

/-! ### All commands -/

/-- Every command that succeeds in a session succeeds in the relaxed session, with the corresponding
output. -/
theorem relaxes (c : Command) : c.Relaxes n := by
  cases c with
  | newTable => exact newTable_relaxes
  | newRealm config table => exact newRealm_relaxes config table
  | newSymbol description => exact newSymbol_relaxes description
  | symbolFor table key => exact symbolFor_relaxes table key
  | keyFor table name => exact keyFor_relaxes table name
  | tableSize table => exact tableSize_relaxes table
  | primitive realm name => exact primitive_relaxes realm name
  | schema realm kind fields => exact schema_relaxes realm kind fields
  | arraySchema realm kind element length => exact arraySchema_relaxes realm kind element length
  | draft realm ref schema => exact draft_relaxes realm ref schema
  | intern realm draft => exact intern_relaxes realm draft
  | valueType realm ref fields => exact valueType_relaxes realm ref fields
  | arrayType realm ref element length => exact arrayType_relaxes realm ref element length
  | structType realm name fields => exact structType_relaxes realm name fields
  | repeatValueType realm ref fields times => exact repeatValueType_relaxes realm ref fields times
  | lookup realm ref => exact lookup_relaxes realm ref
  | contains realm type => exact contains_relaxes realm type
  | describe name => exact describe_relaxes name
  | debug name => exact debug_relaxes name
  | schemaField schema field => exact schemaField_relaxes schema field
  | equivalent a b => exact equivalent_relaxes a b
  | fieldTypesEquivalent realm a b => exact fieldTypesEquivalent_relaxes realm a b
  | schemasEquivalent a b => exact schemasEquivalent_relaxes a b
  | same a b => exact same_relaxes a b
  | distinct names => exact distinct_relaxes names
  | value e => exact value_relaxes e
  | construct realm type source => exact construct_relaxes realm type source
  | coerce realm type e => exact coerce_relaxes realm type e
  | display target => exact display_relaxes target
  | get target field => exact get_relaxes target field
  | getIndex target index => exact getIndex_relaxes target index
  | readField target field => exact readField_relaxes target field
  | size target => exact size_relaxes target
  | set target field e => exact set_relaxes target field e
  | setProperty target name e => exact setProperty_relaxes target name e
  | getProperty realm target name => exact getProperty_relaxes realm target name
  | attach realm type methods => exact attach_relaxes realm type methods
  | methods realm type => exact methods_relaxes realm type
  | call realm target name args => exact call_relaxes realm target name args
  | callBound realm method args => exact callBound_relaxes realm method args
  | typeOf target => exact typeOf_relaxes target
  | valueEquals a b => exact valueEquals_relaxes a b
  | strictEquals a b => exact strictEquals_relaxes a b

end Command

end ValueTypes
