import ValueTypes.Session.Answer
import ValueTypes.Session.Command
import ValueTypes.Value.Equality

/-! What commands do, and runs of steps. A command answers, and may give something for a name to
stand for. -/

namespace ValueTypes

/-- Whether two bindings of one sort are identical, and whether they are equal. -/
def Binding.compare? : Binding → Binding → Option (Bool × Bool)
  | .symbol s, .symbol t => some (s == t, s == t)
  | .valueType t, .valueType u => some (t.same u, t.same u)
  | .structType s, .structType t => some (s.same t, s.same t)
  | .value (.inst i), .value (.inst j) => some (i.id == j.id, i.equals j)
  | .value (.struct s), .value (.struct t) => some (s.address == t.address, s.address == t.address)
  | .value v, .value w => some (v.strictEquals w, v.strictEquals w)
  | _, _ => none

/-- How many different elements a list has. -/
def countDistinct {α : Type} (same : α → α → Bool) : List α → Nat
  | [] => 0
  | a :: as => countDistinct same as + if as.any (same a) then 0 else 1

namespace Script

/-! ### Parts of commands -/

/-- The symbol that a command names. The symbol of a key is taken at once. -/
def symbolRef (realmName : String) : SymbolRef → Script Symbol
  | .key key => do
    let table := (← realm realmName).table
    update fun rs => rs.symbolFor table key
  | .name name => symbol name

def fieldDraft (realmName : String) (request : FieldRequest) : Script FieldDraft := do
  let type ← fieldType realmName request.type
  let default ← match request.default with
    | none => pure none
    | some e => some <$> e.eval
  return ⟨request.name, type, request.isStatic, default⟩

def fieldDrafts (realmName : String) : List FieldRequest → Script (List FieldDraft)
  | [] => return []
  | request :: requests => do
    let draft ← fieldDraft realmName request
    let drafts ← fieldDrafts realmName requests
    return draft :: drafts

/-- The answer of a command that made something. -/
def made (b : Binding) : Script (Answer × Option Binding) := do
  return (.brief (b.brief (← store)), some b)

def answer (a : Answer) : Script (Answer × Option Binding) :=
  return (a, none)

/-- The answer of a command that may have found a value. -/
def found (v : Option Value) : Script (Answer × Option Binding) := do
  let store ← store
  return (.optional (v.map store.content), v.map .value)

/-- The answer of a write to a target, whether it fails or not. -/
def written (target : Value) (write : Build Unit) : Script (Answer × Option Binding) := do
  match ← update fun rs => rs.build write with
  | .ok () => answer (.written none (← content target))
  | .error e => answer (.written (some e) (← content target))

/-- The field of a given name of a target that is an instance, a struct or a record. -/
def fieldOf (target : Value) (name : String) : Script (Option Value) := do
  match Source.ofValue? target with
  | some source => return source.get? (← store) name
  | none => unbound target.typeName

/-- Asks a number of times for the value type of a symbol with given fields. -/
def requestTypes (id : RealmId) (symbol : Symbol) (drafts : List FieldDraft) :
    Nat → Script (List ValueType)
  | 0 => return []
  | times + 1 => do
    let t ← act fun rs => rs.valueType id symbol drafts
    let ts ← requestTypes id symbol drafts times
    return t :: ts

/-- Registers methods in a table, and tells of each whether it replaced another. -/
def registerAll (table : MethodTable MethodBody) :
    List (String × MethodBody) → MethodTable MethodBody × List Bool
  | [] => (table, [])
  | (name, body) :: methods =>
    let (all, flags) := registerAll (table.register name body) methods
    (all, (table.find? name).isSome :: flags)

/-- Runs a method body, as realms do. -/
def invoke (body : MethodBody) (realm : Realm MethodBody) (receiver : Instance)
    (args : List Value) : Build Value :=
  body.run realm receiver args

end Script

/-! ### Commands -/

open Script in
/-- What a command answers, and what it gives for a name to stand for. -/
def Command.perform : Command → Script (Answer × Option Binding)
  | newTable => do made (.table (← update Realms.newTable))
  | newRealm config table => do
    let id ← match table with
      | some name => Script.table name
      | none => update Realms.newTable
    made (.realm (← update fun rs => rs.newRealm config id))
  | newSymbol description => do made (.symbol (← update fun rs => rs.newSymbol description))
  | symbolFor table key => do
    let id ← Script.table table
    made (.symbol (← update fun rs => rs.symbolFor id key))
  | keyFor table name => do
    let id ← Script.table table
    let s ← symbol name
    answer ((((← getThe Session).realms.table id).keyFor? s).elim .nothing .text)
  | tableSize table => do
    let id ← Script.table table
    answer (.size ((← getThe Session).realms.table id).size)
  | primitive realmName name => do
    match (← realm realmName).primitiveOfName? name with
    | some t => made (.valueType t)
    | none => answer .nothing
  | schema realmName kind requests => do
    let drafts ← fieldDrafts realmName requests
    made (.schema (← build ((← realm realmName).makeSchema kind drafts)))
  | arraySchema realmName kind element length => do
    let type ← fieldType realmName element
    made (.schema (← build ((← realm realmName).makeArraySchema kind type length)))
  | draft realmName ref schemaName => do
    let symbol ← symbolRef realmName ref
    made (.draft ⟨symbol, ← Script.schema schemaName⟩)
  | intern realmName draftName => do
    let d ← Script.draft draftName
    let id ← realmId realmName
    made (.valueType (← act fun rs => rs.intern id d))
  | valueType realmName ref requests => do
    let symbol ← symbolRef realmName ref
    let drafts ← fieldDrafts realmName requests
    let id ← realmId realmName
    made (.valueType (← act fun rs => rs.valueType id symbol drafts))
  | arrayType realmName ref element length => do
    let symbol ← symbolRef realmName ref
    let type ← fieldType realmName element
    let id ← realmId realmName
    made (.valueType (← act fun rs => rs.arrayType id symbol type length))
  | structType realmName name requests => do
    let drafts ← fieldDrafts realmName requests
    let id ← realmId realmName
    made (.structType (← act fun rs => rs.structType id name drafts))
  | repeatValueType realmName ref requests times => do
    let symbol ← symbolRef realmName ref
    let drafts ← fieldDrafts realmName requests
    let id ← realmId realmName
    let types ← requestTypes id symbol drafts times
    let known := ((← getThe Session).realms.realm id).registry.definitionsOf symbol
    answer (.requests (countDistinct ValueType.same types) known.length)
  | lookup realmName ref => do
    let symbol ← symbolRef realmName ref
    let store ← store
    let known := (← realm realmName).registry.definitionsOf symbol
    answer (.briefs (known.map fun t => (Binding.valueType t).brief store))
  | contains realmName typeName => do
    let t ← Script.valueType realmName typeName
    answer (.truth ((← realm realmName).registry.contains t))
  | describe name => do
    let b ← find name
    answer (.description (b.describe (← getThe Session).realms))
  | debug name => do
    let b ← find name
    answer (.text (← (b.debug? (← store)).elim (unbound name) pure))
  | schemaField schemaName name => do
    let s ← Script.schema schemaName
    let field := s.field? name
    answer (.field (s.indexOf? name) (field.map (·.type.name)) (field.map (·.isStatic)))
  | equivalent a b => do
    answer (.truth ((← definition a).equivalent (← definition b)))
  | fieldTypesEquivalent realmName a b => do
    answer (.truth ((← fieldType realmName a).equivalent (← fieldType realmName b)))
  | schemasEquivalent a b => do
    let s ← Script.schema a
    let t ← Script.schema b
    answer (.schemas (s.equivalent t) (s.same t))
  | same a b => do
    match (← find a).compare? (← find b) with
    | some (identical, equal) => answer (.comparison identical equal)
    | none => unbound b
  | distinct names => do
    let bindings ← names.mapM find
    let types := bindings.filterMap fun
      | .valueType t => some t
      | _ => none
    let schemas := bindings.filterMap fun
      | .schema s => some s
      | _ => none
    let symbols := bindings.filterMap fun
      | .symbol s => some s
      | _ => none
    answer (.distinct (countDistinct ValueType.same types) (countDistinct Schema.same schemas)
      (countDistinct (· == ·) symbols))
  | value e => do made (.value (← e.eval))
  | construct realmName typeName source => do
    let source ← match source with
      | none => pure none
      | some e => some <$> e.evalSource
    match ← fieldType realmName typeName with
    | .value t => made (.value (.inst (← build (t.construct source))))
    | .struct s => made (.value (.struct (← build (s.construct source))))
  | coerce realmName typeName e => do
    let v ← e.eval
    let t ← Script.valueType realmName typeName
    made (.value (← build (t.coerce v)))
  | display target => do answer (.shown (← content (← target.eval)))
  | get target name => do found (← fieldOf (← target.eval) name)
  | getIndex target index => do found ((← target.evalInstance).getIndex? index)
  | readField target name => do
    let source ← target.evalSource
    found (source.get? (← store) name)
  | size target => do answer (.size (← target.evalInstance).slots.length)
  | set target name e => do
    match ← target.eval, ← e.eval with
    | .inst i, v => written (.inst i) (i.set name v)
    | .struct s, v => written (.struct s) (s.set name v)
    | w, _ => unbound w.typeName
  | setProperty target name e => do
    let target ← target.eval
    let v ← e.eval
    written target (ValueTypes.setProperty target name v)
  | getProperty realmName target name => do
    let target ← target.eval
    let store ← store
    let p := (← realm realmName).getProperty store target name
    let given : Option Binding := match p with
      | .field v => some (.value v)
      | .method m => some (.method m)
      | .missing => none
    return (.property p.isMissing (store.content p.toValue) (p.debug store), given)
  | attach realmName typeName added => do
    let t ← Script.valueType realmName typeName
    let id ← realmId realmName
    let (table, flags) := registerAll {} added
    act fun rs => rs.attach id t table
    answer (.replaced flags)
  | methods realmName typeName => do
    let t ← Script.valueType realmName typeName
    match (← realm realmName).registry.methodsFor? t with
    | some table => answer (.methods table.names table.debug)
    | none => answer .nothing
  | call realmName target name args => do
    let i ← target.evalInstance
    let args ← evalAll args
    let id ← realmId realmName
    made (.value (← act fun rs => rs.callMethod invoke id i name args))
  | callBound realmName methodName args => do
    let m ← method methodName
    let args ← evalAll args
    let id ← realmId realmName
    made (.value (← act fun rs => rs.callBound invoke id m args))
  | typeOf target => do made (.symbol (← target.evalInstance).type.symbol)
  | valueEquals a b => do
    let i ← a.evalInstance
    let j ← b.evalInstance
    answer (.truth (i.equals j))
  | strictEquals a b => do
    let v ← a.eval
    let w ← b.eval
    answer (.truth (v.strictEquals w))

/-- The answer to a step. A failing step names nothing. -/
def Step.script (step : Step) : Script Answer := do
  let (answer, given) ← step.command.perform
  match step.name, given with
  | some name, some b => Script.bind name b
  | _, _ => pure ()
  return answer

namespace Session

/-- The outcome of one step, and the session after it. -/
def run (s : Session) (step : Step) : Except Failure Answer × Session :=
  (step.script.run).run s

/-- The outcomes of steps one after another, and the session after them. -/
def runAll (s : Session) : List Step → List (Except Failure Answer) × Session
  | [] => ([], s)
  | step :: steps =>
    let (outcome, s) := s.run step
    let (outcomes, s) := runAll s steps
    (outcome :: outcomes, s)

end Session

end ValueTypes
