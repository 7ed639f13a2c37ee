import ValueTypes.Session.Basic

/-! How the steps of a session name values. -/

namespace ValueTypes

/-- How a step names a value. -/
inductive Expr where
  | undefined
  | bool (b : Bool)
  | int (i : Int)
  | float (f : Double)
  | str (s : String)
  | record (entries : List (String × Expr))
  | symbol (name : String)
  /-- The value or the symbol of a given name. -/
  | ref (name : String)

mutual

/-- The value of an expression. -/
def Expr.eval : Expr → Script Value
  | .undefined => return .undefined
  | .bool b => return .bool b
  | .int i => return .int i
  | .float f => return .float f
  | .str s => return .str s
  | .record entries => do
    let pairs ← evalEntries entries
    Script.build (Build.newRecord (Entries.ofPairs pairs))
  | .symbol name => return .symbol (← Script.symbol name)
  | .ref name => do
    match ← Script.find name with
    | .value v => return v
    | .symbol s => return .symbol s
    | _ => Script.unbound name
termination_by structural e => e

/-- The values of the entries of a record. -/
def evalEntries : List (String × Expr) → Script (List (String × Value))
  | [] => return []
  | (name, e) :: entries => do
    let v ← e.eval
    let vs ← evalEntries entries
    return (name, v) :: vs
termination_by structural entries => entries

end

/-- The values of some expressions, from the left. -/
def evalAll : List Expr → Script (List Value)
  | [] => return []
  | e :: es => do
    let v ← e.eval
    let vs ← evalAll es
    return v :: vs

/-- The instance that an expression names. -/
def Expr.evalInstance (e : Expr) : Script Instance := do
  match ← e.eval with
  | .inst i => return i
  | v => Script.unbound v.typeName

/-- The object to construct from that an expression names. -/
def Expr.evalSource (e : Expr) : Script Source := do
  let v ← e.eval
  match Source.ofValue? v with
  | some source => return source
  | none => throw (.notASource v.typeName)

end ValueTypes
