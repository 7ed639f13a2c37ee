import ValueTypes.Store
import ValueTypes.Text.Quoted

/-! What a value shows at one moment, with the present fields of structs in place of their
addresses, and the debug text of it. -/

namespace ValueTypes

/-- A value as it can be seen from outside. -/
inductive Content where
  | undefined
  | bool (b : Bool)
  | int (i : Int)
  | float (f : Double)
  | str (s : String)
  | symbol (s : Symbol)
  | record (entries : List (String × Content))
  | inst (name : String) (definition : DefinitionId) (realm : RealmId)
      (fields : List (String × Content))
  | struct (name : String) (id : StructId) (fields : List (String × Content))

/-! ### Contents of values -/

mutual

/-- The content of a value, where `look` gives that of structs. -/
def Value.contentWith (look : StructInstance → Content) : Value → Content
  | .undefined => .undefined
  | .bool b => .bool b
  | .int i => .int i
  | .float f => .float f
  | .str s => .str s
  | .symbol s => .symbol s
  | .record _ entries => .record (entryContents look entries)
  | .inst ⟨_, type, slots⟩ =>
    .inst type.name type.id type.realm
      ((type.schema?.elim [] Schema.names).zip (slotContents look slots))
  | .struct s => look s
termination_by structural v => v

def entryContents (look : StructInstance → Content) :
    List (String × Value) → List (String × Content)
  | [] => []
  | (name, v) :: entries => (name, v.contentWith look) :: entryContents look entries
termination_by structural entries => entries

def slotContents (look : StructInstance → Content) : List Value → List Content
  | [] => []
  | v :: vs => v.contentWith look :: slotContents look vs
termination_by structural vs => vs

end

namespace Store

/-- The content of a struct, following at most `hops` structs. -/
def structContent (store : Store) : Nat → StructInstance → Content
  | 0, s => .struct s.type.name s.type.id []
  | hops + 1, s =>
    .struct s.type.name s.type.id <|
      (store.cell? s).elim [] fun cell =>
        cell.type.schema.names.zip (slotContents (store.structContent hops) cell.slots)

/-- The present content of a value. No struct contains itself, so a path through structs is no
longer than there are structs. -/
def content (store : Store) (v : Value) : Content :=
  v.contentWith (store.structContent store.cells.size)

end Store

/-! ### Debug texts -/

/-- A type name with fields, as instances are written. -/
def debugFields (name : String) (fields : List String) : String :=
  if fields = [] then name else name ++ " \x7b " ++ String.intercalate ", " fields ++ " \x7d"

mutual

def Content.debug : Content → String
  | .undefined => "Undefined"
  | .bool b => "Bool(" ++ (if b then "true" else "false") ++ ")"
  | .int i => "Int(" ++ toString i ++ ")"
  | .float f => "Float(" ++ f.debug ++ ")"
  | .str s => "Str(" ++ Text.quote s ++ ")"
  | .symbol s => s.debug
  | .record entries => Text.braced (debugEntries Text.quote entries)
  | .inst name _ _ fields => debugFields name (debugEntries id fields)
  | .struct name _ fields => debugFields name (debugEntries id fields)
termination_by structural c => c

def debugEntries (label : String → String) : List (String × Content) → List String
  | [] => []
  | (name, c) :: entries => (label name ++ ": " ++ c.debug) :: debugEntries label entries
termination_by structural entries => entries

end

end ValueTypes
