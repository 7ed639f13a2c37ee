/-! Symbols, which are compared by identity, and tables that hand out one symbol for each
key. -/

namespace ValueTypes

/-- A symbol. Its number is its identity; the description only serves to display it. -/
structure Symbol where
  id : Nat
  description : Option String

namespace Symbol

instance : BEq Symbol where
  beq a b := a.id == b.id

/-- The description, or the number of a symbol without one. -/
def displayName (s : Symbol) : String :=
  s.description.getD ("#" ++ toString s.id)

def display (s : Symbol) : String :=
  "Symbol(" ++ s.description.getD "" ++ ")"

def debug (s : Symbol) : String :=
  "Symbol(" ++ s.description.getD "" ++ "@" ++ toString s.id ++ ")"

end Symbol

/-- The symbols handed out by key, in order of first request. -/
structure SymbolTable where
  entries : List (String × Symbol) := []

namespace SymbolTable

/-- The symbol of a key that was asked for before. -/
def find? (table : SymbolTable) (key : String) : Option Symbol :=
  table.entries.lookup key

/-- The symbol of a key, where `next` is the number for a new symbol; and the number for the
next new one. -/
def symbolFor (table : SymbolTable) (key : String) (next : Nat) : Symbol × SymbolTable × Nat :=
  match table.find? key with
  | some s => (s, table, next)
  | none =>
    let s : Symbol := ⟨next, some key⟩
    (s, ⟨table.entries ++ [(key, s)]⟩, next + 1)

/-- The key that a symbol was handed out for, if this table handed it out. -/
def keyFor? (table : SymbolTable) (s : Symbol) : Option String :=
  s.description.filter fun key => (table.find? key).any (· == s)

def size (table : SymbolTable) : Nat :=
  table.entries.length

end SymbolTable

end ValueTypes
