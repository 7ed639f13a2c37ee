import ValueTypes.Entries
import ValueTypes.Error
import ValueTypes.Value.Basic

/-! The store of structs, and the computations that build values in it. A computation that
fails leaves the store as it was. -/

namespace ValueTypes

/-- A struct in the store: its type, and one value for each field. -/
structure Cell where
  type : StructType
  slots : List Value

namespace Cell

/-- The fields by name, in the order of the schema. -/
def fields (cell : Cell) : List (String × Value) :=
  cell.type.schema.names.zip cell.slots

def get? (cell : Cell) (name : String) : Option Value :=
  cell.fields.lookup name

end Cell

/-- All structs by address, and the next number for a record or an instance. -/
structure Store where
  nextId : Nat := 1
  cells : Array Cell := #[]

namespace Store

/-- The cell that a handle names. -/
def cell? (store : Store) (s : StructInstance) : Option Cell :=
  store.cells[s.address]?

def get? (store : Store) (s : StructInstance) (name : String) : Option Value :=
  (store.cell? s).bind (·.get? name)

end Store

/-- A computation that builds values in a store. -/
abbrev Build := StateT Store (Except Error)

namespace Build

/-- A number for a new record or instance. -/
def newId : Build Nat :=
  modifyGet fun store => (store.nextId, { store with nextId := store.nextId + 1 })

def newRecord (entries : List (String × Value)) : Build Value := do
  return .record (← newId) entries

/-- A new instance, sealed with the values of its fields once all of them are there. -/
def newInstance (type : ValueType) (slots : Build (List Value)) : Build Instance := do
  let slots ← slots
  return ⟨← newId, type, slots⟩

/-- A new struct, allocated with the values of its fields once all of them are there. -/
def newStruct (type : StructType) (slots : Build (List Value)) : Build StructInstance := do
  let slots ← slots
  modifyGet fun store =>
    (⟨store.cells.size, type⟩, { store with cells := store.cells.push ⟨type, slots⟩ })

/-- Overwrites one slot of a struct. -/
def write (s : StructInstance) (index : Nat) (value : Value) : Build Unit :=
  modify fun store =>
    { store with
      cells := store.cells.modify s.address fun cell =>
        { cell with slots := cell.slots.set index value } }

end Build

/-- An object that fields can be read from by name. -/
inductive Source where
  | record (entries : List (String × Value))
  | inst (i : Instance)
  | struct (s : StructInstance)

namespace Source

/-- Only records, instances and structs are sources. -/
def ofValue? : Value → Option Source
  | .record _ entries => some (record entries)
  | .inst i => some (inst i)
  | .struct s => some (struct s)
  | _ => none

def get? (store : Store) (name : String) : Source → Option Value
  | record entries => entries.lookup name
  | inst i => i.get? name
  | struct s => store.get? s name

end Source

end ValueTypes
