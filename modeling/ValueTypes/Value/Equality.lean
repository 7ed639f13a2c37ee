import ValueTypes.Definition.Equivalence
import ValueTypes.Value.Basic

/-! Strict equality. Numbers compare by value across both sorts of number, symbols, records and
structs by identity, and instances of value types by structure. -/

namespace ValueTypes

/-- Equality of two values neither of which is an instance. -/
def Value.plainEquals : Value → Value → Bool
  | .undefined, .undefined => true
  | .bool a, .bool b => a == b
  | .int a, .int b => a == b
  | .int a, .float b => (Double.ofInt a).numEq b
  | .float a, .int b => (Double.ofInt b).numEq a
  | .float a, .float b => a.numEq b
  | .str a, .str b => a == b
  | .symbol a, .symbol b => a == b
  | .record a _, .record b _ => a == b
  | .struct a, .struct b => a.address == b.address
  | _, _ => false

mutual

def Value.strictEquals : Value → Value → Bool
  | .inst ⟨_, type, slots⟩, b =>
    match b with
    | .inst j => type.equivalent j.type && slotsEqual slots j.slots
    | _ => false
  | a, b => a.plainEquals b
termination_by structural a => a

def slotsEqual : List Value → List Value → Bool
  | [], vs => vs.isEmpty
  | u :: us, vs =>
    match vs with
    | [] => false
    | v :: vs => u.strictEquals v && slotsEqual us vs
termination_by structural us => us

end

/-- Equality of instances: equivalent types, and equal slots. -/
def Instance.equals (i j : Instance) : Bool :=
  i.type.equivalent j.type && slotsEqual i.slots j.slots

@[simp]
theorem Value.strictEquals_inst (i j : Instance) :
    (Value.inst i).strictEquals (.inst j) = i.equals j := by
  cases i; rfl

@[simp]
theorem slotsEqual_cons (u v : Value) (us vs : List Value) :
    slotsEqual (u :: us) (v :: vs) = (u.strictEquals v && slotsEqual us vs) := rfl

end ValueTypes
