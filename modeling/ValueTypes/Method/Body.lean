import ValueTypes.Realm

/-! A small stock of method bodies, and what each of them does when it is called. -/

namespace ValueTypes

/-- What a method does. -/
inductive MethodBody where
  /-- Gives the integer zero. -/
  | zero
  /-- Gives the receiver. -/
  | self
  /-- Adds the numbers among the receiver's fields. -/
  | sum
  /-- Builds an instance like the receiver with another first field. -/
  | withFirst
  /-- Gives the last argument. -/
  | echo
  /-- Reads a property of the receiver. -/
  | prop
  /-- Calls another method of the receiver with the arguments left. -/
  | call
  /-- Writes a field of the receiver, which fails. -/
  | write
deriving DecidableEq

namespace MethodBody

def name : MethodBody → String
  | zero => "zero"
  | self => "self"
  | sum => "sum"
  | withFirst => "with_first"
  | echo => "echo"
  | prop => "prop"
  | call => "call"
  | write => "write"

def all : List MethodBody :=
  [zero, self, sum, withFirst, echo, prop, call, write]

def ofName? (name : String) : Option MethodBody :=
  all.find? (·.name == name)

/-- The least and the greatest number of arguments, where a body counts them. -/
def arity? : MethodBody → Option (Nat × Nat)
  | zero | self => none
  | sum => some (0, 0)
  | withFirst | prop => some (1, 1)
  | echo => some (1, 3)
  | call => some (1, 8)
  | write => some (2, 2)

def checkCount (body : MethodBody) (actual : Nat) : Except Error Unit :=
  match body.arity? with
  | none => .ok ()
  | some (least, most) => checkArity body.name actual least most

/-- The name that an argument gives; what is no string gives the empty name. -/
def nameOf (v : Value) : String :=
  v.toStr?.getD ""

/-- The sum of the numbers among some values, from the left. -/
def sumOf (vs : List Value) : Double :=
  (vs.filterMap Value.toDouble?).foldl Double.add .zero

def replaceFirst (entries : List (String × Value)) (v : Value) : List (String × Value) :=
  match entries with
  | [] => []
  | entry :: rest => (entry.1, v) :: rest

/-- Runs a body in a realm, on a receiver with arguments. The number of arguments is checked
first, so none is missing where one is used. -/
def run (realm : Realm MethodBody) (receiver : Instance) :
    List Value → MethodBody → Build Value
  | args, body => do
    body.checkCount args.length
    match body with
    | zero => return .int 0
    | self => return .inst receiver
    | sum => return .float (sumOf receiver.slots)
    | withFirst =>
      let entries := replaceFirst receiver.fields (args.headD .undefined)
      return .inst (← receiver.type.construct (some (.record entries)))
    | echo => return args.getLastD .undefined
    | prop =>
      let store ← get
      return (realm.getProperty store (.inst receiver) (nameOf (args.headD .undefined))).toValue
    | call =>
      match args with
      | [] => return .undefined
      | v :: vs =>
        let next ← realm.methodOf receiver (nameOf v)
        run realm receiver vs next
    | write =>
      receiver.set (nameOf (args.headD .undefined)) (args.getD 1 .undefined)
      return .undefined
termination_by structural args => args

end MethodBody

end ValueTypes
