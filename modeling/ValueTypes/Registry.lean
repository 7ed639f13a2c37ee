import ValueTypes.Definition.Equivalence
import ValueTypes.Definition.Fingerprint
import ValueTypes.Method

/-! The definitions of a realm. A registry only grows: new definitions take the next number, and a
draft equivalent to a registered definition is answered with that one. -/

namespace ValueTypes

/-- The definitions under each symbol, in order of registration. -/
structure Buckets where
  entries : List (Symbol × List ValueType) := []

namespace Buckets

/-- The definitions under a symbol; none if nothing was ever put there. -/
def bucket (buckets : Buckets) (symbol : Symbol) : List ValueType :=
  (buckets.entries.lookup symbol).getD []

/-- Puts a definition behind the others under a symbol. -/
def push (buckets : Buckets) (symbol : Symbol) (t : ValueType) : Buckets :=
  ⟨Entries.insert buckets.entries symbol (buckets.bucket symbol ++ [t])⟩

end Buckets

/-- The definition of a primitive kind in a realm whose primitive symbols are numbered from
`firstSymbol`. -/
def primitiveType (hashing : Hashing) (realm : RealmId) (coercion : CoercionMode)
    (firstSymbol : Nat) (kind : PrimitiveKind) : ValueType :=
  .define hashing (kind.index + 1) realm ⟨firstSymbol + kind.index, some kind.name⟩
    (.primitive kind) coercion

/-- The definitions of a realm in order of registration and by symbol, the number for the next one,
and the methods of definitions. -/
structure Registry (μ : Type) where
  realm : RealmId
  coercion : CoercionMode
  hashing : Hashing
  firstSymbol : Nat
  definitions : List ValueType
  buckets : Buckets
  nextId : DefinitionId
  methods : List (DefinitionId × MethodTable μ) := []

namespace Registry

variable {μ : Type}

/-- A registry that holds the primitive types. -/
def new (hashing : Hashing) (realm : RealmId) (coercion : CoercionMode) (firstSymbol : Nat) :
    Registry μ where
  realm := realm
  coercion := coercion
  hashing := hashing
  firstSymbol := firstSymbol
  definitions := PrimitiveKind.all.map (primitiveType hashing realm coercion firstSymbol)
  buckets := (PrimitiveKind.all.map (primitiveType hashing realm coercion firstSymbol)).foldl
    (fun buckets t => buckets.push t.symbol t) {}
  nextId := PrimitiveKind.all.length + 1

def primitive (registry : Registry μ) (kind : PrimitiveKind) : ValueType :=
  primitiveType registry.hashing registry.realm registry.coercion registry.firstSymbol kind

/-- The definitions registered under a symbol, in order of registration. -/
def definitionsOf (registry : Registry μ) (symbol : Symbol) : List ValueType :=
  registry.buckets.bucket symbol

/-- Whether a handle names a definition of this registry. -/
def contains (registry : Registry μ) (t : ValueType) : Bool :=
  t.realm == registry.realm && (registry.definitionsOf t.symbol).any (·.same t)

/-! ### Interning -/

/-- Why a draft with a field of some type cannot be registered. -/
def fault? (registry : Registry μ) : FieldType → Option FieldFault
  | .value t => if t.realm = registry.realm then none else some (.foreign t.name)
  | .struct s => some (.structInValue s.name)

/-- Checks that all fields of a draft are of value types of this realm. -/
def check (registry : Registry μ) (draft : Draft) : Except Error Unit :=
  match draft.schema.fields.findSome? fun f =>
      (registry.fault? f.type).map (Error.invalidFieldType f.name) with
  | some e => .error e
  | none => .ok ()

/-- The definition equivalent to a draft, if there is one. -/
def find? (registry : Registry μ) (draft : Draft) : Option ValueType :=
  (registry.definitionsOf draft.symbol).find? (·.matchesDraft draft)

/-- The next definition, made of a draft. -/
def next (registry : Registry μ) (draft : Draft) : ValueType :=
  .define registry.hashing registry.nextId registry.realm draft.symbol (.composite draft.schema)
    registry.coercion

/-- Registers a draft as the next definition, under its symbol. -/
def register (registry : Registry μ) (draft : Draft) : Registry μ :=
  { registry with
    definitions := registry.definitions ++ [registry.next draft]
    buckets := registry.buckets.push draft.symbol (registry.next draft)
    nextId := registry.nextId + 1 }

/-- Registers a draft unless an equivalent definition is there. -/
def registerUnlessPresent (registry : Registry μ) (draft : Draft) : ValueType × Registry μ :=
  match registry.find? draft with
  | some t => (t, registry)
  | none => (registry.next draft, registry.register draft)

/-- The one definition equivalent to a draft, which is registered if need be. The first look-up
saves the second step for drafts that are known. -/
def intern (registry : Registry μ) (draft : Draft) : Except Error (ValueType × Registry μ) :=
  match registry.check draft with
  | .error e => .error e
  | .ok () =>
    match registry.find? draft with
    | some t => .ok (t, registry)
    | none => .ok (registry.registerUnlessPresent draft)

/-! ### Methods -/

/-- The methods of a definition of this realm; `none` if none were ever attached. -/
def methodsFor? (registry : Registry μ) (t : ValueType) : Option (MethodTable μ) :=
  if t.realm = registry.realm then registry.methods.lookup t.id else none

def method? (registry : Registry μ) (t : ValueType) (name : String) : Option μ :=
  (registry.methodsFor? t).bind (·.find? name)

/-- Attaches methods to a definition. Methods of the same name are replaced. -/
def attach (registry : Registry μ) (t : ValueType) (added : MethodTable μ) :
    Except Error (Registry μ) :=
  if registry.contains t then
    let table := ((registry.methods.lookup t.id).getD {}).merge added
    .ok { registry with methods := Entries.insert registry.methods t.id table }
  else .error (.foreignDefinition t.name)

end Registry

end ValueTypes
