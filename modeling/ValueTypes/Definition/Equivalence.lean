import ValueTypes.Definition

/-! Structural equivalence of definitions: the same symbol, and layouts that agree field by
field, in order, on names and on types. Struct types are compared by identity. -/

namespace ValueTypes

mutual

/-- Whether two value types are equivalent. Handles of one definition are, without a look at
their layouts. -/
def ValueType.equivalent : ValueType → ValueType → Bool
  | t@⟨_, _, symbol, layout, _, _⟩, u =>
    t.same u || (symbol == u.symbol && layout.equivalent u.layout)
termination_by structural t => t

def Layout.equivalent : Layout → Layout → Bool
  | .primitive kind, l =>
    match l with
    | .primitive other => kind == other
    | .composite _ => false
  | .composite ⟨_, fields, _, _⟩, l =>
    match l with
    | .primitive _ => false
    | .composite other => fieldsEquivalent fields other.fields
termination_by structural l => l

/-- Whether two lists have as many fields, with the same names and equivalent types in the same
order. Static flags and defaults do not count. -/
def fieldsEquivalent : List Field → List Field → Bool
  | [], gs => gs.isEmpty
  | ⟨name, type, _, _⟩ :: fs, gs =>
    match gs with
    | [] => false
    | g :: gs => name == g.name && type.equivalent g.type && fieldsEquivalent fs gs
termination_by structural fs => fs

def FieldType.equivalent : FieldType → FieldType → Bool
  | .value t, type =>
    match type with
    | .value u => t.equivalent u
    | .struct _ => false
  | .struct s, type =>
    match type with
    | .value _ => false
    | .struct other => s.same other
termination_by structural type => type

end

theorem ValueType.equivalent_eq (t u : ValueType) :
    t.equivalent u = (t.same u || (t.symbol == u.symbol && t.layout.equivalent u.layout)) := by
  cases t; rfl

@[simp]
theorem Layout.equivalent_composite (a b : Schema) :
    (Layout.composite a).equivalent (.composite b) = fieldsEquivalent a.fields b.fields := by
  cases a; rfl

@[simp]
theorem fieldsEquivalent_cons (f g : Field) (fs gs : List Field) :
    fieldsEquivalent (f :: fs) (g :: gs) =
      (f.name == g.name && f.type.equivalent g.type && fieldsEquivalent fs gs) := by
  cases f; rfl

def Schema.equivalent (a b : Schema) : Bool :=
  fieldsEquivalent a.fields b.fields

/-- Whether a registered definition is equivalent to a draft. -/
def ValueType.matchesDraft (t : ValueType) (d : Draft) : Bool :=
  t.symbol == d.symbol && t.layout.equivalent (.composite d.schema)

/-- A definition of either sort: registered, or only drafted. -/
inductive Definition where
  | canonical (type : ValueType)
  | draft (draft : Draft)

namespace Definition

def symbol : Definition → Symbol
  | canonical t => t.symbol
  | draft d => d.symbol

def layout : Definition → Layout
  | canonical t => t.layout
  | draft d => .composite d.schema

/-- Whether two definitions are handles of one registered definition. -/
def identical : Definition → Definition → Bool
  | canonical t, canonical u => t.same u
  | _, _ => false

def equivalent (a b : Definition) : Bool :=
  a.identical b || (a.symbol == b.symbol && a.layout.equivalent b.layout)

end Definition

/-- Equality of schemas: fingerprints are compared before the fields. -/
def Schema.same (a b : Schema) : Bool :=
  a.fingerprint == b.fingerprint && a.equivalent b

end ValueTypes
