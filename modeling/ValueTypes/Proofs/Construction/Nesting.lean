import Mathlib.Logic.Function.Iterate
import ValueTypes.Construction
import ValueTypes.Proofs.Definition.Depth

/-! Construction level by level: an object of a type takes no more levels of nested constructions
than the type is deep. -/

namespace ValueTypes

/-! ### One level -/

/-- A new object of a type. Primitive types have none. -/
def FieldType.construct (type : FieldType) (source : Option Source) : Build Value :=
  match type with
  | .value t => return .inst (← t.construct source)
  | .struct s => return .struct (← s.construct source)

/-- Whether objects can be made of a type: it is composite or a struct type. -/
inductive FieldType.HasObjects : FieldType → Prop where
  | composite {t schema} (h : t.layout = .composite schema) : HasObjects (.value t)
  | struct (s) : HasObjects (.struct s)

/-- The value of a field that is given none, for an owner of a given name. -/
def Field.defaulted (f : Field) (owner : String) : Build Value :=
  f.default.elim (f.type.defaultValue owner f.name) pure

/-- The value of a field from a source, for an owner of a given name. -/
def Field.fill (f : Field) (owner : String) (mode : CoercionMode) (source : Option Source) :
    Build Value :=
  resolveField f.isStatic f.default (readGiven source f.name)
    (fun v => f.type.coerce mode f.name v) (f.type.defaultValue owner f.name)

theorem fillSlots_cons_fill (f : Field) (fields : List Field) (owner : String)
    (mode : CoercionMode) (source : Option Source) :
    fillSlots (f :: fields) owner mode source = (do
      let v ← f.fill owner mode source
      let vs ← fillSlots fields owner mode source
      return v :: vs) :=
  fillSlots_cons f fields owner mode source

section

variable (make : FieldType → Option Source → Build Value)

/-- Conversion of a value to the type of a field, where `make` makes the new objects. -/
def FieldType.coerceWith (type : FieldType) (mode : CoercionMode) (name : String) (v : Value) :
    Build Value :=
  match type with
  | .value t =>
    match t.layout with
    | .primitive kind => liftM (kind.coerce mode name v)
    | .composite _ =>
      if v.isInstanceOf t then return v
      else do make type (some (← sourceOf name t.name v))
  | .struct s =>
    if v.isStructOf s then return v
    else do make type (some (← sourceOf name s.name v))

/-- The value of a field that was given none, where `make` makes the new objects. -/
def FieldType.defaultWith (type : FieldType) (owner name : String) : Build Value :=
  match type with
  | .value t =>
    match t.layout with
    | .primitive kind =>
      match kind.default? with
      | some v => return v
      | none => throw (.missingField owner name)
    | .composite _ => make type none
  | .struct _ => make type none

/-- The values of a list of fields, where `make` makes the new objects. -/
def fillSlotsWith (owner : String) (mode : CoercionMode) (source : Option Source) :
    List Field → Build (List Value)
  | [] => return []
  | f :: fields => do
    let v ← resolveField f.isStatic f.default (readGiven source f.name)
      (fun v => f.type.coerceWith make mode f.name v) (f.type.defaultWith make owner f.name)
    let vs ← fillSlotsWith owner mode source fields
    return v :: vs

/-- One level of construction, where `make` makes the objects of the next level. -/
def FieldType.constructWith (type : FieldType) (source : Option Source) : Build Value :=
  match type with
  | .value t =>
    match t.layout with
    | .primitive _ => throw (.notCallable t.name "constructor")
    | .composite schema =>
      return .inst (← Build.newInstance t
        (fillSlotsWith make t.name t.coercion source schema.fields))
  | .struct s =>
    return .struct (← Build.newStruct s
      (fillSlotsWith make s.name s.coercion source s.schema.fields))

end

/-! ### All levels -/

variable {make : FieldType → Option Source → Build Value}

/-- Whether the objects of a type are made as they are to be. -/
def FieldType.MadeBy (make : FieldType → Option Source → Build Value) (type : FieldType) : Prop :=
  1 ≤ type.depth → ∀ source, make type source = type.construct source

theorem FieldType.coerceWith_eq {type : FieldType} (h : type.MadeBy make) (mode : CoercionMode)
    (name : String) (v : Value) : type.coerceWith make mode name v = type.coerce mode name v := by
  cases type with
  | value t =>
      cases hlayout : t.layout with
      | primitive kind =>
          rw [coerceWith, coerce_primitive hlayout]
          simp only [hlayout]
      | composite schema =>
          have hmake := h (by rw [depth_composite hlayout]; exact one_le_fieldsDepth _)
          rw [coerceWith, coerce_composite hlayout]
          simp only [hlayout, hmake]
          rfl
  | struct s =>
      have hmake := h (by rw [depth_struct]; exact one_le_fieldsDepth _)
      rw [coerceWith, coerce_struct]
      simp only [hmake]
      rfl

theorem FieldType.defaultWith_eq {type : FieldType} (h : type.MadeBy make) (owner name : String) :
    type.defaultWith make owner name = type.defaultValue owner name := by
  cases type with
  | value t =>
      cases hlayout : t.layout with
      | primitive kind =>
          rw [defaultWith, defaultValue_primitive hlayout]
          cases hdefault : kind.default? with
          | some v => simp only [hlayout, hdefault]
          | none => simp only [hlayout, hdefault]
      | composite schema =>
          have hmake := h (by rw [depth_composite hlayout]; exact one_le_fieldsDepth _)
          rw [defaultWith, defaultValue_composite hlayout]
          simp only [hlayout, hmake]
          rfl
  | struct s =>
      have hmake := h (by rw [depth_struct]; exact one_le_fieldsDepth _)
      rw [defaultWith, defaultValue_struct]
      simp only [hmake]
      rfl

theorem fillSlotsWith_eq {fields : List Field} (h : ∀ f ∈ fields, f.type.MadeBy make)
    (owner : String) (mode : CoercionMode) (source : Option Source) :
    fillSlotsWith make owner mode source fields = fillSlots fields owner mode source := by
  induction fields with
  | nil => rfl
  | cons f fields ih =>
      have hf := h f (List.mem_cons_self ..)
      rw [fillSlotsWith, fillSlots_cons, FieldType.defaultWith_eq hf,
        ih fun g hg => h g (List.mem_cons_of_mem f hg)]
      simp only [FieldType.coerceWith_eq hf]

/-- As many levels of construction as a type is deep make an object of it, whatever would be done on
the levels below. -/
theorem FieldType.constructWith_iterate (stop : FieldType → Option Source → Build Value) {n : Nat}
    {type : FieldType} (hn : type.depth ≤ n) : type.MadeBy (constructWith^[n] stop) := by
  induction n generalizing type with
  | zero => exact fun h => absurd (Nat.le_trans h hn) (Nat.not_succ_le_zero 0)
  | succ n ih =>
      intro _ source
      have hfields : ∀ f ∈ type.fields, f.type.MadeBy (constructWith^[n] stop) :=
        fun f hf => ih (Nat.le_of_lt_succ (Nat.lt_of_lt_of_le (depth_lt hf) hn))
      rw [Function.iterate_succ_apply']
      cases type with
      | value t =>
          rw [constructWith, construct, ValueType.construct]
          cases hlayout : t.layout with
          | primitive kind => rfl
          | composite schema =>
              rw [fields_composite hlayout] at hfields
              dsimp only
              rw [fillSlotsWith_eq hfields]
      | struct s =>
          rw [fields] at hfields
          rw [constructWith, construct, StructType.construct, fillSlotsWith_eq hfields]

end ValueTypes
