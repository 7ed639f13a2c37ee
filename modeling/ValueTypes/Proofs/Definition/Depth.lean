import Mathlib.Logic.Function.Iterate
import ValueTypes.Definition.Nesting
import ValueTypes.Proofs.Definition.Shape

/-! What is below a type, and how deep it goes. The depth of a type is given by a plain recursion
over the types of its fields, without any memory. Types of one shape that hold no struct type have
one depth, and the comparison of two types goes no deeper than the first of them. -/

namespace ValueTypes

/-! ### Fields of types -/

/-- The fields of a composite type or of a struct type; a primitive type has none. -/
def FieldType.fields : FieldType → List Field
  | .value t => t.schema?.elim [] (·.fields)
  | .struct s => s.schema.fields

theorem FieldType.fields_primitive {t : ValueType} {kind : PrimitiveKind}
    (h : t.layout = .primitive kind) : (FieldType.value t).fields = [] := by
  simp [fields, ValueType.schema?, h]

theorem FieldType.fields_composite {t : ValueType} {schema : Schema}
    (h : t.layout = .composite schema) : (FieldType.value t).fields = schema.fields := by
  simp [fields, ValueType.schema?, h]

/-- Whether a type is another one, or is found at some depth below it. -/
inductive FieldType.Reaches (a : FieldType) : FieldType → Prop where
  | refl : Reaches a a
  | field {b f} (h : Reaches a b) (hf : f ∈ b.fields) : Reaches a f.type

namespace FieldType.Reaches

variable {a b c : FieldType}

theorem trans (h : a.Reaches b) (h' : b.Reaches c) : a.Reaches c := by
  induction h' with
  | refl => exact h
  | field _ hf ih => exact ih.field hf

theorem of_field {f : Field} (hf : f ∈ a.fields) (h : f.type.Reaches b) : a.Reaches b :=
  (refl.field hf).trans h

end FieldType.Reaches

/-! ### Depth -/

mutual

/-- The depth of a type: none for a primitive type, else one more than that of its deepest field,
and one if there is no field. -/
def FieldType.depth : FieldType → Nat
  | .value ⟨_, _, _, .primitive _, _, _⟩ => 0
  | .value ⟨_, _, _, .composite ⟨_, fields, _, _⟩, _, _⟩ => fieldsDepth fields
  | .struct ⟨_, _, _, ⟨_, fields, _, _⟩, _⟩ => fieldsDepth fields
termination_by structural type => type

/-- The depth of a type with given fields. -/
def fieldsDepth : List Field → Nat
  | [] => 1
  | ⟨_, type, _, _⟩ :: fields => max (type.depth + 1) (fieldsDepth fields)
termination_by structural fields => fields

end

/-- The depth of a type whose fields are of given types. -/
def depthAbove (types : List FieldType) : Nat :=
  types.foldr (fun type depth => max (type.depth + 1) depth) 1

@[simp]
theorem depthAbove_nil : depthAbove [] = 1 := rfl

@[simp]
theorem depthAbove_cons (type : FieldType) (types : List FieldType) :
    depthAbove (type :: types) = max (type.depth + 1) (depthAbove types) := rfl

theorem fieldsDepth_eq (fields : List Field) :
    fieldsDepth fields = depthAbove (fields.map (·.type)) := by
  induction fields with
  | nil => rfl
  | cons f fields ih =>
      obtain ⟨name, type, isStatic, default⟩ := f
      simp [fieldsDepth, ih]

theorem one_le_depthAbove (types : List FieldType) : 1 ≤ depthAbove types := by
  induction types with
  | nil => simp
  | cons type types ih =>
      rw [depthAbove_cons]
      omega

theorem one_le_fieldsDepth (fields : List Field) : 1 ≤ fieldsDepth fields := by
  rw [fieldsDepth_eq]
  exact one_le_depthAbove _

theorem lt_fieldsDepth {fields : List Field} {f : Field} (hf : f ∈ fields) :
    f.type.depth < fieldsDepth fields := by
  rw [fieldsDepth_eq]
  induction fields with
  | nil => cases hf
  | cons g fields ih =>
      rw [List.map_cons, depthAbove_cons]
      rcases List.mem_cons.mp hf with rfl | hf
      · omega
      · have hlt := ih hf
        omega

namespace FieldType

theorem depth_primitive {t : ValueType} {kind : PrimitiveKind} (h : t.layout = .primitive kind) :
    (value t).depth = 0 := by
  cases t; cases h; rfl

theorem depth_composite {t : ValueType} {schema : Schema} (h : t.layout = .composite schema) :
    (value t).depth = fieldsDepth schema.fields := by
  cases t; cases schema; cases h; rfl

theorem depth_struct (s : StructType) : (struct s).depth = fieldsDepth s.schema.fields := by
  obtain ⟨_, _, _, ⟨⟩, _⟩ := s; rfl

/-- A field lies less deep than the type that it is a field of. -/
theorem depth_lt {a : FieldType} {f : Field} (hf : f ∈ a.fields) : f.type.depth < a.depth := by
  cases a with
  | value t =>
      cases hlayout : t.layout with
      | primitive kind =>
          rw [fields_primitive hlayout] at hf
          cases hf
      | composite schema =>
          rw [fields_composite hlayout] at hf
          rw [depth_composite hlayout]
          exact lt_fieldsDepth hf
  | struct s =>
      rw [depth_struct]
      exact lt_fieldsDepth hf

end FieldType

/-! ### Depth and shape -/

theorem depthAbove_eq_of_shapes {fs gs : List Field} (hshapes : fieldShapes fs = fieldShapes gs)
    (h : ∀ f ∈ fs, ∀ type : FieldType, f.type.shape = type.shape → f.type.depth = type.depth) :
    depthAbove (fs.map (·.type)) = depthAbove (gs.map (·.type)) := by
  rw [fieldShapes_eq_map, fieldShapes_eq_map] at hshapes
  induction fs generalizing gs with
  | nil =>
      cases gs with
      | nil => rfl
      | cons g gs => simp at hshapes
  | cons f fs ih =>
      cases gs with
      | nil => simp at hshapes
      | cons g gs =>
          simp only [List.map_cons, List.cons.injEq, Prod.mk.injEq] at hshapes
          have hhead := h f (List.mem_cons_self ..) g.type hshapes.1.2
          have htail := ih hshapes.2 fun f' hf' => h f' (List.mem_cons_of_mem f hf')
          simp [hhead, htail]

/-- Types of one shape have one depth, if there is no struct type in them: the shape of a struct
type is only its number. -/
theorem FieldType.depth_eq_of_shape {a b : FieldType}
    (ha : ∀ c, a.Reaches c → c.isValue = true) (h : a.shape = b.shape) : a.depth = b.depth := by
  induction a using FieldType.inductionOn generalizing b with
  | primitive t kind ht =>
      obtain ⟨u, rfl, hu⟩ := value_of_shape ((shape_value t).symm.trans h)
      rw [depth_primitive ht, depth_primitive (ValueType.primitive_of_shape ht hu).1]
  | composite t schema ht ih =>
      obtain ⟨u, rfl, hu⟩ := value_of_shape ((shape_value t).symm.trans h)
      obtain ⟨other, hother, _, hfields⟩ := ValueType.composite_of_shape ht hu
      rw [depth_composite ht, depth_composite hother, fieldsDepth_eq, fieldsDepth_eq]
      refine depthAbove_eq_of_shapes hfields fun f hf type htype => ?_
      refine ih f hf (fun c hc => ha c (.of_field ?_ hc)) htype
      rw [fields_composite ht]
      exact hf
  | struct s =>
      have hvalue := ha _ .refl
      cases hvalue

/-! ### Equivalence level by level -/

section

variable (equal : FieldType → FieldType → Bool)

/-- Equivalence of lists of fields, where `equal` compares the types of the fields. -/
def fieldsEquivalentWith : List Field → List Field → Bool
  | [], gs => gs.isEmpty
  | _ :: _, [] => false
  | f :: fs, g :: gs =>
    f.name == g.name && equal f.type g.type && fieldsEquivalentWith fs gs

def Layout.equivalentWith : Layout → Layout → Bool
  | .primitive kind, .primitive other => kind == other
  | .composite a, .composite b => fieldsEquivalentWith equal a.fields b.fields
  | _, _ => false

/-- One level of the equivalence of types, where `equal` compares those of the next level. -/
def FieldType.equivalentWith : FieldType → FieldType → Bool
  | .value t, .value u =>
    t.same u || (t.symbol == u.symbol && t.layout.equivalentWith equal u.layout)
  | .struct s, .struct other => s.same other
  | _, _ => false

end

theorem fieldsEquivalentWith_eq {equal : FieldType → FieldType → Bool} {fs : List Field}
    (h : ∀ f ∈ fs, ∀ type, equal f.type type = f.type.equivalent type) (gs : List Field) :
    fieldsEquivalentWith equal fs gs = fieldsEquivalent fs gs := by
  induction fs generalizing gs with
  | nil => cases gs <;> rfl
  | cons f fs ih =>
      cases gs with
      | nil => cases f; rfl
      | cons g gs =>
          rw [fieldsEquivalentWith, fieldsEquivalent_cons, h f (List.mem_cons_self ..),
            ih fun f' hf' => h f' (List.mem_cons_of_mem f hf')]

/-- One level of comparison more than a type is deep decides equivalence, whatever would be asked of
the levels below; the last level is that of primitive types. -/
theorem FieldType.equivalentWith_iterate (stop : FieldType → FieldType → Bool) {n : Nat}
    {a : FieldType} (hn : a.depth ≤ n) (b : FieldType) :
    equivalentWith^[n + 1] stop a b = a.equivalent b := by
  induction n using Nat.strongRecOn generalizing a b with
  | ind n ih =>
      rw [Function.iterate_succ_apply']
      cases a with
      | struct s => cases b <;> rfl
      | value t =>
          cases b with
          | struct s => rfl
          | value u =>
              change (t.same u || (t.symbol == u.symbol &&
                t.layout.equivalentWith (equivalentWith^[n] stop) u.layout)) = t.equivalent u
              rw [ValueType.equivalent_eq]
              congr 2
              cases hlayout : t.layout with
              | primitive kind =>
                  cases u.layout with
                  | primitive other => rfl
                  | composite schema => rfl
              | composite schema =>
                  cases u.layout with
                  | primitive other => cases schema; rfl
                  | composite other =>
                      rw [Layout.equivalentWith, Layout.equivalent_composite]
                      refine fieldsEquivalentWith_eq (fun f hf type => ?_) _
                      have hlt : f.type.depth < (value t).depth :=
                        depth_lt (by rwa [fields_composite hlayout])
                      cases n with
                      | zero => exact absurd hn (Nat.not_le_of_lt (Nat.zero_lt_of_lt hlt))
                      | succ n =>
                          exact ih n (Nat.lt_succ_self n)
                            (Nat.le_of_lt_succ (Nat.lt_of_lt_of_le hlt hn)) type

end ValueTypes
