import ValueTypes.Definition.Fingerprint
import ValueTypes.Proofs.Definition.Shape

/-! Fingerprints and shapes. Types that store the fingerprints that they were made with, and whose
fields do so as well, have the same fingerprints where they have the same shapes, whatever the hash
functions are. -/

namespace ValueTypes

/-- Whether the types of a collection, which holds the types of the fields of its members, store the
fingerprints that hash functions give. -/
structure Hashing.Fits (hashing : Hashing) (known : FieldType → Prop) : Prop where
  value : ∀ t, known (.value t) →
    t.fingerprint = hashing.definition t.symbol.id (t.layout.fingerprint hashing)
  schema : ∀ t schema, known (.value t) → t.layout = .composite schema →
    schema.fingerprint = hashing.ofFields schema.fields
  field : ∀ t schema, known (.value t) → t.layout = .composite schema →
    ∀ f ∈ schema.fields, known f.type

variable {hashing : Hashing}

/-- Lists of fields of the same shapes are hashed to the same, once that is so of the types. -/
theorem Hashing.ofFields_of_shapes {fs gs : List Field} (h : fieldShapes fs = fieldShapes gs)
    (htypes : ∀ f ∈ fs, ∀ g ∈ gs, f.type.shape = g.type.shape →
      f.type.fingerprint hashing = g.type.fingerprint hashing) :
    hashing.ofFields fs = hashing.ofFields gs := by
  rw [ofFields, ofFields]
  apply congrArg
  rw [fieldShapes_eq_map, fieldShapes_eq_map] at h
  induction fs generalizing gs with
  | nil =>
      cases gs with
      | nil => rfl
      | cons g gs => simp at h
  | cons f fs ih =>
      cases gs with
      | nil => simp at h
      | cons g gs =>
          simp only [List.map_cons, List.cons.injEq, Prod.mk.injEq] at h ⊢
          obtain ⟨⟨hname, hshape⟩, hrest⟩ := h
          refine ⟨⟨hname, htypes f (by simp) g (by simp) hshape⟩, ?_⟩
          apply ih hrest
          intro f' hf' g' hg'
          exact htypes f' (by simp [hf']) g' (by simp [hg'])

/-- Types of one shape have one fingerprint. The induction is on the left type: the types of the
fields on the right stay arbitrary. -/
theorem FieldType.fingerprint_of_shape {known : FieldType → Prop} (hfits : hashing.Fits known)
    (a b : FieldType) (ha : known a) (hb : known b) (h : a.shape = b.shape) :
    a.fingerprint hashing = b.fingerprint hashing := by
  induction a using FieldType.inductionOn generalizing b with
  | primitive t kind ht =>
      rw [shape_value] at h
      obtain ⟨u, rfl, hshape⟩ := value_of_shape h
      obtain ⟨hu, hsymbol⟩ := ValueType.primitive_of_shape ht hshape
      simp only [fingerprint, hfits.value t ha, hfits.value u hb, ht, hu, hsymbol]
  | composite t schema ht ih =>
      rw [shape_value] at h
      obtain ⟨u, rfl, hshape⟩ := value_of_shape h
      obtain ⟨other, hu, hsymbol, hfields⟩ := ValueType.composite_of_shape ht hshape
      have hschemas : schema.fingerprint = other.fingerprint := by
        rw [hfits.schema t schema ha ht, hfits.schema u other hb hu]
        apply Hashing.ofFields_of_shapes hfields
        intro f hf g hg
        exact ih f hf g.type (hfits.field t schema ha ht f hf) (hfits.field u other hb hu g hg)
      simp only [fingerprint, hfits.value t ha, hfits.value u hb, ht, hu, hsymbol,
        Layout.fingerprint, hschemas]
  | struct s _ =>
      cases b with
      | value u =>
          obtain ⟨t, ht, _⟩ := value_of_shape ((shape_value u).symm.trans h.symm)
          cases ht
      | struct other =>
          rw [shape_struct, shape_struct] at h
          rw [fingerprint, fingerprint, Shape.struct.inj h]

end ValueTypes
