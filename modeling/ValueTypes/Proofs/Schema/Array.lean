import Mathlib.Data.List.Nodup
import ValueTypes.Proofs.Schema.Acceptance
import ValueTypes.Proofs.Value.Conforms

/-! Schemas of arrays. The names of their fields are decimal indices, which are all different, and
one that is no index. The length fits its type, so no default fails to convert: a request for an
array is refused for the type of its elements or for its depth, and otherwise made as it stands. -/

namespace ValueTypes

/-! ### The fields of an array -/

theorem toList_toString (i : ℕ) : (toString i).toList = Nat.toDigits 10 i := by
  rw [Nat.toString_eq_repr, Nat.toList_repr]

theorem toString_injective : Function.Injective (toString : ℕ → String) := by
  intro i j h
  have hdigits : Nat.toDigits 10 i = Nat.toDigits 10 j := by
    rw [← toList_toString, h, toList_toString]
  have hvalue := congrArg (Nat.ofDigitChars 10 · 0) hdigits
  simpa only [Nat.ofDigitChars_ten_toDigits] using hvalue

theorem toString_ne_length (i : ℕ) : toString i ≠ "length" := by
  intro h
  have hdigit : 'l'.isDigit = true := by
    apply Nat.isDigit_of_mem_toDigits (b := 10) (n := i) (by decide) (by decide)
    rw [← toList_toString, h]
    decide
  exact absurd hdigit (by decide)

/-- The depth of an array. -/
def arrayDepth (element : FieldType) (length : ℕ) : ℕ :=
  if length = 0 then 1 else element.depth + 1

/-- The field that a draft asks for, with its default as it is given. -/
def FieldDraft.kept (draft : FieldDraft) : Field :=
  ⟨draft.name, draft.type, draft.isStatic, draft.default⟩

section

variable (element : FieldType) (length : ℕ) (lengthType : ValueType)

theorem map_name_arrayFields :
    (arrayFields element length lengthType).map (·.name) =
      (List.range length).map toString ++ ["length"] := by
  simp [arrayFields]

/-- No two indices have the same text, and none is written `length`. -/
theorem nodup_names_arrayFields :
    ((arrayFields element length lengthType).map (·.name)).Nodup := by
  rw [map_name_arrayFields, List.nodup_append]
  refine ⟨?_, by simp, ?_⟩
  · exact List.nodup_range.map toString_injective
  · intro name hname other hother
    obtain ⟨i, _, rfl⟩ := List.mem_map.mp hname
    rw [List.mem_singleton.mp hother]
    exact toString_ne_length i

theorem length_arrayFields : (arrayFields element length lengthType).length = length + 1 := by
  simp [arrayFields]

theorem getElem?_arrayFields {i : ℕ} (h : i < length) :
    (arrayFields element length lengthType)[i]? = some { name := toString i, type := element } := by
  simp [arrayFields, List.getElem?_append_left, h]

theorem getElem?_arrayFields_length :
    (arrayFields element length lengthType)[length]? =
      some ⟨"length", .value lengthType, true, some (.int length)⟩ := by
  simp [arrayFields]

/-- An array has fields of the element type only if it has elements. -/
theorem forall_type_arrayFields (P : FieldType → Prop) :
    (∀ draft ∈ arrayFields element length lengthType, P draft.type) ↔
      (0 < length → P element) ∧ P (.value lengthType) := by
  simp only [arrayFields, List.forall_mem_append, List.forall_mem_map, List.mem_range,
    List.forall_mem_singleton]
  refine and_congr_left fun _ => ⟨fun h hpos => h 0 hpos, fun h i hi => h (by omega)⟩

theorem depthAbove_arrayFields (hlength : lengthType.layout = .primitive .uint32) :
    depthAbove ((arrayFields element length lengthType).map (·.type)) =
      arrayDepth element length := by
  have hmap : (arrayFields element length lengthType).map (·.type) =
      List.replicate length element ++ [.value lengthType] := by
    simp [arrayFields, Function.comp_def, List.map_const']
  rw [hmap, arrayDepth]
  clear hmap
  induction length with
  | zero => simp [FieldType.depth_primitive hlength]
  | succ n ih =>
      rw [List.replicate_succ, List.cons_append, depthAbove_cons, ih]
      split <;> simp

/-- The elements are the deepest fields of an array, and the length only if it is the only field. -/
theorem firstDeepest_arrayFields (hlength : lengthType.layout = .primitive .uint32) :
    FirstDeepest (arrayFields element length lengthType)
      (if length = 0 then "length" else "0") := by
  have hdepth := depthAbove_arrayFields element length lengthType hlength
  by_cases hzero : length = 0
  · subst hzero
    rw [if_pos rfl]
    apply FirstDeepest.field (getElem?_arrayFields_length element 0 lengthType)
    · rw [hdepth, arrayDepth, if_pos rfl, FieldType.depth_primitive hlength]
    · exact List.forall_mem_nil _
  · rw [if_neg hzero]
    have hfirst := getElem?_arrayFields element length lengthType (Nat.pos_of_ne_zero hzero)
    refine .field hfirst ?_ (List.forall_mem_nil _)
    rw [hdepth, arrayDepth, if_neg hzero]

end

/-! ### Requests for arrays -/

namespace SchemaPolicy

variable {policy : SchemaPolicy} {kind : SchemaKind} {element : FieldType} {length : ℕ}
  {lengthType : ValueType}

theorem fields_eq_pure {drafts : List FieldDraft}
    (h : ∀ draft ∈ drafts, policy.default draft = pure draft.default) :
    policy.fields drafts = pure (drafts.map FieldDraft.kept) := by
  induction drafts with
  | nil => rfl
  | cons draft drafts ih =>
      obtain ⟨hhead, htail⟩ := List.forall_mem_cons.mp h
      rw [fields, field, hhead, ih htail]
      rfl

/-- A 32-bit length is a value of the type of the length, so it converts in either mode. -/
theorem default_arrayFields (hlength : lengthType.layout = .primitive .uint32)
    (hfits : PrimitiveKind.uint32.Accepts (.int length)) :
    ∀ draft ∈ arrayFields element length lengthType,
      policy.default draft = pure draft.default := by
  intro draft hdraft
  rcases List.mem_append.mp hdraft with hdraft | hdraft
  · obtain ⟨i, _, rfl⟩ := List.mem_map.mp hdraft
    rfl
  · rw [List.mem_singleton.mp hdraft, default]
    dsimp only
    rw [FieldType.coerce_primitive hlength, PrimitiveKind.coerce_of_accepts hfits]
    rfl

/-- A fault of the elements is one of the first element. -/
theorem makeSchema_arrayFields_of_fault {fault : FieldFault} (hpos : 0 < length)
    (hfault : policy.fault? kind element = some fault) (store : Store) :
    (policy.makeSchema kind (arrayFields element length lengthType)).run store =
      .error (.invalidFieldType "0" fault) := by
  apply makeSchema_of_check_error
  exact check_of_fault (nodup_names_arrayFields element length lengthType)
    (getElem?_arrayFields element length lengthType hpos) hfault (List.forall_mem_nil _)

/-- Only the depth of an array can be at fault if the types of its fields are not. -/
theorem makeSchema_arrayFields_of_belongs {known : FieldType → Prop} (hknown : Keyed known)
    (hknownOf : ∀ draft ∈ arrayFields element length lengthType,
      draft.type.realm = policy.realm → known draft.type)
    (hbelongs : ∀ draft ∈ arrayFields element length lengthType,
      draft.type.Belongs policy.realm kind)
    (hlength : lengthType.layout = .primitive .uint32)
    (hfits : PrimitiveKind.uint32.Accepts (.int length)) (store : Store) :
    (policy.makeSchema kind (arrayFields element length lengthType)).run store =
      if policy.maxDepth < arrayDepth element length then
        .error (.invalidFieldType (if length = 0 then "length" else "0")
          (.tooDeep (arrayDepth element length) policy.maxDepth))
      else
        let fields := (arrayFields element length lengthType).map FieldDraft.kept
        .ok (⟨kind, fields, policy.hashing.ofFields fields, arrayDepth element length⟩, store) := by
  have hnames := nodup_names_arrayFields element length lengthType
  have hdepth := depthAbove_arrayFields element length lengthType hlength
  split
  · rename_i hdeep
    obtain ⟨name, hfirst, hnesting⟩ := nestingDepth_eq hknown
      (fun draft hdraft => hknownOf draft hdraft (hbelongs draft hdraft).realm) policy.maxDepth
    rw [hdepth, if_pos hdeep] at hnesting
    rw [(firstDeepest_arrayFields element length lengthType hlength).unique hfirst]
    apply makeSchema_of_check_error
    rw [check, firstRepeated?_eq_none_iff.mpr hnames, findFault_eq_none_iff.mpr hbelongs]
    exact hnesting
  · rename_i hdeep
    have hchecked := check_ok hknown hknownOf hnames hbelongs
      (hdepth.trans_le (Nat.le_of_not_lt hdeep))
    rw [makeSchema_of_check_ok hchecked, fields_eq_pure (default_arrayFields hlength hfits), hdepth]
    rfl

variable (kind) in
/-- What becomes of a request for an array: the first element is at fault if an element can be, else
the first field that is as deep as the array. -/
theorem makeSchema_arrayFields {known : FieldType → Prop} (hknown : Keyed known)
    (helement : element.realm = policy.realm → known element)
    (hlength : lengthType.layout = .primitive .uint32) (hrealm : lengthType.realm = policy.realm)
    (hlengthType : known (.value lengthType))
    (hfits : PrimitiveKind.uint32.Accepts (.int length)) (store : Store) :
    (policy.makeSchema kind (arrayFields element length lengthType)).run store =
      if 0 < length ∧ element.realm ≠ policy.realm then
        .error (.invalidFieldType "0" (.foreign element.name))
      else if 0 < length ∧ kind = .value ∧ element.isValue = false then
        .error (.invalidFieldType "0" (.structInValue element.name))
      else if policy.maxDepth < arrayDepth element length then
        .error (.invalidFieldType (if length = 0 then "length" else "0")
          (.tooDeep (arrayDepth element length) policy.maxDepth))
      else
        let fields := (arrayFields element length lengthType).map FieldDraft.kept
        .ok (⟨kind, fields, policy.hashing.ofFields fields, arrayDepth element length⟩, store) := by
  by_cases hforeign : 0 < length ∧ element.realm ≠ policy.realm
  · rw [if_pos hforeign]
    apply makeSchema_arrayFields_of_fault hforeign.1
    rw [fault?, if_pos hforeign.2]
  · rw [if_neg hforeign]
    by_cases hstruct : 0 < length ∧ kind = .value ∧ element.isValue = false
    · rw [if_pos hstruct]
      apply makeSchema_arrayFields_of_fault hstruct.1
      have hown : ¬ element.realm ≠ policy.realm := fun h => hforeign ⟨hstruct.1, h⟩
      rw [fault?, if_neg hown, if_pos ⟨hstruct.2.1, by simp [hstruct.2.2]⟩]
    · rw [if_neg hstruct]
      apply makeSchema_arrayFields_of_belongs hknown _ _ hlength hfits
      · exact (forall_type_arrayFields element length lengthType fun type =>
          type.realm = policy.realm → known type).mpr ⟨fun _ => helement, fun _ => hlengthType⟩
      · rw [forall_type_arrayFields element length lengthType fun type =>
          type.Belongs policy.realm kind]
        refine ⟨fun hpos => ⟨?_, fun hkind => ?_⟩, ⟨hrealm, fun _ => rfl⟩⟩
        · by_contra h
          exact hforeign ⟨hpos, h⟩
        · by_contra h
          exact hstruct ⟨hpos, hkind, Bool.eq_false_iff.mpr h⟩

end SchemaPolicy

/-! ### Fields by index -/

/-- Whether the fields of a schema are those of an array. -/
structure Schema.IsArray (schema : Schema) (element : FieldType) (length : ℕ)
    (lengthType : ValueType) : Prop where
  size : schema.fields.length = length + 1
  index : ∀ i < length, schema.indexOf? (toString i) = some i
  element : ∀ i < length, schema.fields[i]? = some ⟨toString i, element, false, none⟩
  last : schema.fields[length]? = some ⟨"length", .value lengthType, true, some (.int length)⟩

/-- Where no name is repeated, a field is found under its name at its own place. -/
theorem Schema.indexOf?_eq_some {schema : Schema} (hnodup : schema.names.Nodup) {k : ℕ} {f : Field}
    (hf : schema.fields[k]? = some f) : schema.indexOf? f.name = some k := by
  obtain ⟨hk, rfl⟩ := List.getElem?_eq_some_iff.mp hf
  rw [indexOf?, List.findIdx?_eq_some_iff_getElem]
  refine ⟨hk, by simp, fun j hj => ?_⟩
  have hne : schema.fields[j].name ≠ schema.fields[k].name := by
    intro h
    have hjname := getElem?_names (List.getElem?_eq_getElem (hj.trans hk))
    have hkname := getElem?_names (List.getElem?_eq_getElem hk)
    rw [h, ← hkname] at hjname
    have hlength : j < schema.names.length := by
      rw [names, List.length_map]
      exact hj.trans hk
    have hjk := (List.getElem?_inj hlength hnodup).mp hjname
    omega
  simpa using hne

theorem Schema.isArray_of_fields {schema : Schema} {element : FieldType} {length : ℕ}
    {lengthType : ValueType}
    (hfields : schema.fields = (arrayFields element length lengthType).map FieldDraft.kept) :
    schema.IsArray element length lengthType := by
  have helement : ∀ i < length, schema.fields[i]? = some ⟨toString i, element, false, none⟩ := by
    intro i hi
    rw [hfields, List.getElem?_map, getElem?_arrayFields element length lengthType hi]
    rfl
  have hnodup : schema.names.Nodup := by
    rw [names, hfields, List.map_map]
    exact nodup_names_arrayFields element length lengthType
  refine ⟨?_, fun i hi => indexOf?_eq_some hnodup (helement i hi), helement, ?_⟩
  · rw [hfields, List.length_map, length_arrayFields]
  · rw [hfields, List.getElem?_map, getElem?_arrayFields_length]
    rfl

end ValueTypes
