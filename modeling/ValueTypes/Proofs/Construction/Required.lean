import ValueTypes.Proofs.Construction.Nesting
import ValueTypes.Proofs.Lenient.Construction

/-! Construction without a source. Every type but that of symbols has a default, so what can fail
are fields for symbols that have none of their own, at any depth. Fields are filled in order, each
with all that is below it, so the first of them by its path decides the error. -/

namespace ValueTypes

variable {α β : Type}

/-! ### Required fields -/

/-- Whether the fields at the places of a path, none of which has a default, lead from a type down
to a field for a symbol; the owner is the type that has this last field. -/
inductive FieldType.Requires : FieldType → List Nat → String → String → Prop where
  | symbol {type k f t} (hf : type.fields[k]? = some f) (default : f.default = none)
      (htype : f.type = .value t) (hkind : t.layout = .primitive .symbol) :
      Requires type [k] type.name f.name
  | deeper {type k f path owner name} (hf : type.fields[k]? = some f) (default : f.default = none)
      (h : Requires f.type path owner name) : Requires type (k :: path) owner name

/-- The same for the path from a field on, for an owner of a given name. -/
inductive Field.Requires (f : Field) (owner : String) : List Nat → String → String → Prop where
  | symbol {t} (default : f.default = none) (htype : f.type = .value t)
      (hkind : t.layout = .primitive .symbol) : Requires f owner [] owner f.name
  | deeper {path owner' name} (default : f.default = none) (h : f.type.Requires path owner' name) :
      Requires f owner path owner' name

/-- The same for the paths through some fields of an owner. -/
def fieldsRequire (owner : String) (fields : List Field) (path : List Nat) (owner' name : String) :
    Prop :=
  ∃ k rest f, path = k :: rest ∧ fields[k]? = some f ∧ f.Requires owner rest owner' name

theorem FieldType.requires_iff (type : FieldType) (path : List Nat) (owner name : String) :
    type.Requires path owner name ↔ fieldsRequire type.name type.fields path owner name := by
  constructor
  · intro h
    cases h with
    | symbol hf default htype hkind => exact ⟨_, _, _, rfl, hf, .symbol default htype hkind⟩
    | deeper hf default h => exact ⟨_, _, _, rfl, hf, .deeper default h⟩
  · rintro ⟨k, rest, f, rfl, hf, h⟩
    cases h with
    | symbol default htype hkind => exact .symbol hf default htype hkind
    | deeper default h => exact .deeper hf default h

/-- A path ends at one field. -/
theorem FieldType.Requires.unique {type : FieldType} {path : List Nat}
    {owner name owner' name' : String} (h : type.Requires path owner name)
    (h' : type.Requires path owner' name') : owner = owner' ∧ name = name' := by
  induction h generalizing owner' name' with
  | symbol hf _ _ _ =>
      cases h' with
      | symbol hf' _ _ _ =>
          rw [hf] at hf'
          cases hf'
          exact ⟨rfl, rfl⟩
      | deeper _ _ h' => cases h'
  | deeper hf _ h ih =>
      cases h' with
      | symbol => cases h
      | deeper hf' _ h' =>
          rw [hf] at hf'
          cases hf'
          exact ih h'

/-! ### Paths in order -/

theorem lex_cons_self {k : Nat} {p q : List Nat} (h : List.Lex (· < ·) (k :: p) (k :: q)) :
    List.Lex (· < ·) p q := by
  cases h with
  | rel hlt => exact absurd hlt (Nat.lt_irrefl k)
  | cons h => exact h

theorem lex_succ {k l : Nat} {p q : List Nat}
    (h : List.Lex (· < ·) ((k + 1) :: p) ((l + 1) :: q)) : List.Lex (· < ·) (k :: p) (l :: q) := by
  cases h with
  | rel hlt => exact .rel (Nat.lt_of_succ_lt_succ hlt)
  | cons h => exact .cons h

theorem eq_of_not_lex {p q : List Nat} (h : ¬ List.Lex (· < ·) p q)
    (h' : ¬ List.Lex (· < ·) q p) : p = q := by
  induction p generalizing q with
  | nil =>
      cases q with
      | nil => rfl
      | cons l q => exact absurd .nil h
  | cons k p ih =>
      cases q with
      | nil => exact absurd .nil h'
      | cons l q =>
          rcases Nat.lt_trichotomy k l with hlt | rfl | hgt
          · exact absurd (.rel hlt) h
          · rw [ih (fun hpq => h (.cons hpq)) fun hqp => h' (.cons hqp)]
          · exact absurd (.rel hgt) h'

/-! ### What decides a construction -/

/-- Whether a result is what required fields make of a construction: an error that tells the one
whose path comes first, and no error if there is none. -/
inductive Decided (requires : List Nat → String → String → Prop) : Except Error α → Prop where
  | done {x} (h : ∀ path owner name, ¬ requires path owner name) : Decided requires (.ok x)
  | failed {path owner name} (h : requires path owner name)
      (first : ∀ path' owner' name', requires path' owner' name' →
        ¬ List.Lex (· < ·) path' path) :
      Decided requires (.error (.missingField owner name))

namespace Decided

variable {requires : List Nat → String → String → Prop}

theorem congr {requires' : List Nat → String → String → Prop} {x : Except Error α}
    (h : Decided requires x)
    (heq : ∀ path owner name, requires path owner name ↔ requires' path owner name) :
    Decided requires' x := by
  have hrequires : requires = requires' :=
    funext fun path => funext fun owner => funext fun name => propext (heq path owner name)
  exact hrequires ▸ h

/-- Steps that cannot fail change nothing. -/
theorem bind {b : Build α} {σ : Store} (h : Decided requires (b.run σ)) {f : α → Build β}
    (hf : ∀ x σ', ∃ y, (f x).run σ' = .ok y) : Decided requires ((b >>= f).run σ) := by
  rw [StateT.run_bind]
  generalize b.run σ = result at h ⊢
  cases h with
  | @done result h =>
      obtain ⟨y, hy⟩ := hf result.1 result.2
      change Decided requires ((f result.1).run result.2)
      rw [hy]
      exact .done h
  | failed h first => exact .failed h first

theorem exists_ok_iff {x : Except Error α} (h : Decided requires x) :
    (∃ a, x = .ok a) ↔ ∀ path owner name, ¬ requires path owner name := by
  cases h with
  | done h => exact iff_of_true ⟨_, rfl⟩ h
  | failed h _ =>
      refine iff_of_false ?_ fun hnone => hnone _ _ _ h
      rintro ⟨_, heq⟩
      cases heq

theorem error_iff {x : Except Error α} (h : Decided requires x)
    (hunique : ∀ {path owner name owner' name'}, requires path owner name →
      requires path owner' name' → owner = owner' ∧ name = name') (e : Error) :
    x = .error e ↔ ∃ path owner name, e = .missingField owner name ∧ requires path owner name ∧
      ∀ path' owner' name', requires path' owner' name' → ¬ List.Lex (· < ·) path' path := by
  cases h with
  | done h =>
      constructor
      · intro heq
        cases heq
      · rintro ⟨path, owner, name, _, hrequires, _⟩
        exact absurd hrequires (h path owner name)
  | @failed path owner name h first =>
      constructor
      · intro heq
        cases heq
        exact ⟨path, owner, name, rfl, h, first⟩
      · rintro ⟨path', owner', name', rfl, hrequires, first'⟩
        cases eq_of_not_lex (first _ _ _ hrequires) (first' _ _ _ h)
        obtain ⟨rfl, rfl⟩ := hunique hrequires h
        rfl

end Decided

/-! ### Fields without a source -/

theorem Field.fill_none (f : Field) (owner : String) (mode : CoercionMode) :
    f.fill owner mode none = f.defaulted owner := by
  rw [fill, defaulted]
  cases f.isStatic <;> cases f.default <;> rfl

/-- What fails at the first of some fields fails there for all of them. -/
theorem Decided.of_first {f : Field} {owner : String} {e : Error}
    (h : Decided (f.Requires owner) (.error e : Except Error α)) (fields : List Field) :
    Decided (fieldsRequire owner (f :: fields)) (.error e : Except Error β) := by
  cases h with
  | @failed path owner' name hrequires first =>
      refine .failed ⟨0, path, f, rfl, rfl, hrequires⟩ ?_
      rintro _ owner'' name'' ⟨k, rest, g, rfl, hg, hrequires'⟩ hlex
      cases k with
      | zero =>
          cases hg
          exact first _ _ _ hrequires' (lex_cons_self hlex)
      | succ k =>
          cases hlex with
          | rel hlt => exact Nat.not_lt_zero _ hlt

/-- If the first of some fields requires nothing, then the others decide. Their places are counted
from the first one on. -/
theorem Decided.of_rest {f : Field} {owner : String}
    (hnone : ∀ path owner' name, ¬ f.Requires owner path owner' name) {fields : List Field}
    {x : Except Error α} (h : Decided (fieldsRequire owner fields) x) :
    Decided (fieldsRequire owner (f :: fields)) x := by
  cases h with
  | done hrest =>
      refine .done ?_
      rintro _ owner' name ⟨k, path, g, rfl, hg, hrequires⟩
      cases k with
      | zero =>
          cases hg
          exact hnone _ _ _ hrequires
      | succ k => exact hrest _ _ _ ⟨k, path, g, rfl, hg, hrequires⟩
  | failed hrequires first =>
      obtain ⟨k, path, g, rfl, hg, hrequires⟩ := hrequires
      refine .failed ⟨k + 1, path, g, rfl, hg, hrequires⟩ ?_
      rintro _ owner'' name'' ⟨l, rest, g', rfl, hg', hrequires'⟩ hlex
      cases l with
      | zero =>
          cases hg'
          exact hnone _ _ _ hrequires'
      | succ l => exact first _ _ _ ⟨l, rest, g', rfl, hg', hrequires'⟩ (lex_succ hlex)

theorem fillSlots_decided {fields : List Field} {owner : String}
    (h : ∀ f ∈ fields, ∀ σ, Decided (f.Requires owner) ((f.defaulted owner).run σ))
    (mode : CoercionMode) (σ : Store) :
    Decided (fieldsRequire owner fields) ((fillSlots fields owner mode none).run σ) := by
  induction fields generalizing σ with
  | nil =>
      refine .done ?_
      rintro _ _ _ ⟨_, _, _, _, hf, _⟩
      cases hf
  | cons f fields ih =>
      have hfirst := h f (List.mem_cons_self ..) σ
      rw [fillSlots_cons_fill, f.fill_none, StateT.run_bind]
      generalize (f.defaulted owner).run σ = result at hfirst ⊢
      cases result with
      | error e => exact hfirst.of_first fields
      | ok result =>
          have hnone := hfirst.exists_ok_iff.mp ⟨_, rfl⟩
          have hrest := (ih (fun g hg => h g (List.mem_cons_of_mem f hg)) result.2).bind
            (f := fun vs => pure (result.1 :: vs)) fun vs σ' => ⟨_, rfl⟩
          exact hrest.of_rest hnone

/-! ### Types without a source -/

theorem PrimitiveKind.default?_eq_none_iff (kind : PrimitiveKind) :
    kind.default? = none ↔ kind = .symbol := by
  cases kind <;> simp [default?, isFloat]

/-- An object of a type comes about unless the type requires a field. -/
theorem FieldType.construct_decided_of_fields {type : FieldType} (htype : type.HasObjects)
    (h : ∀ f ∈ type.fields, ∀ owner σ, Decided (f.Requires owner) ((f.defaulted owner).run σ))
    (σ : Store) : Decided type.Requires ((type.construct none).run σ) := by
  have hfields := fun mode => fillSlots_decided (fun f hf => h f hf type.name) mode σ
  have hrequires := fun mode =>
    (hfields mode).congr fun path owner name => (type.requires_iff path owner name).symm
  cases htype with
  | @composite t schema hlayout =>
      rw [fields_composite hlayout] at hrequires
      rw [construct, ValueType.construct, hlayout]
      refine Decided.bind ?_ fun i σ' => ⟨_, rfl⟩
      exact (hrequires t.coercion).bind fun vs σ' => ⟨_, rfl⟩
  | struct s =>
      refine Decided.bind ?_ fun i σ' => ⟨_, rfl⟩
      exact (hrequires s.coercion).bind fun vs σ' => ⟨_, rfl⟩

theorem FieldType.defaultValue_eq_construct {type : FieldType} (htype : type.HasObjects)
    (owner name : String) : type.defaultValue owner name = type.construct none := by
  cases htype with
  | composite hlayout => exact defaultValue_composite hlayout owner name
  | struct s => exact defaultValue_struct s owner name

namespace Field

theorem defaulted_of_some {f : Field} {d : Value} (h : f.default = some d) (owner : String) :
    f.defaulted owner = pure d := by
  rw [defaulted, h, Option.elim_some]

theorem defaulted_of_none {f : Field} (h : f.default = none) (owner : String) :
    f.defaulted owner = f.type.defaultValue owner f.name := by
  rw [defaulted, h, Option.elim_none]

/-- A field with a default requires nothing. -/
theorem not_requires {f : Field} {d : Value} (h : f.default = some d) {owner : String}
    {path : List Nat} {owner' name : String} : ¬ f.Requires owner path owner' name := by
  intro hrequires
  cases hrequires with
  | symbol default => exact Option.some_ne_none d (h.symm.trans default)
  | deeper default => exact Option.some_ne_none d (h.symm.trans default)

/-- A field of a primitive type requires itself, if that is the type of symbols. -/
theorem decided_of_primitive {f : Field} {t : ValueType} {kind : PrimitiveKind}
    (hd : f.default = none) (htype : f.type = .value t) (ht : t.layout = .primitive kind)
    (owner : String) (σ : Store) : Decided (f.Requires owner) ((f.defaulted owner).run σ) := by
  rw [defaulted_of_none hd, htype, FieldType.defaultValue_primitive ht]
  cases hkind : kind.default? with
  | none =>
      rw [PrimitiveKind.default?_eq_none_iff] at hkind
      subst hkind
      exact .failed (.symbol hd htype ht) fun _ _ _ _ => List.not_lex_nil
  | some d =>
      refine .done fun path owner' name hrequires => ?_
      cases hrequires with
      | symbol _ htype' hkind' =>
          rw [htype] at htype'
          cases htype'
          rw [ht] at hkind'
          cases hkind'
          cases hkind
      | deeper _ hrequires =>
          rw [FieldType.requires_iff, htype, FieldType.fields_primitive ht] at hrequires
          obtain ⟨_, _, _, _, hf, _⟩ := hrequires
          cases hf

/-- A field of any other type requires what its type does. -/
theorem decided_of_hasObjects {f : Field} (hd : f.default = none) (htype : f.type.HasObjects)
    {owner : String} {σ : Store}
    (h : Decided f.type.Requires ((f.type.construct none).run σ)) :
    Decided (f.Requires owner) ((f.defaulted owner).run σ) := by
  rw [defaulted_of_none hd, FieldType.defaultValue_eq_construct htype]
  refine h.congr fun path owner' name => ⟨.deeper hd, fun hrequires => ?_⟩
  cases hrequires with
  | deeper _ hrequires => exact hrequires
  | symbol _ hsymbol hkind =>
      rw [hsymbol] at htype
      cases htype with
      | composite hlayout =>
          rw [hkind] at hlayout
          cases hlayout

/-- The default of a field is decided by what is required from it on, at every depth. The induction
is on the type. -/
theorem defaulted_decided (type : FieldType) :
    ∀ f : Field, f.type = type → ∀ owner σ,
      Decided (f.Requires owner) ((f.defaulted owner).run σ) := by
  have hdefault : ∀ (f : Field) (owner : String) (σ : Store) d, f.default = some d →
      Decided (f.Requires owner) ((f.defaulted owner).run σ) := by
    intro f owner σ d hd
    rw [defaulted_of_some hd]
    exact .done fun _ _ _ => not_requires hd
  induction type using FieldType.inductionOn with
  | primitive t kind ht =>
      intro f htype owner σ
      cases hd : f.default with
      | some d => exact hdefault f owner σ d hd
      | none => exact decided_of_primitive hd htype ht owner σ
  | composite t schema ht ih =>
      intro f htype owner σ
      cases hd : f.default with
      | some d => exact hdefault f owner σ d hd
      | none =>
          have hobjects : f.type.HasObjects := htype ▸ .composite ht
          refine decided_of_hasObjects hd hobjects
            (FieldType.construct_decided_of_fields hobjects (fun g hg => ?_) σ)
          rw [htype, FieldType.fields_composite ht] at hg
          exact ih g hg g rfl
  | struct s ih =>
      intro f htype owner σ
      cases hd : f.default with
      | some d => exact hdefault f owner σ d hd
      | none =>
          have hobjects : f.type.HasObjects := htype ▸ .struct s
          refine decided_of_hasObjects hd hobjects
            (FieldType.construct_decided_of_fields hobjects (fun g hg => ?_) σ)
          rw [htype] at hg
          exact ih g hg g rfl

end Field

theorem FieldType.construct_decided {type : FieldType} (htype : type.HasObjects) (σ : Store) :
    Decided type.Requires ((type.construct none).run σ) :=
  construct_decided_of_fields htype (fun f _ => Field.defaulted_decided f.type f rfl) σ

/-! ### An empty record as the source -/

theorem fillSlots_record_nil (fields : List Field) (owner : String) (mode : CoercionMode) :
    fillSlots fields owner mode (some (.record [])) = fillSlots fields owner mode none := by
  induction fields with
  | nil => rfl
  | cons f fields ih =>
      rw [fillSlots_cons, fillSlots_cons, ih]
      rfl

theorem FieldType.construct_record_nil (type : FieldType) :
    type.construct (some (.record [])) = type.construct none := by
  cases type with
  | value t =>
      rw [construct, construct, ValueType.construct, ValueType.construct]
      cases t.layout with
      | primitive kind => rfl
      | composite schema =>
          dsimp only
          rw [fillSlots_record_nil]
  | struct s =>
      rw [construct, construct, StructType.construct, StructType.construct, fillSlots_record_nil]

/-! ### Modes -/

theorem FieldType.relax_fields (type : FieldType) :
    type.relax.fields = type.fields.map Field.relax := by
  cases type with
  | value t =>
      rw [relax_value, fields, fields, ValueType.relax_schema?]
      cases t.schema? with
      | none => rfl
      | some schema => exact schema.relax_fields
  | struct s =>
      rw [relax_struct, fields, fields, StructType.relax_schema, Schema.relax_fields]

theorem ValueType.primitive_of_relax {t u : ValueType} (h : t.relax = u.relax)
    {kind : PrimitiveKind} (ht : t.layout = .primitive kind) : u.layout = .primitive kind := by
  have hlayout := congrArg ValueType.layout h
  rw [relax_layout_primitive ht, relax_layout] at hlayout
  cases hu : u.layout with
  | primitive kind' =>
      rw [hu] at hlayout
      exact hlayout.symm
  | composite schema =>
      rw [hu] at hlayout
      cases hlayout

theorem ValueType.composite_of_relax {t u : ValueType} (h : t.relax = u.relax) {schema : Schema}
    (ht : t.layout = .composite schema) : ∃ other, u.layout = .composite other := by
  cases hu : u.layout with
  | composite other => exact ⟨other, rfl⟩
  | primitive kind =>
      rw [primitive_of_relax h.symm hu] at ht
      cases ht

theorem FieldType.value_of_relax {t : ValueType} {b : FieldType}
    (h : (value t).relax = b.relax) : ∃ u, b = .value u ∧ t.relax = u.relax := by
  cases b with
  | value u => exact ⟨u, rfl, FieldType.value.inj h⟩
  | struct s => cases h

theorem FieldType.name_eq_of_relax {a b : FieldType} (h : a.relax = b.relax) : a.name = b.name := by
  rw [← a.relax_name, ← b.relax_name, h]

/-- Types that differ in modes only have fields at the same places, which differ in modes only. -/
theorem FieldType.exists_field_of_relax {a b : FieldType} (h : a.relax = b.relax) {k : Nat}
    {f : Field} (hf : a.fields[k]? = some f) : ∃ g, b.fields[k]? = some g ∧ f.relax = g.relax := by
  have hfields : (a.fields.map Field.relax)[k]? = (b.fields.map Field.relax)[k]? := by
    rw [← relax_fields, ← relax_fields, h]
  rw [List.getElem?_map, List.getElem?_map, hf, Option.map_some] at hfields
  obtain ⟨g, hg, heq⟩ := Option.map_eq_some_iff.mp hfields.symm
  exact ⟨g, hg, heq.symm⟩

theorem Field.default_eq_none_of_relax {f g : Field} (h : f.relax = g.relax)
    (hf : f.default = none) : g.default = none := by
  have hdefault := congrArg Field.default h
  rw [relax_default, relax_default, hf, Option.map_none] at hdefault
  exact Option.map_eq_none_iff.mp hdefault.symm

theorem Field.type_relax_of_relax {f g : Field} (h : f.relax = g.relax) :
    f.type.relax = g.type.relax := by
  rw [← f.relax_type, ← g.relax_type, h]

/-- What a type requires has nothing to do with modes. -/
theorem FieldType.Requires.of_relax {a b : FieldType} (h : a.relax = b.relax) {path : List Nat}
    {owner name : String} (ha : a.Requires path owner name) : b.Requires path owner name := by
  induction ha generalizing b with
  | @symbol a k f t hf default htype hkind =>
      obtain ⟨g, hg, hfg⟩ := exists_field_of_relax h hf
      have hname : f.name = g.name := by
        rw [← f.relax_name, ← g.relax_name, hfg]
      rw [name_eq_of_relax h, hname]
      have htypes := Field.type_relax_of_relax hfg
      rw [htype] at htypes
      obtain ⟨u, hgtype, htypes⟩ := value_of_relax htypes
      exact .symbol hg (Field.default_eq_none_of_relax hfg default) hgtype
        (ValueType.primitive_of_relax htypes hkind)
  | deeper hf default _ ih =>
      obtain ⟨g, hg, hfg⟩ := exists_field_of_relax h hf
      exact .deeper hg (Field.default_eq_none_of_relax hfg default)
        (ih (Field.type_relax_of_relax hfg))

theorem FieldType.construct_relaxes (type : FieldType) (source : Option Source) :
    (type.construct source).Relaxes (type.relax.construct (source.map Source.relax))
      Value.relax := by
  cases type with
  | value t => exact (t.construct_relaxes source).bind fun i => .pure rfl
  | struct s => exact (s.construct_relaxes source).bind fun i => .pure rfl

theorem FieldType.HasObjects.of_relax {a b : FieldType} (h : a.relax = b.relax)
    (ha : a.HasObjects) : b.HasObjects := by
  cases ha with
  | composite hlayout =>
      obtain ⟨u, rfl, htypes⟩ := value_of_relax h
      obtain ⟨_, hother⟩ := ValueType.composite_of_relax htypes hlayout
      exact .composite hother
  | struct s =>
      cases b with
      | value t => cases h
      | struct s' => exact .struct s'

/-! ### Default construction -/

/-- Construction without a source is construction from an empty record. It succeeds exactly if no
path of fields without defaults leads from the type to a field for a symbol; otherwise it fails for
the first such field by its path, and tells the name of the type that has it. Types that differ in
modes only fail alike, and succeed with objects that differ in modes only. -/
theorem FieldType.construct_none_iff {type : FieldType} (htype : type.HasObjects) (σ : Store) :
    type.construct none = type.construct (some (.record [])) ∧
    ((∃ v σ', (type.construct none).run σ = .ok (v, σ')) ↔
      ∀ path owner name, ¬ type.Requires path owner name) ∧
    (∀ e, (type.construct none).run σ = .error e ↔
      ∃ path owner name, e = .missingField owner name ∧ type.Requires path owner name ∧
        ∀ path' owner' name', type.Requires path' owner' name' →
          ¬ List.Lex (· < ·) path' path) ∧
    ∀ (other : FieldType) (τ : Store), other.relax = type.relax → τ.relax = σ.relax →
      (∀ e, (type.construct none).run σ = .error e ↔ (other.construct none).run τ = .error e) ∧
      ∀ v σ', (type.construct none).run σ = .ok (v, σ') →
        ∃ v' τ', (other.construct none).run τ = .ok (v', τ') ∧ v'.relax = v.relax ∧
          τ'.relax = σ'.relax := by
  have hdecided := construct_decided htype σ
  refine ⟨type.construct_record_nil.symm, ?_, hdecided.error_iff Requires.unique, ?_⟩
  · rw [← hdecided.exists_ok_iff, Prod.exists]
  · intro other τ htypes hστ
    have hother := (construct_decided (htype.of_relax htypes.symm) τ).congr
      fun path owner name => ⟨Requires.of_relax htypes, Requires.of_relax htypes.symm⟩
    refine ⟨fun e => ?_, fun v σ' hrun => ?_⟩
    · rw [hdecided.error_iff Requires.unique, hother.error_iff Requires.unique]
    · obtain ⟨⟨v', τ'⟩, hrun'⟩ := hother.exists_ok_iff.mpr (hdecided.exists_ok_iff.mp ⟨_, hrun⟩)
      have hrelaxed := type.construct_relaxes none σ v σ' hrun
      have hrelaxed' := other.construct_relaxes none τ v' τ' hrun'
      rw [htypes, hστ, hrelaxed] at hrelaxed'
      obtain ⟨hv, hσ'⟩ := Prod.mk.inj (Except.ok.inj hrelaxed')
      exact ⟨v', τ', hrun', hv.symm, hσ'.symm⟩

namespace Sample

/-- A type with a field for a symbol, behind one for a number. -/
def tag : ValueType :=
  ⟨13, 1, ⟨13, some "Tag"⟩, .composite ⟨.value,
    [⟨"n", .value ⟨2, 1, ⟨2, some "uint8"⟩, .primitive .uint8, .strict, 0⟩, false, none⟩,
      ⟨"key", .value ⟨12, 1, ⟨12, some "symbol"⟩, .primitive .symbol, .strict, 0⟩, false, none⟩],
    0, 1⟩, .strict, 0⟩

/-- A struct type with two fields for symbols, the first of which has a default, and such a tag
between them. -/
def parcel : StructType :=
  ⟨1, 1, "Parcel", ⟨.struct,
    [⟨"from", .value ⟨12, 1, ⟨12, some "symbol"⟩, .primitive .symbol, .strict, 0⟩, false,
        some (.symbol ⟨14, none⟩)⟩,
      ⟨"tag", .value tag, false, none⟩,
      ⟨"to", .value ⟨12, 1, ⟨12, some "symbol"⟩, .primitive .symbol, .strict, 0⟩, false, none⟩],
    0, 2⟩, .strict⟩

/-- The symbol of the tag is missed before that of the parcel, in every mode. -/
theorem construct_none_iff_parcel :
    (FieldType.struct parcel).HasObjects ∧
    ((FieldType.struct parcel).construct (some (.record []))).run {} =
      .error (.missingField "Tag" "key") ∧
    ((FieldType.struct parcel).relax.construct none).run {} = .error (.missingField "Tag" "key") ∧
    (∃ path, (FieldType.struct parcel).Requires path "Tag" "key" ∧
      ∀ path' owner name, (FieldType.struct parcel).Requires path' owner name →
        ¬ List.Lex (· < ·) path' path) ∧
    (FieldType.struct parcel).Requires [2] "Parcel" "to" := by
  have hrun : ((FieldType.struct parcel).construct none).run {} =
      .error (.missingField "Tag" "key") := rfl
  obtain ⟨hrecord, _, herror, hmodes⟩ := FieldType.construct_none_iff (.struct parcel) {}
  obtain ⟨path, owner, name, heq, hrequires, hfirst⟩ := (herror _).mp hrun
  cases heq
  exact ⟨.struct parcel, hrecord ▸ hrun, ((hmodes _ {} rfl rfl).1 _).mp hrun,
    ⟨path, hrequires, hfirst⟩, @FieldType.Requires.symbol (.struct parcel) 2 _ _ rfl rfl rfl rfl⟩

end Sample

end ValueTypes
