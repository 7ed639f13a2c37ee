import ValueTypes.Definition

/-! Fingerprints of definitions, computed when a definition or a schema is made. They depend on
symbols, kinds, struct types and the names and order of fields, and on nothing else, so equivalent
definitions have equal fingerprints whatever the hash functions are. -/

namespace ValueTypes

/-- The hash functions behind fingerprints. -/
structure Hashing where
  kind : PrimitiveKind → UInt64
  struct : StructId → UInt64
  fields : List (String × UInt64) → UInt64
  definition : Nat → UInt64 → UInt64

def Layout.fingerprint (hashing : Hashing) : Layout → UInt64
  | .primitive kind => hashing.kind kind
  | .composite schema => schema.fingerprint

def FieldType.fingerprint (hashing : Hashing) : FieldType → UInt64
  | .value t => t.fingerprint
  | .struct s => hashing.struct s.id

def Hashing.ofFields (hashing : Hashing) (fields : List Field) : UInt64 :=
  hashing.fields (fields.map fun f => (f.name, f.type.fingerprint hashing))

/-- Hashes a schema: what is written to the hasher is the fingerprint, and nothing else. -/
def Schema.hash {η : Type} (write : η → UInt64 → η) (state : η) (schema : Schema) : η :=
  write state schema.fingerprint

/-- A registered definition, with its fingerprint. -/
def ValueType.define (hashing : Hashing) (id : DefinitionId) (realm : RealmId) (symbol : Symbol)
    (layout : Layout) (coercion : CoercionMode) : ValueType where
  id := id
  realm := realm
  symbol := symbol
  layout := layout
  coercion := coercion
  fingerprint := hashing.definition symbol.id (layout.fingerprint hashing)

namespace Hashing

/-- Adds one number to a running hash. -/
def mix (hash : UInt64) (n : Nat) : UInt64 :=
  hash * 1099511628211 + UInt64.ofNat n + 1

/-- Hash functions that fold all ingredients into a polynomial. -/
def polynomial : Hashing where
  kind kind := mix 11 kind.index
  struct id := mix 13 id
  fields fields := fields.foldl (fun hash (field : String × UInt64) =>
    mix (field.1.toList.foldl (fun hash c => mix hash c.toNat) (mix hash 0)) field.2.toNat) 17
  definition symbol layout := mix (mix 19 symbol) layout.toNat

end Hashing

end ValueTypes
