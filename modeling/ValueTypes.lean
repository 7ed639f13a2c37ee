import ValueTypes.Definition.Induction
import ValueTypes.Session.Run
import ValueTypes.Proofs.Definition.Shape
import ValueTypes.Proofs.Registry.Buckets
import ValueTypes.Proofs.Registry.Canonical
import ValueTypes.Proofs.Number.Exact
import ValueTypes.Proofs.Number.Letters
import ValueTypes.Proofs.Primitive.Acceptance
import ValueTypes.Proofs.Construction.Sound
import ValueTypes.Proofs.Schema.Sound
import ValueTypes.Proofs.Realms.Sound
import ValueTypes.Proofs.World.Basic
import ValueTypes.Proofs.World.Sound
import ValueTypes.Proofs.World.Interning
import ValueTypes.Proofs.World.Requests
import ValueTypes.Proofs.Registry.Contention
import ValueTypes.Proofs.Value.Conforms
import ValueTypes.Proofs.World.Inhabited
import ValueTypes.Proofs.World.ArrayLength
import ValueTypes.Proofs.Number.Equality
import ValueTypes.Proofs.Value.Equality
import ValueTypes.Proofs.Value.Path
import ValueTypes.Proofs.World.Equality
import ValueTypes.Proofs.Value.Content
import ValueTypes.Proofs.World.Immutable
import ValueTypes.Proofs.Store.Acyclic
import ValueTypes.Proofs.World.Structs
import ValueTypes.Proofs.Definition.Depth
import ValueTypes.Proofs.Schema.Nesting
import ValueTypes.Proofs.Realms.Nesting
import ValueTypes.Proofs.World.Changes
import ValueTypes.Proofs.World.Definitions
import ValueTypes.Proofs.World.Registration
import ValueTypes.Proofs.Construction.Nesting
import ValueTypes.Proofs.Value.Nesting
import ValueTypes.Proofs.World.Nesting
import ValueTypes.Proofs.World.Methods
import ValueTypes.Proofs.World.Dispatch
import ValueTypes.Proofs.Lenient.Definition
import ValueTypes.Proofs.Lenient.Construction
import ValueTypes.Proofs.Lenient.Realms
import ValueTypes.Proofs.Lenient.Content
import ValueTypes.Proofs.Lenient.Session
import ValueTypes.Proofs.Lenient.Answer
import ValueTypes.Proofs.Lenient.Command
import ValueTypes.Proofs.Lenient.Run
import ValueTypes.Proofs.World.Symbols
import ValueTypes.Proofs.World.Equivalence
import ValueTypes.Proofs.World.Attachment
import ValueTypes.Proofs.World.Failure
import ValueTypes.Proofs.Store.Parallel
import ValueTypes.Proofs.Construction.Correspondence
import ValueTypes.Proofs.Number.Zero
import ValueTypes.Proofs.Value.Like
import ValueTypes.Proofs.World.Congruence
import ValueTypes.Proofs.World.Reconstruction
import ValueTypes.Proofs.Construction.Required
import ValueTypes.Proofs.Construction.Fieldwise
import ValueTypes.Proofs.Construction.Twins
import ValueTypes.Proofs.World.Fieldwise
import ValueTypes.Proofs.Schema.Acceptance
import ValueTypes.Proofs.World.Schemas
import ValueTypes.Proofs.Store.Write
import ValueTypes.Proofs.World.Writes
import ValueTypes.Proofs.Construction.SingleField
import ValueTypes.Proofs.World.FieldValues
import ValueTypes.Proofs.Construction.Own
import ValueTypes.Proofs.Value.Shown
import ValueTypes.Proofs.World.Independence
import ValueTypes.Proofs.World.Sparing
import ValueTypes.Proofs.Number.Nearest
import ValueTypes.Proofs.Number.Decimal
import ValueTypes.Proofs.Number.Spelling
import ValueTypes.Proofs.Number.Arithmetic
import ValueTypes.Proofs.Primitive.Text
import ValueTypes.Proofs.Primitive.Machine
import ValueTypes.Proofs.Primitive.Integers
import ValueTypes.Proofs.Construction.Update
import ValueTypes.Proofs.World.Update
import ValueTypes.Proofs.Primitive.Wrapping
import ValueTypes.Proofs.Schema.Array
import ValueTypes.Proofs.World.Arrays
import ValueTypes.Proofs.Definition.Fingerprint
import ValueTypes.Proofs.World.Fingerprints
import ValueTypes.Proofs.Number.Interval
import ValueTypes.Proofs.Number.Printing
import ValueTypes.Proofs.Primitive.RoundTrip
