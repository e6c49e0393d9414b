/-
# The registry of schemas

Schemas are built once and kept, by the name of the type and its declaration. What cannot be built
is not kept, and is tried again the next time.

Key definitions: `Registry`, `Registry.describe`.
-/
import Codebook.Schema.Build

namespace Codebook

/-- The schemas that were built so far. -/
structure Registry where
  /-- The schemas, by the types they were built for. -/
  schemas : List ((String × Declaration) × Schema) := []

namespace Registry

/-- The number of schemas. -/
def size (r : Registry) : Nat :=
  r.schemas.length

/-- Whether nothing was built yet. -/
def isEmpty (r : Registry) : Bool :=
  r.schemas.isEmpty

/-- The schema of a type, and the registry that keeps it. -/
def describe (r : Registry) (α : Type) [Indexed α] : Except IndexError Schema × Registry :=
  let key := (Indexed.entityType α, Indexed.declaration α)
  match r.schemas.lookup key with
  | some s => (.ok s, r)
  | none =>
    match Schema.describe α with
    | .ok s => (.ok s, { schemas := r.schemas ++ [(key, s)] })
    | .error e => (.error e, r)

/-- The registry in diagnostics. -/
def label (r : Registry) : String :=
  Diagnostic.someMembers "SchemaRegistry" [("types", toString r.size)]

end Registry

end Codebook
