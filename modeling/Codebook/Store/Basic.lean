/-
# Stores

A store holds the authoritative entities of one type: in memory, or in a file. A third kind of
store loses its connection while it is read page by page; with it one can see what becomes of a
rebuild whose store fails.

Key definitions: `Store`, `Store.entities`, `Store.source`, `Store.putAll`, `Store.remove`.
-/
import Codebook.Store.Lines

namespace Codebook

/-- A store of entities. -/
inductive Store (α : Type) where
  /-- The entities are in memory. -/
  | memory (m : MemoryStore α)
  /-- The entities are in a file. -/
  | lines (l : LineStore α)
  /-- The entities are in memory, but after so many pages they cannot be reached any more. -/
  | failing (after : Nat) (m : MemoryStore α)

namespace Store

variable {α : Type} [Indexed α]

/-- A store in memory that holds these entities. -/
def ofList (as : List α) : Store α :=
  memory (({} : MemoryStore α).putAll as)

/-- The entities. -/
def entities : Store α → MemoryStore α
  | memory m => m
  | lines l => l.memory
  | failing _ m => m

/-- The store, as far as a rebuild is concerned. -/
def source : Store α → Source α
  | memory m => m.source
  | lines l => l.memory.source
  | failing after m => .failing after m.toList

/-- Puts entities one after the other. -/
def putAll (as : List α) : Store α → DiskM StoreError (Store α)
  | memory m => pure (memory (m.putAll as))
  | lines l => lines <$> l.putAll as
  | failing after m => pure (failing after (m.putAll as))

/-- Removes the entity with a primary key, if there is one. -/
def remove (id : String) : Store α → DiskM StoreError (Store α)
  | memory m => pure (memory (m.remove id))
  | lines l => lines <$> l.remove id
  | failing after m => pure (failing after (m.remove id))

end Store

end Codebook
