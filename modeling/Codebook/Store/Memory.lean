/-
# Stores in memory

The authoritative entities of one type by their primary keys.

Key definitions: `MemoryStore`, `MemoryStore.put`, `MemoryStore.putAll`, `MemoryStore.remove`,
`MemoryStore.source`.
-/
import Codebook.Entity.Basic
import Codebook.Keyed
import Codebook.Store.Source

namespace Codebook

/-- Entities by their primary keys. -/
structure MemoryStore (α : Type) where
  /-- The entities. -/
  entities : Keyed α := []

namespace MemoryStore

variable {α : Type} [Indexed α]

/-- Puts an entity in place of the one with its primary key. -/
def put (m : MemoryStore α) (a : α) : MemoryStore α :=
  { entities := m.entities.insert (Indexed.id a) a }

/-- Puts entities one after the other. -/
def putAll (m : MemoryStore α) (as : List α) : MemoryStore α :=
  as.foldl put m

/-- The entity with a primary key. -/
def get? (m : MemoryStore α) (id : String) : Option α :=
  m.entities.get? id

/-- Removes the entity with a primary key. -/
def remove (m : MemoryStore α) (id : String) : MemoryStore α :=
  { entities := m.entities.erase id }

/-- The number of entities. -/
def size (m : MemoryStore α) : Nat :=
  m.entities.length

/-- The entities in the order of their primary keys. -/
def toList (m : MemoryStore α) : List α :=
  m.entities.values

/-- The entities in pages. -/
def pages (m : MemoryStore α) (size : Nat) : Except StoreError (List (List α)) :=
  pagesOf size m.toList

/-- The store, as far as a rebuild is concerned. -/
def source (m : MemoryStore α) : Source α :=
  .ofList m.toList

end MemoryStore

end Codebook
