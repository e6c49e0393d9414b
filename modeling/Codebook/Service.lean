/-
# Services

A service is an index together with the store behind it. It is opened over a store; the index is
filled by putting entities into both, by copying what is in the store, or by a rebuild. To a
coordinator it is a unit that can be rebuilt.

Key definitions: `Service`, `ServiceM`, `Service.open`, `Service.putAll`, `Service.sync`,
`Service.rebuild`, `Service.isCorrupted`, `Service.unit`.
-/
import Codebook.Coordinator
import Codebook.Index.Find
import Codebook.Index.Rebuild
import Codebook.Store.Basic

namespace Codebook

/-- An index and its store. -/
structure Service (α : Type) where
  /-- The index. -/
  index : Index
  /-- The store. -/
  store : Store α

/-- Work with a service and the disk that may fail. What was done before a failure stays done. -/
abbrev ServiceM (α : Type) := ExceptT IndexError (StateM (Service α × Disk))

namespace Service

variable {α : Type} [Indexed α]

/-- Does work with the index. -/
def onIndex {β : Type} (work : IndexM β) : ServiceM α β := do
  let (service, disk) ← get
  let (result, index, disk) := work.run (service.index, disk)
  set ({ service with index }, disk)
  result

/-- Searches the index. -/
def search {β : Type} (lookup : LookupM β) : ServiceM α β :=
  onIndex (Index.lookup lookup)

/-- Changes the store. -/
def onStore (work : Store α → DiskM StoreError (Store α)) : ServiceM α Unit := do
  let (service, disk) ← get
  let (result, disk) := (work service.store).run disk
  set (service, disk)
  let store ← result.mapError IndexError.storage
  set ({ service with store }, disk)

/-- The store as it is. -/
def currentStore : ServiceM α (Store α) :=
  return (← get).1.store

/-- Opens an index over a store. The index is not filled. -/
def «open» (config : Config) (store : Store α) : DiskM IndexError (Service α) := do
  let index ← Index.new α config
  let (result, index, disk) := Index.open.run (index, ← get)
  set disk
  result
  return { index, store }

/-- Puts entities into the index and then into the store. -/
def putAll (as : List α) : ServiceM α Unit := do
  onIndex (Index.putAll as)
  onStore (Store.putAll as)

/-- Puts all entities of the store into the index, from which nothing is removed. The answer is
their number. -/
def sync : ServiceM α Nat := do
  let as := (← currentStore).entities.toList
  onIndex (Index.putAll as)
  return as.length

/-- Removes all entities from a store in memory. -/
def clear : ServiceM α Unit :=
  onStore fun _ => pure (.ofList [])

/-- Fills the index from the store. The answer is the number of documents. -/
def rebuild : ServiceM α Nat := do
  onIndex (Index.rebuildFrom (← currentStore).source)

/-- Whether the index and the store disagree on the number of entities. -/
def isCorrupted : ServiceM α Bool := do
  onIndex (Index.isCorrupted (← currentStore).source)

/-- The service as a unit of a coordinator, for which its work is done within a larger state. -/
def unit {σ : Type} (s : Service α)
    (within : {β : Type} → ServiceM α β → ExceptT IndexError (StateM σ) β) : RebuildUnit σ where
  name := s.index.name
  priority := s.index.priority
  isCorrupted := within isCorrupted
  rebuild := within rebuild

end Service

end Codebook
