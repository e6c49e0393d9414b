/-
# The catalog

A catalog has a service for each type of entities of the model. The entities of a type are kept in
a data file that is named after it, and all indexes have the same settings. Services are opened in
the order in which types depend on each other; for each the data file comes first and then the
index. If one of them cannot be opened, those before it are closed again.

Key definitions: `CatalogEntry`, `Catalog`, `CatalogM`, `Catalog.open`, `Catalog.entry`,
`Catalog.within`, `Catalog.coordinator`, `Catalog.close`.
-/
import Codebook.Command.Error
import Codebook.Entity.Kind
import Codebook.Service

namespace Codebook

/-- The service of a type of entities. -/
structure CatalogEntry where
  /-- The type. -/
  kind : EntityKind
  /-- The service. -/
  service : Service kind.Entity

/-- The services of the model. -/
structure Catalog where
  /-- The services in the order in which they were opened. -/
  entries : List CatalogEntry := []

/-- Work with a catalog and the disk that may fail. -/
abbrev CatalogM := ExceptT CommandError (StateM (Catalog × Disk))

namespace Catalog

/-- The data file of a type. -/
def dataFile (directory : Path) (kind : EntityKind) : Path :=
  directory ++ [kind.name ++ ".jsonl"]

/-- The service of a type. -/
def service? (c : Catalog) (kind : EntityKind) : Option (Service kind.Entity) :=
  c.entries.findSome? fun e => if h : e.kind = kind then some (h ▸ e.service) else none

/-- The catalog with another service for a type. -/
def setService (c : Catalog) (kind : EntityKind) (service : Service kind.Entity) : Catalog :=
  { entries := c.entries.map fun e => if e.kind = kind then ⟨kind, service⟩ else e }

/-- Does work with the service of a type. -/
def within {β : Type} (kind : EntityKind) (work : ServiceM kind.Entity β) :
    ExceptT IndexError (StateM (Catalog × Disk)) β := do
  let (c, disk) ← get
  match c.service? kind with
  | none => throw (.closed kind.name)
  | some service =>
    let (result, service, disk) := work.run (service, disk)
    set (c.setService kind service, disk)
    result

/-- Does work with the service of a type, on behalf of a command. -/
def ask {β : Type} (kind : EntityKind) (work : ServiceM kind.Entity β) : CatalogM β := do
  let (result, state) := (within kind work).run (← get)
  set state
  result.mapError CommandError.index

/-- Closes all indexes. -/
def close : CatalogM Unit := do
  for e in (← get).1.entries do
    ask e.kind (Service.onIndex Index.close)

/-- Opens the service of a type. -/
def openEntry (directory : Path) (config : Config) (kind : EntityKind) :
    DiskM CommandError CatalogEntry := do
  let (store, disk) := (LineStore.open kind.Entity (dataFile directory kind)).run (← get)
  set disk
  let store ← store.mapError CommandError.storage
  let (service, disk) := (Service.open config (.lines store)).run disk
  set disk
  return ⟨kind, ← service.mapError CommandError.index⟩

/-- Opens the services of types after those that are open already. -/
def openAfter (directory : Path) (config : Config) (c : Catalog) :
    List EntityKind → DiskM CommandError Catalog
  | [] => pure c
  | kind :: kinds => do
    let (entry, disk) := (openEntry directory config kind).run (← get)
    match entry with
    | .ok entry =>
      set disk
      openAfter directory config { entries := c.entries ++ [entry] } kinds
    | .error e =>
      let (_, _, disk) := close.run (c, disk)
      set disk
      throw e

/-- Opens the services of all types. -/
def «open» (directory : Path) (config : Config) : DiskM CommandError Catalog :=
  openAfter directory config {} EntityKind.all

/-- The service of a type that is named in any case. -/
def entry (c : Catalog) (name : String) : Except CommandError CatalogEntry :=
  match c.entries.find? fun e => Text.eqUpToLatinCase e.kind.name name with
  | some e => .ok e
  | none => .error (.unknownEntity name)

/-- The coordinator of the rebuilds. -/
def coordinator (c : Catalog) : Coordinator (Catalog × Disk) :=
  (c.entries.map fun e => e.service.unit (within e.kind)).foldl Coordinator.register {}

end Catalog

end Codebook
