/-
# Sites

A site holds services by name, all of them on one disk. The entities of a service stay when its
index is dropped, and a new index can be opened over them. The new index is opened before the one in
its place is dropped.

Key definitions: `Slot`, `Site`, `SiteM`, `Site.within`, `Site.openService`, `Site.dropService`,
`Site.finish`, `Site.coordinator`, `Site.alongPath`.
-/
import Codebook.Index.Path
import Codebook.Samples.Kind
import Codebook.Service

namespace Codebook

/-- The place of a service. -/
structure Slot where
  /-- The type of its entities. -/
  kind : SampleKind
  /-- The settings of its index. -/
  config : Config
  /-- Its priority, if it is not that of the type. -/
  priority : Option Int := none
  /-- The store. -/
  store : Store kind.Entity
  /-- The index, unless it was dropped or could not be opened. -/
  index : Option Index := none
  /-- How many indexes were opened here. -/
  openings : Nat := 0
  /-- Contents of the index that somebody has kept to search them later. -/
  kept : List (String × Generation) := []

/-- Services on one disk. -/
structure Site where
  /-- The disk. -/
  disk : Disk := {}
  /-- The services by name. -/
  slots : List (String × Slot) := []
  /-- How often the time was read. -/
  readings : Nat := 0

/-- Work with a site that may fail. What was done before a failure stays done. -/
abbrev SiteM := ExceptT IndexError (StateM Site)

namespace Site

/-- The place of a name. -/
def slot? (site : Site) (name : String) : Option Slot :=
  site.slots.lookup name

/-- The index of a service. -/
def index? (site : Site) (name : String) : Option Index :=
  (site.slot? name).bind Slot.index

/-- Changes the place of a name. -/
def updateSlot (site : Site) (name : String) (f : Slot → Slot) : Site :=
  { site with slots := site.slots.map fun (other, slot) =>
      (other, if other = name then f slot else slot) }

/-- The service of a name, for a type of entities. -/
def service? (site : Site) (name : String) (kind : SampleKind) : Option (Service kind.Entity) := do
  let slot ← site.slot? name
  let index ← slot.index
  if h : slot.kind = kind then some { index, store := h ▸ slot.store } else none

/-- The place with another service. -/
def Slot.withService {kind : SampleKind} (slot : Slot) (service : Service kind.Entity) : Slot :=
  if h : slot.kind = kind then { slot with index := some service.index, store := h ▸ service.store }
  else slot

/-- Does work on the disk. -/
def onDisk {ε α : Type} (work : DiskM ε α) : ExceptT ε (StateM Site) α := do
  let site ← get
  let (result, disk) := work.run site.disk
  set { site with disk }
  result

/-- Does work with a service. -/
def within {α : Type} (name : String) (kind : SampleKind) (work : ServiceM kind.Entity α) :
    SiteM α := do
  let site ← get
  match site.service? name kind with
  | none => throw (.closed name)
  | some service =>
    let (result, service, disk) := work.run (service, site.disk)
    set { site.updateSlot name (fun slot => Slot.withService slot service) with disk }
    result

/-- Does work with an index that is not kept. -/
def apart {α : Type} (index : Index) (work : IndexM α) : SiteM α := do
  let site ← get
  let (result, _, disk) := work.run (index, site.disk)
  set { site with disk }
  result

/-- Opens a new index over the entities of a service. The one in its place is dropped after that. -/
def openService (name : String) : SiteM Unit := do
  let some slot := (← get).slot? name | throw (.closed name)
  let service ← onDisk (Service.open slot.config slot.store)
  if let some old := slot.index then apart old Index.close
  let index := { service.index with priority := slot.priority.getD service.index.priority }
  modify fun site => site.updateSlot name fun slot =>
    { slot with index := some index, openings := slot.openings + 1 }

/-- Closes the index of a service and forgets it, and the contents that were kept with it. -/
def dropService (name : String) : SiteM Unit := do
  if let some index := (← get).index? name then apart index Index.close
  modify fun site => site.updateSlot name fun slot => { slot with index := none, kept := [] }

/-- Ends work that was begun with an index before other things were done on the site. If the index
was dropped in the meantime, it is as good as closed. -/
def finish {α : Type} (name : String) (before : Slot) (begun : Index) (work : IndexM α) :
    SiteM α := do
  match (← get).slot? name with
  | none => throw (.closed name)
  | some slot =>
    if slot.openings = before.openings && slot.index.isSome then
      within name slot.kind (Service.onIndex work)
    else apart { begun with writer := none, live := none } work

/-- A coordinator of the services with these names that have an index. -/
def coordinator (site : Site) (names : List String) : Coordinator Site :=
  let units := names.filterMap fun name => do
    let slot ← site.slot? name
    let service ← site.service? name slot.kind
    return service.unit (within name slot.kind)
  units.foldl Coordinator.register {}

/-- Searches along a path, in the indexes of three services. -/
def alongPath {α : Type} (groups dictionaries metaFields : String)
    (search : PathIndexes.PathM α) : SiteM α := do
  let indexNamed (name : String) : SiteM Index := do
    match (← get).index? name with
    | some index => return index
    | none => throw (.closed name)
  let indexes : PathIndexes :=
    { groups := ← indexNamed groups
      dictionaries := ← indexNamed dictionaries
      metaFields := ← indexNamed metaFields }
  let (result, indexes) := search.run indexes
  let put (name : String) (index : Index) (site : Site) : Site :=
    site.updateSlot name fun slot => { slot with index := some index }
  if metaFields ≠ groups then modify (put metaFields indexes.metaFields)
  modify (put dictionaries indexes.dictionaries ∘ put groups indexes.groups)
  result

end Site

end Codebook
