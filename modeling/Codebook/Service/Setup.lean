/-
# Setting up services

A service is described by a record: the type of its entities, its name, the kind of its store and the
entities that are in it at first, the settings of its index and where it is, and its priority.

Key definitions: `Store.ofData`, `SampleKind.served`, `Slot.ofData`.
-/
import Codebook.Report.Index
import Codebook.Service.Site
import Codebook.Service.Staging

namespace Codebook

/-- A store of a kind: in a file, failing after some pages, or in memory. -/
def Store.ofData {α : Type} [Indexed α] (file : Path) (as : List α) (d : Data) : Store α :=
  let memory := ({} : MemoryStore α).putAll as
  match d with
  | .text "file" => .lines { path := file, memory }
  | .record [("failing", .int n)] => .failing n.toNat memory
  | _ => .memory memory

/-- The type with a name. There have to be services for its entities. -/
def SampleKind.served (name : String) : Except Data SampleKind :=
  ((ofName? name).filter isServed).elim (.error unknownType) .ok

/-- The directory of data files. -/
def Slot.dataDirectory : Path := ["data"]

/-- The place of a service, with its name. -/
def Slot.ofData (d : Data) : Except Data (String × Slot) := do
  let kind ← SampleKind.served (d.str "type")
  let name := (d.str? "name").getD (d.str "type")
  let as ← kind.readEntities (d.items "initial")
  let root := (((d.str? "dir").getD "index").splitOn "/").filter (· ≠ "")
  return (name, {
    kind
    config := Config.ofData root (d.get "config")
    priority := if d.has "priority" then some (d.whole "priority") else none
    store := .ofData (dataDirectory ++ [name ++ ".jsonl"]) as (d.get "store") })

end Codebook
