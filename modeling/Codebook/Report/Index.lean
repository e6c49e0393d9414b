/-
# Reports of indexes

The settings of an index and the state it is in, as data.

Key definitions: `Config.ofData`, `Config.toData`, `Index.report`.
-/
import Codebook.Data.Access
import Codebook.Index.Basic

namespace Codebook

open Data

/-- The default settings of an index under a directory, apart from those that are given. -/
def Config.ofData (root : Path) (d : Data) : Config :=
  let c : Config := { root }
  { c with
    writerHeapBytes := d.natOr "writer_heap_bytes" c.writerHeapBytes
    writerThreads := d.natOr "writer_threads" c.writerThreads
    rebuildPageSize := d.natOr "rebuild_page_size" c.rebuildPageSize
    rebuildLogInterval := d.natOr "rebuild_log_interval" c.rebuildLogInterval
    defaultPageSize := d.natOr "default_page_size" c.defaultPageSize
    clearStaleLocks := if d.has "clear_stale_locks" then d.flag "clear_stale_locks"
      else c.clearStaleLocks }

/-- The settings as data. -/
def Config.toData (c : Config) : Data :=
  obj [("root", .text ("/".intercalate c.root)), ("writer_heap_bytes", num c.writerHeapBytes),
    ("writer_threads", num c.writerThreads), ("rebuild_page_size", num c.rebuildPageSize),
    ("rebuild_log_interval", num c.rebuildLogInterval),
    ("default_page_size", num c.defaultPageSize), ("clear_stale_locks", .bool c.clearStaleLocks)]

/-- The report on an index. -/
def Index.report (i : Index) : Data :=
  obj [("state", .text (if i.isReady then "ready" else "closed")),
    ("generation", orNull num i.generation?), ("rebuilding", .bool i.isRebuilding),
    ("name", .text i.name), ("entity_type", .text i.schema.entityType),
    ("priority", .int i.priority)]

/-- The report on the directory of an index, if there is one: its pointer and its entries. -/
def IndexDirectory.report (path : Path) (disk : Disk) : Except IndexError Data :=
  match disk.names? path with
  | none => .error .io
  | some names => .ok <| obj [("current", .ofText? (disk.text? (path ++ [pointerName]))),
      ("entries", .ofTexts names)]

end Codebook
