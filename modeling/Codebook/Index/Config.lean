/-
# Settings of an index

Key definitions: `Config`, `Config.validate`.
-/
import Codebook.Disk

namespace Codebook

/-- The settings of an index. -/
structure Config where
  /-- The directory that holds one directory for each index. -/
  root : Path := ["index"]
  /-- The memory of a writer, for each of its threads. -/
  writerHeapBytes : Nat := 50 * 1024 * 1024
  /-- The number of threads of a writer. -/
  writerThreads : Nat := 1
  /-- How many entities a rebuild reads at a time. -/
  rebuildPageSize : Nat := 10000
  /-- After how many documents a rebuild reports its progress. -/
  rebuildLogInterval : Nat := 100000
  /-- The size of a page, unless criteria give another one. -/
  defaultPageSize : Nat := 100
  /-- Whether a lock that was left over is removed when an index is opened. -/
  clearStaleLocks : Bool := true
  /-- The zone in which days begin and end. -/
  zone : Instant.Zone := .universal

namespace Config

/-- The least memory of a writer thread. -/
def minWriterHeapBytes : Nat := 15000000

/-- The engine's limit for the memory of a writer thread. -/
def maxWriterHeapBytes : Nat := Number.maxNat32 - 1000000

/-- Checks the settings; the first fault decides. -/
def validate (c : Config) : Except IndexError Unit :=
  let fault (reason : String) := Except.error (IndexError.configuration "IndexConfig" reason)
  if c.writerThreads = 0 then fault "writer_threads must be positive"
  else if c.writerHeapBytes < minWriterHeapBytes then
    fault s!"writer_heap_bytes must be at least {minWriterHeapBytes}, got {c.writerHeapBytes}"
  else if c.rebuildPageSize = 0 then fault "rebuild_page_size must be positive"
  else if c.defaultPageSize = 0 then fault "default_page_size must be positive"
  else .ok ()

/-- The memory that a writer thread gets. All threads together get at most what can be counted. -/
def heapPerThread (c : Config) : Nat :=
  min (c.writerHeapBytes * c.writerThreads) maxCount / c.writerThreads

end Config

end Codebook
