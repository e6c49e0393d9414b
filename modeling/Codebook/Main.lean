/-
# The command line

The program on a real disk. The directories that a run works with are read at its beginning, and
what the run changed is written at its end.

Key definitions: `main`.
-/
import Codebook.Command.Program
import Codebook.Data.Json
import Codebook.Generation.Stored

namespace Codebook.CommandLine

/-- The name of a path on the real disk. -/
def nameOf (path : Path) : String :=
  "/".intercalate path

/-- A file with these bytes. The content of a generation is read as such if it is one. -/
def fileNode (name : String) (bytes : List UInt8) : Node :=
  let content := if name = IndexDirectory.contentName then
      ((String.fromUTF8? ⟨bytes.toArray⟩).bind Data.ofJson?).bind Generation.ofData?
    else none
  match content with
  | some g => .generation g
  | none => .file bytes none

/-- The bytes of a file on the real disk. -/
def bytesOf : Node → Option ByteArray
  | .directory => none
  | .file bytes _ => some ⟨bytes.toArray⟩
  | .generation g => some g.toData.toJson.toUTF8

/-- What there is at a path of the real disk and below. -/
partial def load (path : Path) : IO (List (Path × Node)) := do
  let place := (← IO.currentDir) / nameOf path
  if !(← place.pathExists) then return []
  if !(← place.isDir) then
    return [(path, fileNode (path.getLast?.getD "") (← IO.FS.readBinFile place).toList)]
  let entries ← place.readDir
  let below ← entries.toList.mapM fun entry => load (path ++ [entry.fileName])
  return (path, .directory) :: below.flatten

/-- What there is on the way to a path of the real disk. -/
def loadWay (path : Path) : IO (List (Path × Node)) := do
  let stations := path.stations.filter fun p => !p.isEmpty && p != path
  let found ← stations.mapM fun p => do
    let place := (← IO.currentDir) / nameOf p
    if ← place.isDir then return [(p, Node.directory)]
    else if ← place.pathExists then return [(p, Node.file [] none)]
    else return []
  return found.flatten

/-- The part of the real disk that a run works with. -/
def loadDisk (a : Arguments) : IO Disk := do
  let paths := [Arguments.pathOf a.dataDirectory, Arguments.pathOf a.indexDirectory]
  let found ← paths.mapM fun path => return (← loadWay path) ++ (← load path)
  return found.flatten.foldl (fun disk (path, node) => disk.insert path node) {}

/-- Removes what is at a path of the real disk. -/
def removePath (path : Path) : IO Unit := do
  let place := (← IO.currentDir) / nameOf path
  if ← place.isDir then IO.FS.removeDirAll place
  else if ← place.pathExists then IO.FS.removeFile place

/-- Writes the difference between two states of a disk to the real one. -/
def saveDisk (before after : Disk) : IO Unit := do
  for (path, _) in before.nodes do
    if !after.contains path then removePath path
  for (path, node) in after.nodes.mergeSort fun a b => a.1.length ≤ b.1.length do
    if before.node? path ≠ some node then
      match bytesOf node with
      | none => IO.FS.createDirAll (nameOf path)
      | some bytes => IO.FS.writeBinFile (nameOf path) bytes

/-- The disk on which a run begins. A run whose arguments are wrong needs none. -/
def diskFor (args : List String) : IO Disk :=
  match Arguments.read args with
  | .ok a => loadDisk a
  | .error _ => pure {}

end Codebook.CommandLine

open Codebook in
/-- Runs the program with its arguments. -/
def main (args : List String) : IO UInt32 := do
  let before ← CommandLine.diskFor args
  let (outcome, after) := (Program.run args).run before
  CommandLine.saveDisk before after
  IO.print outcome.printed
  if let some e := outcome.error then IO.eprintln s!"Error: {e.label}"
  if outcome.code = 2 then IO.eprint Program.usage
  return outcome.code.toUInt32
