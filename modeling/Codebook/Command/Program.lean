/-
# The program

A run of the program reads its arguments, opens the catalog, runs one command, and closes the
catalog. Arguments that are wrong end it with exit code 2, and errors with exit code 1. Locks do not
outlive the run.

Key definitions: `Outcome`, `Program.run`.
-/
import Codebook.Command.Arguments

namespace Codebook

/-- What a run of the program leaves behind, apart from the disk. -/
structure Outcome where
  /-- The exit code. -/
  code : Nat
  /-- What was printed. -/
  printed : String := ""
  /-- The error, if there was one. -/
  error : Option CommandError := none
  /-- Whether each step was reported, and there was a step to report. -/
  stepsReported : Bool := false
deriving DecidableEq, Repr

/-- The disk without locks. -/
def Disk.unlocked (d : Disk) : Disk :=
  { d with nodes := d.nodes.map fun (path, node) =>
      (path, match node with
        | .file bytes _ => .file bytes none
        | other => other) }

namespace Program

/-- How to call the program. -/
def usage : String :=
  "Usage: rcd [OPTIONS] <rebuild|verify|query|stats|version>\n"

/-- The outcome of arguments that were not read to the end. -/
def ended : EarlyEnd → Outcome
  | .refused => { code := 2 }
  | .help => { code := 0, printed := usage }
  | .version => { code := 0, printed := s!"rcd {Command.programVersion}\n" }

/-- Runs a command with a catalog and closes the catalog. -/
def runCommand (c : Command) : CommandM Unit := do
  c.run
  onCatalog Catalog.close

/-- The outcome of a session. -/
def outcome (result : Except CommandError Unit) (s : Session) : Outcome :=
  match result with
  | .ok () => { code := 0, printed := s.printed }
  | .error e => { code := 1, printed := s.printed, error := some e }

/-- Runs a command with the catalog that the arguments ask for. The first step that is reported is
that the first data file was read. -/
def runArguments (a : Arguments) : StateM Disk Outcome := do
  if a.command = .version then
    let (result, s) := a.command.run.run { catalog := {}, disk := ← get }
    return outcome result s
  let data := Arguments.pathOf a.dataDirectory
  let (first, _) := (LineStore.open Group (Catalog.dataFile data .group)).run (← get)
  let stepsReported := a.verbose && first.isOk
  let (catalog, disk) := (Catalog.open data a.config).run (← get)
  set disk.unlocked
  match catalog with
  | .error e => return { code := 1, error := some e, stepsReported }
  | .ok catalog =>
    let (result, s) := (runCommand a.command).run { catalog, disk }
    set s.disk.unlocked
    return { outcome result s with stepsReported }

/-- Runs the program. -/
def run (args : List String) : StateM Disk Outcome :=
  match Arguments.read args with
  | .error e => pure (ended e)
  | .ok a => runArguments a

end Program

end Codebook
