/-
# Errors of commands

What can go wrong with a command of the program.

Key definitions: `CommandError`, `CommandError.message`, `CommandError.label`.
-/
import Codebook.IndexError
import Codebook.Text.Diagnostic
import Codebook.Text.Quoted

namespace Codebook

/-- A failure of a command. -/
inductive CommandError where
  /-- An index failed. -/
  | index (e : IndexError)
  /-- A data file failed. -/
  | storage (e : StoreError)
  /-- The criteria are not written as they have to be. -/
  | json
  /-- There is no such type of entities. -/
  | unknownEntity (name : String)
  /-- There is no such format. -/
  | unknownFormat (name : String)
  /-- Some indexes failed a check or a rebuild. -/
  | failed (reason : String)
deriving DecidableEq, Repr

/-- The error in diagnostics. -/
def ModelError.label (e : ModelError) : String :=
  match e with
  | invalidPath path reason =>
    Diagnostic.members e.name [("path", Text.quote path), ("reason", Text.quote reason)]
  | unknownChangeType name => s!"{e.name}({Text.quote name})"
  | invalidCriteria reason => s!"{e.name}({Text.quote reason})"

/-- The error in diagnostics, where the request is to blame for it. -/
def IndexError.label? (e : IndexError) : Option String :=
  match e with
  | configuration subject reason => some <| Diagnostic.members e.name
      [("entity_type", Text.quote subject), ("message", Text.quote reason)]
  | unknownField entityType field => some <| Diagnostic.members e.name
      [("entity_type", Text.quote entityType), ("field", Text.quote field)]
  | notFound entityType key => some <| Diagnostic.members e.name
      [("entity_type", Text.quote entityType), ("key", Text.quote key)]
  | criteria fault => some s!"{e.name}({fault.label})"
  | _ => none

namespace CommandError

/-- The error in words. -/
def message : CommandError → String
  | index e => e.message
  | storage e => e.message
  | json => "JSON error"
  | unknownEntity name => s!"unknown entity type '{name}'"
  | unknownFormat name => s!"unknown format '{name}', expected text or json"
  | failed reason => reason

/-- The name of the kind of error. -/
def name : CommandError → String
  | index _ => "Index"
  | storage _ => "Storage"
  | json => "Json"
  | unknownEntity _ => "UnknownEntity"
  | unknownFormat _ => "UnknownFormat"
  | failed _ => "Failed"

/-- The error in diagnostics. Only what the request is to blame for is told in full. -/
def label (e : CommandError) : String :=
  let detail := match e with
    | index fault => fault.label?
    | storage _ => none
    | json => none
    | unknownEntity name => some (Text.quote name)
    | unknownFormat name => some (Text.quote name)
    | failed reason => some (Text.quote reason)
  match detail with
  | some s => s!"{e.name}({s})"
  | none => e.name

end CommandError

end Codebook
