/-
# Errors of the index

What can go wrong with an index. Bad declarations are found once, when a type is described;
everything else concerns one request.

Key definitions: `IndexError`, `IndexError.name`, `IndexError.message`.
-/
import Codebook.ModelError
import Codebook.Store.Error

namespace Codebook

/-- A failure of an index. -/
inductive IndexError where
  /-- A declaration or a setting is not acceptable. -/
  | configuration (subject reason : String)
  /-- A request names a field that is not indexed, or not for that use. -/
  | unknownField (entityType field : String)
  /-- Somebody else is writing. -/
  | writeConflict (index reason : String)
  /-- A file or directory could not be read or written. -/
  | io
  /-- The files of a generation are no index, or a query asks too much of them. -/
  | search
  /-- The index does not hold as many documents as its store has entities. -/
  | corrupted (index : String) (indexed expected : Nat)
  /-- A value that has to be unique is not. -/
  | duplicateValue (entityType field value : String)
  /-- There is no such entity. -/
  | notFound (entityType key : String)
  /-- The index is closed. -/
  | closed (index : String)
  /-- A document holds no snapshot of its entity. -/
  | payload (reason : String)
  /-- The snapshot in a document cannot be read. -/
  | unreadable
  /-- The store failed. -/
  | storage (e : StoreError)
  /-- The criteria are not acceptable. -/
  | criteria (e : ModelError)
  /-- The operation was cancelled. -/
  | cancelled
deriving DecidableEq, Repr

namespace IndexError

/-- The name of the kind of error. -/
def name : IndexError → String
  | configuration .. => "Configuration"
  | unknownField .. => "UnknownIndexedField"
  | writeConflict .. => "WriteConflict"
  | io => "Io"
  | search => "Search"
  | corrupted .. => "IndexCorrupted"
  | duplicateValue .. => "DuplicateValue"
  | notFound .. => "NotFound"
  | closed _ => "IndexClosed"
  | payload _ => "Payload"
  | unreadable => "Payload"
  | storage _ => "Storage"
  | criteria _ => "Criteria"
  | cancelled => "Cancelled"

/-- The error in words. -/
def message : IndexError → String
  | configuration subject reason => s!"configuration error in {subject}: {reason}"
  | unknownField entityType field => s!"unknown indexed field '{field}' of {entityType}"
  | writeConflict index reason => s!"write conflict on index {index}: {reason}"
  | io => "I/O error"
  | search => "search index error"
  | corrupted index indexed expected =>
    s!"index {index} corrupted: {indexed} documents indexed, {expected} expected"
  | duplicateValue entityType field value => s!"duplicate value '{value}' of {field} in {entityType}"
  | notFound entityType key => s!"{entityType} not found: {key}"
  | closed index => s!"index {index} is closed"
  | payload reason => s!"payload error: {reason}"
  | unreadable => "payload error"
  | storage e => s!"storage error: {e.message}"
  | criteria e => s!"invalid criteria: {e.message}"
  | cancelled => "operation cancelled"

/-- Whether the error is a bad declaration or setting. -/
def isConfiguration : IndexError → Bool
  | configuration .. => true
  | _ => false

/-- Why a second rebuild is refused. -/
def rebuilding : String := "a rebuild is already in progress"

end IndexError

end Codebook
