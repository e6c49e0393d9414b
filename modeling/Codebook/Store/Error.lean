/-
# Errors of stores

What can go wrong in a store of entities.

Key definitions: `StoreError`, `StoreError.name`, `StoreError.message`.
-/
import Codebook.Text.Quoted

namespace Codebook

/-- A failure of a store. -/
inductive StoreError where
  /-- A file or directory could not be read or written. -/
  | io
  /-- A line of a file, counted from 1, holds no entity, for a reason that its reader gives. -/
  | corrupted (path : String) (line : Nat) (source : String)
  /-- An argument is out of range. -/
  | invalidArgument (reason : String)
  /-- The store cannot be reached. -/
  | unavailable (reason : String)
deriving DecidableEq, Repr

/-- The name of the kind of error. -/
def StoreError.name : StoreError → String
  | io => "Io"
  | corrupted .. => "Corrupted"
  | invalidArgument _ => "InvalidArgument"
  | unavailable _ => "Unavailable"

/-- The error in words. -/
def StoreError.message : StoreError → String
  | io => "I/O error"
  | corrupted path line source => s!"corrupted document at {Text.quote path} line {line}: {source}"
  | invalidArgument reason => s!"invalid argument: {reason}"
  | unavailable reason => s!"store unavailable: {reason}"

end Codebook
