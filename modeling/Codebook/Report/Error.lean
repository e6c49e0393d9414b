/-
# Reports of errors

An error as data gives the name of its kind, and its message where the words of the message do not
come from outside, as those of the disk and of the engine do.

Key definitions: `failureData`, `badJson`, `unknownType`, `ModelError.toData`, `StoreError.toData`,
`IndexError.toData`, `IndexError.ofData`, `CommandError.toData`.
-/
import Codebook.Command.Error
import Codebook.Data.Access

namespace Codebook

/-- A failure of a kind with its message, if there is one. -/
def failureData (kind : String) (message : Option String) : Data :=
  .record (("error", .text kind) :: (message.map fun s => ("message", Data.text s)).toList)

/-- The report on text that cannot be read. -/
def badJson : Data :=
  failureData "Json" none

/-- The report on the name of a type that is not known, or not where it is used. -/
def unknownType : Data :=
  failureData "BadRequest" (some "unknown type")

/-- The error as data. -/
def ModelError.toData (e : ModelError) : Data :=
  failureData e.name (some e.message)

/-- The error as data. -/
def StoreError.toData (e : StoreError) : Data :=
  match e with
  | corrupted _ line _ => .record [("error", .text e.name), ("line", .int line)]
  | io => failureData e.name none
  | _ => failureData e.name (some e.message)

/-- Whether the words of the message do not come from outside. -/
def IndexError.isToldInFull : IndexError → Bool
  | io | search | unreadable | storage .io | storage (.corrupted ..) => false
  | writeConflict _ reason => reason == IndexError.rebuilding
  | _ => true

/-- The error as data. -/
def IndexError.toData (e : IndexError) : Data :=
  failureData e.name (if e.isToldInFull then some e.message else none)

/-- The error of a kind that is made of up to three texts and two counts. -/
def IndexError.ofData (d : Data) : IndexError :=
  let a := d.str "a"
  let b := d.str "b"
  match d.str "kind" with
  | "Configuration" => .configuration a b
  | "UnknownIndexedField" => .unknownField a b
  | "WriteConflict" => .writeConflict a b
  | "IndexCorrupted" => .corrupted a (d.nat "indexed") (d.nat "expected")
  | "DuplicateValue" => .duplicateValue a b (d.str "c")
  | "NotFound" => .notFound a b
  | "IndexClosed" => .closed a
  | "Payload" => .payload a
  | "StorageInvalidArgument" => .storage (.invalidArgument a)
  | "StorageUnavailable" => .storage (.unavailable a)
  | "CriteriaInvalid" => .criteria (.invalidCriteria a)
  | "CriteriaPath" => .criteria (.invalidPath a b)
  | "CriteriaChangeType" => .criteria (.unknownChangeType a)
  | _ => .cancelled

/-- The error as data. -/
def CommandError.toData (e : CommandError) : Data :=
  match e with
  | index fault => fault.toData
  | storage fault => fault.toData
  | json => badJson
  | _ => failureData e.name (some e.message)

end Codebook
