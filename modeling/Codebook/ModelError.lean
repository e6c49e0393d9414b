/-
# Errors of the model

What can be wrong with a value of the model before any index is involved.

Key definitions: `ModelError`, `ModelError.name`, `ModelError.message`.
-/

namespace Codebook

/-- A value that is not one of the model. -/
inductive ModelError where
  /-- A text that is no path, and why. -/
  | invalidPath (path reason : String)
  /-- A name of no change type. -/
  | unknownChangeType (name : String)
  /-- Criteria that cannot be met, and why. -/
  | invalidCriteria (reason : String)
deriving DecidableEq, Repr

/-- The name of the kind of error. -/
def ModelError.name : ModelError → String
  | invalidPath .. => "InvalidPath"
  | unknownChangeType _ => "UnknownChangeType"
  | invalidCriteria _ => "InvalidCriteria"

/-- The error in words. -/
def ModelError.message : ModelError → String
  | invalidPath path reason => s!"invalid named path '{path}': {reason}"
  | unknownChangeType name => s!"unknown change type: {name}"
  | invalidCriteria reason => s!"invalid criteria: {reason}"

end Codebook
