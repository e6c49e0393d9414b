/-
# Named paths

A dictionary, a meta-field or a field can be found by names instead of ids. The path of a
dictionary is `group.dictionary`, that of a meta-field `group.dictionary[field]`, and that of a
field `group.dictionary[field]='value'`. Names are equal up to case, values only exactly.

Key definitions: `DictionaryPath`, `MetaFieldPath`, `FieldPath`, their `toText`, `toData` and
`isSame`.
-/
import Codebook.Data.Basic
import Codebook.Text.LowerCase

namespace Codebook

/-- Whether two names are equal up to case. -/
def sameName (a b : String) : Bool :=
  Text.lower a == Text.lower b

/-- The path of a dictionary. -/
structure DictionaryPath where
  /-- The name of the group. -/
  group : String
  /-- The name of the dictionary. -/
  dictionary : String
deriving DecidableEq, Repr

/-- The path of a meta-field. -/
structure MetaFieldPath where
  /-- The path of its dictionary. -/
  dictionary : DictionaryPath
  /-- The name of the meta-field. -/
  field : String
deriving DecidableEq, Repr

/-- The path of a field. -/
structure FieldPath where
  /-- The path of its meta-field. -/
  metaField : MetaFieldPath
  /-- The value. -/
  value : String
deriving DecidableEq, Repr

namespace DictionaryPath

/-- The path as text. -/
def toText (p : DictionaryPath) : String :=
  p.group ++ "." ++ p.dictionary

/-- The path as data. -/
def toData (p : DictionaryPath) : Data :=
  .record [("groupName", .text p.group), ("dictionaryName", .text p.dictionary)]

/-- Whether two paths name the same dictionary. -/
def isSame (p q : DictionaryPath) : Bool :=
  sameName p.group q.group && sameName p.dictionary q.dictionary

end DictionaryPath

namespace MetaFieldPath

/-- The path as text. -/
def toText (p : MetaFieldPath) : String :=
  p.dictionary.toText ++ "[" ++ p.field ++ "]"

/-- The path as data. -/
def toData (p : MetaFieldPath) : Data :=
  .record [("dictionary", p.dictionary.toData), ("fieldName", .text p.field)]

/-- Whether two paths name the same meta-field. -/
def isSame (p q : MetaFieldPath) : Bool :=
  p.dictionary.isSame q.dictionary && sameName p.field q.field

end MetaFieldPath

namespace FieldPath

/-- The path as text. -/
def toText (p : FieldPath) : String :=
  p.metaField.toText ++ "='" ++ p.value ++ "'"

/-- The path as data. -/
def toData (p : FieldPath) : Data :=
  .record [("metaField", p.metaField.toData), ("fieldValue", .text p.value)]

/-- Whether two paths name the same field. -/
def isSame (p q : FieldPath) : Bool :=
  p.metaField.isSame q.metaField && p.value == q.value

end FieldPath

end Codebook
