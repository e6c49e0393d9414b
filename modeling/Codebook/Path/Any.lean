/-
# Paths of any kind

A path leads to a dictionary, to a meta-field, or to a field. The kind is known beforehand: the
text of a path does not tell it.

Key definitions: `PathKind`, `AnyPath`, `AnyPath.read`, `AnyPath.toText`, `AnyPath.isSame`.
-/
import Codebook.Path.Reader

namespace Codebook

/-- What a path leads to. -/
inductive PathKind where
  /-- A dictionary. -/
  | dictionary
  /-- A meta-field. -/
  | metaField
  /-- A field. -/
  | field
deriving DecidableEq, Repr

/-- The kind of a name. -/
def PathKind.named? : String → Option PathKind
  | "dictionary" => some dictionary
  | "meta_field" => some metaField
  | "field" => some field
  | _ => none

/-- A path. -/
inductive AnyPath where
  /-- A path to a dictionary. -/
  | dictionary (p : DictionaryPath)
  /-- A path to a meta-field. -/
  | metaField (p : MetaFieldPath)
  /-- A path to a field. -/
  | field (p : FieldPath)
deriving DecidableEq, Repr

namespace AnyPath

/-- The kind of a path. -/
def kind : AnyPath → PathKind
  | dictionary _ => .dictionary
  | metaField _ => .metaField
  | field _ => .field

/-- Reads a path of a kind. -/
def read (kind : PathKind) (s : String) : Except ModelError AnyPath :=
  match kind with
  | .dictionary => dictionary <$> DictionaryPath.read s
  | .metaField => metaField <$> MetaFieldPath.read s
  | .field => field <$> FieldPath.read s

/-- A path of given parts, which are not checked. -/
def ofParts (group dictionary : String) (field value : Option String) : AnyPath :=
  let p : DictionaryPath := ⟨group, dictionary⟩
  match field, value with
  | none, _ => .dictionary p
  | some f, none => .metaField ⟨p, f⟩
  | some f, some v => .field ⟨⟨p, f⟩, v⟩

/-- The path as text. -/
def toText : AnyPath → String
  | dictionary p => p.toText
  | metaField p => p.toText
  | field p => p.toText

/-- The path as data. -/
def toData : AnyPath → Data
  | dictionary p => p.toData
  | metaField p => p.toData
  | field p => p.toData

/-- Whether two paths are the same; names count in any case. -/
def isSame : AnyPath → AnyPath → Bool
  | dictionary p, dictionary q => p.isSame q
  | metaField p, metaField q => p.isSame q
  | field p, field q => p.isSame q
  | _, _ => false

end AnyPath

end Codebook
