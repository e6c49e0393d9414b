/-
# Reading paths

The group ends at the first point of a path. The bracket that opens the name of a meta-field is
the last one, so a dictionary may have brackets in its name but a meta-field may not. The value of
a field begins after the first `]='`. Names lose the white space around them and must not be blank
then; a value is taken as it stands.

Key definitions: `DictionaryPath.read`, `MetaFieldPath.read`, `FieldPath.read`.
-/
import Codebook.ModelError
import Codebook.Path.Basic
import Codebook.Text.Space
import Codebook.Text.Split

namespace Codebook

/-- A name in a path. -/
def readName (path : String) (name : List Char) (what : String) : Except ModelError String :=
  let name := Text.trimChars name
  if name.isEmpty then .error (.invalidPath path s!"missing {what} name")
  else .ok (String.ofList name)

/-- Reads the path of a dictionary. -/
def DictionaryPath.read (s : String) : Except ModelError DictionaryPath :=
  match Text.splitFirst ['.'] s.toList with
  | none => .error (.invalidPath s "expected 'group.dictionary'")
  | some (group, dictionary) => do
    let group ← readName s group "group"
    let dictionary ← readName s dictionary "dictionary"
    return { group, dictionary }

/-- Reads the path of a meta-field. -/
def MetaFieldPath.read (s : String) : Except ModelError MetaFieldPath :=
  match Text.dropEnd ']' s.toList with
  | none => .error (.invalidPath s "expected 'group.dictionary[field]'")
  | some body =>
    match Text.splitLast '[' body with
    | none => .error (.invalidPath s "missing '['")
    | some (dictionary, field) => do
      let dictionary ← DictionaryPath.read (String.ofList dictionary)
      let field ← readName s field "field"
      return { dictionary, field }

/-- Reads the path of a field. -/
def FieldPath.read (s : String) : Except ModelError FieldPath :=
  match Text.splitFirst "]='".toList s.toList with
  | none => .error (.invalidPath s "expected \"[field]='value'\"")
  | some (metaField, value) =>
    match Text.dropEnd '\'' value with
    | none => .error (.invalidPath s "unterminated value")
    | some value => do
      let metaField ← MetaFieldPath.read (String.ofList (metaField ++ [']']))
      return { metaField, value := String.ofList value }

end Codebook
