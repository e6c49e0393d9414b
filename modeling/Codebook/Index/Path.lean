/-
# Finding entities by named paths

A path is followed from the top: the group by its name, then the dictionary among those of the
group, then the meta-field among those of the dictionary.

Key definitions: `PathIndexes`, `PathIndexes.findDictionary`, `PathIndexes.findMetaField`.
-/
import Codebook.Entity.Kind
import Codebook.Index.Find
import Codebook.Path.Basic

namespace Codebook

/-- The indexes through which paths lead. -/
structure PathIndexes where
  /-- The index of groups. -/
  groups : Index
  /-- The index of dictionaries. -/
  dictionaries : Index
  /-- The index of meta-fields. -/
  metaFields : Index

namespace PathIndexes

/-- Searches along paths. -/
abbrev PathM := ExceptT IndexError (StateM PathIndexes)

/-- Searches in one of the indexes. -/
def within {α : Type} (select : PathIndexes → Index) (replace : PathIndexes → Index → PathIndexes)
    (search : LookupM α) : PathM α := do
  let indexes ← get
  let (result, index) := search.run (select indexes)
  set (replace indexes index)
  result

/-- The dictionary of a path. -/
def findDictionary (p : DictionaryPath) : PathM (Option Dictionary) := do
  let group ← within groups (fun is i => { is with groups := i })
    (Index.findNamed Group none p.group)
  let some group := group | return none
  within dictionaries (fun is i => { is with dictionaries := i })
    (Index.findNamed Dictionary (some (Related.relationField Dictionary, group.id)) p.dictionary)

/-- The meta-field of a path. -/
def findMetaField (p : MetaFieldPath) : PathM (Option MetaField) := do
  let some dictionary ← findDictionary p.dictionary | return none
  within metaFields (fun is i => { is with metaFields := i })
    (Index.findNamed MetaField (some (Related.relationField MetaField, dictionary.id)) p.field)

end PathIndexes

end Codebook
