/-
# Sample entities

Small sets of entities to try an index with. New entities need fresh ids and the time, so all
samples are made from a supply of stamps.

Key definitions: `Samples.alphaBetaGamma`, `Samples.numbered`, `Samples.siblings`,
`Samples.hierarchy`.
-/
import Codebook.Entity.Dictionary
import Codebook.Number.Digits

namespace Codebook.Samples

/-- The id of the group of the sample dictionaries. -/
def groupId : String := "group-1"

/-- The id of the meta-field of the sample fields. -/
def metaFieldId : String := "meta-field-1"

/-- The active dictionaries beta and alpha, and between them the closed one gamma. -/
def alphaBetaGamma (stamp : Nat → Stamp) : List Dictionary :=
  [.new (stamp 1) groupId "beta",
    Versioned.close (.new (stamp 0) groupId "gamma") (stamp 0).now,
    .new (stamp 2) groupId "alpha"]

/-- Dictionaries of one group named d000, d001, and so on. -/
def numbered (stamp : Nat → Stamp) (count : Nat) : List Dictionary :=
  (List.range count).map fun i => .new (stamp i) groupId ("d" ++ Number.padded 3 i)

/-- Values of one meta-field. -/
def siblings (stamp : Nat → Stamp) (values : List String) : List Field :=
  values.zipIdx.map fun (value, i) => .new (stamp i) metaFieldId value

/-- A group, a dictionary in it, and a meta-field in that. -/
def hierarchy (stamp : Nat → Stamp) : Group × Dictionary × MetaField :=
  let group := Group.new (stamp 0) "geo"
  let dictionary := Dictionary.new (stamp 1) group.id "countries"
  (group, dictionary, MetaField.new (stamp 2) dictionary.id "code")

end Codebook.Samples
