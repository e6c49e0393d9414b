/-
# Entities under their names

A path is followed by searches for one entity each. A search for a name asks for the name in lower
case, in the field in which every name is kept in lower case; so it finds the active entities that
have the name in any case, and of these the first by name and primary key. With its parent in hand it
asks for the id of the parent besides, and entities of the same name elsewhere do not matter.

A name is blank just if its lower case is. So equal paths ask for the same, and come to the same end
on any indexes.

Key definitions: `namesakes`, `IsFirst`, `Schema.ReadsText`, `Schema.FindsNames`, `Criteria.named`,
`DictionaryPath.targets`, `MetaFieldPath.targets`, `Index.Lists`.
Key theorems: `Text.isBlank_lower`, `Index.Contains.findNamed`, `Index.Contains.findNamed_under`,
`PathIndexes.findDictionary_eq_of_isSame`, `PathIndexes.find_targets`.
-/
import Codebook.Index.Path
import Codebook.Proofs.Batches
import Codebook.Proofs.Words

namespace Codebook

/-! ### Blank names -/

namespace Text

theorem isSpace_ofNat {n : Nat} (h : inRanges spaceRanges n = false) :
    isSpace (Char.ofNat n) = false := by
  by_cases hvalid : n.isValidChar
  · rw [isSpace, show Char.ofNat n = Char.ofNatAux n hvalid from dif_pos hvalid]
    exact h
  · rw [show Char.ofNat n = Char.ofNat 0 from dif_neg hvalid]
    decide

/-- No letter of a run is white space, and neither is its lower case. -/
theorem isSpace_of_lower? {run : CaseRun} (hrun : run ∈ caseRuns) {c : Char} {n : Nat}
    (h : run.lower? c.toNat = some n) : isSpace c = false ∧ isSpace (Char.ofNat n) = false := by
  have hletters : ∀ run ∈ caseRuns, ∀ r ∈ spaceRanges, run.last < r.1 ∨ r.2 < run.first := by
    decide +kernel
  have himages : ∀ run ∈ caseRuns, ∀ r ∈ spaceRanges,
      run.image + (run.last - run.first) < r.1 ∨ r.2 < run.image := by decide +kernel
  have hapart : ∀ {first last code : Nat}, first ≤ code → code ≤ last →
      (∀ r ∈ spaceRanges, last < r.1 ∨ r.2 < first) → inRanges spaceRanges code = false := by
    intro first last code hfirst hlast hranges
    have hrange : inRanges [(first, last)] code = true := by simp [inRanges, hfirst, hlast]
    exact not_inRanges_of_apart (by simpa using hranges) hrange
  unfold CaseRun.lower? at h
  split_ifs at h with hcode
  obtain rfl := Option.some.inj h
  exact ⟨hapart hcode.1 hcode.2.1 (hletters run hrun),
    isSpace_ofNat (hapart (by omega) (by omega) (himages run hrun))⟩

theorem all_isSpace_lowerChar (c : Char) : (lowerChar c).all isSpace = isSpace c := by
  unfold lowerChar
  split_ifs with hlatin hdotted
  · have hplain : ∀ code < 0x80, isSpace (Char.ofNat code).toLower = isSpace (Char.ofNat code) := by
      decide
    have hsame := hplain c.toNat hlatin
    rw [Char.ofNat_toNat] at hsame
    simp [hsame]
  · rw [isSpace, hdotted]
    decide
  · cases hfound : caseRuns.findSome? fun run => run.lower? c.toNat with
    | none => simp
    | some n =>
      obtain ⟨run, hrun, hlower⟩ := List.exists_of_findSome?_eq_some hfound
      obtain ⟨hletter, himage⟩ := isSpace_of_lower? hrun hlower
      simp [hletter, himage]

theorem all_isSpace_lowerFrom :
    ∀ before cs : List Char, (lowerFrom before cs).all isSpace = cs.all isSpace
  | _, [] => rfl
  | before, c :: cs => by
    rw [lowerFrom, List.all_append, all_isSpace_lowerFrom (c :: before) cs, List.all_cons]
    congr 1
    split_ifs with hsigma hfinal
    · rw [hsigma]
      decide
    · rw [hsigma]
      decide
    · exact all_isSpace_lowerChar c

theorem isBlank_lower (s : String) : isBlank (lower s) = isBlank s := by
  rw [isBlank, lower, String.toList_ofList, all_isSpace_lowerFrom, isBlank]

end Text

/-- Names that are equal up to case are blank together. -/
theorem isBlank_eq_of_sameName {s t : String} (h : sameName s t = true) :
    Text.isBlank s = Text.isBlank t := by
  rw [← Text.isBlank_lower s, beq_iff_eq.mp h, Text.isBlank_lower]

/-! ### Names among entities -/

/-- The active entities that have a name in any case. Those are active that are shown unless another
activity is asked for. -/
def namesakes {α : Type} [Versioned α] [Named α] (name : String) (entities : List α) : List α :=
  entities.filter fun a =>
    Activity.actual.admits (Versioned.changeType a) && sameName (Named.name a) name

section

variable {α : Type} [Indexed α] [Named α]

/-- What was found is the first of the candidates by name and primary key. Nothing was found just if
there are no candidates. -/
structure IsFirst (candidates : List α) (found : Option α) : Prop where
  none_iff : found = none ↔ candidates = []
  mem : ∀ a ∈ found, a ∈ candidates
  least : ∀ a ∈ found, ∀ b ∈ candidates, Named.name a < Named.name b ∨
    Named.name a = Named.name b ∧ Indexed.id a ≤ Indexed.id b

theorem IsFirst.head? {candidates found : List α} (hperm : found.Perm candidates)
    (hordered : found.Pairwise fun a b => Named.name a < Named.name b ∨
      Named.name a = Named.name b ∧ Indexed.id a ≤ Indexed.id b) :
    IsFirst candidates found.head? where
  none_iff := by
    rw [List.head?_eq_none_iff]
    exact ⟨fun h => (h ▸ hperm).nil_eq.symm, fun h => (h ▸ hperm).eq_nil⟩
  mem a ha := hperm.subset (List.mem_of_mem_head? ha)
  least a ha b hb := by
    obtain ⟨rest, rfl⟩ : ∃ rest, found = a :: rest := ⟨_, (List.cons_head?_tail ha).symm⟩
    rcases List.mem_cons.mp (hperm.symm.subset hb) with rfl | hb
    · exact .inr ⟨rfl, le_refl _⟩
    · exact (List.pairwise_cons.mp hordered).1 b hb

end

/-! ### Fields that hold one text -/

section

variable {α : Type} [Indexed α] {s : Schema} {field value : String} {read : α → String} {a : α}

/-- Filters can use the field of a name, no other field has this name, and it holds a text of the
entity. -/
def Schema.ReadsText (s : Schema) (field : String) (read : α → String) : Prop :=
  ∃ f, s.filterable field = .ok f ∧ f.kind = .string ∧
    (s.primaryKey :: s.fields).filter (fun g => g.name = field) = [f] ∧
    ∀ a : α, f.read a = .text (read a)

/-- Entities have a text that is not blank just if it is theirs. -/
theorem Schema.ReadsText.fits (h : s.ReadsText field read) (hs : s.Describes α)
    (hvalue : Text.isBlank value = false) (a : α) :
    (s.facts a).fits field value = decide (read a = value) := by
  obtain ⟨f, hf, hkind, hsole, hread⟩ := h
  obtain rfl := (Schema.filterable_ok hf).1
  rw [hs.fits_text hf hkind hvalue, Schema.hasText_sole hsole, hread a]
  simp

/-- A text that is not blank decides the order. -/
theorem Schema.ReadsText.rank (h : s.ReadsText field read) (ha : Text.isBlank (read a) = false) :
    (s.facts a).rank field = .text (read a) := by
  obtain ⟨f, hf, hkind, hsole, hread⟩ := h
  have hstring : (s.facts a).kind field = .string :=
    (Schema.kind_of_field (Schema.field_of_filterable hf)).trans hkind
  have hcell : s.cellOf a f = some (.text (read a)) := (Schema.cellOf_text hkind ha).mpr (hread a)
  have hcells : (s.facts a).cells field = [.text (read a)] := by
    show s.cellsOf a field = _
    rw [Schema.cellsOf, hsole, List.filterMap_cons_some hcell, List.filterMap_nil]
  rw [Facts.rank, hstring, hcells]
  rfl

end

/-! ### Searches for names -/

/-- Criteria for the first entity of a name in any case, under a parent if one is given. -/
def Criteria.named (parent : Option (String × String)) (name : String) : Criteria :=
  match parent with
  | none => (Scanner.siblings nameKeyField (Text.lower name)).page 0 1
  | some (relationField, relatedId) =>
    (Scanner.rivals relationField relatedId nameKeyField (Text.lower name)).page 0 1

section

variable {α : Type} [Indexed α] [Versioned α] [Named α]

/-- A schema under which entities are found by their names: it keeps their names and the lower case of
these, in fields of their own, and orders them by name and primary key. -/
structure Schema.FindsNames (s : Schema) (α : Type) [Indexed α] [Versioned α] [Named α] : Prop where
  describes : s.Describes α
  nameField : s.nameField = some "name"
  name : s.ReadsText "name" (Named.name (α := α))
  nameKey : s.ReadsText nameKeyField fun a : α => Text.lower (Named.name a)
  key : ∀ a : α, s.keyOf a = Indexed.id a
  shows : ∀ a : α, Activity.actual.shows (s.facts a) = Activity.actual.admits (Versioned.changeType a)
  decides : s.decides .actual = true
  compiled : ∀ zone, ∃ q, ({} : Criteria).compile s zone = .ok q

variable {s : Schema} {i : Index} {g : Generation} {entities : List α} {name : String}

/-- Named entities are ordered by name and primary key. -/
theorem Schema.FindsNames.order (h : s.FindsNames α) {parent : Option (String × String)} {a b : α}
    (ha : Text.isBlank (Named.name a) = false) (hb : Text.isBlank (Named.name b) = false)
    (hle : ((Criteria.named parent name).order s a b).isLE) :
    Named.name a < Named.name b ∨ Named.name a = Named.name b ∧ Indexed.id a ≤ Indexed.id b := by
  have horder : (Criteria.named parent name).order s a b =
      (compare (Named.name a) (Named.name b)).then (compare (Indexed.id a) (Indexed.id b)) := by
    have hnames : s.orderBy "name" false a b = compare (Named.name a) (Named.name b) := by
      rw [Schema.orderBy, h.name.rank ha, h.name.rank hb]
      rfl
    have hsort : (Criteria.named parent name).sortKey = none := by cases parent <;> rfl
    rw [Criteria.order, hsort, h.nameField, ← hnames, ← h.key, ← h.key]
    rfl
  rw [horder, Ordering.isLE_then_iff_or, compare_lt_iff_lt, compare_eq_iff_eq] at hle
  exact hle.imp_right (And.imp_right fun hkeys =>
    compare_le_iff_le.mp (Ordering.ne_gt_iff_isLE.mpr hkeys))

/-- Entities have the lower case of a name for their own just if they have the name in some case. -/
theorem Schema.FindsNames.fits_nameKey (h : s.FindsNames α) (hname : Text.isBlank name = false) (a : α) :
    (s.facts a).fits nameKeyField (Text.lower name) = sameName (Named.name a) name := by
  rw [h.nameKey.fits h.describes (by rw [Text.isBlank_lower, hname])]
  exact (Bool.beq_eq_decide_eq _ _).symm

namespace Index

omit [Versioned α] [Named α] in
/-- The search is one for criteria, unless the name is blank. -/
theorem answer_findNamed (hname : Text.isBlank name = false) (parent : Option (String × String))
    (i : Index) : (effect (findNamed α parent name) i).1 =
      (effect (find α (.named parent name)) i).1.map fun r => r.items.head? := by
  unfold findNamed
  rw [hname]
  cases parent <;> exact congrArg Prod.fst (effect_bind_pure _ _ i)

namespace Contains

/-- What is found is the first of those for which the criteria hold. -/
theorem first_named (h : i.Contains g entities) (hs : i.schema.FindsNames α)
    (hkeyed : ∀ a ∈ entities, Text.isBlank (Indexed.id a) = false) (hname : Text.isBlank name = false)
    {parent : Option (String × String)} {q : Compiled} (hq : i.compile (.named parent name) = .ok q)
    {under : α → Bool}
    (hholds : ∀ a, (Criteria.named parent name).holds i.config.zone (i.schema.facts a) =
      (under a && (Activity.actual.admits (Versioned.changeType a) && sameName (Named.name a) name))) :
    ∃ found, (effect (findNamed α parent name) i).1 = .ok found ∧
      IsFirst ((namesakes name entities).filter under) found := by
  have hmatching : (Criteria.named parent name).matching i.schema i.config.zone entities =
      (namesakes name entities).filter under := by
    rw [namesakes, List.filter_filter]
    exact List.filter_congr fun a _ => hholds a
  have hparts : (Criteria.named parent name).activity = .actual ∧
      (Criteria.named parent name).offset = 0 ∧ (Criteria.named parent name).limit? = some 1 := by
    cases parent <;> exact ⟨rfl, rfl, rfl⟩
  obtain ⟨hactivity, hoffset, hlimit⟩ := hparts
  obtain ⟨r, found, hr, hperm, hordered, hitems⟩ := h.find_in_order hq
    (by rw [hactivity]; exact hs.decides) hoffset (by rw [hlimit]; decide)
  rw [hmatching] at hperm
  refine ⟨r.items.head?, by rw [answer_findNamed hname, hr]; rfl, ?_⟩
  have hhead : r.items.head? = found.head? := by
    rw [hitems, hlimit, Option.map_some, Option.getD_some]
    cases found <;> rfl
  rw [hhead]
  have hnamed : ∀ a ∈ found, Text.isBlank (Named.name a) = false := by
    intro a ha
    have hsame := (List.mem_filter.mp (List.mem_of_mem_filter (hperm.subset ha))).2
    rw [isBlank_eq_of_sameName (Bool.and_eq_true_iff.mp hsame).2]
    exact hname
  have hkeys : ∀ a ∈ entities, Text.isBlank (i.schema.keyOf a) = false := by
    intro a ha
    rw [hs.key]
    exact hkeyed a ha
  refine IsFirst.head? hperm ((hordered hkeys).imp_of_mem fun ha hb hle => ?_)
  exact hs.order (hnamed _ ha) (hnamed _ hb) hle

/-- What is found by a name alone is the first of all entities of the name. -/
theorem findNamed (h : i.Contains g entities) (hs : i.schema.FindsNames α)
    (hkeyed : ∀ a ∈ entities, Text.isBlank (Indexed.id a) = false) (hname : Text.isBlank name = false) :
    ∃ found, (effect (Index.findNamed α none name) i).1 = .ok found ∧
      IsFirst (namesakes name entities) found := by
  obtain ⟨f, hf, hkind, -⟩ := hs.nameKey
  obtain ⟨q, hdefault⟩ := hs.compiled i.config.zone
  obtain ⟨q, hq⟩ : ∃ q, i.compile (.named none name) = .ok q :=
    Scanner.compile_siblings hs.describes hdefault hf (by simp [hkind]) (Text.lower name)
  have hall : (namesakes name entities).filter (fun _ => true) = namesakes name entities :=
    List.filter_true _
  rw [← hall]
  refine h.first_named hs hkeyed hname hq fun a => ?_
  have hholds : (Criteria.named none name).holds i.config.zone (i.schema.facts a) = _ :=
    Scanner.holds_siblings nameKeyField (Text.lower name) i.config.zone (i.schema.facts a)
  rw [hholds, hs.fits_nameKey hname, hs.shows, Bool.true_and, Bool.and_comm]

/-- What is found by a name under a parent is the first of the entities of the name under it. -/
theorem findNamed_under (h : i.Contains g entities) (hs : i.schema.FindsNames α)
    (hkeyed : ∀ a ∈ entities, Text.isBlank (Indexed.id a) = false) (hname : Text.isBlank name = false)
    {relationField relatedId : String} {related : α → String}
    (hrelated : i.schema.ReadsText relationField related) (hother : relationField ≠ nameKeyField)
    (hid : Text.isBlank relatedId = false) :
    ∃ found, (effect (Index.findNamed α (some (relationField, relatedId)) name) i).1 = .ok found ∧
      IsFirst ((namesakes name entities).filter fun a => related a = relatedId) found := by
  have hunder := fun a => hrelated.fits hs.describes hid a
  obtain ⟨f, hf, hkind, -⟩ := hs.nameKey
  obtain ⟨relation, hrelation, hrelationKind, -⟩ := hrelated
  obtain ⟨q, hdefault⟩ := hs.compiled i.config.zone
  obtain ⟨q, hq⟩ : ∃ q, i.compile (.named (some (relationField, relatedId)) name) = .ok q := by
    obtain ⟨change, hchange⟩ : ∃ change, i.compile
        (Scanner.rivals relationField relatedId nameKeyField (Text.lower name)) =
          (i.compile {}).map change :=
      Scanner.compile_rivals hs.describes hrelation (by simp [hrelationKind]) hf (by simp [hkind])
    rw [Index.compile, Index.compile, hdefault] at hchange
    exact ⟨_, hchange⟩
  refine h.first_named hs hkeyed hname hq fun a => ?_
  have hholds : (Criteria.named (some (relationField, relatedId)) name).holds i.config.zone
      (i.schema.facts a) = _ := Scanner.holds_rivals i.config.zone (i.schema.facts a)
  rw [hholds, if_neg hother, hunder, hs.fits_nameKey hname, hs.shows,
    Bool.and_assoc, Bool.and_comm (sameName _ _)]

end Contains
end Index

end

/-! ### The types that paths lead to -/

section

variable {s : Schema}

theorem Group.findsNames (hs : Schema.describe Group = .ok s) : s.FindsNames Group := by
  have hshows := fun a => EntityKind.activity_shows (k := .group) hs .actual a
  have hdecides := EntityKind.decides (k := .group) hs .actual
  obtain rfl := Except.ok.inj (hs.symm.trans rfl)
  exact ⟨Schema.describes_of_describe hs, rfl, ⟨_, rfl, rfl, rfl, fun _ => rfl⟩,
    ⟨_, rfl, rfl, rfl, fun _ => rfl⟩, fun _ => rfl, hshows, hdecides, fun _ => ⟨_, rfl⟩⟩

theorem Dictionary.findsNames (hs : Schema.describe Dictionary = .ok s) : s.FindsNames Dictionary ∧
    s.ReadsText (Related.relationField Dictionary) Dictionary.groupId := by
  have hshows := fun a => EntityKind.activity_shows (k := .dictionary) hs .actual a
  have hdecides := EntityKind.decides (k := .dictionary) hs .actual
  obtain rfl := Except.ok.inj (hs.symm.trans rfl)
  exact ⟨⟨Schema.describes_of_describe hs, rfl, ⟨_, rfl, rfl, rfl, fun _ => rfl⟩,
    ⟨_, rfl, rfl, rfl, fun _ => rfl⟩, fun _ => rfl, hshows, hdecides, fun _ => ⟨_, rfl⟩⟩,
    ⟨_, rfl, rfl, rfl, fun _ => rfl⟩⟩

theorem MetaField.findsNames (hs : Schema.describe MetaField = .ok s) : s.FindsNames MetaField ∧
    s.ReadsText (Related.relationField MetaField) MetaField.dictionaryId := by
  have hshows := fun a => EntityKind.activity_shows (k := .metaField) hs .actual a
  have hdecides := EntityKind.decides (k := .metaField) hs .actual
  obtain rfl := Except.ok.inj (hs.symm.trans rfl)
  exact ⟨⟨Schema.describes_of_describe hs, rfl, ⟨_, rfl, rfl, rfl, fun _ => rfl⟩,
    ⟨_, rfl, rfl, rfl, fun _ => rfl⟩, fun _ => rfl, hshows, hdecides, fun _ => ⟨_, rfl⟩⟩,
    ⟨_, rfl, rfl, rfl, fun _ => rfl⟩⟩

end

/-! ### Paths -/

/-- The dictionaries that a path leads to: the active ones of its name in an active group of its
name. -/
def DictionaryPath.targets (p : DictionaryPath) (groups : List Group) (dictionaries : List Dictionary) :
    List Dictionary :=
  (namesakes p.dictionary dictionaries).filter fun d =>
    (namesakes p.group groups).any fun g => d.groupId = g.id

/-- The meta-fields that a path leads to: the active ones of its name in a dictionary that the path of
the dictionary leads to. -/
def MetaFieldPath.targets (p : MetaFieldPath) (groups : List Group) (dictionaries : List Dictionary)
    (metaFields : List MetaField) : List MetaField :=
  (namesakes p.field metaFields).filter fun m =>
    (p.dictionary.targets groups dictionaries).any fun d => m.dictionaryId = d.id

theorem eq_singleton_of_mem {β : Type} {a : β} {l : List β} (ha : a ∈ l) (hone : l.length ≤ 1) :
    l = [a] := by
  obtain ⟨b, rfl⟩ := List.length_eq_one_iff.mp (le_antisymm hone (List.length_pos_of_mem ha))
  rw [List.mem_singleton.mp ha]

/-- The index is open and contains these entities, none of which has a blank key. -/
structure Index.Lists {α : Type} [Indexed α] (i : Index) (entities : List α) : Prop where
  contains : ∃ g, i.Contains g entities
  keyed : ∀ a ∈ entities, Text.isBlank (Indexed.id a) = false

namespace PathIndexes

variable {indexes : PathIndexes} {groups : List Group} {dictionaries : List Dictionary}
  {metaFields : List MetaField}

/-- A search in one of the indexes leaves the others alone. -/
theorem effect_within {α : Type} {select : PathIndexes → Index}
    {replace : PathIndexes → Index → PathIndexes} {search : LookupM α} {indexes : PathIndexes} {a : α}
    (h : (effect search (select indexes)).1 = .ok a) :
    effect (within select replace search) indexes =
      (.ok a, replace indexes (effect search (select indexes)).2) := by
  unfold within
  rw [effect_bind_ok (effect_get indexes)]
  show effect (liftM (effect search (select indexes)).1) (replace indexes (effect search _).2) = _
  rw [effect_lift, h]

/-- Where one group at most has the name, the group of a path and its dictionary are found one after
the other. The index of meta-fields stays as it is. -/
theorem findDictionary_first (hgroups : indexes.groups.Lists groups)
    (hdictionaries : indexes.dictionaries.Lists dictionaries) {p : DictionaryPath}
    (hgroup : Text.isBlank p.group = false) (hdictionary : Text.isBlank p.dictionary = false)
    (hone : (namesakes p.group groups).length ≤ 1) :
    ∃ found after, effect (findDictionary p) indexes = (.ok found, after) ∧
      after.metaFields = indexes.metaFields ∧ IsFirst (p.targets groups dictionaries) found := by
  obtain ⟨content, hcontent⟩ := hgroups.contains
  obtain ⟨group, hfound, hfirst⟩ :=
    hcontent.findNamed (Group.findsNames hcontent.schema) hgroups.keyed hgroup
  unfold findDictionary
  rw [effect_bind_ok (effect_within hfound)]
  cases group with
  | none =>
    have htargets : p.targets groups dictionaries = [] := by
      simp [DictionaryPath.targets, hfirst.none_iff.mp rfl]
    exact ⟨none, _, rfl, rfl, by simp [htargets], by simp, by simp⟩
  | some group =>
    obtain ⟨content, hcontent⟩ := hdictionaries.contains
    obtain ⟨hnames, hrelated⟩ := Dictionary.findsNames hcontent.schema
    have hid : Text.isBlank group.id = false :=
      hgroups.keyed group (List.mem_of_mem_filter (hfirst.mem _ rfl))
    obtain ⟨found, hfound, hdictionaries⟩ := hcontent.findNamed_under hnames hdictionaries.keyed
      hdictionary hrelated (by decide) hid
    have htargets : p.targets groups dictionaries =
        (namesakes p.dictionary dictionaries).filter fun d => d.groupId = group.id := by
      simp [DictionaryPath.targets, eq_singleton_of_mem (hfirst.mem _ rfl) hone]
    exact ⟨found, _, effect_within hfound, rfl, htargets ▸ hdictionaries⟩

/-- Where one dictionary at most is found besides, the meta-field of a path is found in it. -/
theorem findMetaField_first (hgroups : indexes.groups.Lists groups)
    (hdictionaries : indexes.dictionaries.Lists dictionaries)
    (hmetaFields : indexes.metaFields.Lists metaFields) {p : MetaFieldPath}
    (hgroup : Text.isBlank p.dictionary.group = false)
    (hdictionary : Text.isBlank p.dictionary.dictionary = false) (hfield : Text.isBlank p.field = false)
    (hone : (namesakes p.dictionary.group groups).length ≤ 1)
    (hone' : (p.dictionary.targets groups dictionaries).length ≤ 1) :
    ∃ found, (effect (findMetaField p) indexes).1 = .ok found ∧
      IsFirst (p.targets groups dictionaries metaFields) found := by
  obtain ⟨dictionary, after, hlookup, hafter, hfirst⟩ :=
    findDictionary_first hgroups hdictionaries hgroup hdictionary hone
  unfold findMetaField
  rw [effect_bind_ok hlookup]
  cases dictionary with
  | none =>
    have htargets : p.targets groups dictionaries metaFields = [] := by
      simp [MetaFieldPath.targets, hfirst.none_iff.mp rfl]
    exact ⟨none, rfl, by simp [htargets], by simp, by simp⟩
  | some dictionary =>
    obtain ⟨content, hcontent⟩ := hmetaFields.contains
    obtain ⟨hnames, hrelated⟩ := MetaField.findsNames hcontent.schema
    have hid : Text.isBlank dictionary.id = false := by
      have hmem := List.mem_of_mem_filter (hfirst.mem _ rfl)
      exact hdictionaries.keyed dictionary (List.mem_of_mem_filter hmem)
    obtain ⟨found, hfound, hmetaFields⟩ := hcontent.findNamed_under hnames hmetaFields.keyed hfield
      hrelated (by decide) hid
    have htargets : p.targets groups dictionaries metaFields =
        (namesakes p.field metaFields).filter fun m => m.dictionaryId = dictionary.id := by
      simp [MetaFieldPath.targets, eq_singleton_of_mem (hfirst.mem _ rfl) hone']
    exact ⟨found, congrArg Prod.fst (effect_within (hafter ▸ hfound)), htargets ▸ hmetaFields⟩

/-- A search for a name is the same for all names that are equal up to case. -/
theorem findNamed_eq_of_sameName {α : Type} [Indexed α] {name name' : String}
    (h : sameName name name' = true) (parent : Option (String × String)) :
    Index.findNamed α parent name = Index.findNamed α parent name' := by
  unfold Index.findNamed
  rw [isBlank_eq_of_sameName h, beq_iff_eq.mp h]

theorem findDictionary_eq_of_isSame {p q : DictionaryPath} (h : p.isSame q = true) :
    findDictionary p = findDictionary q := by
  obtain ⟨hgroup, hdictionary⟩ := Bool.and_eq_true_iff.mp h
  unfold findDictionary
  rw [findNamed_eq_of_sameName hgroup]
  simp only [findNamed_eq_of_sameName hdictionary]

theorem findMetaField_eq_of_isSame {p q : MetaFieldPath} (h : p.isSame q = true) :
    findMetaField p = findMetaField q := by
  obtain ⟨hdictionary, hfield⟩ := Bool.and_eq_true_iff.mp h
  unfold findMetaField
  rw [findDictionary_eq_of_isSame hdictionary]
  simp only [findNamed_eq_of_sameName hfield]

/-- **Paths lead where their names say.** If one active group at most has the name of the group, what is
found is the first dictionary of the name in that group, and nothing just if there is none; if there is
one such dictionary at most, what is found under a meta-field's path is the first meta-field of the name
in that dictionary. Upper and lower case do not count, and neither do closed entities and those of the
same name elsewhere. Paths that are equal come to the same end in any state of the indexes. -/
theorem find_targets (hgroups : indexes.groups.Lists groups)
    (hdictionaries : indexes.dictionaries.Lists dictionaries)
    (hmetaFields : indexes.metaFields.Lists metaFields) :
    (∀ p : DictionaryPath, Text.isBlank p.group = false → Text.isBlank p.dictionary = false →
      (namesakes p.group groups).length ≤ 1 →
      ∃ found, (effect (findDictionary p) indexes).1 = .ok found ∧
        IsFirst (p.targets groups dictionaries) found) ∧
    (∀ p : MetaFieldPath, Text.isBlank p.dictionary.group = false →
      Text.isBlank p.dictionary.dictionary = false → Text.isBlank p.field = false →
      (namesakes p.dictionary.group groups).length ≤ 1 →
      (p.dictionary.targets groups dictionaries).length ≤ 1 →
      ∃ found, (effect (findMetaField p) indexes).1 = .ok found ∧
        IsFirst (p.targets groups dictionaries metaFields) found) ∧
    (∀ p q : DictionaryPath, p.isSame q = true →
      ∀ state, effect (findDictionary p) state = effect (findDictionary q) state) ∧
    ∀ p q : MetaFieldPath, p.isSame q = true →
      ∀ state, effect (findMetaField p) state = effect (findMetaField q) state := by
  refine ⟨fun p hgroup hdictionary hone => ?_, fun p hgroup hdictionary hfield hone hone' => ?_,
    fun p q hsame state => ?_, fun p q hsame state => ?_⟩
  · obtain ⟨found, after, hfound, -, hfirst⟩ :=
      findDictionary_first hgroups hdictionaries hgroup hdictionary hone
    exact ⟨found, by rw [hfound], hfirst⟩
  · exact findMetaField_first hgroups hdictionaries hmetaFields hgroup hdictionary hfield hone hone'
  · rw [findDictionary_eq_of_isSame hsame]
  · rw [findMetaField_eq_of_isSame hsame]

end PathIndexes

/-- Two groups of one name, of which one is closed, and another group. -/
def namedGroups : List Group :=
  [.changed "1" "Geo" .close, .changed "2" "GEO" .update, .changed "3" "trade" .create]

/-- A dictionary that was created in a group. -/
def Dictionary.created (id groupId name : String) : Dictionary :=
  .new ⟨id, "h", .epoch⟩ groupId name

/-- Dictionaries of two names, in all three groups. -/
def namedDictionaries : List Dictionary :=
  [.created "a" "1" "countries", .created "b" "2" "Countries", .created "c" "2" "COUNTRIES",
    .created "d" "3" "cities", .created "e" "2" "Cities"]

/-- Meta-fields of one name, in two dictionaries. -/
def namedColumns : List MetaField :=
  [.new ⟨"x", "h", .epoch⟩ "d" "Code", .new ⟨"y", "h", .epoch⟩ "e" "code",
    .new ⟨"z", "h", .epoch⟩ "e" "Code"]

theorem PathIndexes.find_targets_of_names : ∃ groups dictionaries metaFields : Index,
    Index.stocked namedGroups = .ok groups ∧ Index.stocked namedDictionaries = .ok dictionaries ∧
    Index.stocked namedColumns = .ok metaFields ∧
    (effect (findDictionary ⟨"geo", "countries"⟩) ⟨groups, dictionaries, metaFields⟩).1 =
      .ok (some (.created "c" "2" "COUNTRIES")) ∧
    (effect (findMetaField ⟨⟨"geo", "CITIES"⟩, "CODE"⟩) ⟨groups, dictionaries, metaFields⟩).1 =
      .ok (some (.new ⟨"z", "h", .epoch⟩ "e" "Code")) := by
  refine ⟨_, _, _, rfl, rfl, rfl, ?_⟩
  have hgroups : Index.Lists _ namedGroups :=
    ⟨Index.contains_stocked rfl (EntityKind.recalled_eq .group (by decide)) (by decide), by decide⟩
  have hdictionaries : Index.Lists _ namedDictionaries :=
    ⟨Index.contains_stocked rfl (EntityKind.recalled_eq .dictionary (by decide)) (by decide),
      by decide⟩
  have hmetaFields : Index.Lists _ namedColumns :=
    ⟨Index.contains_stocked rfl (EntityKind.recalled_eq .metaField (by decide)) (by decide), by decide⟩
  -- of two candidates it is the one that comes first by its name
  have hfirst : ∀ {α : Type} [Indexed α] [Named α] {a b : α} {found : Option α},
      Named.name b < Named.name a → IsFirst [a, b] found → found = some b := by
    intro α _ _ a b found hlt h
    cases hfound : found with
    | none => exact absurd (h.none_iff.mp hfound) (by simp)
    | some c =>
      rcases List.mem_pair.mp (h.mem c hfound) with rfl | rfl
      · rcases h.least c hfound b (by simp) with hle | ⟨heq, -⟩
        · exact absurd hle (lt_asymm hlt)
        · exact absurd heq hlt.ne'
      · rfl
  obtain ⟨hdictionary, hmetaField, -⟩ :=
    @PathIndexes.find_targets ⟨_, _, _⟩ _ _ _ hgroups hdictionaries hmetaFields
  constructor
  · obtain ⟨found, hfound, hpath⟩ :=
      hdictionary ⟨"geo", "countries"⟩ (by decide) (by decide) (by decide)
    have htargets : DictionaryPath.targets ⟨"geo", "countries"⟩ namedGroups namedDictionaries =
        [.created "b" "2" "Countries", .created "c" "2" "COUNTRIES"] := by decide
    rw [htargets] at hpath
    rw [hfound, hfirst (by decide) hpath]
  · obtain ⟨found, hfound, hpath⟩ := hmetaField ⟨⟨"geo", "CITIES"⟩, "CODE"⟩ (by decide) (by decide)
      (by decide) (by decide) (by decide)
    have htargets : MetaFieldPath.targets ⟨⟨"geo", "CITIES"⟩, "CODE"⟩ namedGroups namedDictionaries
        namedColumns = [.new ⟨"y", "h", .epoch⟩ "e" "code", .new ⟨"z", "h", .epoch⟩ "e" "Code"] := by
      decide
    rw [htargets] at hpath
    rw [hfound, hfirst (by decide) hpath]

end Codebook
