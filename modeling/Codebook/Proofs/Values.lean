/-
# Values that decide an order

Entities are ordered by the values that they have under names, and a name has the values of all its
fields. The first of them counts, in the form of the column: a text, or a number where a number can
be read, or the milliseconds of a date. The mark of a missing date is no value. A key reads exactly
this in the document of an entity, so an order can be said of entities without their documents.

Key definitions: `SortValue.ofCells`, `Facts.rank`, `Schema.keyOf`, `Document.Keeps`,
`Criteria.matching`, `Schema.Stores`, `Index.Contains`.
Key theorems: `Schema.Describes.read_sorting`, `Schema.Describes.rank_key`.
-/
import Codebook.Proofs.Answers
import Codebook.Proofs.Lookups
import Codebook.Proofs.Snapshots

namespace Codebook

/-! ### Cells -/

/-- Whether a value of a column is a date. -/
def Cell.isDate : Cell → Bool
  | .text _ => false
  | .date _ => true

theorem encodeValue_isDate {entityType field : String} {kind : ValueKind} {value : FieldValue}
    {cell : Cell} (h : encodeValue entityType field kind value = .ok (some cell)) :
    cell.isDate = decide (kind = .date) := by
  unfold encodeValue at h
  cases kind <;> cases value <;> simp at h <;> simp [← h, Cell.isDate]

namespace SortValue

/-- A value of a column as an order takes it. -/
def ofCell (kind : ValueKind) : Cell → SortValue
  | .text s =>
    if kind = .number then ((Number.Double.read s).map number).getD (text s) else text s
  | .date n => if n = nullDate then missing else date n

/-- The value of which there may be several in a column: the first one. -/
def ofCells (kind : ValueKind) (cells : List Cell) : SortValue :=
  (cells.head?.map (ofCell kind)).getD missing

end SortValue

theorem ColumnKey.read_sorting_cells {k : SortKey} {d : Document}
    (h : ∀ cell ∈ d.cells k.name, cell.isDate = decide (k.kind = .date)) :
    (ColumnKey.sorting k).read d = .ofCells k.kind (d.cells k.name) := by
  obtain ⟨name, kind, descending⟩ := k
  simp only [sorting, read, Document.texts, Document.dates] at h ⊢
  cases hcells : d.cells name with
  | nil => cases kind <;> rfl
  | cons cell cells =>
    have hcell := h cell (by rw [hcells]; exact List.mem_cons_self)
    cases cell with
    | text s => cases kind <;> simp_all [Cell.isDate, SortValue.ofCells, SortValue.ofCell]
    | date n => cases kind <;> simp_all [Cell.isDate, SortValue.ofCells, SortValue.ofCell]

/-! ### Facts -/

/-- The value that decides the place of an entity with these facts in an order by a name. -/
def Facts.rank (x : Facts) (name : String) : SortValue :=
  .ofCells (x.kind name) (x.cells name)

section

variable {α : Type} [Indexed α] {s : Schema} {a b : α} {d e : Document}

/-- The primary key of an entity. -/
def Schema.keyOf (s : Schema) (a : α) : String :=
  match s.primaryKey.read a with
  | .text key => key
  | _ => ""

theorem Schema.cellOf_isDate {f : IndexedField} {cell : Cell} (h : s.cellOf a f = some cell) :
    cell.isDate = decide (f.kind = .date) := by
  unfold cellOf at h
  cases hvalue : encodeValue s.entityType f.name f.kind (f.read a) with
  | error e => simp [hvalue] at h
  | ok cell? =>
    cases cell? with
    | some c =>
      simp only [hvalue, Option.some.injEq] at h
      exact h ▸ encodeValue_isDate hvalue
    | none =>
      simp only [hvalue] at h
      split_ifs at h with hdate
      simp [← Option.some.inj h, Cell.isDate, hdate]

namespace Schema.Describes

/-- The values under a name are of the kind of each field that has it. -/
theorem cellsOf_isDate (hs : s.Describes α) {f : IndexedField} (hf : f ∈ s.primaryKey :: s.fields)
    {c : Column} (hc : s.column? f.name = some c) :
    ∀ cell ∈ s.cellsOf a f.name, cell.isDate = decide (f.kind = .date) := by
  intro cell hcell
  obtain ⟨g, hg, hvalue⟩ := List.mem_filterMap.mp hcell
  obtain ⟨hg, hname⟩ := List.mem_filter.mp hg
  obtain ⟨-, hkinds⟩ := hs.column_kind hc
  rw [Schema.cellOf_isDate hvalue, ← hkinds f hf rfl, hkinds g hg (by simpa using hname)]

/-- A key reads in the document of an entity what decides its place in an order by the name. -/
theorem read_sorting (hs : s.Describes α) (hd : Document.encode s a = .ok d) {f : IndexedField}
    (hf : f ∈ s.primaryKey :: s.fields) {c : Column} (hc : s.column? f.name = some c)
    (descending : Bool) :
    (ColumnKey.sorting ⟨f.name, c.kind, descending⟩).read d = (s.facts a).rank f.name := by
  have hcells : d.cells f.name = s.cellsOf a f.name := Document.cells_encode hs hd (by simp [hc])
  have hkind : c.kind = f.kind := (hs.column_kind hc).2 f hf rfl
  rw [ColumnKey.read_sorting_cells, (hs.shows hd).kind f hf c hc, hcells]
  · rfl
  · rw [hcells, hkind]
    exact hs.cellsOf_isDate hf hc

/-- The value of a primary key that is not blank. -/
theorem cellOf_key (hs : s.Describes α) (hkey : Text.isBlank (s.keyOf a) = false) :
    s.cellOf a s.primaryKey = some (.text (s.keyOf a)) := by
  have hread : s.primaryKey.read a = .text (s.keyOf a) := by
    unfold Schema.keyOf at hkey ⊢
    split
    · assumption
    · rename_i hother
      split at hkey
      · rename_i key htext
        exact absurd htext (hother key)
      · simp [Text.isBlank] at hkey
  have hstring : s.primaryKey.kind = .string := by rw [hs.key]
  unfold Schema.cellOf
  rw [hread, hstring]
  simp [encodeValue, hkey]

/-- In an order by the primary key its value decides. -/
theorem rank_key (hs : s.Describes α) (hkey : Text.isBlank (s.keyOf a) = false) :
    (s.facts a).rank s.primaryKey.name = .text (s.keyOf a) := by
  have hcell := hs.cellOf_key hkey
  have hkind : (s.facts a).kind s.primaryKey.name = .string := by
    simp [Schema.facts, Schema.field?, show s.primaryKey.kind = .string by rw [hs.key]]
  unfold Facts.rank
  rw [hkind]
  simp [Schema.facts, Schema.cellsOf, hcell, SortValue.ofCells, SortValue.ofCell]

end Schema.Describes

/-! ### Contents -/

/-- The document is that of the entity and gives it back. The collections of an entity are not
indexed, so an entity with collections is given back without them, and then it is that entity that
the document keeps. -/
structure Document.Keeps (s : Schema) (a : α) (d : Document) : Prop where
  encoded : Document.encode s a = .ok d
  decoded : Document.decode α s d = .ok a

/-- The entities that fulfil criteria. -/
def Criteria.matching (c : Criteria) (s : Schema) (zone : Instant.Zone) (entities : List α) : List α :=
  entities.filter fun a => c.holds zone (s.facts a)

/-- What is found keeps the entities that fulfil the criteria. -/
theorem Criteria.kept_matching (hs : s.Describes α) {c : Criteria} {zone : Instant.Zone}
    {q : Compiled} (hq : c.compile s zone = .ok q) {entities : List α} {documents : List Document}
    (h : List.Forall₂ (Document.Keeps s) entities documents) :
    List.Forall₂ (Document.Keeps s) (c.matching s zone entities)
      (documents.filter q.executable.selects) := by
  refine List.rel_filter (fun a d had => ?_) h
  simp only [(hs.shows had.encoded).selects_compiled hq]

/-- The documents keep the entities, one each, and the keys of the entities are distinct and not
blank. -/
structure Schema.Stores (s : Schema) (entities : List α) (documents : List Document) : Prop where
  kept : List.Forall₂ (Document.Keeps s) entities documents
  keyed : ∀ a ∈ entities, Text.isBlank (s.keyOf a) = false
  distinct : (entities.map s.keyOf).Nodup

/-- The index is open, searches see the content, and the content keeps these entities. -/
structure Index.Contains (i : Index) (g : Generation) (entities : List α) : Prop where
  schema : Schema.describe α = .ok i.schema
  live : i.live.map Live.content = some g
  layout : g.layout = i.schema.layout
  kept : List.Forall₂ (Document.Keeps i.schema) entities g.documents
  countable : entities.length ≤ maxCount

/-- An open index that was filled with these entities. -/
def Index.stocked (entities : List α) : Except IndexError Index := do
  let schema ← Schema.describe α
  let documents ← entities.mapM (Document.encode schema)
  return { schema, live := some ⟨⟨[], schema.entityType, 1⟩, ⟨schema.layout, documents⟩⟩ }

/-- What the documents of these entities give back. -/
def Document.recalled (entities : List α) : Except IndexError (List α) := do
  let schema ← Schema.describe α
  entities.mapM fun a => do (← Document.encode schema a).decode α schema

theorem Index.contains_stocked {entities : List α} {i : Index} (h : stocked entities = .ok i)
    (hrecalled : Document.recalled entities = .ok entities) (hsize : entities.length ≤ maxCount) :
    ∃ g, i.Contains g entities := by
  obtain ⟨schema, hschema, h⟩ := bind_eq_ok.mp h
  obtain ⟨documents, hdocuments, h⟩ := bind_eq_ok.mp h
  obtain rfl := Except.ok.inj h
  rw [Document.recalled, hschema] at hrecalled
  have hdecoded := List.forall₂_same.mp (forall₂_of_mapM hrecalled)
  have hboth := (List.forall₂_and_left _ _).mpr ⟨hdecoded, forall₂_of_mapM hdocuments⟩
  refine ⟨_, hschema, rfl, rfl, hboth.imp fun a d had => ⟨had.2, ?_⟩, hsize⟩
  rw [← had.1, had.2]
  rfl

/-- Entities of the model that have no collections are what their documents give back. -/
theorem EntityKind.recalled_eq (k : EntityKind) {entities : List k.Entity}
    (h : ∀ a ∈ entities, Indexed.Proper a ∧ k.bare a = a) :
    Document.recalled entities = .ok entities := by
  obtain ⟨s, hs⟩ : ∃ s, Schema.describe k.Entity = .ok s := by cases k <;> exact ⟨_, rfl⟩
  rw [Document.recalled, hs]
  refine mapM_of_forall₂ (List.forall₂_same.mpr fun a ha => ?_)
  obtain ⟨hproper, hbare⟩ := h a ha
  obtain ⟨d, hd, hdecode, -⟩ := decode_encode hs a
  rw [hd]
  exact (hdecode hproper).trans (congrArg _ hbare)

end
end Codebook
