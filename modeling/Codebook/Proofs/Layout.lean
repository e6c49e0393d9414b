/-
# What the engine keeps for the fields of a schema

Fields are looked up by the first one of a name, and laid out by all of that name together. The two
agree for every accepted declaration: fields of one name are of one kind, so each of them is backed
by the same field of the engine, which is indexed if filters can use one of them and columnar if
orders can. The engine has such a field for every name that is used so, two of its own, and no others.
Into it goes what the fields of its name have in the entity, one after the other, and nothing else.

Key definitions: `Schema.named`, `Schema.backing`, `Schema.Writes`.
Key theorems: `Schema.mem_layout_iff`, `Document.writes_encode`, `Schema.layout_backs`.
-/
import Codebook.Proofs.Values
import Codebook.Samples.Item

namespace Codebook

/-- How the engine stores values of a kind. -/
def ValueKind.engineType (k : ValueKind) : EngineType :=
  if k = .date then .date else .text

/-- Whether there is nothing to index: no value, or a blank text. -/
def FieldValue.isVacant : FieldValue → Bool
  | .null => true
  | .text s => Text.isBlank s
  | _ => false

theorem isVacant_of_encodeValue {entityType field : String} {kind : ValueKind} {value : FieldValue}
    {cell? : Option Cell} (h : encodeValue entityType field kind value = .ok cell?) :
    value.isVacant = cell?.isNone := by
  unfold encodeValue at h
  cases kind <;> cases value <;> simp at h <;> subst h <;> simp [FieldValue.isVacant] <;>
    split_ifs <;> simp_all

namespace Schema

/-! ### Fields of one name -/

/-- Fields can together be used for what one of them can be used for. -/
theorem use_foldl_union (use : Capabilities → Bool)
    (h : ∀ a b, use (a.union b) = (use a || use b)) (fs : List IndexedField) (c : Capabilities) :
    use ((fs.map IndexedField.capabilities).foldl Capabilities.union c) =
      (use c || fs.any fun f => use f.capabilities) := by
  induction fs generalizing c with
  | nil => simp
  | cons f fs ih => simp [ih (c.union f.capabilities), h, Bool.or_assoc]

/-- The fields of a name, in order. -/
def named (s : Schema) (name : String) : List IndexedField :=
  (s.primaryKey :: s.fields).filter fun f => f.name = name

theorem mem_named {s : Schema} {name : String} {f : IndexedField} :
    f ∈ s.named name ↔ f ∈ s.primaryKey :: s.fields ∧ f.name = name := by
  rw [named, List.mem_filter, decide_eq_true_eq]

/-- The field of the engine for a field and all others of its name: it is indexed if filters can use
one of them, and columnar and stored if orders can. -/
def backing (s : Schema) (f : IndexedField) : EngineField :=
  let sortable := (s.named f.name).any fun g => g.capabilities.sortable
  { name := f.name
    type := f.kind.engineType
    indexed := (s.named f.name).any fun g => g.capabilities.filterable
    columnar := sortable
    stored := sortable }

/-- The fields that the engine has in every index. -/
def ownFields : List EngineField :=
  [⟨payloadField, .bytes, false, false, true⟩, ⟨defaultSearchField, .text, true, false, false⟩]

theorem layout_eq (s : Schema) : s.layout = s.columns.map Column.engineField ++ ownFields := rfl

section

variable {α : Type} [Indexed α] {s : Schema}

/-- Fields of one name are of one kind, whether they have a column or not. -/
theorem kind_eq_of_name_eq (hs : Schema.describe α = .ok s) {f g : IndexedField}
    (hf : f ∈ s.primaryKey :: s.fields) (hg : g ∈ s.primaryKey :: s.fields)
    (hname : f.name = g.name) : f.kind = g.kind := by
  obtain ⟨-, -, -, -, -, -, -, hmerge, -⟩ := ofDeclaration_ok (ofDeclaration_of_describe hs)
  obtain ⟨merged, hfit, hall, -⟩ := mergeColumns_ok hmerge
  obtain ⟨c, hc, hcn⟩ := List.mem_map.mp (hall f hf)
  rw [← hfit.kind c hc f hf hcn.symm, hfit.kind c hc g hg (hname.symm.trans hcn.symm)]

/-- Every column is used by filters or by orders, and has no name of the engine. -/
theorem columns_used (hs : Schema.describe α = .ok s) {c : Column} (hc : c ∈ s.columns) :
    (c.capabilities.filterable = true ∨ c.capabilities.sortable = true) ∧
      c.name ≠ payloadField ∧ c.name ≠ defaultSearchField := by
  obtain ⟨-, -, -, -, -, -, -, hmerge, hapart⟩ := ofDeclaration_ok (ofDeclaration_of_describe hs)
  obtain ⟨merged, -, -, hkept⟩ := mergeColumns_ok hmerge
  have hused := (List.mem_filter.mp (hkept ▸ hc)).2
  exact ⟨Bool.or_eq_true_iff.mp hused, hapart c hc⟩

/-- The other fields of the engine are those of columns. -/
theorem mem_layout_columns (hs : Schema.describe α = .ok s) {e : EngineField} :
    e ∈ s.layout ∧ e ∉ ownFields ↔ ∃ c ∈ s.columns, c.engineField = e := by
  rw [layout_eq, List.mem_append, List.mem_map]
  constructor
  · rintro ⟨hcolumn | hown, hother⟩
    · exact hcolumn
    · exact absurd hown hother
  · rintro ⟨c, hc, rfl⟩
    obtain ⟨-, hpayload, hsearch⟩ := columns_used hs hc
    refine ⟨Or.inl ⟨c, hc, rfl⟩, fun hown => ?_⟩
    rcases List.mem_pair.mp hown with h | h
    · exact hpayload (congrArg EngineField.name h)
    · exact hsearch (congrArg EngineField.name h)

theorem layout_nodup (hs : Schema.describe α = .ok s) : (s.layout.map EngineField.name).Nodup := by
  have hcolumns : (s.columns.map Column.name).Nodup := (describes_of_describe hs).columns.nodup
  have hnames : s.layout.map EngineField.name =
      s.columns.map Column.name ++ [payloadField, defaultSearchField] := by
    simp [layout_eq, ownFields, Column.engineField]
  rw [hnames, List.nodup_append]
  refine ⟨hcolumns, by decide, fun name hname own hown => ?_⟩
  obtain ⟨c, hc, rfl⟩ := List.mem_map.mp hname
  obtain ⟨-, hpayload, hsearch⟩ := columns_used hs hc
  rcases List.mem_pair.mp hown with rfl | rfl
  · exact hpayload
  · exact hsearch

namespace Describes

/-- The engine field of a column is the one that backs each field of its name. -/
theorem engineField_eq (hs : s.Describes α) {c : Column} (hc : c ∈ s.columns) {f : IndexedField}
    (hf : f ∈ s.primaryKey :: s.fields) (hname : f.name = c.name) : c.engineField = s.backing f := by
  have hcapabilities : c.capabilities = capabilitiesOf (s.primaryKey :: s.fields) f.name :=
    hname ▸ hs.columns.capabilities c hc
  have hfilterable := use_foldl_union Capabilities.filterable (fun _ _ => rfl) (s.named f.name)
    ⟨false, false, false⟩
  have hsortable := use_foldl_union Capabilities.sortable (fun _ _ => rfl) (s.named f.name)
    ⟨false, false, false⟩
  rw [Bool.false_or] at hfilterable hsortable
  unfold Column.engineField backing
  rw [hcapabilities, capabilitiesOf, ← named, hfilterable, hsortable, hname,
    hs.columns.kind c hc f hf hname]
  rfl

/-- A field of whose name one is used has a column. -/
theorem column_of_backing (hs : s.Describes α) {f : IndexedField}
    (hf : f ∈ s.primaryKey :: s.fields)
    (hused : (s.backing f).indexed = true ∨ (s.backing f).columnar = true) :
    ∃ c ∈ s.columns, c.name = f.name ∧ c.engineField = s.backing f := by
  have hsome : ∃ g ∈ s.named f.name,
      g.capabilities.filterable = true ∨ g.capabilities.sortable = true := by
    rcases hused with h | h <;> obtain ⟨g, hg, hcap⟩ := List.any_eq_true.mp h
    · exact ⟨g, hg, Or.inl hcap⟩
    · exact ⟨g, hg, Or.inr hcap⟩
  obtain ⟨g, hg, hcap⟩ := hsome
  obtain ⟨hg, hname⟩ := mem_named.mp hg
  obtain ⟨c, hc, hcn⟩ := hs.covered g hg hcap
  exact ⟨c, hc, hcn.trans hname, hs.engineField_eq hc hf (hcn.trans hname).symm⟩

/-- A field that filters or orders can use is used under its name. -/
theorem backing_mem_layout (hs : s.Describes α) {f : IndexedField}
    (hf : f ∈ s.primaryKey :: s.fields) :
    (f.capabilities.filterable = true → s.backing f ∈ s.layout ∧ (s.backing f).indexed = true) ∧
      (f.capabilities.sortable = true → s.backing f ∈ s.layout ∧ (s.backing f).columnar = true) := by
  have hmem : (s.backing f).indexed = true ∨ (s.backing f).columnar = true →
      s.backing f ∈ s.layout := by
    intro hused
    obtain ⟨c, hc, -, hbacking⟩ := hs.column_of_backing hf hused
    exact hbacking ▸ List.mem_append_left _ (List.mem_map_of_mem hc)
  have hself : f ∈ s.named f.name := mem_named.mpr ⟨hf, rfl⟩
  constructor <;> intro hcap
  · have hindexed : (s.backing f).indexed = true := List.any_eq_true.mpr ⟨f, hself, hcap⟩
    exact ⟨hmem (Or.inl hindexed), hindexed⟩
  · have hcolumnar : (s.backing f).columnar = true := List.any_eq_true.mpr ⟨f, hself, hcap⟩
    exact ⟨hmem (Or.inr hcolumnar), hcolumnar⟩

end Describes

/-- A column has a field of its name. -/
theorem field_of_column (hs : Schema.describe α = .ok s) {c : Column} (hc : c ∈ s.columns) :
    ∃ f ∈ s.primaryKey :: s.fields, f.name = c.name := by
  by_contra! hnone
  have hcapabilities := (describes_of_describe hs).columns.capabilities c hc
  rw [capabilitiesOf_eq_none hnone] at hcapabilities
  simpa [hcapabilities] using (columns_used hs hc).1

/-- The engine has its own fields and those that back a name, and no others. -/
theorem mem_layout_iff (hs : Schema.describe α = .ok s) {e : EngineField} :
    e ∈ s.layout ↔ e ∈ ownFields ∨ ∃ f ∈ s.primaryKey :: s.fields,
      e = s.backing f ∧ (e.indexed = true ∨ e.columnar = true) := by
  have hdescribes := describes_of_describe hs
  rw [layout_eq, List.mem_append, List.mem_map, or_comm]
  refine or_congr Iff.rfl ⟨?_, ?_⟩
  · rintro ⟨c, hc, rfl⟩
    obtain ⟨f, hf, hname⟩ := field_of_column hs hc
    exact ⟨f, hf, hdescribes.engineField_eq hc hf hname, (columns_used hs hc).1⟩
  · rintro ⟨f, hf, rfl, hused⟩
    obtain ⟨c, hc, -, hbacking⟩ := hdescribes.column_of_backing hf hused
    exact ⟨c, hc, hbacking⟩

end

/-! ### What an entity writes -/

/-- What a field writes for an entity: its value once, or the mark of a missing date, or nothing. -/
inductive Writes {α : Type} [Indexed α] (s : Schema) (a : α) (f : IndexedField) : List Cell → Prop
  /-- A value is written in the form in which it is indexed. -/
  | value {cell : Cell} (present : (f.read a).isVacant = false)
      (indexed : encodeValue s.entityType f.name f.kind (f.read a) = .ok (some cell)) :
      Writes s a f [cell]
  /-- A missing date leaves a mark. -/
  | missingDate (vacant : (f.read a).isVacant = true) (date : f.kind = .date) :
      Writes s a f [.date nullDate]
  /-- Any other missing value leaves nothing. -/
  | missing (vacant : (f.read a).isVacant = true) (other : f.kind ≠ .date) : Writes s a f []

end Schema

namespace Document

variable {α : Type} [Indexed α] {s : Schema} {a : α} {d : Document}

/-- A field that was encoded writes its value under its name. -/
theorem writes_of_encodeField (hs : s.Describes α) {f : IndexedField}
    (hf : f ∈ s.primaryKey :: s.fields) (hc : (s.column? f.name).isSome)
    {values : List (String × Cell)} (h : encodeField s a f = .ok values) :
    s.Writes a f (s.cellOf a f).toList := by
  obtain ⟨c, hc⟩ := Option.isSome_iff_exists.mp hc
  have hkind : c.kind = f.kind := (hs.column_kind hc).2 f hf rfl
  unfold encodeField at h
  simp only [hc, hkind] at h
  obtain ⟨cell?, hencode, -⟩ := bind_eq_ok.mp h
  have hvacant := isVacant_of_encodeValue hencode
  cases cell? with
  | some cell =>
    have hcell : s.cellOf a f = some cell := by simp [Schema.cellOf, hencode]
    rw [hcell]
    exact .value hvacant hencode
  | none =>
    by_cases hdate : f.kind = .date
    · have hcell : s.cellOf a f = some (.date nullDate) := by
        rw [Schema.cellOf, hencode]
        simp [hdate]
      rw [hcell]
      exact .missingDate hvacant hdate
    · have hcell : s.cellOf a f = none := by simp [Schema.cellOf, hencode, hdate]
      rw [hcell]
      exact .missing hvacant hdate

/-- A column has what the fields of its name write, one after the other. -/
theorem writes_encode (hs : s.Describes α) (h : encode s a = .ok d) {name : String}
    (hc : (s.column? name).isSome) :
    ∃ written, List.Forall₂ (s.Writes a) (s.named name) written ∧
      d.cells name = written.flatten := by
  obtain ⟨values, hall, -⟩ := encode_ok h
  refine ⟨(s.named name).map fun f => (s.cellOf a f).toList, ?_, ?_⟩
  · rw [List.forall₂_map_right_iff, List.forall₂_same]
    intro f hnamed
    obtain ⟨hf, rfl⟩ := Schema.mem_named.mp hnamed
    obtain ⟨v, -, hv⟩ := exists_of_mem_left hall hf
    exact writes_of_encodeField hs hf hc hv
  · rw [cells_encode hs h hc, Schema.cellsOf, ← Schema.named, List.filterMap_eq_flatMap_toList,
      List.flatMap_def]

/-- A document has values under the names of columns only. -/
theorem column_of_mem_values (hs : s.Describes α) (h : encode s a = .ok d) {p : String × Cell}
    (hp : p ∈ d.values) :
    ∃ f ∈ s.primaryKey :: s.fields, f.name = p.1 ∧ (s.column? f.name).isSome ∧
      s.cellOf a f = some p.2 := by
  obtain ⟨values, hall, rfl⟩ := encode_ok h
  obtain ⟨v, hv, hp⟩ := List.mem_flatten.mp hp
  obtain ⟨f, hf, hfv⟩ := exists_of_mem_right hall hv
  rw [encodeField_ok hs hf hfv] at hp
  split_ifs at hp with hc
  · obtain ⟨cell, hcell, rfl⟩ := List.mem_map.mp hp
    exact ⟨f, hf, rfl, hc, Option.mem_toList.mp hcell⟩
  · simp at hp

end Document

/-- **The layout backs what the fields of an accepted declaration can be used for.** Every field of the
engine has a name of its own. What filters find under a name, and what orders find, is backed by a
field of the engine of that name, of its kind, and indexed or columnar; so is the primary key. All
fields of one name are of one kind, and the fields of the engine, its own aside, are those that back a
name that filters or orders use, open to exactly what one of the fields of the name is open to. A
document has in each of these what the fields of its name write, one after the other, and it has
values in no others. -/
theorem Schema.layout_backs {α : Type} [Indexed α] {s : Schema} (hs : Schema.describe α = .ok s) :
    (s.layout.map EngineField.name).Nodup ∧
      (∀ name f, s.filterable name = .ok f →
        ∃ e ∈ s.layout, e.name = name ∧ e.type = f.kind.engineType ∧ e.indexed = true) ∧
      (∀ name f, s.sortable name = .ok f →
        ∃ e ∈ s.layout, e.name = name ∧ e.type = f.kind.engineType ∧ e.columnar = true) ∧
      (∃ e ∈ s.layout, e.name = s.primaryKey.name ∧ e.type = .text ∧ e.indexed = true ∧
        e.columnar = true) ∧
      (∀ f ∈ s.primaryKey :: s.fields, ∀ g ∈ s.primaryKey :: s.fields,
        f.name = g.name → f.kind = g.kind) ∧
      (∀ e, e ∈ s.layout ↔ e ∈ ownFields ∨ ∃ f ∈ s.primaryKey :: s.fields,
        e = s.backing f ∧ (e.indexed = true ∨ e.columnar = true)) ∧
      ∀ (a : α) d, Document.encode s a = .ok d →
        (∀ e ∈ s.layout, e ∉ ownFields → ∃ written,
          List.Forall₂ (s.Writes a) (s.named e.name) written ∧ d.cells e.name = written.flatten) ∧
        ∀ p ∈ d.values, ∃ e ∈ s.layout, e ∉ ownFields ∧ e.name = p.1 ∧
          p.2.isDate = decide (e.type = .date) := by
  have hdescribes := describes_of_describe hs
  refine ⟨layout_nodup hs, fun name f hf => ?_, fun name f hf => ?_, ?_,
    fun f hf g hg => kind_eq_of_name_eq hs hf hg, fun e => mem_layout_iff hs, fun a d hd => ⟨?_, ?_⟩⟩
  · obtain ⟨rfl, hmem, hcap⟩ := filterable_ok hf
    obtain ⟨hlaid, hindexed⟩ := (hdescribes.backing_mem_layout hmem).1 hcap
    exact ⟨s.backing f, hlaid, rfl, rfl, hindexed⟩
  · obtain ⟨rfl, hmem, hcap⟩ := sortable_ok hf
    obtain ⟨hlaid, hcolumnar⟩ := (hdescribes.backing_mem_layout hmem).2 hcap
    exact ⟨s.backing f, hlaid, rfl, rfl, hcolumnar⟩
  · obtain ⟨hfilterable, hsortable⟩ := hdescribes.backing_mem_layout List.mem_cons_self
    obtain ⟨hlaid, hindexed⟩ := hfilterable (by rw [hdescribes.key])
    obtain ⟨-, hcolumnar⟩ := hsortable (by rw [hdescribes.key])
    have htext : (s.backing s.primaryKey).type = .text := by
      simp [backing, show s.primaryKey.kind = .string by rw [hdescribes.key], ValueKind.engineType]
    exact ⟨s.backing s.primaryKey, hlaid, rfl, htext, hindexed, hcolumnar⟩
  · intro e he hother
    obtain ⟨c, hc, rfl⟩ := (mem_layout_columns hs).mp ⟨he, hother⟩
    exact Document.writes_encode hdescribes hd (hdescribes.column?_of_mem hc ▸ rfl)
  · intro p hp
    obtain ⟨f, hf, hname, hc, hcell⟩ := Document.column_of_mem_values hdescribes hd hp
    obtain ⟨c, hc⟩ := Option.isSome_iff_exists.mp hc
    obtain ⟨hcn, hkinds⟩ := hdescribes.column_kind hc
    obtain ⟨he, hother⟩ := (mem_layout_columns hs).mpr ⟨c, List.mem_of_find?_eq_some hc, rfl⟩
    refine ⟨c.engineField, he, hother, hcn.trans hname, ?_⟩
    rw [cellOf_isDate hcell, ← hkinds f hf rfl]
    simp [Column.engineField]

/-- An item with two sides, which share an alias. -/
def twoSided : Item :=
  ⟨"i", none, none, none, none, none, none, none, some "l", some "r", none, none, none, []⟩

theorem Schema.layout_backs_of_shared_alias : ∃ s d, Schema.describe Item = .ok s ∧
    Document.encode s twoSided = .ok d ∧ d.cells "side" = [.text "l", .text "r"] ∧
    (∃ e ∈ s.layout, e.name = "side" ∧ e.type = .text ∧ e.columnar = true) ∧
    ∀ p ∈ d.values, ∃ e ∈ s.layout, e ∉ ownFields ∧ e.name = p.1 ∧
      p.2.isDate = decide (e.type = .date) := by
  obtain ⟨-, -, hsortable, -, -, -, hdocuments⟩ := Schema.layout_backs (α := Item) rfl
  exact ⟨_, _, rfl, rfl, by decide, hsortable "side" _ rfl, (hdocuments twoSided _ rfl).2⟩

end Codebook
