/-
# What an accepted declaration guarantees

A schema that was described for a type of entities has its columns merged from its fields: one
column for each name, of the kind of every field that has this name. Its primary key is a text that
filters and orders can use, and every other field reads a declared one, under its own name or under
an alias.

Key definitions: `Schema.ColumnsFit`, `Schema.Describes`.
Key theorems: `Schema.columnsFit_of_mergeColumns`, `Schema.ofDeclaration_ok`, `Schema.describes_of_describe`,
`Schema.Describes.column_kind`.
-/
import Codebook.Schema.Build
import Mathlib.Data.List.Induction
import Mathlib.Tactic.Common

namespace Codebook

/-- Work that ends with a value did so part by part. -/
theorem bind_eq_ok {ε α β : Type} {x : Except ε α} {f : α → Except ε β} {b : β} :
    x >>= f = .ok b ↔ ∃ a, x = .ok a ∧ f a = .ok b := by
  cases x <;> simp [bind, Except.bind]

theorem mapError_eq_ok {ε ε' α : Type} {x : Except ε α} {f : ε → ε'} {a : α} :
    x.mapError f = .ok a ↔ x = .ok a := by
  cases x <;> simp [Except.mapError]

theorem map_eq_ok {ε α β : Type} {x : Except ε α} {f : α → β} {b : β} :
    x.map f = .ok b ↔ ∃ a, x = .ok a ∧ f a = b := by
  cases x <;> simp [Except.map]

namespace Schema

/-! ### Columns -/

/-- What the fields of a name can be used for together. -/
def capabilitiesOf (fields : List IndexedField) (name : String) : Capabilities :=
  ((fields.filter fun f => f.name = name).map IndexedField.capabilities).foldl Capabilities.union
    ⟨false, false, false⟩

theorem capabilitiesOf_append (fields : List IndexedField) (f : IndexedField) (name : String) :
    capabilitiesOf (fields ++ [f]) name =
      if f.name = name then (capabilitiesOf fields name).union f.capabilities
      else capabilitiesOf fields name := by
  unfold capabilitiesOf
  rw [List.filter_append, List.map_append, List.foldl_append]
  by_cases h : f.name = name <;> simp [h]

theorem capabilitiesOf_eq_none {fields : List IndexedField} {name : String}
    (h : ∀ f ∈ fields, f.name ≠ name) : capabilitiesOf fields name = ⟨false, false, false⟩ := by
  unfold capabilitiesOf
  rw [List.filter_eq_nil_iff.mpr fun f hf => by simpa using h f hf]
  rfl

theorem usable_capabilitiesOf {fields : List IndexedField} {f : IndexedField} (hf : f ∈ fields) :
    (f.capabilities.filterable = true → (capabilitiesOf fields f.name).filterable = true) ∧
      (f.capabilities.sortable = true → (capabilitiesOf fields f.name).sortable = true) := by
  induction fields using List.reverseRecOn with
  | nil => simp at hf
  | append_singleton fs g ih =>
    rw [capabilitiesOf_append]
    rcases List.mem_append.mp hf with hf | hf
    · obtain ⟨h1, h2⟩ := ih hf
      split_ifs
      · exact ⟨fun h => by simp [Capabilities.union, h1 h], fun h => by simp [Capabilities.union, h2 h]⟩
      · exact ⟨h1, h2⟩
    · rw [List.mem_singleton.mp hf, if_pos rfl]
      exact ⟨fun h => by simp [Capabilities.union, h], fun h => by simp [Capabilities.union, h]⟩

/-- The columns agree with fields: their names are distinct and those of the fields, and each has
the kind of every field of its name and can be used for what these fields can be used for. -/
structure ColumnsFit (fields : List IndexedField) (columns : List Column) : Prop where
  nodup : (columns.map Column.name).Nodup
  kind : ∀ c ∈ columns, ∀ f ∈ fields, f.name = c.name → c.kind = f.kind
  capabilities : ∀ c ∈ columns, c.capabilities = capabilitiesOf fields c.name

theorem addColumn_names {f : IndexedField} {columns columns' : List Column}
    (h : addColumn f columns = .ok columns') :
    columns'.map Column.name =
      if f.name ∈ columns.map Column.name then columns.map Column.name
      else columns.map Column.name ++ [f.name] := by
  induction columns generalizing columns' with
  | nil =>
    simp only [addColumn, Except.ok.injEq] at h
    simp [← h]
  | cons b bs ih =>
    simp only [addColumn] at h
    split_ifs at h with hn hk
    · simp only [Except.ok.injEq] at h
      simp [← h, hn]
    · obtain ⟨rest, hrest, rfl⟩ := map_eq_ok.mp h
      have hne : f.name ≠ b.name := fun e => hn e.symm
      have hmem : f.name ∈ (b :: bs).map Column.name ↔ f.name ∈ bs.map Column.name := by
        simp [hne]
      rw [List.map_cons, ih hrest]
      by_cases hin : f.name ∈ bs.map Column.name
      · rw [if_pos hin, if_pos (hmem.mpr hin), List.map_cons]
      · rw [if_neg hin, if_neg (mt hmem.mp hin), List.map_cons, List.cons_append]

/-- A column after a field was added is one from before with another name, or made of the field
alone, or the one of its name with the uses of the field. -/
theorem mem_addColumn {f : IndexedField} {columns columns' : List Column}
    (h : addColumn f columns = .ok columns') (hd : (columns.map Column.name).Nodup)
    {c : Column} (hc : c ∈ columns') :
    (c.name ≠ f.name ∧ c ∈ columns) ∨
      (c = ⟨f.name, f.kind, f.capabilities⟩ ∧ f.name ∉ columns.map Column.name) ∨
      ∃ b ∈ columns, b.name = f.name ∧ b.kind = f.kind ∧
        c = { b with capabilities := b.capabilities.union f.capabilities } := by
  induction columns generalizing columns' with
  | nil =>
    simp only [addColumn, Except.ok.injEq] at h
    subst h
    exact Or.inr (Or.inl ⟨List.mem_singleton.mp hc, by simp⟩)
  | cons b bs ih =>
    simp only [List.map_cons, List.nodup_cons] at hd
    simp only [addColumn] at h
    split_ifs at h with hn hk
    · simp only [Except.ok.injEq] at h
      subst h
      rcases List.mem_cons.mp hc with rfl | hc
      · exact Or.inr (Or.inr ⟨b, List.mem_cons_self, hn, hk, rfl⟩)
      · refine Or.inl ⟨fun e => hd.1 ?_, List.mem_cons_of_mem _ hc⟩
        exact (e.trans hn.symm) ▸ List.mem_map_of_mem hc
    · obtain ⟨rest, hrest, rfl⟩ := map_eq_ok.mp h
      rcases List.mem_cons.mp hc with rfl | hc
      · exact Or.inl ⟨hn, List.mem_cons_self⟩
      · rcases ih hrest hd.2 hc with ⟨hne, hc⟩ | ⟨hc, hfresh⟩ | ⟨b', hb', hmerged⟩
        · exact Or.inl ⟨hne, List.mem_cons_of_mem _ hc⟩
        · refine Or.inr (Or.inl ⟨hc, ?_⟩)
          rw [List.map_cons, List.mem_cons, not_or]
          exact ⟨fun e => hn e.symm, hfresh⟩
        · exact Or.inr (Or.inr ⟨b', List.mem_cons_of_mem _ hb', hmerged⟩)

theorem ColumnsFit.add {fields : List IndexedField} {columns columns' : List Column}
    (hfit : ColumnsFit fields columns) {f : IndexedField}
    (hold : ∀ g ∈ fields, g.name ∈ columns.map Column.name)
    (h : addColumn f columns = .ok columns') : ColumnsFit (fields ++ [f]) columns' where
  nodup := by
    rw [addColumn_names h]
    split_ifs with hm
    · exact hfit.nodup
    · simpa [List.nodup_append, hfit.nodup] using fun c hc e => hm (List.mem_map.mpr ⟨c, hc, e⟩)
  kind c hc g hg hn := by
    rcases mem_addColumn h hfit.nodup hc with ⟨hne, hc⟩ | ⟨rfl, hfresh⟩ | ⟨b, hb, hbn, hbk, rfl⟩
    · rcases List.mem_append.mp hg with hg | hg
      · exact hfit.kind c hc g hg hn
      · rw [List.mem_singleton.mp hg] at hn
        exact absurd hn.symm hne
    · rcases List.mem_append.mp hg with hg | hg
      · have hn : g.name = f.name := hn
        exact absurd (hn ▸ hold g hg) hfresh
      · rw [List.mem_singleton.mp hg]
    · rcases List.mem_append.mp hg with hg | hg
      · exact hfit.kind b hb g hg hn
      · rw [List.mem_singleton.mp hg]
        exact hbk
  capabilities c hc := by
    rw [capabilitiesOf_append]
    rcases mem_addColumn h hfit.nodup hc with ⟨hne, hc⟩ | ⟨rfl, hfresh⟩ | ⟨b, hb, hbn, hbk, rfl⟩
    · rw [if_neg fun e => hne e.symm, hfit.capabilities c hc]
    · have hnone : ∀ g ∈ fields, g.name ≠ f.name := fun g hg e => hfresh (e ▸ hold g hg)
      rw [if_pos rfl, capabilitiesOf_eq_none hnone]
      simp [Capabilities.union]
    · rw [if_pos hbn.symm, hfit.capabilities b hb]

/-- The columns merged so far agree with the fields merged so far, and no name is missing. -/
theorem columnsFit_foldlM {fields : List IndexedField} :
    ∀ (before : List IndexedField) {columns columns' : List Column}, ColumnsFit before columns →
      (∀ g ∈ before, g.name ∈ columns.map Column.name) →
      fields.foldlM (fun columns f => addColumn f columns) columns = .ok columns' →
      ColumnsFit (before ++ fields) columns' ∧
        ∀ g ∈ before ++ fields, g.name ∈ columns'.map Column.name := by
  induction fields with
  | nil =>
    intro before columns columns' hfit hold h
    simp only [List.foldlM_nil, pure, Except.pure, Except.ok.injEq] at h
    simpa [← h] using ⟨hfit, by simpa using hold⟩
  | cons f fs ih =>
    intro before columns columns' hfit hold h
    rw [List.foldlM_cons] at h
    obtain ⟨next, hadd, hrest⟩ := bind_eq_ok.mp h
    rw [List.append_cons]
    refine ih _ (hfit.add hold hadd) (fun g hg => ?_) hrest
    rw [addColumn_names hadd]
    rcases List.mem_append.mp hg with hg | hg
    · split_ifs
      · exact hold g hg
      · exact List.mem_append_left _ (hold g hg)
    · rw [List.mem_singleton.mp hg]
      split_ifs with hm
      · exact hm
      · simp

/-- Merged columns are those of columns that agree with the fields, one for each name, that filters
or orders can use. -/
theorem mergeColumns_ok {fields : List IndexedField} {columns : List Column}
    (h : mergeColumns fields = .ok columns) :
    ∃ merged, ColumnsFit fields merged ∧ (∀ f ∈ fields, f.name ∈ merged.map Column.name) ∧
      columns = merged.filter fun c => c.capabilities.filterable || c.capabilities.sortable := by
  unfold mergeColumns at h
  obtain ⟨merged, hmerged, hkept⟩ := bind_eq_ok.mp h
  obtain ⟨hfit, hall⟩ := columnsFit_foldlM [] ⟨by simp, by simp, by simp⟩ (by simp) hmerged
  exact ⟨merged, hfit, hall, (Except.ok.inj hkept).symm⟩

/-- Merged columns agree with the fields, and every field that filters or orders use has one. -/
theorem columnsFit_of_mergeColumns {fields : List IndexedField} {columns : List Column}
    (h : mergeColumns fields = .ok columns) :
    ColumnsFit fields columns ∧ ∀ f ∈ fields,
      f.capabilities.filterable = true ∨ f.capabilities.sortable = true →
        ∃ c ∈ columns, c.name = f.name := by
  obtain ⟨merged, hfit, hall, rfl⟩ := mergeColumns_ok h
  have hcolumns : ColumnsFit fields (merged.filter fun c =>
      c.capabilities.filterable || c.capabilities.sortable) :=
    { nodup := hfit.nodup.sublist (List.filter_sublist.map _)
      kind := fun c hc => hfit.kind c (List.mem_filter.mp hc).1
      capabilities := fun c hc => hfit.capabilities c (List.mem_filter.mp hc).1 }
  refine ⟨hcolumns, fun f hf hu => ?_⟩
  obtain ⟨c, hc, hcn⟩ := List.mem_map.mp (hall f hf)
  obtain ⟨hfil, hsort⟩ := usable_capabilitiesOf hf
  refine ⟨c, List.mem_filter.mpr ⟨hc, ?_⟩, hcn⟩
  rw [hfit.capabilities c hc, hcn]
  rcases hu with hu | hu
  · simp [hfil hu]
  · simp [hsort hu]

/-! ### Fields -/

/-- The resolved fields are those from before, and then each declared field with its aliases, under
the kind of its values. -/
theorem resolveFields_ok {primaryKey : String} {kindOf : String → Option ValueKind} :
    ∀ {ds : List FieldDeclaration} {earlier fields : List IndexedField},
      resolveFields primaryKey kindOf earlier ds = .ok fields →
      ∀ f ∈ fields, f ∈ earlier ∨ ∃ d ∈ ds, ∃ kind, kindOf d.name = some kind ∧ kind.isIndexable ∧
        d.name ≠ primaryKey ∧ f ∈ withAliases d kind
  | [], earlier, fields, h, f, hf => by
    simp only [resolveFields, Except.ok.injEq] at h
    exact Or.inl (h ▸ hf)
  | d :: ds, earlier, fields, h, f, hf => by
    simp only [resolveFields] at h
    split_ifs at h with hdup hres
    have hkey : d.name ≠ primaryKey := by
      intro e
      simp [e] at hdup
    cases hk : kindOf d.name with
    | none => simp [hk] at h
    | some kind =>
      simp only [hk] at h
      split_ifs at h with hix
      rcases resolveFields_ok h f hf with hf | ⟨d', hd', hrest⟩
      · rcases List.mem_append.mp hf with hf | hf
        · exact Or.inl hf
        · exact Or.inr ⟨d, List.mem_cons_self, kind, hk, hix, hkey, hf⟩
      · exact Or.inr ⟨d', List.mem_cons_of_mem _ hd', hrest⟩

theorem mem_withAliases {d : FieldDeclaration} {kind : ValueKind} {f : IndexedField}
    (h : f ∈ withAliases d kind) :
    f.source = d.name ∧ f.kind = kind ∧ (f.name = d.name ∨ f.name ∈ d.aliases) := by
  simp only [withAliases, List.mem_cons, List.mem_map] at h
  rcases h with rfl | ⟨name, hname, rfl⟩
  · simp
  · simp [hname]

/-! ### Schemas -/

/-- Where the search for a column under a name of the engine finds none, no column has one. -/
theorem names_apart {columns : List Column}
    (h : ∀ own, [payloadField, defaultSearchField].find?
      (fun own => columns.any fun c => c.name == own) = some own → False) :
    ∀ c ∈ columns, c.name ≠ payloadField ∧ c.name ≠ defaultSearchField := by
  have hnone := List.find?_eq_none.mp (Option.eq_none_iff_forall_ne_some.mpr h)
  intro c hc
  constructor <;> intro hname
  · exact hnone payloadField (by simp) (List.any_eq_true.mpr ⟨c, hc, by simp [hname]⟩)
  · exact hnone defaultSearchField (by simp) (List.any_eq_true.mpr ⟨c, hc, by simp [hname]⟩)

/-- An accepted declaration has a readable key of the right kind, fields that resolve, a name field
to sort by if it has one, and columns that merge, none under a name of the engine. -/
theorem ofDeclaration_ok {entityType : String} {d : Declaration}
    {kindOf : String → Option ValueKind} {s : Schema} (h : ofDeclaration entityType d kindOf = .ok s) :
    kindOf d.primaryKey = some .string ∧
      s.entityType = entityType ∧
      s.primaryKey = ⟨d.primaryKey, d.primaryKey, .string, ⟨false, true, true⟩, []⟩ ∧
      s.collections = d.collections ∧
      s.nameField = d.nameField ∧
      resolveFields d.primaryKey kindOf [] d.fields = .ok s.fields ∧
      (∀ name, d.nameField = some name →
        ∃ f ∈ s.fields, f.name = name ∧ f.capabilities.sortable = true) ∧
      mergeColumns (s.primaryKey :: s.fields) = .ok s.columns ∧
      ∀ c ∈ s.columns, c.name ≠ payloadField ∧ c.name ≠ defaultSearchField := by
  unfold ofDeclaration at h
  simp only [bind, Except.bind, throw, throwThe, MonadExceptOf.throw, pure, Except.pure] at h
  split_ifs at h
  split at h
  · rename_i keyKind hkind
    split_ifs at h with hstring
    simp only [ne_eq, not_not] at hstring
    subst hstring
    split at h
    · simp at h
    · rename_i fields hfields
      split at h
      · simp at h
      · split at h
        · rename_i name hname
          split_ifs at h with hany
          split at h
          · simp at h
          · rename_i columns hcolumns
            split at h
            · simp at h
            · rename_i hown
              simp only [Except.ok.injEq] at h
              subst h
              refine ⟨hkind, rfl, rfl, rfl, rfl, hfields, fun n hn => ?_, hcolumns, names_apart hown⟩
              obtain rfl : name = n := Option.some.inj (hname.symm.trans hn)
              simpa using hany
        · rename_i hname
          split at h
          · simp at h
          · rename_i columns hcolumns
            split at h
            · simp at h
            · rename_i hown
              simp only [Except.ok.injEq] at h
              subst h
              exact ⟨hkind, rfl, rfl, rfl, rfl, hfields, fun n hn => absurd hn (hname n), hcolumns,
                names_apart hown⟩
  · simp at h

/-- What is known of a schema that was described for the entities of a type. -/
structure Describes (α : Type) [Indexed α] (s : Schema) : Prop where
  entityType : s.entityType = Indexed.entityType α
  key : s.primaryKey = ⟨(Indexed.declaration α).primaryKey, (Indexed.declaration α).primaryKey,
    .string, ⟨false, true, true⟩, []⟩
  keyAccessor : ∃ r, Indexed.accessor? α s.primaryKey.source = some r ∧ r.kind = .string
  field : ∀ f ∈ s.fields, ∃ d ∈ (Indexed.declaration α).fields, f.source = d.name ∧
    (f.name = d.name ∨ f.name ∈ d.aliases) ∧ d.name ≠ s.primaryKey.name
  fieldAccessor : ∀ f ∈ s.fields, ∃ r, Indexed.accessor? α f.source = some r ∧ r.kind = f.kind
  nameField : ∀ name, s.nameField = some name →
    ∃ f ∈ s.fields, f.name = name ∧ f.capabilities.sortable = true
  columns : ColumnsFit (s.primaryKey :: s.fields) s.columns
  covered : ∀ f ∈ s.primaryKey :: s.fields,
    f.capabilities.filterable = true ∨ f.capabilities.sortable = true →
      ∃ c ∈ s.columns, c.name = f.name

/-- The schema of a type is that of its declaration, with the kinds that its fields are read with. -/
theorem ofDeclaration_of_describe {α : Type} [Indexed α] {s : Schema}
    (h : Schema.describe α = .ok s) :
    ofDeclaration (Indexed.entityType α) (Indexed.declaration α)
      (fun field => (Indexed.accessor? α field).map Accessor.kind) = .ok s := by
  unfold describe at h
  simp only at h
  split at h
  · rename_i s' hdeclared
    exact hdeclared.trans (congrArg _ (Except.ok.inj h))
  · cases h

theorem describes_of_describe {α : Type} [Indexed α] {s : Schema}
    (h : Schema.describe α = .ok s) : s.Describes α := by
  obtain ⟨hkind, htype, hkey, -, hname, hfields, hsort, hmerge, -⟩ :=
    ofDeclaration_ok (ofDeclaration_of_describe h)
  have hresolved : ∀ f ∈ s.fields, ∃ d ∈ (Indexed.declaration α).fields, ∃ kind,
      (Indexed.accessor? α d.name).map Accessor.kind = some kind ∧
      d.name ≠ (Indexed.declaration α).primaryKey ∧ f ∈ withAliases d kind := by
    intro f hf
    rcases resolveFields_ok hfields f hf with hf | ⟨d, hd, kind, hk, -, hne, hf⟩
    · simp at hf
    · exact ⟨d, hd, kind, hk, hne, hf⟩
  obtain ⟨hcolumns, hcovered⟩ := columnsFit_of_mergeColumns hmerge
  refine ⟨htype, hkey, ?_, fun f hf => ?_, fun f hf => ?_, fun n hn => hsort n (hname ▸ hn),
    hcolumns, hcovered⟩
  · rw [hkey]
    simpa using hkind
  · obtain ⟨d, hd, kind, -, hne, hf⟩ := hresolved f hf
    obtain ⟨hsource, -, halias⟩ := mem_withAliases hf
    exact ⟨d, hd, hsource, halias, by rwa [hkey]⟩
  · obtain ⟨d, hd, kind, hk, -, hf⟩ := hresolved f hf
    obtain ⟨hsource, hfk, -⟩ := mem_withAliases hf
    rw [hsource, hfk]
    simpa using hk

namespace Describes

variable {α : Type} [Indexed α] {s : Schema}

theorem column_kind (h : s.Describes α) {c : Column} {name : String} (hc : s.column? name = some c) :
    c.name = name ∧ ∀ f ∈ s.primaryKey :: s.fields, f.name = name → c.kind = f.kind := by
  have hn : c.name = name := by simpa using List.find?_some hc
  exact ⟨hn, fun f hf hfn => h.columns.kind c (List.mem_of_find?_eq_some hc) f hf (hfn.trans hn.symm)⟩

theorem column_of_usable (h : s.Describes α) {f : IndexedField} (hf : f ∈ s.primaryKey :: s.fields)
    (hu : f.capabilities.filterable = true ∨ f.capabilities.sortable = true) :
    ∃ c, s.column? f.name = some c := by
  obtain ⟨c, hc, hcn⟩ := h.covered f hf hu
  exact Option.isSome_iff_exists.mp (List.find?_isSome.mpr ⟨c, hc, by simpa using hcn⟩)

theorem accessor (h : s.Describes α) {f : IndexedField} (hf : f ∈ s.primaryKey :: s.fields) :
    ∃ r, Indexed.accessor? α f.source = some r ∧ r.kind = f.kind := by
  rcases List.mem_cons.mp hf with rfl | hf
  · rw [show s.primaryKey.kind = .string by rw [h.key]]
    exact h.keyAccessor
  · exact h.fieldAccessor f hf

end Describes

theorem mem_of_field? {s : Schema} {name : String} {f : IndexedField} (h : s.field? name = some f) :
    f.name = name ∧ f ∈ s.primaryKey :: s.fields := by
  unfold field? at h
  split_ifs at h with hn
  · simp only [Option.some.injEq] at h
    exact h ▸ ⟨hn, List.mem_cons_self⟩
  · exact ⟨by simpa using List.find?_some h, List.mem_cons_of_mem _ (List.mem_of_find?_eq_some h)⟩

section

variable {s : Schema} {name : String} {f : IndexedField}

theorem field_ok (h : s.field name = .ok f) : f.name = name ∧ f ∈ s.primaryKey :: s.fields := by
  unfold field at h
  split at h
  · rename_i g hg
    exact Except.ok.inj h ▸ mem_of_field? hg
  · simp at h

theorem filterable_ok (h : s.filterable name = .ok f) :
    f.name = name ∧ f ∈ s.primaryKey :: s.fields ∧ f.capabilities.filterable = true := by
  obtain ⟨g, hg, h⟩ := bind_eq_ok.mp h
  split_ifs at h with hcap
  cases h
  exact ⟨(field_ok hg).1, (field_ok hg).2, hcap⟩

theorem sortable_ok (h : s.sortable name = .ok f) :
    f.name = name ∧ f ∈ s.primaryKey :: s.fields ∧ f.capabilities.sortable = true := by
  obtain ⟨g, hg, h⟩ := bind_eq_ok.mp h
  split_ifs at h with hcap
  cases h
  exact ⟨(field_ok hg).1, (field_ok hg).2, hcap⟩

theorem column_ok {c : Column} (h : s.column name = .ok c) : s.column? name = some c := by
  unfold column at h
  split at h
  · rename_i c' hc
    rw [hc, Except.ok.inj h]
  · simp at h

end

end Schema
end Codebook
