/-
# Criteria as text and back

What criteria are written as is read as the same criteria: those that were read from a text, however
they were phrased in it, and those that were put together by hand and do not nest too deep. A phrase
is read once and for all. A default is written out, a name in place of change types is replaced by
them, numbered tests are written by their names, and a field that was given twice keeps the place of
the first and the filter of the last.

Both go through what criteria have in common that way: no field has two filters, not in a clause
either, the instants are those of a calendar, and the numbers are those of a machine.

Key definitions: `Test.instants`, `Test.Distinct`, `Criteria.Plain`, `Filter.Built`, `Filters.Built`,
`Criteria.Built`.
Key theorems: `Filters.ofList_of_distinct`, `Filter.ofKind?_members`, `Filters.ofClause?_toData`,
`Filters.ofClause?_kept`, `Criteria.ofData?_toData`, `Criteria.plain_of_ofData?`,
`Criteria.ofJson?_toJson_stable`.
-/
import Codebook.Criteria.Text
import Codebook.Proofs.Notation
import Codebook.Proofs.Snapshots

namespace Codebook

/-! ### Depth -/

namespace Data

theorem soundItems_iff {depth : Nat} {items : List Data} :
    soundItems depth items = true ↔ ∀ d ∈ items, d.soundWithin depth = true := by
  induction items with
  | nil => simp [soundItems]
  | cons d items ih => rw [soundItems, Bool.and_eq_true, ih, List.forall_mem_cons]

theorem soundMembers_iff {depth : Nat} {members : List (String × Data)} :
    soundMembers depth members = true ↔ ∀ m ∈ members, m.2.soundWithin depth = true := by
  induction members with
  | nil => simp [soundMembers]
  | cons m members ih => rw [soundMembers, Bool.and_eq_true, ih, List.forall_mem_cons]

@[simp] theorem soundWithin_list {depth : Nat} {items : List Data} :
    (list items).soundWithin depth = true ↔
      0 < depth ∧ ∀ d ∈ items, d.soundWithin (depth - 1) = true := by
  rw [soundWithin, Bool.and_eq_true, decide_eq_true_eq, soundItems_iff]

@[simp] theorem soundWithin_record {depth : Nat} {members : List (String × Data)} :
    (record members).soundWithin depth = true ↔
      0 < depth ∧ ∀ m ∈ members, m.2.soundWithin (depth - 1) = true := by
  rw [soundWithin, Bool.and_eq_true, decide_eq_true_eq, soundMembers_iff]

@[simp] theorem soundWithin_text (depth : Nat) (s : String) : (text s).soundWithin depth = true := rfl

@[simp] theorem soundWithin_bool (depth : Nat) (b : Bool) : (bool b).soundWithin depth = true := rfl

@[simp] theorem soundWithin_int (depth : Nat) (n : Int) : (int n).soundWithin depth = true := rfl

@[simp] theorem soundWithin_null (depth : Nat) : null.soundWithin depth = true := rfl

@[simp] theorem soundWithin_ofText? (depth : Nat) (o : Option String) :
    (ofText? o).soundWithin depth = true := by
  cases o <;> rfl

@[simp] theorem soundWithin_ofTexts {depth : Nat} {texts : List String} :
    (ofTexts texts).soundWithin depth = true ↔ 0 < depth := by
  simp [ofTexts]

/-- The members that are asked for nest one level less. -/
theorem soundWithin_toMembers? {form : Form} {names defaults : List String} {depth : Nat} {d : Data}
    {ms : Members} (hd : d.soundWithin depth = true) (h : d.toMembers? form names defaults = some ms) :
    0 < depth ∧ ∀ name value, ms.lookup name = some value → value.soundWithin (depth - 1) = true := by
  have hvalues : 0 < depth ∧ ∀ m ∈ ms, m.2.soundWithin (depth - 1) = true := by
    unfold toMembers? at h
    split at h
    · rw [soundWithin_record] at hd
      simp only at h
      split_ifs at h
      cases h
      exact ⟨hd.1, fun m hm => hd.2 m (List.mem_of_mem_filter hm)⟩
    · rw [soundWithin_list] at hd
      split_ifs at h
      cases h
      exact ⟨hd.1, fun m hm => hd.2 m.2 (List.of_mem_zip hm).2⟩
    · cases h
  refine ⟨hvalues.1, fun name value hlookup => ?_⟩
  obtain ⟨before, after, hms, -⟩ := List.lookup_eq_some_iff.mp hlookup
  exact hvalues.2 (name, value) (by rw [hms]; simp)

/-! ### Reading -/

@[simp] theorem toTexts?_ofTexts (texts : List String) :
    (ofTexts texts).toList? toText? = some texts :=
  mapM_map fun s _ => toText?_text s

end Data

/-! ### Filters -/

namespace Filters

variable {fs : Filters} {f : Filter} {field : String}

theorem mem_insert {e : String × Filter} (h : e ∈ fs.insert field f) : e = (field, f) ∨ e ∈ fs := by
  induction fs with
  | nil => exact .inl (List.mem_singleton.mp h)
  | cons e' fs ih =>
    obtain ⟨name, g⟩ := e'
    rw [insert] at h
    split_ifs at h with hname
    · obtain rfl | h := List.mem_cons.mp h
      · exact .inl (by rw [hname])
      · exact .inr (List.mem_cons_of_mem _ h)
    · obtain rfl | h := List.mem_cons.mp h
      · exact .inr List.mem_cons_self
      · exact (ih h).imp_right (List.mem_cons_of_mem _)

/-- A filter that is set again stands where its field did, and another one at the end. -/
theorem names_insert (field : String) (f : Filter) (fs : Filters) :
    (fs.insert field f).names = if field ∈ fs.names then fs.names else fs.names ++ [field] := by
  induction fs with
  | nil => rfl
  | cons e fs ih =>
    obtain ⟨name, g⟩ := e
    rw [insert]
    by_cases hname : name = field
    · simp [names, hname]
    · have hne : field ≠ name := Ne.symm hname
      simp only [names] at ih
      by_cases hmem : field ∈ fs.map (·.1) <;> simp [names, hname, hne, ih, hmem]

theorem nodup_insert (h : fs.names.Nodup) : (fs.insert field f).names.Nodup := by
  rw [names_insert]
  split_ifs with hmem
  · exact h
  · refine List.nodup_append.mpr ⟨h, List.nodup_singleton field, ?_⟩
    rintro name hname _ hfield rfl
    exact hmem (List.mem_singleton.mp hfield ▸ hname)

theorem insert_of_not_mem (h : field ∉ fs.names) : fs.insert field f = fs ++ [(field, f)] := by
  induction fs with
  | nil => rfl
  | cons e fs ih =>
    obtain ⟨name, g⟩ := e
    obtain ⟨hne, hrest⟩ := List.ne_and_not_mem_of_not_mem_cons h
    rw [insert, if_neg (Ne.symm hne), ih hrest, List.cons_append]

theorem sublist_erase (field : String) (fs : Filters) : (fs.erase field).Sublist fs := by
  induction fs with
  | nil => exact .slnil
  | cons e fs ih =>
    obtain ⟨name, g⟩ := e
    rw [erase]
    split_ifs
    · exact .cons _ (List.Sublist.refl fs)
    · exact ih.cons_cons _

/-- What is collected was given, and no field is collected twice. -/
theorem ofList_spec (fs : List (String × Filter)) :
    (ofList fs).names.Nodup ∧ ∀ e ∈ ofList fs, e ∈ fs := by
  induction fs using List.reverseRecOn with
  | nil => simp [ofList, names]
  | append_singleton fs e ih =>
    have hlast : ofList (fs ++ [e]) = (ofList fs).insert e.1 e.2 := by simp [ofList]
    rw [hlast]
    refine ⟨nodup_insert ih.1, fun e' he' => ?_⟩
    obtain rfl | he' := mem_insert he'
    · simp
    · exact List.mem_append_left _ (ih.2 e' he')

/-- **Filters of distinct fields are collected in their order.** -/
theorem ofList_of_distinct {fs : Filters} (h : fs.names.Nodup) : ofList fs = fs := by
  induction fs using List.reverseRecOn with
  | nil => rfl
  | append_singleton fs e ih =>
    have hlast : ofList (fs ++ [e]) = (ofList fs).insert e.1 e.2 := by simp [ofList]
    rw [names, List.map_append] at h
    obtain ⟨hfs, -, hne⟩ := List.nodup_append.mp h
    rw [hlast, ih hfs, insert_of_not_mem fun hmem => hne _ hmem _ (by simp) rfl]

end Filters

mutual

/-- The instants that a test compares with. -/
def Test.instants : Test → List Instant
  | .dateRange first last => first.toList ++ last.toList
  | .clause filters => Test.instantsIn filters
  | _ => []

/-- The instants that filters compare with. -/
def Test.instantsIn : List (String × Joined Test) → List Instant
  | [] => []
  | (_, ⟨_, test⟩) :: rest => test.instants ++ Test.instantsIn rest

end

mutual

/-- No clause in a test has two filters of one field. -/
def Test.Distinct : Test → Prop
  | .clause filters => Test.DistinctIn filters
  | _ => True

/-- No field has two filters, nor in one of the clauses. -/
def Test.DistinctIn : List (String × Joined Test) → Prop
  | [] => True
  | (field, ⟨_, test⟩) :: rest => field ∉ Filters.names rest ∧ test.Distinct ∧ Test.DistinctIn rest

end

namespace Test

theorem mem_instantsIn {i : Instant} : ∀ {fs : Filters},
    i ∈ instantsIn fs ↔ ∃ e ∈ fs, i ∈ e.2.item.instants
  | [] => by simp [instantsIn]
  | (field, ⟨condition, test⟩) :: fs => by
    simp [instantsIn, mem_instantsIn]

theorem distinctIn_iff : ∀ {fs : Filters},
    DistinctIn fs ↔ fs.names.Nodup ∧ ∀ e ∈ fs, e.2.item.Distinct
  | [] => by simp [DistinctIn, Filters.names]
  | (field, ⟨condition, test⟩) :: fs => by
    simp only [DistinctIn, distinctIn_iff, Filters.names, List.map_cons, List.nodup_cons,
      List.forall_mem_cons]
    tauto

theorem toFields_eq : ∀ {fs : Filters}, toFields fs = fs.map fun e => (e.1, e.2.toData)
  | [] => rfl
  | (field, ⟨condition, test⟩) :: fs => by
    rw [toFields, toFields_eq]
    rfl

end Test

theorem Condition.named?_name (c : Condition) : named? c.name = some c := by
  cases c <;> decide

theorem Condition.ofData?_text (form : Form) (c : Condition) : ofData? form (.text c.name) = some c :=
  c.named?_name

theorem Instant.toOption?_toData? {o : Option Instant} (h : ∀ i ∈ o, i.Proper) :
    (Instant.toData? o).toOption? Data.toInstant? = some o := by
  cases o with
  | none => rfl
  | some i =>
    show ((Data.text i.toText).toInstant?).map some = _
    rw [Data.toInstant?_text (h i rfl)]
    rfl

namespace Filter

/-- The name and the members that are written of a filter are found in it. -/
theorem split?_toData (inClause : Bool) (f : Filter) : split? inClause f.toData =
    some (f.item.toMembers.1,
      .record (f.item.toMembers.2 ++ [("condition", .text f.condition.name)])) := by
  obtain ⟨condition, test⟩ := f
  cases test <;> simp [split?, toData, Test.toMembers, Test.kind?, Test.kinds,
    List.partition_eq_filter_filter]

/-- **The members of a filter are read as the filter**, if those of a clause in it are. -/
theorem ofKind?_members {clause : Data → Option Filters} {f : Filter}
    (hinstants : ∀ i ∈ f.item.instants, i.Proper)
    (hclause : ∀ fs, f.item = .clause fs → clause (Filters.toData fs) = some fs) :
    ofKind? clause f.item.toMembers.1
      (.record (f.item.toMembers.2 ++ [("condition", .text f.condition.name)])) = some f := by
  obtain ⟨condition, test⟩ := f
  have hor : ∀ inner : Condition, Condition.ofData? .buffered (.text inner.name) = some inner :=
    Condition.ofData?_text _
  cases test with
  | dateRange first last =>
    simp only [Test.instants, List.mem_append, Option.mem_toList] at hinstants
    have hfirst := Instant.toOption?_toData? fun i hi => hinstants i (.inl hi)
    have hlast := Instant.toOption?_toData? fun i hi => hinstants i (.inr hi)
    simp [ofKind?, Test.toMembers, Data.toMembers?_record, hor, hfirst, hlast]
  | clause fs =>
    have hfs := hclause fs rfl
    rw [Filters.toData] at hfs
    simp [ofKind?, Test.toMembers, Data.toMembers?_record, hor, hfs]
  | _ => simp [ofKind?, Test.toMembers, Data.toMembers?_record, hor, Data.toBool?]

end Filter

/-- A filter of a clause, of which `depth` levels may follow. -/
def Filter.inClause? (depth : Nat) (d : Data) : Option Filter := do
  let (kind, rest) ← Filter.split? true d
  Filter.ofKind? (Filters.ofClause? depth) kind rest

namespace Filters

/-- Reads the filters of fields one after the other. -/
def collect? (read : Data → Option Filter) (members : List (String × Data)) : Option Filters :=
  (members.mapM fun m => (read m.2).map fun f => (m.1, f)).map ofList

theorem ofClause?_record {depth : Nat} {members : List (String × Data)} :
    ofClause? (depth + 1) (.record members) = collect? (Filter.inClause? depth) members := by
  simp only [ofClause?, collect?, Filter.inClause?, Option.bind_eq_bind, Option.map_eq_bind,
    Option.bind_assoc]
  rfl

theorem ofData?_record {depth : Nat} {members : List (String × Data)} :
    ofData? depth (.record members) = collect? (Filter.ofData? (depth - 1)) members := by
  simp only [ofData?, collect?, Option.bind_eq_bind, Option.map_eq_bind]
  rfl

theorem collect?_toFields {read : Data → Option Filter} {fs : Filters} (hdistinct : fs.names.Nodup)
    (h : ∀ e ∈ fs, read e.2.toData = some e.2) : collect? read (Test.toFields fs) = some fs := by
  have hread : (Test.toFields fs).mapM (fun m => (read m.2).map fun f => (m.1, f)) = some fs := by
    rw [Test.toFields_eq]
    refine Data.mapM_map fun e he => ?_
    rw [h e he, Option.map_some]
  rw [collect?, hread, Option.map_some, ofList_of_distinct hdistinct]

/-- Every filter that is collected was read. -/
theorem of_collect? {read : Data → Option Filter} {members : List (String × Data)} {fs : Filters}
    (h : collect? read members = some fs) :
    fs.names.Nodup ∧ ∀ e ∈ fs, ∃ m ∈ members, read m.2 = some e.2 := by
  obtain ⟨entries, hentries, rfl⟩ := Option.map_eq_some_iff.mp h
  have hread : ∀ e ∈ entries, ∃ m ∈ members, read m.2 = some e.2 := by
    clear h
    induction members generalizing entries with
    | nil =>
      obtain rfl := Option.some.inj hentries
      simp
    | cons m members ih =>
      simp only [List.mapM_cons, Option.bind_eq_bind, Option.bind_eq_some_iff,
        Option.map_eq_some_iff] at hentries
      obtain ⟨_, ⟨f, hf, rfl⟩, rest, hrest, hentries⟩ := hentries
      obtain rfl := Option.some.inj hentries
      refine List.forall_mem_cons.mpr ⟨⟨m, List.mem_cons_self, hf⟩, fun e he => ?_⟩
      obtain ⟨m', hm', hread⟩ := ih rest hrest e he
      exact ⟨m', List.mem_cons_of_mem _ hm', hread⟩
  obtain ⟨hnodup, hmem⟩ := ofList_spec entries
  exact ⟨hnodup, fun e he => hread e (hmem e he)⟩

end Filters

theorem Filter.soundWithin_toData {depth : Nat} {f : Filter} :
    f.toData.soundWithin depth = true ↔
      0 < depth ∧ ∀ m ∈ f.item.toMembers.2, m.2.soundWithin (depth - 1) = true := by
  simp [toData, or_imp, forall_and]

theorem Filters.soundWithin_toData {depth : Nat} {fs : Filters} :
    (Filters.toData fs).soundWithin depth = true ↔
      0 < depth ∧ ∀ e ∈ fs, e.2.toData.soundWithin (depth - 1) = true := by
  rw [Filters.toData, Data.soundWithin_record, Test.toFields_eq, List.forall_mem_map]

/-- **The filters of a clause are read as they were written**, however deep they nest. -/
theorem Filters.ofClause?_toData {depth n : Nat} {fs : Filters} (hle : n ≤ depth)
    (hsound : (Filters.toData fs).soundWithin n = true) (hdistinct : Test.DistinctIn fs)
    (hinstants : ∀ i ∈ Test.instantsIn fs, i.Proper) :
    ofClause? depth (Filters.toData fs) = some fs := by
  induction depth generalizing n fs with
  | zero =>
    have hpos := (Filters.soundWithin_toData.mp hsound).1
    omega
  | succ depth ih =>
    obtain ⟨hpos, hfilters⟩ := Filters.soundWithin_toData.mp hsound
    obtain ⟨hnodup, htests⟩ := Test.distinctIn_iff.mp hdistinct
    rw [Filters.toData, ofClause?_record]
    refine collect?_toFields hnodup fun e he => ?_
    have hproper : ∀ i ∈ e.2.item.instants, i.Proper := fun i hi =>
      hinstants i (Test.mem_instantsIn.mpr ⟨e, he, hi⟩)
    rw [Filter.inClause?, Filter.split?_toData]
    refine Filter.ofKind?_members hproper fun gs hgs => ?_
    have htest := htests e he
    rw [hgs] at hproper htest
    have hsound := (Filter.soundWithin_toData.mp (hfilters e he)).2
    rw [hgs] at hsound
    exact ih (n := n - 1 - 1) (by omega) (hsound ("filters", _) (by simp [Test.toMembers]))
      htest hproper

/-- **A filter is read as it was written.** -/
theorem Filter.ofData?_toData {depth : Nat} {f : Filter} (hsound : f.toData.soundWithin depth = true)
    (hdistinct : f.item.Distinct) (hinstants : ∀ i ∈ f.item.instants, i.Proper) :
    ofData? depth f.toData = some f := by
  rw [ofData?, if_pos hsound, split?_toData]
  refine ofKind?_members hinstants fun fs hfs => ?_
  have hmembers := (soundWithin_toData.mp hsound).2
  rw [hfs] at hmembers hdistinct hinstants
  exact Filters.ofClause?_toData (Nat.sub_le depth 1)
    (hmembers ("filters", _) (by simp [Test.toMembers])) hdistinct hinstants

theorem Filters.ofData?_toData {depth : Nat} {fs : Filters}
    (hsound : (Filters.toData fs).soundWithin depth = true) (hdistinct : Test.DistinctIn fs)
    (hinstants : ∀ i ∈ Test.instantsIn fs, i.Proper) :
    ofData? depth (Filters.toData fs) = some fs := by
  obtain ⟨hnodup, htests⟩ := Test.distinctIn_iff.mp hdistinct
  rw [Filters.toData, ofData?_record]
  refine collect?_toFields hnodup fun e he => ?_
  exact Filter.ofData?_toData ((Filters.soundWithin_toData.mp hsound).2 e he) (htests e he)
    fun i hi => hinstants i (Test.mem_instantsIn.mpr ⟨e, he, hi⟩)

/-! ### What is read -/

theorem Data.pos_of_toList? {α : Type} {read : Data → Option α} {d : Data} {xs : List α} {depth : Nat}
    (h : d.toList? read = some xs) (hd : d.soundWithin depth = true) : 0 < depth := by
  cases d with
  | list items => exact (soundWithin_list.mp hd).1
  | _ => cases h

/-- A value that may be left out is the default, or was read. -/
theorem Members.of_defaulted {α : Type} {ms : Members} {name : String} {value a : α}
    {read : Data → Option α} (h : ms.defaulted name value read = some a) :
    a = value ∨ ∃ d, read d = some a := by
  unfold defaulted at h
  split at h
  · exact .inr ⟨_, h⟩
  · exact .inl (Option.some.inj h).symm

theorem Data.bounds_of_toInt? {low high n : Int} {d : Data} (h : d.toInt? low high = some n) :
    low ≤ n ∧ n ≤ high := by
  cases d with
  | int m =>
    simp only [toInt?] at h
    split_ifs at h with hm
    exact Option.some.inj h ▸ hm
  | _ => cases h

/-- An instant that may be missing was read, if there is one. -/
theorem Members.read_of_optional {ms : Members} {name : String} {o : Option Instant}
    (h : ms.optional name Data.toInstant? = some o) : ∀ i ∈ o, ∃ s, Instant.read s = some i := by
  intro i hi
  obtain rfl := Option.mem_def.mp hi
  unfold optional at h
  split at h
  · rename_i d _
    cases d <;> simp [Data.toOption?, Data.toInstant?, Data.toText?] at h
    exact ⟨_, h⟩
  · cases h

/-- What a reader gave of a filter nests no deeper than what it read. No field has two filters in it,
and its instants were read. -/
structure Filter.Kept (depth : Nat) (f : Filter) : Prop where
  sound : f.toData.soundWithin depth = true
  distinct : f.item.Distinct
  instants : ∀ i ∈ f.item.instants, ∃ s, Instant.read s = some i

/-- The same for filters. -/
structure Filters.Kept (depth : Nat) (fs : Filters) : Prop where
  sound : (Filters.toData fs).soundWithin depth = true
  distinct : Test.DistinctIn fs
  instants : ∀ i ∈ Test.instantsIn fs, ∃ s, Instant.read s = some i

namespace Filters

theorem kept_of_forall {depth : Nat} {fs : Filters} (hpos : 0 < depth) (hnodup : fs.names.Nodup)
    (h : ∀ e ∈ fs, e.2.Kept (depth - 1)) : Kept depth fs where
  sound := soundWithin_toData.mpr ⟨hpos, fun e he => (h e he).sound⟩
  distinct := Test.distinctIn_iff.mpr ⟨hnodup, fun e he => (h e he).distinct⟩
  instants i hi := by
    obtain ⟨e, he, hi⟩ := Test.mem_instantsIn.mp hi
    exact (h e he).instants i hi

end Filters

namespace Filter

/-- The rest of a filter nests no deeper than the filter. -/
theorem soundWithin_split? {inClause : Bool} {d rest : Data} {kind : String} {depth : Nat}
    (hd : d.soundWithin depth = true) (h : split? inClause d = some (kind, rest)) :
    rest.soundWithin depth = true := by
  unfold split? at h
  split at h
  · rename_i members
    obtain ⟨hpos, hmembers⟩ := Data.soundWithin_record.mp hd
    split at h
    · rename_i others hothers
      obtain ⟨_, _, h⟩ := Option.map_eq_some_iff.mp h
      obtain ⟨-, rfl⟩ := Prod.mk.inj h
      refine Data.soundWithin_record.mpr ⟨hpos, fun m hm => hmembers m ?_⟩
      rw [List.partition_eq_filter_filter] at hothers
      rw [← (Prod.mk.inj hothers).2] at hm
      exact List.mem_of_mem_filter hm
    · cases h
  · obtain ⟨hpos, hitems⟩ := Data.soundWithin_list.mp hd
    obtain ⟨_, _, h⟩ := Option.map_eq_some_iff.mp h
    obtain ⟨-, rfl⟩ := Prod.mk.inj h
    exact Data.soundWithin_list.mpr ⟨hpos, fun d hd => hitems d (List.mem_cons_of_mem _ hd)⟩
  · cases h

/-- A filter that was read is kept, if those of a clause in it are. -/
theorem ofKind?_kept {clause : Data → Option Filters} {kind : String} {d : Data} {depth : Nat}
    {f : Filter} (hd : d.soundWithin depth = true)
    (hclause : ∀ value fs, value.soundWithin (depth - 1) = true → clause value = some fs →
      Filters.Kept (depth - 1) fs)
    (h : ofKind? clause kind d = some f) : f.Kept depth := by
  unfold ofKind? at h
  simp only [Option.bind_eq_bind] at h
  split at h <;> try simp only [Option.bind_eq_some_iff] at h
  case h_1 | h_2 =>
    obtain ⟨ms, hms, condition, -, h⟩ := h
    obtain rfl := Option.some.inj h
    have hpos := (Data.soundWithin_toMembers? hd hms).1
    exact ⟨by simp [soundWithin_toData, Test.toMembers, hpos], trivial, by simp [Test.instants]⟩
  case h_3 | h_6 =>
    obtain ⟨ms, hms, condition, -, value, -, h⟩ := h
    obtain rfl := Option.some.inj h
    have hpos := (Data.soundWithin_toMembers? hd hms).1
    exact ⟨by simp [soundWithin_toData, Test.toMembers, hpos], trivial, by simp [Test.instants]⟩
  case h_4 | h_5 =>
    obtain ⟨ms, hms, condition, -, texts, htexts, inner, -, h⟩ := h
    obtain rfl := Option.some.inj h
    obtain ⟨hpos, hvalues⟩ := Data.soundWithin_toMembers? hd hms
    obtain ⟨value, hvalue, htexts⟩ := Option.bind_eq_some_iff.mp htexts
    have hlist := Data.pos_of_toList? htexts (hvalues _ _ hvalue)
    exact ⟨by simp [soundWithin_toData, Test.toMembers, hpos, hlist], trivial, by simp [Test.instants]⟩
  case h_7 =>
    obtain ⟨ms, hms, first, hfirst, last, hlast, condition, -, h⟩ := h
    obtain rfl := Option.some.inj h
    have hpos := (Data.soundWithin_toMembers? hd hms).1
    have hwritten : ∀ (o : Option Instant) n, (Instant.toData? o).soundWithin n = true := by
      rintro (_ | i) n <;> rfl
    refine ⟨by simp [soundWithin_toData, Test.toMembers, hpos, hwritten], trivial, fun i hi => ?_⟩
    simp only [Test.instants, List.mem_append, Option.mem_toList] at hi
    exact hi.elim (Members.read_of_optional hfirst i) (Members.read_of_optional hlast i)
  case h_8 =>
    obtain ⟨ms, hms, condition, -, fs, hfs, h⟩ := h
    obtain rfl := Option.some.inj h
    obtain ⟨hpos, hvalues⟩ := Data.soundWithin_toMembers? hd hms
    obtain ⟨value, hvalue, hfs⟩ := Option.bind_eq_some_iff.mp hfs
    have hkept := hclause value fs (hvalues _ _ hvalue) hfs
    have hsound := hkept.sound
    rw [Filters.toData] at hsound
    exact ⟨by simp [soundWithin_toData, Test.toMembers, hpos, hsound], hkept.distinct, hkept.instants⟩
  case h_9 => cases h

end Filter

/-- **The filters of a clause that were read are kept.** -/
theorem Filters.ofClause?_kept {depth n : Nat} {d : Data} {fs : Filters}
    (hd : d.soundWithin n = true) (h : ofClause? depth d = some fs) : Kept n fs := by
  induction depth generalizing n d fs with
  | zero => cases h
  | succ depth ih =>
    cases d with
    | record members =>
      rw [ofClause?_record] at h
      obtain ⟨hnodup, hread⟩ := of_collect? h
      obtain ⟨hpos, hmembers⟩ := Data.soundWithin_record.mp hd
      refine kept_of_forall hpos hnodup fun e he => ?_
      obtain ⟨m, hm, hfilter⟩ := hread e he
      obtain ⟨⟨kind, rest⟩, hsplit, hkind⟩ := Option.bind_eq_some_iff.mp hfilter
      exact Filter.ofKind?_kept (Filter.soundWithin_split? (hmembers m hm) hsplit)
        (fun _ _ => ih) hkind
    | _ => cases h

theorem Filter.ofData?_kept {depth : Nat} {d : Data} {f : Filter} (h : ofData? depth d = some f) :
    f.Kept depth := by
  unfold ofData? at h
  split_ifs at h with hd
  obtain ⟨⟨kind, rest⟩, hsplit, hkind⟩ := Option.bind_eq_some_iff.mp h
  exact ofKind?_kept (soundWithin_split? hd hsplit) (fun _ _ => Filters.ofClause?_kept) hkind

theorem Filters.ofData?_kept {depth : Nat} {d : Data} {fs : Filters} (hpos : 0 < depth)
    (h : ofData? depth d = some fs) : Kept depth fs := by
  cases d with
  | record members =>
    rw [ofData?_record] at h
    obtain ⟨hnodup, hread⟩ := of_collect? h
    refine kept_of_forall hpos hnodup fun e he => ?_
    obtain ⟨m, -, hfilter⟩ := hread e he
    exact Filter.ofData?_kept hfilter
  | _ => cases h

/-! ### Visibility -/

namespace ChangeSet

/-- A set is the set of its members. -/
theorem ofList_toList (s : ChangeSet) : ofList s.toList = s := by
  obtain ⟨contains⟩ := s
  refine congrArg mk (funext fun t => ?_)
  rw [Bool.eq_iff_iff, List.contains_iff_mem, toList, List.mem_filter]
  have hall : t ∈ ChangeType.all := by cases t <;> decide
  simp [hall]

theorem ofData?_toData (s : ChangeSet) : ofData? s.toData = some s := by
  have hnames : (s.toList.map fun t => Data.text t.name).mapM
      (Data.toName? .written ChangeType.named?) = some s.toList :=
    Data.mapM_map fun t _ => t.named?_name
  rw [ofData?, toData, Data.ofTexts, List.map_map]
  exact (congrArg (Option.map ofList) hnames).trans (congrArg some (ofList_toList s))

end ChangeSet

/-- **An activity is read as it was written**, with all its change types. -/
theorem Activity.ofData?_toData {depth : Nat} (hdepth : 2 ≤ depth) (a : Activity) :
    ofData? depth a.toData = some a := by
  have hsound : a.toData.soundWithin depth = true := by
    simp only [toData, ChangeSet.toData, Data.soundWithin_record, List.forall_mem_cons,
      Data.soundWithin_ofTexts, Data.soundWithin_text]
    exact ⟨by omega, by omega, trivial, fun m hm => by cases hm⟩
  unfold ofData?
  rw [if_pos hsound]
  unfold toData
  simp [Data.toMembers?_record, ChangeSet.ofData?_toData, Condition.ofData?_text]

theorem SortOrder.named?_name (o : SortOrder) : named? o.name = some o := by
  cases o <;> decide

/-! ### Criteria -/

mutual

theorem Test.notes_toMembers : ∀ test : Test, ∀ m ∈ test.toMembers.2, m.2.Notes
  | .empty | .notEmpty => by simp [Test.toMembers]
  | .boolean _ | .enumSet _ _ | .stringSet _ _ | .stringEq _ => by simp [Test.toMembers]
  | .dateRange first last => by
    have hdate : ∀ o : Option Instant, (Instant.toData? o).Notes := by
      rintro (_ | i) <;> trivial
    simp [Test.toMembers, hdate]
  | .clause filters => by
    simpa [Test.toMembers] using Test.notes_toFields filters

theorem Test.notes_toFields : ∀ fs : List (String × Joined Test), ∀ m ∈ Test.toFields fs, m.2.Notes
  | [] => by simp [Test.toFields]
  | (field, ⟨condition, test⟩) :: fs => by
    have htest := Test.notes_toMembers test
    have hrest := Test.notes_toFields fs
    rw [Test.toFields]
    refine List.forall_mem_cons.mpr ⟨?_, hrest⟩
    rw [Data.notes_record, List.cons_append, List.forall_mem_cons, List.forall_mem_append]
    exact ⟨trivial, htest, by simp⟩

end

namespace Criteria

variable {c : Criteria}

/-- The instants that a request compares with. -/
def instants (c : Criteria) : List Instant :=
  Test.instantsIn c.filters

/-- The numbers of a request are those of a machine, and no field has two filters. -/
structure Plain (c : Criteria) : Prop where
  offset : c.offset ≤ Number.maxNat64
  count : Number.minInt32 ≤ c.count ∧ c.count ≤ Number.maxInt32
  distinct : Test.DistinctIn c.filters

theorem soundWithin_toData : c.toData.soundWithin maxDepth = true ↔
    (Filters.toData c.filters).soundWithin (maxDepth - 1) = true := by
  have hdepth : maxDepth = 127 := rfl
  simp [toData, Activity.toData, ChangeSet.toData, hdepth]

theorem ofData?_toData (hplain : c.Plain) (hinstants : ∀ i ∈ c.instants, i.Proper)
    (hsound : c.toData.soundWithin maxDepth = true) : ofData? c.toData = some c := by
  have hfilters := Filters.ofData?_toData (soundWithin_toData.mp hsound) hplain.distinct hinstants
  have hactivity := Activity.ofData?_toData (by decide : 2 ≤ maxDepth - 1) c.activity
  have hoffset : (Data.int c.offset).toNat64? = some c.offset := by
    have hle := hplain.offset
    rw [Data.toNat64?, Data.toInt?, if_pos (by omega)]
    rfl
  have hcount := Data.toInt32?_int hplain.count.1 hplain.count.2
  unfold ofData? toData
  rw [Data.toMembers?_record (by simp [memberNames]) (by simp)]
  simp [Data.toName?_text, SortOrder.named?_name, Condition.ofData?_text, hfilters, hactivity,
    hoffset, hcount]

theorem notes_toData (hplain : c.Plain) : c.toData.Notes := by
  have hoffset : Json.fits c.offset = true := Json.fits_nat64 hplain.offset
  have hcount : Json.fits c.count = true := Json.fits_int32 hplain.count.1 hplain.count.2
  have hfilters := Test.notes_toFields c.filters
  simpa [toData, hoffset, hcount, Filters.toData, Activity.toData, ChangeSet.toData] using hfilters

/-- Criteria that can be read are written as a text that gives them back. -/
theorem ofJson?_toJson_of_plain (hplain : c.Plain) (hinstants : ∀ i ∈ c.instants, i.Proper)
    (hsound : c.toData.soundWithin maxDepth = true) : ofJson? c.toJson = some c := by
  rw [ofJson?, toJson, Data.ofJson?_toJson (notes_toData hplain), Option.bind_some]
  exact ofData?_toData hplain hinstants hsound

/-- **Criteria that were read are plain**, nest no deeper than what can be read, and compare with
instants that were read. -/
theorem plain_of_ofData? {d : Data} (h : ofData? d = some c) : c.Plain ∧
    c.toData.soundWithin maxDepth = true ∧ ∀ i ∈ c.instants, ∃ s, Instant.read s = some i := by
  simp only [ofData?, Option.bind_eq_bind, Option.bind_eq_some_iff] at h
  obtain ⟨ms, -, sortKey, -, sortOrder, -, offset, hoffset, count, hcount, search, -,
    searchCondition, -, filters, hfilters, activity, -, h⟩ := h
  obtain rfl := Option.some.inj h
  have hkept : Filters.Kept (maxDepth - 1) filters := by
    obtain rfl | ⟨d, hd⟩ := Members.of_defaulted hfilters
    · exact Filters.kept_of_forall (by decide) (by simp [Filters.names]) (by simp)
    · exact Filters.ofData?_kept (by decide) hd
  have hoffset : offset ≤ Number.maxNat64 := by
    obtain rfl | ⟨d, hd⟩ := Members.of_defaulted hoffset
    · exact Nat.zero_le _
    · obtain ⟨n, hn, rfl⟩ := Option.map_eq_some_iff.mp hd
      exact Int.toNat_le.mpr (Data.bounds_of_toInt? hn).2
  have hcount : Number.minInt32 ≤ count ∧ count ≤ Number.maxInt32 := by
    obtain rfl | ⟨d, hd⟩ := Members.of_defaulted hcount
    · decide
    · exact Data.bounds_of_toInt? hd
  exact ⟨⟨hoffset, hcount, hkept.distinct⟩, soundWithin_toData.mpr hkept.sound, hkept.instants⟩

end Criteria

/-! ### What is put together by hand -/

mutual

/-- The filters that are made one from the other, each of a test that has to hold at first. -/
inductive Filter.Built : Filter → Prop
  | empty : Filter.Built Test.empty.required
  | notEmpty : Filter.Built Test.notEmpty.required
  | boolean (value : Bool) : Filter.Built (Test.boolean value).required
  | enumSet (values : List String) : Filter.Built (Test.enumSet values .or).required
  | stringSet (values : List String) : Filter.Built (Test.stringSet values .or).required
  | stringEq (value : String) : Filter.Built (Test.stringEq value).required
  | dateRange {first last : Option Instant} (hfirst : ∀ i ∈ first, i.Proper)
    (hlast : ∀ i ∈ last, i.Proper) : Filter.Built (Test.dateRange first last).required
  | clause {fs : Filters} (h : Filters.Built fs) : Filter.Built (Test.clause fs).required
  | withCondition {f : Filter} (h : Filter.Built f) (condition : Condition) :
    Filter.Built ⟨condition, f.item⟩
  | withInner {f : Filter} (h : Filter.Built f) (inner : Condition) :
    Filter.Built ⟨f.condition, f.item.withInner inner⟩

/-- The filters that are made by setting and removing those of a field. -/
inductive Filters.Built : Filters → Prop
  | none : Filters.Built []
  | insert {fs : Filters} {f : Filter} (h : Filters.Built fs) (field : String)
    (hfilter : Filter.Built f) : Filters.Built (Filters.insert field f fs)
  | erase {fs : Filters} (h : Filters.Built fs) (field : String) :
    Filters.Built (Filters.erase field fs)

end

/-- The requests that are made one from the other, with the numbers of a machine. -/
inductive Criteria.Built : Criteria → Prop
  | default : Criteria.Built {}
  | unbounded : Criteria.Built Criteria.unbounded
  | filter {c : Criteria} {f : Filter} (h : c.Built) (field : String) (hfilter : f.Built) :
    (c.filter field f).Built
  | sort {c : Criteria} (h : c.Built) (field : String) (order : SortOrder) :
    (c.sort field order).Built
  | page {c : Criteria} {offset : Nat} {count : Int} (h : c.Built)
    (hoffset : offset ≤ Number.maxNat64) (hlow : Number.minInt32 ≤ count)
    (hhigh : count ≤ Number.maxInt32) : (c.page offset count).Built
  | search {c : Criteria} (h : c.Built) (text : String) : Criteria.Built { c with search := some text }
  | searchCondition {c : Criteria} (h : c.Built) (condition : Condition) :
    Criteria.Built { c with searchCondition := condition }
  | activity {c : Criteria} (h : c.Built) (activity : Activity) : Criteria.Built { c with activity }

namespace Test

/-- Another condition between its values changes nothing else of a test. -/
theorem withInner_same (inner : Condition) (test : Test) :
    ((test.withInner inner).Distinct ↔ test.Distinct) ∧
      (test.withInner inner).instants = test.instants := by
  cases test <;> exact ⟨.rfl, rfl⟩

end Test

theorem Filters.plain_iff {fs : Filters} :
    (Test.DistinctIn fs ∧ ∀ i ∈ Test.instantsIn fs, i.Proper) ↔
      fs.names.Nodup ∧ ∀ e ∈ fs, e.2.item.Distinct ∧ ∀ i ∈ e.2.item.instants, i.Proper := by
  simp only [Test.distinctIn_iff, Test.mem_instantsIn]
  constructor
  · rintro ⟨⟨hnodup, hdistinct⟩, hinstants⟩
    exact ⟨hnodup, fun e he => ⟨hdistinct e he, fun i hi => hinstants i ⟨e, he, hi⟩⟩⟩
  · rintro ⟨hnodup, h⟩
    exact ⟨⟨hnodup, fun e he => (h e he).1⟩, fun i ⟨e, he, hi⟩ => (h e he).2 i hi⟩

theorem Filters.plain_insert {fs : Filters} {f : Filter} (field : String)
    (hfs : Test.DistinctIn fs ∧ ∀ i ∈ Test.instantsIn fs, i.Proper)
    (hf : f.item.Distinct ∧ ∀ i ∈ f.item.instants, i.Proper) :
    Test.DistinctIn (fs.insert field f) ∧ ∀ i ∈ Test.instantsIn (fs.insert field f), i.Proper := by
  obtain ⟨hnodup, hfs⟩ := plain_iff.mp hfs
  refine plain_iff.mpr ⟨nodup_insert hnodup, fun e he => ?_⟩
  obtain rfl | he := mem_insert he
  · exact hf
  · exact hfs e he

mutual

theorem Filter.Built.plain : ∀ {f : Filter}, f.Built →
    f.item.Distinct ∧ ∀ i ∈ f.item.instants, i.Proper
  | _, .empty | _, .notEmpty | _, .boolean _ | _, .enumSet _ | _, .stringSet _ | _, .stringEq _ =>
    ⟨trivial, by simp [Test.required, Test.instants]⟩
  | _, .dateRange hfirst hlast => ⟨trivial, fun i hi => by
    simp only [Test.required, Test.instants, List.mem_append, Option.mem_toList] at hi
    exact hi.elim (hfirst i) (hlast i)⟩
  | _, .clause h => Filters.Built.plain h
  | _, .withCondition (f := f) h _ => by
    have hf := Filter.Built.plain h
    exact hf
  | _, .withInner (f := f) h inner => by
    obtain ⟨hdistinct, hinstants⟩ := Test.withInner_same inner f.item
    rw [hdistinct, hinstants]
    exact Filter.Built.plain h

theorem Filters.Built.plain : ∀ {fs : Filters}, Filters.Built fs →
    Test.DistinctIn fs ∧ ∀ i ∈ Test.instantsIn fs, i.Proper
  | _, .none => ⟨trivial, by simp [Test.instantsIn]⟩
  | _, .insert h field hfilter =>
    Filters.plain_insert field (Filters.Built.plain h) (Filter.Built.plain hfilter)
  | _, @Filters.Built.erase fs h field => by
    have hsub := Filters.sublist_erase field fs
    obtain ⟨hnodup, hfs⟩ := Filters.plain_iff.mp (Filters.Built.plain h)
    exact Filters.plain_iff.mpr ⟨hnodup.sublist (hsub.map _), fun e he => hfs e (hsub.subset he)⟩

end

namespace Criteria

variable {c : Criteria}

theorem Built.plain (h : c.Built) : c.Plain ∧ ∀ i ∈ c.instants, i.Proper := by
  induction h with
  | default | unbounded =>
    exact ⟨⟨Nat.zero_le _, by decide, trivial⟩, fun i hi => by cases hi⟩
  | filter h field hfilter ih =>
    obtain ⟨hdistinct, hinstants⟩ :=
      Filters.plain_insert field ⟨ih.1.distinct, ih.2⟩ hfilter.plain
    exact ⟨⟨ih.1.offset, ih.1.count, hdistinct⟩, hinstants⟩
  | page h hoffset hlow hhigh ih => exact ⟨⟨hoffset, ⟨hlow, hhigh⟩, ih.1.distinct⟩, ih.2⟩
  | sort _ _ _ ih | search _ _ ih | searchCondition _ _ ih | activity _ _ ih =>
    exact ⟨⟨ih.1.offset, ih.1.count, ih.1.distinct⟩, ih.2⟩

/-- **Criteria are read as they were written**, filters in order and all: those that were read from
any text, as long as their instants are in years of the calendar, 0 to 9999 among them, and those
that were put together by hand, as long as their text nests no deeper than what can be read. -/
theorem ofJson?_toJson_stable (c : Criteria) :
    ((∃ s, ofJson? s = some c) →
      (∀ i ∈ c.instants, -262143 ≤ (Instant.Date.ofDayNumber i.day).year ∧
        (Instant.Date.ofDayNumber i.day).year ≤ 262142) →
      ofJson? c.toJson = some c) ∧
    (c.Built → c.toData.soundWithin maxDepth = true → ofJson? c.toJson = some c) := by
  constructor
  · rintro ⟨s, hs⟩ hyears
    obtain ⟨d, -, hd⟩ := Option.bind_eq_some_iff.mp hs
    obtain ⟨hplain, hsound, hread⟩ := plain_of_ofData? hd
    refine ofJson?_toJson_of_plain hplain (fun i hi => ?_) hsound
    obtain ⟨text, htext⟩ := hread i hi
    exact Instant.proper_of_read htext (hyears i hi)
  · intro hbuilt hsound
    obtain ⟨hplain, hinstants⟩ := hbuilt.plain
    exact ofJson?_toJson_of_plain hplain hinstants hsound

/-- A request with lists in place of records, one of them with a number for its name, and one field
twice. -/
def phrased : String :=
  "\x7b\"filters\":\x7b\"a\":[\"Empty\"],\"b\":[\"Clause\",\x7b\"d\":[6,null," ++
    "\"2016-12-31 23:59:60Z\"]\x7d],\"a\":[\"Empty\"]\x7d\x7d"

/-- A request for a page of what has no value in one field and is not of two others, of a day. -/
def handmade : Criteria :=
  let day : Option Instant := some ⟨17166, 86399, 1500000000⟩
  let inner := Filters.insert "d" (Test.dateRange none day).required []
  (unbounded.filter "a" Test.empty.required |>.filter "b" ⟨.not, .clause inner⟩).page 20 10

theorem ofJson?_toJson_phrased :
    (∃ c, ofJson? phrased = some c ∧ c.filters.names = ["a", "b"] ∧ ofJson? c.toJson = some c) ∧
      ofJson? handmade.toJson = some handmade := by
  constructor
  · have hread : (ofJson? phrased).map (fun c => (c.filters.names, c.instants)) =
        some (["a", "b"], [⟨17166, 86399, 1000000000⟩]) := by decide +kernel
    obtain ⟨c, hc, heq⟩ := Option.map_eq_some_iff.mp hread
    obtain ⟨hnames, hinstants⟩ := Prod.mk.inj heq
    refine ⟨c, hc, hnames, (ofJson?_toJson_stable c).1 ⟨_, hc⟩ ?_⟩
    rw [hinstants]
    decide
  · have hday : (⟨17166, 86399, 1500000000⟩ : Instant).Proper :=
      ⟨by decide, .inr (by decide), by decide⟩
    have hrange : Filter.Built (Test.dateRange none (some ⟨17166, 86399, 1500000000⟩)).required :=
      .dateRange (by simp) (by simpa using hday)
    have hclause : Filter.Built ⟨.not, .clause (Filters.insert "d" (Test.dateRange none
        (some ⟨17166, 86399, 1500000000⟩)).required [])⟩ :=
      .withCondition (.clause (.insert .none "d" hrange)) .not
    have hbuilt : handmade.Built :=
      .page (.filter (.filter .unbounded "a" .empty) "b" hclause) (by decide) (by decide) (by decide)
    exact (ofJson?_toJson_stable handmade).2 hbuilt (by decide +kernel)

end Criteria

end Codebook
